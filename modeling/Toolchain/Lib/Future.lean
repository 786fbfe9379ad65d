import Mathlib.Data.List.Forall2

/-!
# Future — asynchronous computations over a shared state

A future runs in steps on a state that others change too; a future that is dropped takes no further
step.  `interleave` runs two futures at once.  `Meets` is rely and guarantee: a `Contract` is an
invariant and a preorder along which the state grows, and a future meets a postcondition if its steps
keep the contract and the result satisfies it, whatever steps that keep the contract come in between.
-/

namespace Toolchain.Lib

open List Function

/-- A computation over a shared state.  `hang` is one that is never ready. -/
inductive Future (σ α : Type) : Type
  | ready (value : α)
  | step (effect : σ → σ) (next : σ → Future σ α)
  | either (left right : Future σ α)
  | hang

structure Lens (σ τ : Type) where
  get : σ → τ
  set : τ → σ → σ
  get_set : ∀ t s, get (set t s) = t

namespace Lens

def fst {σ τ : Type} : Lens (σ × τ) σ where
  get := Prod.fst
  set t s := (t, s.2)
  get_set _ _ := rfl

def snd {σ τ : Type} : Lens (σ × τ) τ where
  get := Prod.snd
  set t s := (s.1, t)
  get_set _ _ := rfl

def member {ι : Type} [DecidableEq ι] {τ : ι → Type} (i : ι) : Lens ((i : ι) → τ i) (τ i) where
  get s := s i
  set t s := update s i t
  get_set _ _ := update_self ..

end Lens

namespace Future

variable {σ τ α β γ ε : Type}

/-! ## Sequential composition -/

def act (access : σ → α × σ) : Future σ α :=
  .step (fun s => (access s).2) (fun s => .ready (access s).1)

def bind : Future σ α → (α → Future σ β) → Future σ β
  | .ready a, k => k a
  | .step effect next, k => .step effect fun s => (next s).bind k
  | .either left right, k => .either (left.bind k) (right.bind k)
  | .hang, _ => .hang

lemma bind_assoc (fut : Future σ α) (k : α → Future σ β) (l : β → Future σ γ) :
    (fut.bind k).bind l = fut.bind fun a => (k a).bind l := by
  induction fut with
  | ready a | hang => rfl
  | step eff next ih => simp only [bind, ih]
  | either left right ihLeft ihRight => simp only [bind, ihLeft, ihRight]

def map (f : α → β) (future : Future σ α) : Future σ β :=
  future.bind fun a => .ready (f a)

/-- Goes on with the value of a computation that succeeded, as Rust's `?` does. -/
def andThen (future : Future σ (Except ε α)) (k : α → Future σ (Except ε β)) :
    Future σ (Except ε β) :=
  future.bind fun
    | .ok a => k a
    | .error e => .ready (.error e)

def zoom (lens : Lens σ τ) : Future τ α → Future σ α
  | .ready a => .ready a
  | .step effect next =>
    .step (fun s => lens.set (effect (lens.get s)) s) fun s => (next (lens.get s)).zoom lens
  | .either left right => .either (left.zoom lens) (right.zoom lens)
  | .hang => .hang

/-! ## Concurrent composition -/

section

variable (onLeft : α → Future σ β → Future σ γ) (onRight : Future σ α → β → Future σ γ)

def interleaveRight (left : Future σ β → Future σ γ) (first : Future σ α) :
    Future σ β → Future σ γ
  | .ready b => .either (left (.ready b)) (onRight first b)
  | .step effect next =>
    .either (left (.step effect next)) (.step effect fun s => interleaveRight left first (next s))
  | .either second other =>
    .either (left (.either second other))
      (.either (interleaveRight left first second) (interleaveRight left first other))
  | .hang => left .hang

/-- Runs two futures in turns until one of them is ready, and goes on from its value with what is
left of the other. -/
def interleave : Future σ α → Future σ β → Future σ γ
  | .ready a => interleaveRight onRight (onLeft a) (.ready a)
  | .step effect next =>
    interleaveRight onRight (fun second => .step effect fun s => interleave (next s) second)
      (.step effect next)
  | .either first other =>
    interleaveRight onRight (fun second => .either (interleave first second) (interleave other second))
      (.either first other)
  | .hang => interleaveRight onRight (fun _ => .hang) .hang

end

def join (first : Future σ α) (second : Future σ β) : Future σ (α × β) :=
  interleave (fun a second => second.map fun b => (a, b)) (fun first b => first.map fun a => (a, b))
    first second

def joinAll : List (Future σ α) → Future σ (List α)
  | [] => .ready []
  | future :: futures => (join future (joinAll futures)).map fun results => results.1 :: results.2

/-- Waits for both futures, or for the first one that fails: the other is then dropped. -/
def tryJoin (first : Future σ (Except ε α)) (second : Future σ (Except ε β)) :
    Future σ (Except ε (α × β)) :=
  interleave (fun result second =>
      match result with
      | .ok a => second.map fun
          | .ok b => .ok (a, b)
          | .error e => .error e
      | .error e => .ready (.error e))
    (fun first result =>
      match result with
      | .ok b => first.map fun
          | .ok a => .ok (a, b)
          | .error e => .error e
      | .error e => .ready (.error e))
    first second

def tryJoinAll : List (Future σ (Except ε α)) → Future σ (Except ε (List α))
  | [] => .ready (.ok [])
  | future :: futures =>
    (tryJoin future (tryJoinAll futures)).map (Except.map fun results => results.1 :: results.2)

/-- A result for which `decide` holds is returned at once and the other futures are dropped; the others
are merged. -/
def race (decide : α → Bool) (merge : α → α → α) (first second : Future σ α) : Future σ α :=
  interleave (fun a second => if decide a then .ready a else second.map fun b =>
      if decide b then b else merge a b)
    (fun first b => if decide b then .ready b else first.map fun a =>
      if decide a then a else merge a b)
    first second

def raceAll (decide : α → Bool) (merge : α → α → α) (none : α) : List (Future σ α) → Future σ α
  | [] => .ready none
  | future :: futures => race decide merge future (raceAll decide merge none futures)

/-! ## Running -/

def poll (choice : Bool) : Future σ α → σ → Future σ α × σ
  | .ready a, s => (.ready a, s)
  | .step effect next, s => (next s, effect s)
  | .either left right, s => (if choice then left else right, s)
  | .hang, s => (.hang, s)

def polls (future : Future σ α) (choices : List Bool) (s : σ) : Future σ α × σ :=
  choices.foldl (fun run choice => run.1.poll choice run.2) (future, s)

/-- Runs a future to its end with nothing in between; the left one takes the turn when no choices are
left. -/
def finish : Future σ α → List Bool → σ → Option α × σ
  | .ready a, _, s => (some a, s)
  | .step effect next, choices, s => (next s).finish choices (effect s)
  | .either left right, choices, s =>
    if choices.headD true then left.finish choices.tail s else right.finish choices.tail s
  | .hang, _, s => (none, s)

end Future

lemma exists_right_of_mem {α β : Type} {R : α → β → Prop} {as : List α} {bs : List β}
    (h : List.Forall₂ R as bs) {a : α} (ha : a ∈ as) : ∃ b ∈ bs, R a b := by
  induction h with
  | nil => cases ha
  | @cons a' b as bs hab _ ih =>
    rcases mem_cons.1 ha with rfl | ha
    · exact ⟨b, (.head _), hab⟩
    · obtain ⟨b', hb', hrel⟩ := ih ha
      exact ⟨b', mem_cons_of_mem b hb', hrel⟩

lemma exists_left_of_mem {α β : Type} {R : α → β → Prop} {as : List α} {bs : List β}
    (h : List.Forall₂ R as bs) {b : β} (hb : b ∈ bs) : ∃ a ∈ as, R a b :=
  exists_right_of_mem h.flip hb

/-! ## Contracts -/

/-- What every step of every future over a state relies on and keeps. -/
structure Contract (σ : Type) where
  inv : σ → Prop
  grows : σ → σ → Prop
  hangs : Prop
  refl : ∀ s, grows s s
  trans : ∀ {s t u}, grows s t → grows t u → grows s u

def Contract.family {ι : Type} {τ : ι → Type} (c : (i : ι) → Contract (τ i)) (hangs : Prop) :
    Contract ((i : ι) → τ i) where
  inv s := ∀ i, (c i).inv (s i)
  grows s t := ∀ i, (c i).grows (s i) (t i)
  hangs := hangs
  refl s i := (c i).refl (s i)
  trans h h' i := (c i).trans (h i) (h' i)

def Contract.prod {σ τ : Type} (c : Contract σ) (d : Contract τ) (hangs : Prop) : Contract (σ × τ) where
  inv s := c.inv s.1 ∧ d.inv s.2
  grows s t := c.grows s.1 t.1 ∧ d.grows s.2 t.2
  hangs := hangs
  refl s := ⟨c.refl s.1, d.refl s.2⟩
  trans h h' := ⟨c.trans h.1 h'.1, d.trans h.2 h'.2⟩

namespace Future

variable {σ τ α β γ ε : Type}

/-- From the state `s` on, every step keeps the contract, and the result satisfies `post`. -/
def Meets (c : Contract σ) (post : α → σ → Prop) : Future σ α → σ → Prop
  | .ready a, s => ∀ t, c.grows s t → c.inv t → post a t
  | .step effect next, s => ∀ t, c.grows s t → c.inv t →
      c.inv (effect t) ∧ c.grows t (effect t) ∧ (next t).Meets c post (effect t)
  | .either left right, s => left.Meets c post s ∧ right.Meets c post s
  | .hang, s => ∀ t, c.grows s t → c.inv t → c.hangs

variable {ι : Type} {is : List ι} {first : Future σ (Except ε α)}

variable {merge : α → α → α}

variable {decide : α → Bool}

variable {k : α → Future σ β}

namespace Meets

variable {c : Contract σ} {post post' : α → σ → Prop} {fut : Future σ α} {s t : σ}

lemma grow (h : fut.Meets c post s) (hgro : c.grows s t) : fut.Meets c post t := by
  induction fut generalizing s t with
  | ready a | step effect next _ => exact fun u hu hinv => h u (c.trans hgro hu) hinv
  | either left right ihLeft ih => exact ⟨ihLeft h.1 hgro, ih h.2 hgro⟩
  | hang => exact fun u hu hinv => h u (c.trans hgro hu) hinv

lemma of_forall (h : ∀ t, c.grows s t → c.inv t → fut.Meets c post t) :
    fut.Meets c post s := by
  induction fut generalizing s with
  | ready a | step effect next _ => exact fun t ht hinv => h t ht hinv t (c.refl t) hinv
  | either left right ihLeft ih =>
    exact ⟨ihLeft fun t ht hinv => (h t ht hinv).1, ih fun t ht hinv => (h t ht hinv).2⟩
  | hang => exact fun t ht hinv => h t ht hinv t (c.refl t) hinv

lemma value {a : α} (h : (ready a).Meets c post s) (hinv : c.inv s) : post a s := h s (c.refl s) hinv

section

variable (h : fut.Meets c post s)

include h

lemma bind {post' : β → σ → Prop}
    (hk : ∀ a t, c.grows s t → c.inv t → (ready a).Meets c post t → (k a).Meets c post' t) :
    (fut.bind k).Meets c post' s := by
  induction fut generalizing s with
  | ready a => exact of_forall fun t ht hinv => hk a t ht hinv (grow h ht)
  | step eff next ih =>
    intro t ht hinv
    obtain ⟨hkee, hgro, hnex⟩ := h t ht hinv
    refine ⟨hkee, hgro, ih t hnex ?_⟩
    intro a u hu
    exact hk a u (c.trans (c.trans ht hgro) hu)
  | either left right ihLeft ihRight => exact ⟨ihLeft h.1 hk, ihRight h.2 hk⟩
  | hang => exact h

lemma map {f : α → β} {post' : β → σ → Prop}
    (hf : ∀ a t, c.grows s t → c.inv t → post a t → post' (f a) t) :
    (fut.map f).Meets c post' s := by
  refine h.bind ?_
  intro a t ht _ hpos u hu hinv
  exact hf a u (c.trans ht hu) hinv (hpos u hu hinv)

lemma mono (hpos : ∀ a t, c.grows s t → c.inv t → post a t → post' a t) : fut.Meets c post' s := by
  induction fut generalizing s with
  | ready a => exact fun t ht hinv => hpos a t ht hinv (h t ht hinv)
  | step eff next ih =>
    intro t ht hinv
    obtain ⟨hkee, hgro, hnex⟩ := h t ht hinv
    refine ⟨hkee, hgro, ih t hnex ?_⟩
    intro a u hu
    exact hpos a u (c.trans (c.trans ht hgro) hu)
  | either left right ihLeft ihRight => exact ⟨ihLeft h.1 hpos, ihRight h.2 hpos⟩
  | hang => exact h

end

lemma act {acc : σ → α × σ} (h : ∀ t, c.grows s t → c.inv t → c.inv (acc t).2 ∧ c.grows t (acc t).2 ∧
    ∀ u, c.grows (acc t).2 u → c.inv u → post (acc t).1 u) :
    (act acc).Meets c post s := h

lemma andThen {fut : Future σ (Except ε α)} {k : α → Future σ (Except ε β)}
    {post : Except ε α → σ → Prop} {post' : Except ε β → σ → Prop} (h : fut.Meets c post s)
    (hok : ∀ a t, c.grows s t → c.inv t → (ready (.ok a)).Meets c post t → (k a).Meets c post' t)
    (herr : ∀ e t, c.grows s t → c.inv t → post (.error e) t → post' (.error e) t) :
    (fut.andThen k).Meets c post' s := by
  refine h.bind ?_
  rintro (e | a) t ht hinv hpos
  · exact fun u hu hinv => herr e u (c.trans ht hu) hinv (hpos u hu hinv)
  · exact hok a t ht hinv hpos

/-! ## Concurrent composition -/

section

variable {onLeft : α → Future σ β → Future σ γ} {onRight : Future σ α → β → Future σ γ}
  {p : α → σ → Prop} {q : β → σ → Prop} {r : γ → σ → Prop}

section

variable {first : Future σ α} {second : Future σ β} (hfir : first.Meets c p s) (hsec : second.Meets c q s)

include hfir hsec

lemma interleaveRight {left : Future σ β → Future σ γ}
    (hlef : ∀ second t, c.grows s t → second.Meets c q t → (left second).Meets c r t)
    (hrig : ∀ b first t, c.grows s t → c.inv t → (ready b).Meets c q t →
    first.Meets c p t → (onRight first b).Meets c r t) :
    (interleaveRight onRight left first second).Meets c r s := by
  induction second generalizing s with
  | ready b =>
    refine ⟨hlef _ s (c.refl s) hsec, of_forall ?_⟩
    intro t ht hinv
    exact hrig b first t ht hinv (grow hsec ht) (grow hfir ht)
  | step eff next ih =>
    refine ⟨hlef _ s (c.refl s) hsec, ?_⟩
    intro t ht hinv
    obtain ⟨hkee, hgro, hnex⟩ := hsec t ht hinv
    have hlat := c.trans ht hgro
    refine ⟨hkee, hgro, ih t (grow hfir hlat) hnex ?_ ?_⟩
    · exact fun second u hu => hlef second u (c.trans hlat hu)
    · exact fun b first u hu => hrig b first u (c.trans hlat hu)
  | either second other ihSecond ihOther =>
    exact ⟨hlef _ s (c.refl s) hsec, ihSecond hfir hsec.1 hlef hrig, ihOther hfir hsec.2 hlef hrig⟩
  | hang => exact hlef _ s (c.refl s) hsec

lemma interleave (hlef : ∀ a second t, c.grows s t → c.inv t → (ready a).Meets c p t →
    second.Meets c q t → (onLeft a second).Meets c r t)
    (hrig : ∀ b first t, c.grows s t → c.inv t → (ready b).Meets c q t →
    first.Meets c p t → (onRight first b).Meets c r t) :
    (interleave onLeft onRight first second).Meets c r s := by
  induction first generalizing s second with
  | ready a =>
    refine interleaveRight hfir hsec ?_ hrig
    intro second t ht hsec
    refine of_forall fun u hu hinv => ?_
    exact hlef a second u (c.trans ht hu) hinv (grow hfir (c.trans ht hu)) (grow hsec hu)
  | step eff next ih =>
    refine interleaveRight hfir hsec ?_ hrig
    intro second t ht hsec u hu hinv
    obtain ⟨hkee, hgro, hnex⟩ := hfir u (c.trans ht hu) hinv
    have hlat := c.trans (c.trans ht hu) hgro
    refine ⟨hkee, hgro, ih u hnex (grow hsec (c.trans hu hgro)) ?_ ?_⟩
    · exact fun a second v hv => hlef a second v (c.trans hlat hv)
    · exact fun b first v hv => hrig b first v (c.trans hlat hv)
  | either first other ihFirst ihOther =>
    refine interleaveRight hfir hsec ?_ hrig
    intro second t ht hsec
    have hleft' := fun a second u hu => hlef a second u (c.trans ht hu)
    have hrig' := fun b first u hu => hrig b first u (c.trans ht hu)
    exact ⟨ihFirst (grow hfir.1 ht) hsec hleft' hrig', ihOther (grow hfir.2 ht) hsec hleft' hrig'⟩
  | hang =>
    refine interleaveRight hfir hsec ?_ hrig
    exact fun _ t ht _ => grow hfir ht

end

end

lemma join {first : Future σ α} {second : Future σ β} {p : α → σ → Prop} {q : β → σ → Prop}
    (hfir : first.Meets c p s) (hsec : second.Meets c q s) :
    (first.join second).Meets c (fun results t => p results.1 t ∧ q results.2 t) s := by
  refine hfir.interleave hsec ?_ ?_
  · intro a second t _ _ ha hsec
    exact hsec.map fun b u hu hinv hb => ⟨ha u hu hinv, hb⟩
  · intro b first t _ _ hb hfir
    exact hfir.map fun a u hu hinv ha => ⟨ha, hb u hu hinv⟩

lemma joinAll {ι : Type} {f : ι → Future σ α} {p : ι → α → σ → Prop} {is : List ι}
    (h : ∀ i ∈ is, (f i).Meets c (p i) s) :
    (joinAll (is.map f)).Meets c (fun results t => List.Forall₂ (fun i a => p i a t) is results) s := by
  induction is with
  | nil => exact fun _ _ _ => .nil
  | cons i is ih =>
    have hhea := h i (.head _)
    have htai := ih fun j hj => h j (mem_cons_of_mem i hj)
    exact (hhea.join htai).map fun _ _ _ _ hres => .cons hres.1 hres.2

lemma tryJoin {second : Future σ (Except ε β)}
    {p : Except ε α → σ → Prop} {q : Except ε β → σ → Prop} {r : Except ε (α × β) → σ → Prop}
    (hfir : first.Meets c p s) (hsec : second.Meets c q s)
    (hok : ∀ a b t, c.grows s t → c.inv t → p (.ok a) t → q (.ok b) t → r (.ok (a, b)) t)
    (hlef : ∀ e t, c.grows s t → c.inv t → p (.error e) t → r (.error e) t)
    (hrig : ∀ e t, c.grows s t → c.inv t → q (.error e) t → r (.error e) t) :
    (first.tryJoin second).Meets c r s := by
  refine hfir.interleave hsec ?_ ?_
  · rintro (e | a) second t ht _ ha hsec
    · exact fun u hu hinv => hlef e u (c.trans ht hu) hinv (ha u hu hinv)
    refine hsec.map ?_
    rintro (e | b) u hu hinv hb
    · exact hrig e u (c.trans ht hu) hinv hb
    · exact hok a b u (c.trans ht hu) hinv (ha u hu hinv) hb
  · rintro (e | b) first t ht _ hb hfir
    · exact fun u hu hinv => hrig e u (c.trans ht hu) hinv (hb u hu hinv)
    refine hfir.map ?_
    rintro (e | a) u hu hinv ha
    · exact hlef e u (c.trans ht hu) hinv ha
    · exact hok a b u (c.trans ht hu) hinv ha (hb u hu hinv)

lemma tryJoinAll {futu : List (Future σ (Except ε α))} {p : ι → Except ε α → σ → Prop}
    (h : List.Forall₂ (fun i fut => fut.Meets c (p i) s) is futu) :
    (tryJoinAll futu).Meets c (fun res t =>
    (∀ as, res = .ok as → List.Forall₂ (fun i a => p i (.ok a) t) is as) ∧
    ∀ e, res = .error e → ∃ i ∈ is, p i (.error e) t) s := by
  induction h with
  | nil =>
    intro _ _ _
    refine ⟨?_, nofun⟩
    rintro _ ⟨⟩
    exact .nil
  | @cons i fut is futu hhea _ htai =>
    refine Future.Meets.map (hhea.tryJoin htai (r := fun res t =>
      (∀ results, res = .ok results →
        List.Forall₂ (fun i a => p i (.ok a) t) (i :: is) (results.1 :: results.2)) ∧
      ∀ e, res = .error e → ∃ j ∈ i :: is, p j (.error e) t) ?_ ?_ ?_) ?_
    · intro a as t _ _ ha has
      refine ⟨?_, nofun⟩
      rintro _ ⟨⟩
      exact .cons ha (has.1 as rfl)
    · intro e t _ _ he
      refine ⟨nofun, ?_⟩
      rintro _ ⟨⟩
      exact ⟨i, (.head _), he⟩
    · intro e t _ _ he
      refine ⟨nofun, ?_⟩
      rintro _ ⟨⟩
      obtain ⟨j, hj, he⟩ := he.2 e rfl
      exact ⟨j, mem_cons_of_mem i hj, he⟩
    · rintro (e | results) t - - ⟨hok, herr⟩
      · refine ⟨nofun, ?_⟩
        rintro _ ⟨⟩
        exact herr e rfl
      · refine ⟨?_, nofun⟩
        rintro _ ⟨⟩
        exact hok results rfl

lemma race {first second : Future σ α} {p q r : α → σ → Prop} (hfir : first.Meets c p s)
    (hsec : second.Meets c q s)
    (hlef : ∀ a t, c.grows s t → c.inv t → decide a = true → p a t → r a t)
    (hrig : ∀ b t, c.grows s t → c.inv t → decide b = true → q b t → r b t)
    (hmer : ∀ a b t, c.grows s t → c.inv t → decide a = false → decide b = false → p a t → q b t →
      r (merge a b) t) :
    (race decide merge first second).Meets c r s := by
  refine hfir.interleave hsec ?_ ?_
  · intro a second t ht _ ha hsec
    by_cases hdec : decide a = true
    · rw [if_pos hdec]
      exact fun u hu hinv => hlef a u (c.trans ht hu) hinv hdec (ha u hu hinv)
    rw [if_neg hdec]
    refine hsec.map ?_
    intro b u hu hinv hb
    by_cases hdeci : decide b = true
    · rw [if_pos hdeci]
      exact hrig b u (c.trans ht hu) hinv hdeci hb
    · rw [if_neg hdeci]
      exact hmer a b u (c.trans ht hu) hinv (by simpa using hdec) (by simpa using hdeci) (ha u hu hinv) hb
  · intro b first t ht _ hb hfir
    by_cases hdec : decide b = true
    · rw [if_pos hdec]
      exact fun u hu hinv => hrig b u (c.trans ht hu) hinv hdec (hb u hu hinv)
    rw [if_neg hdec]
    refine hfir.map ?_
    intro a u hu hinv ha
    by_cases hdecidea : decide a = true
    · rw [if_pos hdecidea]
      exact hlef a u (c.trans ht hu) hinv hdecidea ha
    · rw [if_neg hdecidea]
      exact hmer a b u (c.trans ht hu) hinv (by simpa using hdecidea) (by simpa using hdec) ha
        (hb u hu hinv)

/-! ## Parts of the state and runs -/

lemma zoom {part : Contract τ} {lens : Lens σ τ} {fut : Future τ α} {p : α → τ → Prop}
    {q : α → σ → Prop} (h : fut.Meets part p (lens.get s))
    (hinv : ∀ t, c.inv t → part.inv (lens.get t))
    (hgro : ∀ t u, c.grows t u → part.grows (lens.get t) (lens.get u))
    (hset : ∀ t x, c.inv t → part.inv x → part.grows (lens.get t) x → c.inv (lens.set x t) ∧
      c.grows t (lens.set x t))
    (hhan : part.hangs → c.hangs)
    (hpos : ∀ a t, c.grows s t → c.inv t → p a (lens.get t) → q a t) :
    (fut.zoom lens).Meets c q s := by
  induction fut generalizing s with
  | ready a => exact fun t ht hinvt => hpos a t ht hinvt (h _ (hgro s t ht) (hinv t hinvt))
  | step eff next ih =>
    intro t ht hinvt
    obtain ⟨hkee, hpar, hnex⟩ := h _ (hgro s t ht) (hinv t hinvt)
    obtain ⟨hkee', hgro'⟩ := hset t _ hinvt hkee hpar
    refine ⟨hkee', hgro', ih (lens.get t) ?_ ?_⟩
    · rwa [lens.get_set]
    · exact fun a u hu => hpos a u (c.trans (c.trans ht hgro') hu)
  | either left right ihLeft ihRight => exact ⟨ihLeft h.1 hpos, ihRight h.2 hpos⟩
  | hang => exact fun t ht hinvt => hhan (h _ (hgro s t ht) (hinv t hinvt))

lemma member {ι : Type} [DecidableEq ι] {τ : ι → Type} {c : (i : ι) → Contract (τ i)}
    {hangs : Prop} {i : ι} {p : α → τ i → Prop} {fut : Future (τ i) α} {s : (i : ι) → τ i}
    (h : fut.Meets (c i) p (s i)) (hhan : (c i).hangs → hangs) :
    (fut.zoom (Lens.member i)).Meets (Contract.family c hangs) (fun a t => p a (t i)) s := by
  refine h.zoom (fun _ hinv => hinv i) (fun _ _ hgro => hgro i) ?_ hhan (fun _ _ _ _ hpos => hpos)
  intro t x hinv hpar hgro
  refine ⟨fun j => ?_, fun j => ?_⟩
  · by_cases hj : j = i
    · subst hj
      simpa [Lens.member] using hpar
    · simpa [Lens.member, update_of_ne hj] using hinv j
  · by_cases hj : j = i
    · subst hj
      simpa [Lens.member] using hgro
    · simpa [Lens.member, update_of_ne hj] using (c j).refl (t j)

lemma fst {d : Contract τ} {hangs : Prop} {s : σ × τ} (h : fut.Meets c post s.1) (hhan : c.hangs → hangs) :
    (fut.zoom Lens.fst).Meets (c.prod d hangs) (fun a t => post a t.1) s :=
  h.zoom (fun _ hinv => hinv.1) (fun _ _ hgro => hgro.1)
    (fun t _ hinv hpar hgro => ⟨⟨hpar, hinv.2⟩, hgro, d.refl t.2⟩) hhan (fun _ _ _ _ hpos => hpos)

lemma snd {d : Contract τ} {hangs : Prop} {s : τ × σ} (h : fut.Meets c post s.2) (hhan : c.hangs → hangs) :
    (fut.zoom Lens.snd).Meets (d.prod c hangs) (fun a t => post a t.2) s :=
  h.zoom (fun _ hinv => hinv.2) (fun _ _ hgro => hgro.2)
    (fun t _ hinv hpar hgro => ⟨⟨hinv.1, hpar⟩, d.refl t.1, hgro⟩) hhan (fun _ _ _ _ hpos => hpos)

lemma zoom_of_forall {lens : Lens σ τ} {fut : Future τ α} (hhan : c.hangs)
    (hset : ∀ t x, c.inv t → c.inv (lens.set x t) ∧ c.grows t (lens.set x t)) :
    (fut.zoom lens).Meets c (fun _ _ => True) s := by
  induction fut generalizing s with
  | ready a => exact fun _ _ _ => trivial
  | step eff next ih =>
    intro t _ hinv
    obtain ⟨hkee, hgro⟩ := hset t (eff (lens.get t)) hinv
    exact ⟨hkee, hgro, ih _⟩
  | either left right ihLeft ihRight => exact ⟨ihLeft, ihRight⟩
  | hang => exact fun _ _ _ => hhan

section

variable (h : fut.Meets c post s) (hinv : c.inv s)

include h hinv

lemma poll (ch : Bool) :
    c.inv (fut.poll ch s).2 ∧ c.grows s (fut.poll ch s).2 ∧
      (fut.poll ch s).1.Meets c post (fut.poll ch s).2 := by
  cases fut with
  | ready a | hang => exact ⟨hinv, c.refl s, h⟩
  | step eff next => exact h s (c.refl s) hinv
  | either left right =>
    refine ⟨hinv, c.refl s, ?_⟩
    cases ch with
    | true => exact h.1
    | false => exact h.2

lemma polls (cs : List Bool) :
    c.inv (fut.polls cs s).2 ∧ c.grows s (fut.polls cs s).2 ∧
      (fut.polls cs s).1.Meets c post (fut.polls cs s).2 := by
  induction cs generalizing fut s with
  | nil => exact ⟨hinv, c.refl s, h⟩
  | cons choi cs ih =>
    obtain ⟨hkee, hgro, hnex⟩ := h.poll hinv choi
    obtain ⟨hend, hgrow, hmee⟩ := ih hnex hkee
    exact ⟨hend, c.trans hgro hgrow, hmee⟩

lemma finish (cs : List Bool) : c.inv (fut.finish cs s).2 ∧ c.grows s (fut.finish cs s).2 ∧
    (∀ a, (fut.finish cs s).1 = some a → post a (fut.finish cs s).2) ∧
    ((fut.finish cs s).1 = none → c.hangs) := by
  induction fut generalizing s cs with
  | ready a =>
    refine ⟨hinv, c.refl s, ?_, nofun⟩
    rintro b ⟨⟩
    exact h s (c.refl s) hinv
  | step eff next ih =>
    obtain ⟨hkee, hgro, hnex⟩ := h s (c.refl s) hinv
    obtain ⟨hend, hgrow, hval, hhan⟩ := ih s hnex hkee cs
    exact ⟨hend, c.trans hgro hgrow, hval, hhan⟩
  | either left right ihLeft ihRight =>
    rw [finish]
    split
    · exact ihLeft h.1 hinv cs.tail
    · exact ihRight h.2 hinv cs.tail
  | hang => exact ⟨hinv, c.refl s, nofun, fun _ => h s (c.refl s) hinv⟩

lemma finish_some (hhan : ¬c.hangs) (cs : List Bool) :
    ∃ a t, fut.finish cs s = (some a, t) ∧ c.inv t ∧ c.grows s t ∧ post a t := by
  obtain ⟨hend, hgro, hval, hnon⟩ := h.finish hinv cs
  cases hres : (fut.finish cs s).1 with
  | none => exact absurd (hnon hres) hhan
  | some a => exact ⟨a, _, Prod.ext hres rfl, hend, hgro, hval a hres⟩

end

end Meets

/-! ## Schedules -/

/-- The contract that every step keeps. -/
def anyContract : Contract σ where
  inv _ := True
  grows _ _ := True
  hangs := False
  refl _ := trivial
  trans _ _ := trivial

variable {s : σ}

lemma Meets.exists_finish {fut : Future σ α} {post : α → σ → Prop}
    (h : fut.Meets anyContract post s) (cs : List Bool) :
    ∃ a t, fut.finish cs s = (some a, t) ∧ post a t := by
  obtain ⟨a, t, hfin, -, -, hpos⟩ := h.finish_some trivial id cs
  exact ⟨a, t, hfin, hpos⟩

/-- The future has one result, on every schedule and whatever else happens. -/
def Returns (future : Future σ α) (a : α) (s : σ) : Prop :=
  future.Meets anyContract (fun b _ => b = a) s

namespace Returns

variable {fut : Future σ α} {a : α} {b : β} {s : σ}

lemma finish (h : fut.Returns a s) (cs : List Bool) : (fut.finish cs s).1 = some a := by
  obtain ⟨b, t, hfin, rfl⟩ := Meets.exists_finish h cs
  rw [hfin]

lemma bind (h : fut.Returns a s) (hk : ∀ t, (k a).Returns b t) : (fut.bind k).Returns b s := by
  refine Meets.bind h ?_
  intro c t _ _ hc
  obtain rfl : c = a := hc.value trivial
  exact hk t

lemma map (h : fut.Returns a s) (f : α → β) : (fut.map f).Returns (f a) s := h.bind fun _ _ _ _ => rfl

lemma zoom {lens : Lens τ σ} {s : τ} (h : fut.Returns a (lens.get s)) : (fut.zoom lens).Returns a s :=
  Meets.zoom h (fun _ _ => trivial) (fun _ _ _ => trivial) (fun _ _ _ _ _ => ⟨trivial, trivial⟩) id
    fun _ _ _ _ h => h

lemma joinAll {f : ι → Future σ α} (g : ι → α)
    (h : ∀ i ∈ is, (f i).Returns (g i) s) : (joinAll (is.map f)).Returns (is.map g) s := by
  refine (Meets.joinAll h).mono ?_
  intro results _ _ _ hres
  clear h
  induction hres with
  | nil => rfl
  | cons hresu _ ih => rw [map_cons, hresu, ih]

end Returns

lemma exists_finish_bind (fut : Future σ α) (k : α → Future σ β) (cs : List Bool) (s : σ) :
    ∃ rest, (fut.bind k).finish cs s = match fut.finish cs s with
      | (some a, t) => (k a).finish rest t
      | (none, t) => (none, t) := by
  induction fut generalizing cs s with
  | ready a => exact ⟨cs, rfl⟩
  | step eff next ih => exact ih s cs (eff s)
  | either left right ihLeft ihRight =>
    rw [bind, finish, finish]
    split
    · exact ihLeft cs.tail s
    · exact ihRight cs.tail s
  | hang => exact ⟨[], rfl⟩

lemma finish_map (f : α → β) (fut : Future σ α) (cs : List Bool) (s : σ) : (fut.map f).finish cs s =
    ((fut.finish cs s).1.map f, (fut.finish cs s).2) := by
  obtain ⟨rest, hfin⟩ := exists_finish_bind fut (fun a => .ready (f a)) cs s
  rw [map, hfin]
  rcases fut.finish cs s with ⟨_ | a, t⟩
  · rfl
  · rfl

lemma exists_finish_andThen {fut : Future σ (Except ε α)} {cs : List Bool} {s t : σ}
    {res : Except ε α} (h : fut.finish cs s = (some res, t))
    (k : α → Future σ (Except ε β)) :
    ∃ rest, (fut.andThen k).finish cs s = match res with
      | .ok a => (k a).finish rest t
      | .error e => (some (.error e), t) := by
  unfold andThen
  obtain ⟨rest, hfin⟩ := exists_finish_bind fut (fun | .ok a => k a | .error e => .ready (.error e)) cs s
  refine ⟨rest, hfin.trans ?_⟩
  rw [h]
  cases res with
  | error e | ok a => rfl

lemma finish_zoom (lens : Lens σ τ) (fut : Future τ α) (cs : List Bool) (s : σ) :
    ((fut.zoom lens).finish cs s).1 = (fut.finish cs (lens.get s)).1 ∧
    lens.get ((fut.zoom lens).finish cs s).2 = (fut.finish cs (lens.get s)).2 := by
  induction fut generalizing cs s with
  | ready a | hang => exact ⟨rfl, rfl⟩
  | step eff next ih =>
    have hnex := ih (lens.get s) cs (lens.set (eff (lens.get s)) s)
    rwa [lens.get_set] at hnex
  | either left right ihLeft ihRight =>
    rw [zoom, finish, finish]
    split
    · exact ihLeft cs.tail s
    · exact ihRight cs.tail s

lemma finish_zoom_other {ρ : Type} {lens : Lens σ τ} {oth : σ → ρ}
    (hoth : ∀ x s, oth (lens.set x s) = oth s) (fut : Future τ α) (cs : List Bool)
    (s : σ) : oth ((fut.zoom lens).finish cs s).2 = oth s := by
  induction fut generalizing cs s with
  | ready a | hang => rfl
  | step eff next ih => exact (ih (lens.get s) cs _).trans (hoth _ s)
  | either left right ihLeft ihRight =>
    rw [zoom, finish]
    split
    · exact ihLeft cs.tail s
    · exact ihRight cs.tail s

variable {second : Future σ β} {t : σ}

section Schedules

variable {onLeft : α → Future σ β → Future σ γ} {onRight : Future σ α → β → Future σ γ}

variable (left : Future σ β → Future σ γ)

lemma finish_interleaveRight_nil (first : Future σ α) (second : Future σ β) (s : σ) :
    (interleaveRight onRight left first second).finish [] s = (left second).finish [] s := by
  cases second with
  | ready b | step effect next | either second other | hang => rfl

lemma finish_interleave_nil {first : Future σ α} {a : α} {s t : σ} (second : Future σ β)
    (h : first.finish [] s = (some a, t)) :
    (interleave onLeft onRight first second).finish [] s = (onLeft a second).finish [] t := by
  induction first generalizing s with
  | ready value =>
    cases h
    exact finish_interleaveRight_nil ..
  | step eff next ih =>
    rw [interleave, finish_interleaveRight_nil]
    exact ih s h
  | either left right ihLeft ihRight =>
    rw [interleave, finish_interleaveRight_nil]
    exact ihLeft h
  | hang => cases h

variable {cs : List Bool}

lemma exists_finish_interleaveRight (first : Future σ α) {b : β} (h : second.finish cs s = (some b, t)) :
    ∃ chs', (interleaveRight onRight left first second).finish chs' s = (onRight first b).finish [] t := by
  -- before each step of the right future the choice says that it is its turn
  induction second generalizing s cs with
  | ready value =>
    cases h
    exact ⟨[false], rfl⟩
  | step eff next ih =>
    obtain ⟨chs', hfin⟩ := ih s h
    exact ⟨false :: chs', hfin⟩
  | either second other ihSecond ihOther =>
    rw [finish] at h
    split at h
    · obtain ⟨chs', hfin⟩ := ihSecond h
      exact ⟨false :: true :: chs', hfin⟩
    · obtain ⟨chs', hfin⟩ := ihOther h
      exact ⟨false :: false :: chs', hfin⟩
  | hang => cases h

lemma exists_finish_interleave (first : Future σ α) {b : β} (h : second.finish cs s = (some b, t)) :
    ∃ chs', (interleave onLeft onRight first second).finish chs' s = (onRight first b).finish [] t := by
  cases first with
  | ready a | step effect next | either left right | hang => exact exists_finish_interleaveRight _ _ h

lemma exists_finish_race (first : Future σ α) {second : Future σ α} {b : α} {s t : σ}
    (h : second.finish cs s = (some b, t)) (hdec : decide b = true) :
    ∃ chs', (race decide merge first second).finish chs' s = (some b, t) := by
  have hrea : (some b, t) = (if decide b then ready b else first.map fun a =>
      if decide a then a else merge a b).finish [] t := by
    rw [if_pos hdec]
    rfl
  rw [hrea]
  exact exists_finish_interleave first h

lemma exists_finish_tryJoinAll {fut : List (Future σ (Except ε α))} {a : Except ε α}
    {as : Except ε (List α)} {u : σ}
    (h : (tryJoinAll fut).finish cs s = (some as, t))
    (hfir : first.finish [] t = (some a, u)) :
    ∃ chs' result v, (tryJoinAll (first :: fut)).finish chs' s = (some result, v) ∧
    (v = u ∨ v = t ∧ ∃ e, as = .error e) ∧
    ∀ val, result = .ok val → (∃ x, a = .ok x) ∧ ∃ xs, as = .ok xs := by
  obtain ⟨chs', hfin⟩ := exists_finish_interleave first h
  refine ⟨chs', ?_⟩
  rw [tryJoinAll, finish_map, tryJoin, hfin]
  cases as with
  | error e => exact ⟨_, t, rfl, .inr ⟨rfl, e, rfl⟩, nofun⟩
  | ok as =>
    dsimp only
    rw [finish_map, hfir]
    refine ⟨_, u, rfl, .inl rfl, fun val hok => ?_⟩
    cases a with
    | error e => cases hok
    | ok a => exact ⟨⟨a, rfl⟩, as, rfl⟩

lemma exists_finish_raceAll {none a : α} {futu : List (Future σ α)} {fut : Future σ α} {s t : σ}
    (hmem : fut ∈ futu)
    (hfin : fut.finish [] s = (some a, t)) (hdec : decide a = true) :
    ∃ cs, (raceAll decide merge none futu).finish cs s = (some a, t) := by
  induction futu with
  | nil => cases hmem
  | cons first futu ih =>
    rcases mem_cons.1 hmem with rfl | hmem
    · refine ⟨[], ?_⟩
      rw [raceAll, race, finish_interleave_nil _ hfin, if_pos hdec]
      rfl
    · obtain ⟨cs, hres⟩ := ih hmem
      exact exists_finish_race first hres hdec

end Schedules

/-! ## Running alone -/

/-- Run with nothing in between, the future is always in a state that satisfies `inv`, and its
result satisfies `post`. -/
def Ensures (inv : σ → Prop) (post : α → σ → Prop) : Future σ α → σ → Prop
  | .ready a, s => inv s ∧ post a s
  | .step effect next, s => inv s ∧ (next s).Ensures inv post (effect s)
  | .either left right, s => left.Ensures inv post s ∧ right.Ensures inv post s
  | .hang, s => inv s

variable {post' : β → σ → Prop}

namespace Ensures

variable {inv : σ → Prop} {post : α → σ → Prop} {fut : Future σ α} {s : σ}

lemma holds (h : fut.Ensures inv post s) : inv s := by
  induction fut with
  | ready a | step effect next _ => exact h.1
  | either left right ih _ => exact ih h.1
  | hang => exact h

lemma value {a : α} (h : fut.Ensures inv post s) (hrea : fut = .ready a) :
    post a s := by
  subst hrea
  exact h.2

lemma bind (h : fut.Ensures inv post s) (hk : ∀ a t, inv t → post a t → (k a).Ensures inv post' t) :
    (fut.bind k).Ensures inv post' s := by
  induction fut generalizing s with
  | ready a => exact hk a s h.1 h.2
  | step eff next ih => exact ⟨h.1, ih s h.2⟩
  | either left right ihLeft ihRight => exact ⟨ihLeft h.1, ihRight h.2⟩
  | hang => exact h

lemma map {f : α → β} (h : fut.Ensures inv post s)
    (hf : ∀ a t, inv t → post a t → post' (f a) t) : (fut.map f).Ensures inv post' s :=
  h.bind fun a t hinv hpos => ⟨hinv, hf a t hinv hpos⟩

lemma andThen {fut : Future σ (Except ε α)} {k : α → Future σ (Except ε β)}
    {post : Except ε α → σ → Prop} {post' : Except ε β → σ → Prop} (h : fut.Ensures inv post s)
    (hok : ∀ a t, inv t → post (.ok a) t → (k a).Ensures inv post' t)
    (herr : ∀ e t, inv t → post (.error e) t → post' (.error e) t) :
    (fut.andThen k).Ensures inv post' s := by
  refine h.bind ?_
  rintro (e | a) t hinv hpos
  · exact ⟨hinv, herr e t hinv hpos⟩
  · exact hok a t hinv hpos

lemma zoom {ρ : Type} {lens : Lens σ τ} (oth : σ → ρ) (hoth : ∀ x s, oth (lens.set x s) = oth s)
    (h : ∀ t, oth t = oth s → inv t ∧ ∀ a, post a t) (fut : Future τ α) :
    (fut.zoom lens).Ensures inv post s := by
  have hs := h s rfl
  induction fut generalizing s with
  | ready a => exact ⟨hs.1, hs.2 a⟩
  | step eff next ih =>
    have hste := hoth (eff (lens.get s)) s
    exact ⟨hs.1, ih _ (fun t ht => h t (ht.trans hste)) (h _ hste)⟩
  | either left right ihLeft ihRight => exact ⟨ihLeft h hs, ihRight h hs⟩
  | hang => exact hs.1

lemma poll (h : fut.Ensures inv post s) (ch : Bool) :
    (fut.poll ch s).1.Ensures inv post (fut.poll ch s).2 := by
  cases fut with
  | ready a | hang => exact h
  | step eff next => exact h.2
  | either left right =>
    cases ch with
    | true => exact h.1
    | false => exact h.2

lemma polls (h : fut.Ensures inv post s) (cs : List Bool) :
    (fut.polls cs s).1.Ensures inv post (fut.polls cs s).2 := by
  induction cs generalizing fut s with
  | nil => exact h
  | cons choi cs ih => exact ih (h.poll choi)

end Ensures

end Future
end Toolchain.Lib
