import Toolchain.Storage.Combinators

/-!
# Refinement — what every driver says about the contents that were committed

`Contents` is which contents were committed under a digest.  A driver `Refines` it if all it shows comes
from there, an attempt carries what was written to it, and a commit may rely on its content being among
them; if it is not `faulty`, its answers are exact as well.
-/

namespace Toolchain.Storage

open Lib Blobs List Option

abbrev Contents (H : Type) := Text → Digest H → Bytes → Prop

namespace Contents

variable {H : Type}

def Committed (contents : Contents H) (inst : Text) (digest : Digest H) : Prop :=
  ∃ content, contents inst digest content

end Contents

/-- `inv` says that everything in the state is committed, `has` that a digest is stored, which it stays
while the state grows. -/
structure View (H σ : Type) where
  inv : Contents H → σ → Prop
  grows : σ → σ → Prop
  has : σ → Text → Digest H → Prop
  refl : ∀ s, grows s s
  trans : ∀ {s t u}, grows s t → grows t u → grows s u
  inv_mono : ∀ {contents contents' : Contents H} {s},
    (∀ inst digest content, contents inst digest content → contents' inst digest content) →
      inv contents s → inv contents' s
  has_mono : ∀ {s t inst digest}, grows s t → has s inst digest → has t inst digest
  committed_of_has : ∀ {contents s inst digest}, inv contents s → has s inst digest →
    contents.Committed inst digest

namespace View

variable {H σ τ : Type} (faulty : Prop)

def contract (view : View H σ) (contents : Contents H) : Contract σ where
  inv := view.inv contents
  grows := view.grows
  hangs := faulty
  refl := view.refl
  trans := view.trans

def pair (first : View H σ) (second : View H τ) (inFirst : Digest H → Bool) : View H (σ × τ) where
  inv contents s := first.inv contents s.1 ∧ second.inv contents s.2
  grows s t := first.grows s.1 t.1 ∧ second.grows s.2 t.2
  has s inst digest := if inFirst digest then first.has s.1 inst digest else second.has s.2 inst digest
  refl s := ⟨first.refl s.1, second.refl s.2⟩
  trans h h' := ⟨first.trans h.1 h'.1, second.trans h.2 h'.2⟩
  inv_mono h hinv := ⟨first.inv_mono h hinv.1, second.inv_mono h hinv.2⟩
  has_mono := by
    intro s t inst digest hgrows
    split
    · exact first.has_mono hgrows.1
    · exact second.has_mono hgrows.2
  committed_of_has := by
    intro contents s inst digest hinv
    split
    · exact first.committed_of_has hinv.1
    · exact second.committed_of_has hinv.2

def extend (view : View H σ) (extra : Contents H → τ → Prop)
    (extra_mono : ∀ {contents contents' : Contents H} {x},
      (∀ inst digest content, contents inst digest content → contents' inst digest content) →
        extra contents x → extra contents' x) : View H (σ × τ) where
  inv contents s := view.inv contents s.1 ∧ extra contents s.2
  grows s t := view.grows s.1 t.1
  has s := view.has s.1
  refl s := view.refl s.1
  trans := view.trans
  inv_mono h hinv := ⟨view.inv_mono h hinv.1, extra_mono h hinv.2⟩
  has_mono := view.has_mono
  committed_of_has hinv := view.committed_of_has hinv.1

def family {ι : Type} {τ : ι → Type} (view : (i : ι) → View H (τ i))
    (holders : Digest H → List ι) : View H ((i : ι) → τ i) where
  inv contents s := ∀ i, (view i).inv contents (s i)
  grows s t := ∀ i, (view i).grows (s i) (t i)
  has s inst digest := holders digest ≠ [] ∧ ∀ i ∈ holders digest, (view i).has (s i) inst digest
  refl s i := (view i).refl (s i)
  trans h h' i := (view i).trans (h i) (h' i)
  inv_mono h hinv i := (view i).inv_mono h (hinv i)
  has_mono h hhas := ⟨hhas.1, fun i hi => (view i).has_mono (h i) (hhas.2 i hi)⟩
  committed_of_has := by
    intro contents s inst digest hinv hhas
    obtain ⟨i, hi⟩ := List.exists_mem_of_ne_nil _ hhas.1
    exact (view i).committed_of_has (hinv i) (hhas.2 i hi)

/-! ## Futures on a part of the state -/

variable {inFirst : Digest H → Bool}

section

variable {faulty} {conts : Contents H} {p : α → σ → Prop}

variable {fut : Future σ α}

lemma meets_fst {first : View H σ} {second : View H τ} {s : σ × τ}
    (h : fut.Meets (first.contract faulty conts) p s.1) :
    (fut.zoom Lens.fst).Meets ((first.pair second inFirst).contract faulty conts) (fun a t => p a t.1) s :=
  h.fst (d := second.contract faulty conts) id

lemma meets_snd {first : View H τ} {second : View H σ} {s : τ × σ}
    (h : fut.Meets (second.contract faulty conts) p s.2) :
    (fut.zoom Lens.snd).Meets ((first.pair second inFirst).contract faulty conts) (fun a t => p a t.2) s :=
  h.snd (d := first.contract faulty conts) id

lemma meets_extend {view : View H σ} {extra : Contents H → τ → Prop} {extra_mono}
    {s : σ × τ} (h : fut.Meets (view.contract faulty conts) p s.1) :
    (fut.zoom Lens.fst).Meets ((view.extend extra extra_mono).contract faulty conts)
      (fun a t => p a t.1) s :=
  h.zoom (fun _ hinv => hinv.1) (fun _ _ hgro => hgro)
    (fun _ _ hinv hpar hgro => ⟨⟨hpar, hinv.2⟩, hgro⟩) id (fun _ _ _ _ hpos => hpos)

end

end View

/-! ## The obligations of a driver -/

structure Window.IsFull (window : Window) : Prop where
  readOffset : window.readOffset = none
  readLimit : window.readLimit = none
  maxBatchSize : 0 < window.maxBatchSize

variable {cont : Bytes}

section Posts

variable {H : Type} (faulty : Prop) (contents conts : Contents H) (inst : Text)

/-- Only digests that were asked for are missing, those not missing were committed, and a digest
that was stored is not missing. -/
structure FindsMissing (stored : Digest H → Prop) (digests : List (Digest H))
    (result : Except (StorageError H) (List (Digest H))) : Prop where
  subset : ∀ missing, result = .ok missing → ∀ digest ∈ missing, digest ∈ digests
  committed : ∀ missing, result = .ok missing → ∀ digest ∈ digests, digest ∉ missing →
    contents.Committed inst digest
  found : ∀ missing, result = .ok missing → ∀ digest ∈ missing, ¬stored digest
  answers : faulty ∨ ∃ missing, result = .ok missing

/-- A stream that ends without an error is a committed content, and a digest that was stored is
found. -/
structure Reads (stored : Prop) (digest : Digest H)
    (result : Except (StorageError H) (Option (ReadStream H))) : Prop where
  committed : ∀ stream, result = .ok (some stream) → stream.failure = none →
    contents inst digest stream.chunks.flatten
  found : result = .ok none → ¬stored
  answers : faulty ∨ ∃ stream?, result = .ok stream? ∧ ∀ stream, stream? = some stream →
    stream.failure = none

structure ReadsSmall (stored : Prop) (digest : Digest H)
    (result : Except (StorageError H) (Option Bytes)) : Prop where
  committed : ∀ content, result = .ok (some content) → contents inst digest content
  found : result = .ok none → ¬stored
  answers : faulty ∨ ∃ content?, result = .ok content?

variable {faulty contents conts inst}

variable {dig : Digest H} {stored : Prop} {error : StorageError H}

lemma Reads.weaken {stor stored' : Prop} {result : Except (StorageError H) (Option (ReadStream H))}
    (h : Reads faulty conts inst stor dig result) (hsto : stored' → stor) :
    Reads faulty conts inst stored' dig result :=
  ⟨h.committed, fun hnon hsto' => h.found hnon (hsto hsto'), h.answers⟩

lemma Reads.failed (hfau : faulty) : Reads faulty conts inst stored dig (.error error) :=
  ⟨nofun, nofun, .inl hfau⟩

lemma Reads.faulty_of_error (h : Reads faulty conts inst stored dig (.error error)) : faulty :=
  h.answers.resolve_right nofun

lemma Reads.absent (hsto : ¬stored) : Reads faulty conts inst stored dig (.ok none) :=
  ⟨nofun, fun _ => hsto, .inr ⟨none, rfl, nofun⟩⟩

lemma ReadsSmall.failed (hfau : faulty) : ReadsSmall faulty conts inst stored dig (.error error) :=
  ⟨nofun, nofun, .inl hfau⟩

lemma ReadsSmall.absent (hsto : ¬stored) : ReadsSmall faulty conts inst stored dig (.ok none) :=
  ⟨nofun, fun _ => hsto, .inr ⟨none, rfl⟩⟩

lemma ReadsSmall.present (hcon : conts inst dig cont) :
    ReadsSmall faulty conts inst stored dig (.ok (some cont)) := by
  refine ⟨?_, nofun, .inr ⟨_, rfl⟩⟩
  rintro _ ⟨⟩
  exact hcon

/-- What is known of an attempt that has begun is known of the attempt made from it. -/
lemma begun_map {A B : Type} {f : A → B} {p : A → Prop} {q : B → Prop} {has has' : Prop}
    {res : Except (StreamingWriteError H) A}
    (h : (∀ a, res = .ok a → p a) ∧ (faulty ∨ (∃ a, res = .ok a) ∨ res = .error .alreadyExists ∧ has))
    (hpq : ∀ a, p a → q (f a)) (hhas : has → has') :
    (∀ b, res.map f = .ok b → q b) ∧
    (faulty ∨ (∃ b, res.map f = .ok b) ∨ res.map f = .error .alreadyExists ∧ has') := by
  cases res with
  | error error =>
    refine ⟨by simp [Except.map], h.2.imp_right (.imp (by simp) ?_)⟩
    rintro ⟨⟨⟩, hold⟩
    exact ⟨rfl, hhas hold⟩
  | ok a =>
    refine ⟨?_, .inr (.inl ⟨f a, rfl⟩)⟩
    rintro _ ⟨⟩
    exact hpq a (h.1 a rfl)

end Posts

structure Refines {H : Type} (faulty : Prop) (driver : Driver H) where
  view : View H driver.State
  carries : driver.State → driver.Attempt → Text → Digest H → Bytes → Prop
  carries_mono : ∀ {s t attempt inst digest content}, view.grows s t →
    carries s attempt inst digest content → carries t attempt inst digest content
  inv_init : ∀ contents, view.inv contents driver.init
  visible : ∀ {contents s inst digest content}, view.inv contents s →
    driver.Visible s inst digest content → contents inst digest content
  findMissingBlobs : ∀ contents inst digests s,
    (driver.findMissingBlobs inst digests).Meets (view.contract faulty contents)
      (fun result _ => FindsMissing faulty contents inst (view.has s inst) digests result) s
  readBlob : ∀ contents inst digest window s, faulty ∨ 0 < window.maxBatchSize →
    (driver.readBlob inst digest window).Meets (view.contract faulty contents)
      (fun result _ => window.IsFull →
        Reads faulty contents inst (view.has s inst digest) digest result) s
  beginWriteBlob : ∀ contents inst digest s,
    (driver.beginWriteBlob inst digest).Meets (view.contract faulty contents)
      (fun result t => (∀ attempt, result = .ok attempt → carries t attempt inst digest []) ∧
        (faulty ∨ (∃ attempt, result = .ok attempt) ∨ result = .error .alreadyExists ∧
          view.has t inst digest)) s
  write : ∀ {inst digest content s attempt} contents batch, carries s attempt inst digest content →
    (driver.write attempt batch).Meets (view.contract faulty contents) (fun result t =>
        (result.1 = .ok () → carries t result.2 inst digest (content ++ batch)) ∧
          (faulty ∨ result.1 = .ok ())) s
  commit : ∀ {contents : Contents H} {inst digest content s attempt},
    carries s attempt inst digest content → contents inst digest content →
    (driver.commit attempt).Meets (view.contract faulty contents)
      (fun result t => faulty ∨ result = .ok () ∧ view.has t inst digest) s
  runTask : ∀ contents task s, (driver.runTask task).Meets (view.contract faulty contents)
    (fun _ _ => True) s

structure SmallRefines {H : Type} (faulty : Prop) (driver : SmallDriver H) where
  view : View H driver.State
  inv_init : ∀ contents, view.inv contents driver.init
  visible : ∀ {contents s inst digest content}, view.inv contents s →
    driver.Visible s inst digest content → contents inst digest content
  findMissingBlobs : ∀ contents inst digests s,
    (driver.findMissingBlobs inst digests).Meets (view.contract faulty contents)
      (fun result _ => FindsMissing faulty contents inst (view.has s inst) digests result) s
  readBlob : ∀ contents inst digest s, (driver.readBlob inst digest).Meets (view.contract faulty contents)
      (fun result _ => ReadsSmall faulty contents inst (view.has s inst digest) digest result) s
  writeBlob : ∀ {contents : Contents H} {inst digest content} s, contents inst digest content →
    (driver.writeBlob inst digest content).Meets (view.contract faulty contents)
      (fun result t => faulty ∨ result = .ok () ∧ view.has t inst digest) s
  runTask : ∀ contents task s, (driver.runTask task).Meets (view.contract faulty contents)
    (fun _ _ => True) s

/-! ## Leaves -/

variable {H : Type} [DecidableEq H] {faulty : Prop}

lemma Blobs.find?_publish (st : Blobs H) (overw : Bool) (inst : Text) (dig : Digest H)
    (cont : Bytes) (inst' : Text) (digest' : Digest H) :
    (st.publish overw inst dig cont).find? inst' digest' = if (inst', digest') = (inst, dig) ∧
    (overw || (st.find? inst dig).isNone) = true then some cont
    else st.find? inst' digest' := by
  unfold publish
  by_cases hpub : (overw || (st.find? inst dig).isNone) = true
  · rw [if_pos hpub]
    by_cases hkey : (inst', digest') = (inst, dig)
    · rw [if_pos ⟨hkey, hpub⟩, find?, hkey, lookup_cons_self]
    · have hbeq : ((inst', digest') == (inst, dig)) = false := by simpa using hkey
      rw [if_neg fun h => hkey h.1]
      simp only [find?, lookup_cons, hbeq]
  · rw [if_neg hpub, if_neg fun h => hpub h.2]

def Blobs.view : View H (Blobs H) where
  inv contents s := ∀ inst digest content, s.find? inst digest = some content →
    contents inst digest content
  grows s t := ∀ inst digest, (s.find? inst digest).isSome → (t.find? inst digest).isSome
  has s inst digest := (s.find? inst digest).isSome
  refl _ _ _ := id
  trans h h' inst digest := h' inst digest ∘ h inst digest
  inv_mono h hinv inst digest content hfind := h _ _ _ (hinv inst digest content hfind)
  has_mono h := h _ _
  committed_of_has hinv hhas := by
    obtain ⟨content, hcontent⟩ := Option.isSome_iff_exists.1 hhas
    exact ⟨content, hinv _ _ _ hcontent⟩

namespace Blobs

variable {conts : Contents H} {st : Blobs H} {overwrites : Bool} {inst : Text}
  {digest dig : Digest H} {cont : Bytes}

lemma inv_publish (hinv : view.inv conts st) (hcon : conts inst dig cont) :
    view.inv conts (st.publish overwrites inst dig cont) := by
  intro inst' digest' content' hfin
  rw [find?_publish] at hfin
  split at hfin
  · rename_i hkey
    cases hkey.1
    cases hfin
    exact hcon
  · exact hinv _ _ _ hfin

lemma grows_publish : view.grows st (st.publish overwrites inst dig cont) := by
  intro inst' digest' hsom
  rw [find?_publish]
  split
  · rfl
  · exact hsom

lemma has_publish : view.has (st.publish overwrites inst digest cont) inst digest := by
  change (find? _ _ _).isSome = true
  rw [find?_publish]
  by_cases hpub : (overwrites || (st.find? inst digest).isNone) = true
  · rw [if_pos ⟨rfl, hpub⟩]
    rfl
  · rw [if_neg fun h => hpub h.2]
    simp only [Bool.or_eq_true, not_or, isNone_iff_eq_none] at hpub
    exact isSome_iff_ne_none.2 hpub.2

end Blobs

variable {s : Blobs H} {digs : List (Digest H)} {att : LeafAttempt H} {dig : Digest H}

namespace Leaf

variable (leaf : Leaf H)

variable {conts : Contents H} {inst : Text}

lemma meets_call {α : Type} {post : α → Blobs H → Prop} {acc : Option (Fault H) → Blobs H → α × Blobs H}
    (hfau : faulty ∨ ∀ n, leaf.faults n = none)
    (h : ∀ fault t, faulty ∨ fault = none → view.grows s t → view.inv conts t →
    view.inv conts (acc fault t).2 ∧ view.grows t (acc fault t).2 ∧
    ∀ u, view.grows (acc fault t).2 u → post (acc fault t).1 u) :
    (leaf.call acc).Meets (view.contract faulty conts) post s := by
  refine .act ?_
  intro t hgro hinv
  have hfaul := hfau.imp id fun h => h t.calls
  obtain ⟨hkee, hgrow, hpos⟩ := h (leaf.faults t.calls) { t with calls := t.calls + 1 } hfaul hgro hinv
  exact ⟨hkee, hgrow, fun u hu _ => hpos u hu⟩

lemma findsMissing {t : Blobs H} (hgro : view.grows s t) (hinv : view.inv conts t) :
    FindsMissing faulty conts inst (view.has s inst) digs
    (.ok (digs.filter fun digest => (t.find? inst digest).isNone)) where
  subset := by
    rintro _ ⟨⟩ digest hdig
    exact (mem_filter.1 hdig).1
  committed := by
    rintro _ ⟨⟩ digest hdig hfou
    apply view.committed_of_has hinv
    have hnon : ¬(t.find? inst digest).isNone = true := fun hnon => hfou (mem_filter.2 ⟨hdig, hnon⟩)
    exact isSome_iff_ne_none.2 (by simpa using hnon)
  found := by
    rintro _ ⟨⟩ digest hdig hsto
    have hnon := (mem_filter.1 hdig).2
    have hsom := hgro inst digest hsto
    rw [isNone_iff_eq_none.1 hnon] at hsom
    cases hsom
  answers := .inr ⟨_, rfl⟩

omit [DecidableEq H] in
lemma findsMissing_error {stor : Digest H → Prop} {err : StorageError H} (hfau : faulty) :
    FindsMissing faulty conts inst stor digs (.error err) where
  subset := nofun
  committed := nofun
  found := nofun
  answers := .inl hfau

lemma meets_findMissing (hfau : faulty ∨ ∀ n, leaf.faults n = none)
    (conts : Contents H) (inst : Text) (digs : List (Digest H)) (s : Blobs H) :
    (leaf.findMissingBlobs inst digs).Meets (view.contract faulty conts) (fun res _ =>
    FindsMissing faulty conts inst (view.has s inst) digs res) s := by
  refine leaf.meets_call hfau ?_
  rintro (_ | _ | ⟨error, progress⟩) t hfaul hgro hinv
  · exact ⟨hinv, view.refl t, fun _ _ => findsMissing hgro hinv⟩
  · exact ⟨hinv, view.refl t, fun _ _ => findsMissing hgro hinv⟩
  · have hfaulty : faulty := hfaul.resolve_right nofun
    exact ⟨hinv, view.refl t, fun _ _ => findsMissing_error hfaulty⟩

omit [DecidableEq H] in
lemma stream_flatten {win : Window} (hwin : win.IsFull) {content : Bytes}
    {fault : Option (Fault H)} (hfai : (stream win content fault).failure = none) :
    (stream win content fault).chunks.flatten = content := by
  have hsli : win.slice content = content := by simp [Window.slice, hwin.readOffset, hwin.readLimit]
  rcases fault with _ | _ | ⟨error, progress⟩
  · simpa [stream, hsli] using chunks_flatten hwin.maxBatchSize content
  · simpa [stream, hsli] using chunks_flatten hwin.maxBatchSize content
  · cases hfai

lemma meets_readBlob (hfa : faulty ∨ ∀ n, leaf.faults n = none)
    (conts : Contents H) (inst : Text) (dig : Digest H) (win : Window) (s : Blobs H)
    (hwin : faulty ∨ 0 < win.maxBatchSize) :
    (leaf.readBlob inst dig win).Meets (view.contract faulty conts) (fun res _ => win.IsFull →
    Reads faulty conts inst (view.has s inst dig) dig res) s := by
  have hloo : (leaf.call fun fault state => ((fault, state.find? inst dig), state)).Meets
    (view.contract faulty conts)
      (fun found _ => (faulty ∨ found.1 = none) ∧
        (∀ content, found.2 = some content → conts inst dig content) ∧
      (found.2 = none → ¬view.has s inst dig)) s := by
    refine leaf.meets_call hfa ?_
    intro fault t hfau hgro hinv
    refine ⟨hinv, view.refl t, fun _ _ => ⟨hfau, fun content => hinv _ _ content, ?_⟩⟩
    intro hnon hsto
    have hsom := hgro inst dig hsto
    rw [show t.find? inst dig = none from hnon] at hsom
    cases hsom
  refine hloo.bind ?_
  rintro ⟨fault, content?⟩ t - hinv hfou
  obtain ⟨hfau, hcon, hmis⟩ := hfou.value hinv
  have hmiss : Reads faulty conts inst (view.has s inst dig) dig (.ok none) ∨ content? ≠ none := by
    by_cases hnon : content? = none
    · exact .inl ⟨nofun, fun _ => hmis hnon, .inr ⟨none, rfl, nofun⟩⟩
    · exact .inr hnon
  -- what a lookup that found something turns into
  have hhit : ∀ content, content? = some content → (if win.maxBatchSize = 0 then Future.hang
        else .ready (.ok (some (stream win content fault)))).Meets
        (view.contract faulty conts)
        (fun res _ => win.IsFull → Reads faulty conts inst (view.has s inst dig) dig res) t := by
    intro content hsom
    split
    · rename_i hzer
      have hfaul : faulty := hwin.resolve_right (by omega)
      exact fun _ _ _ => hfaul
    intro _ _ _ hful
    refine ⟨?_, nofun, ?_⟩
    · rintro _ ⟨⟩ hfai
      rw [stream_flatten hful hfai]
      exact hcon content hsom
    · refine hfau.imp id ?_
      intro hfau
      dsimp only at hfau
      subst hfau
      exact ⟨_, rfl, by rintro _ ⟨⟩; rfl⟩
  rcases fault with _ | _ | ⟨error, _ | progress⟩
  case some.error.zero =>
    have hfaul : faulty := hfau.resolve_right nofun
    exact fun _ _ _ _ => .failed hfaul
  all_goals
    cases content? with
    | none => exact fun _ _ _ _ => hmiss.resolve_right (by simp)
    | some content => exact hhit content rfl

def Carries (attempt : LeafAttempt H) (inst : Text) (digest : Digest H) (content : Bytes) : Prop :=
  attempt.inst = inst ∧ attempt.digest = digest ∧ attempt.content = content

section

variable (hfaul : faulty ∨ ∀ n, leaf.faults n = none)

include hfaul

lemma meets_begin (conts : Contents H) (inst : Text) (dig : Digest H) (s : Blobs H) :
    (leaf.beginWriteBlob inst dig).Meets (view.contract faulty conts)
    (fun res t => (∀ attempt, res = .ok attempt → Carries attempt inst dig []) ∧
    (faulty ∨ (∃ attempt, res = .ok attempt) ∨ res = .error .alreadyExists ∧ view.has t inst dig)) s := by
  refine leaf.meets_call hfaul ?_
  rintro (_ | _ | ⟨error, progress⟩) t hfau hgro hinv
  · dsimp only
    split
    · rename_i hexi
      have hsom := (Bool.and_eq_true_iff.1 hexi).2
      exact ⟨hinv, view.refl t, fun u hu => ⟨nofun, .inr (.inr ⟨rfl, hu inst dig hsom⟩)⟩⟩
    · refine ⟨hinv, view.refl t, fun u _ => ⟨?_, .inr (.inl ⟨_, rfl⟩)⟩⟩
      rintro _ ⟨⟩
      exact ⟨rfl, rfl, rfl⟩
  · exact ⟨hinv, view.refl t, fun _ _ => ⟨nofun, .inl (hfau.resolve_right nofun)⟩⟩
  · exact ⟨hinv, view.refl t, fun _ _ => ⟨nofun, .inl (hfau.resolve_right nofun)⟩⟩

lemma meets_write (conts : Contents H) (batch : Bytes) (hcar : Carries att inst dig cont) :
    (leaf.write att batch).Meets (view.contract faulty conts)
    (fun res _ => (res.1 = .ok () → Carries res.2 inst dig (cont ++ batch)) ∧
      (faulty ∨ res.1 = .ok ())) s := by
  obtain ⟨rfl, rfl, rfl⟩ := hcar
  refine leaf.meets_call hfaul ?_
  rintro (_ | _ | ⟨error, progress⟩) t hfau hgro hinv
  · exact ⟨hinv, view.refl t, fun _ _ => ⟨fun _ => ⟨rfl, rfl, rfl⟩, .inr rfl⟩⟩
  · exact ⟨hinv, view.refl t, fun _ _ => ⟨nofun, .inl (hfau.resolve_right nofun)⟩⟩
  · exact ⟨hinv, view.refl t, fun _ _ => ⟨nofun, .inl (hfau.resolve_right nofun)⟩⟩

lemma meets_commit (hcar : Carries att inst dig cont) (hcon : conts inst dig cont) :
    (leaf.commit att).Meets (view.contract faulty conts)
    (fun res t => faulty ∨ res = .ok () ∧ view.has t inst dig) s := by
  obtain ⟨rfl, rfl, rfl⟩ := hcar
  refine leaf.meets_call hfaul ?_
  rintro (_ | _ | ⟨error, _ | progress⟩) t hfau hgro hinv
  · exact ⟨inv_publish hinv hcon, grows_publish, fun u hu =>
      .inr ⟨rfl, view.has_mono hu has_publish⟩⟩
  · exact ⟨hinv, view.refl t, fun _ _ => .inl (hfau.resolve_right nofun)⟩
  · exact ⟨hinv, view.refl t, fun _ _ => .inl (hfau.resolve_right nofun)⟩
  · -- the answer is an error, but the blob is there
    exact ⟨inv_publish hinv hcon, grows_publish, fun _ _ => .inl (hfau.resolve_right nofun)⟩

end

def refines (hfaultless : faulty ∨ ∀ n, leaf.faults n = none) : Refines faulty leaf.driver where
  view := Blobs.view
  carries _ := Carries
  carries_mono _ h := h
  inv_init _ _ _ _ := nofun
  visible hinv := hinv _ _ _
  findMissingBlobs := leaf.meets_findMissing hfaultless
  readBlob := leaf.meets_readBlob hfaultless
  beginWriteBlob := leaf.meets_begin hfaultless
  write := leaf.meets_write hfaultless
  commit := leaf.meets_commit hfaultless
  runTask _ := nofun

end Leaf

namespace Leaf

variable (leaf : Leaf H)

lemma meets_readWhole (hfau : faulty ∨ ∀ n, leaf.faults n = none) (conts : Contents H)
    (inst : Text) (dig : Digest H) (s : Blobs H) :
    (leaf.readWhole inst dig).Meets (view.contract faulty conts) (fun res _ =>
    ReadsSmall faulty conts inst (view.has s inst dig) dig res) s := by
  refine leaf.meets_call hfau ?_
  intro fault t hfaul hgro hinv
  have hrea : ReadsSmall faulty conts inst (view.has s inst dig) dig (.ok (t.find? inst dig)) := by
    refine ⟨?_, ?_, .inr ⟨_, rfl⟩⟩
    · intro content hcon
      exact hinv _ _ _ (Except.ok.inj hcon)
    · intro hnon hsto
      have hsom := hgro inst dig hsto
      rw [Except.ok.inj hnon] at hsom
      cases hsom
  rcases fault with _ | _ | ⟨error, progress⟩
  · exact ⟨hinv, view.refl t, fun _ _ => hrea⟩
  · exact ⟨hinv, view.refl t, fun _ _ => hrea⟩
  · exact ⟨hinv, view.refl t, fun _ _ => ⟨nofun, nofun, .inl (hfaul.resolve_right nofun)⟩⟩

lemma meets_writeWhole (hfaul : faulty ∨ ∀ n, leaf.faults n = none) {conts : Contents H}
    {inst : Text} (s : Blobs H)
    (hcon : conts inst dig cont) :
    (leaf.writeWhole inst dig cont).Meets (view.contract faulty conts)
    (fun res t => faulty ∨ res = .ok () ∧ view.has t inst dig) s := by
  refine leaf.meets_call hfaul ?_
  rintro (_ | _ | ⟨error, _ | progress⟩) t hfau hgro hinv
  · exact ⟨inv_publish hinv hcon, grows_publish, fun u hu =>
      .inr ⟨rfl, view.has_mono hu has_publish⟩⟩
  · exact ⟨inv_publish hinv hcon, grows_publish, fun u hu =>
      .inr ⟨rfl, view.has_mono hu has_publish⟩⟩
  · exact ⟨hinv, view.refl t, fun _ _ => .inl (hfau.resolve_right nofun)⟩
  · exact ⟨inv_publish hinv hcon, grows_publish, fun _ _ => .inl (hfau.resolve_right nofun)⟩

def smallRefines (hfaultless : faulty ∨ ∀ n, leaf.faults n = none) :
    SmallRefines faulty leaf.smallDriver where
  view := Blobs.view
  inv_init _ _ _ _ := nofun
  visible hinv := hinv _ _ _
  findMissingBlobs := leaf.meets_findMissing hfaultless
  readBlob := leaf.meets_readWhole hfaultless
  writeBlob := leaf.meets_writeWhole hfaultless
  runTask _ := nofun

end Leaf

def View.empty : View H Unit where
  inv _ _ := True
  grows _ _ := True
  has _ _ _ := False
  refl _ := trivial
  trans _ _ := trivial
  inv_mono _ _ := trivial
  has_mono _ := id
  committed_of_has _ := False.elim

def nullStorageRefines (hfaulty : faulty) : SmallRefines faulty (nullStorage (H := H)) where
  view := .empty
  inv_init _ := trivial
  visible _ := False.elim
  findMissingBlobs contents inst digests s := by
    intro _ _ _
    refine ⟨?_, ?_, ?_, .inl hfaulty⟩
    · rintro _ ⟨⟩ digest hdigest
      exact hdigest
    · rintro _ ⟨⟩ digest hdigest hmissing
      exact absurd hdigest hmissing
    · rintro _ ⟨⟩ digest _
      exact id
  readBlob _ _ _ _ := fun _ _ _ => ⟨nofun, fun _ => id, .inl hfaulty⟩
  writeBlob _ _ := fun _ _ _ => .inl hfaulty
  runTask _ := nofun

def alwaysErrorsStorageRefines (hfaulty : faulty) :
    SmallRefines faulty (alwaysErrorsStorage (H := H)) where
  view := .empty
  inv_init _ := trivial
  visible _ := False.elim
  findMissingBlobs _ _ _ _ := fun _ _ _ => Leaf.findsMissing_error hfaulty
  readBlob _ _ _ _ := fun _ _ _ => .failed hfaulty
  writeBlob _ _ := fun _ _ _ => .inl hfaulty
  runTask _ := nofun

/-! ## Adapters -/

lemma Content.bytes_add (cont : Content) (chunk : Bytes) :
    (cont.add chunk).bytes = cont.bytes ++ chunk := by
  cases cont with
  | empty | first cont | merging cont => rfl

omit [DecidableEq H] in
lemma smallWindow_full {win : Window} (hwin : win.IsFull) (cont : Bytes) :
    smallWindow (H := H) win cont = .ok ⟨[cont], none⟩ := by
  simp [smallWindow, hwin.readOffset, hwin.readLimit]

omit [DecidableEq H] in
lemma ReadStream.consolidate_eq_ok {strm : ReadStream H} :
    strm.consolidate = .ok cont ↔ strm.failure = none ∧ cont = strm.chunks.flatten := by
  unfold consolidate
  cases strm.failure with
  | none => simp [eq_comm]
  | some error => simp

end Toolchain.Storage
