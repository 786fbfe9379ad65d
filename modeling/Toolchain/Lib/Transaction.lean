import Mathlib.Logic.Basic

/-!
# Transaction — statements against a database that may fail

A program works on a *session*: the database, an object in memory, and a *fault schedule* of the
statements that fail.  An exception keeps the session (`EStateM`); only `atomic` undoes database writes,
and it never undoes memory.  After a failed statement every further one fails until the block has rolled
back.
-/

namespace Toolchain.Lib

/-- The error a connection answers with while its transaction is aborted. -/
class TransactionError (ε : Type) where
  aborted : ε

structure Session (δ μ ε : Type) where
  db : δ
  mem : μ
  /-- The fate of the next statements; past its end every statement succeeds. -/
  faults : List (Option ε)
  aborted : Bool

abbrev TxM (δ μ ε α : Type) := EStateM ε (Session δ μ ε) α

variable {δ μ ε α β : Type}

/-! ## Sequencing -/

variable {σ : Type} {f : α → EStateM ε σ β}

variable {x : EStateM ε σ α} {a : α} {s : Session δ μ ε}

variable (e : ε)

@[simp] lemma bind_apply (x : EStateM ε σ α) (f : α → EStateM ε σ β) (s : σ) :
    (x >>= f) s = match x s with
      | .ok a s' => f a s'
      | .error e s' => .error e s' := by
  show EStateM.bind x f s = _
  unfold EStateM.bind
  cases x s with
  | ok a s' | error e s' => rfl

@[simp] lemma pure_apply (a : α) (s : σ) : (pure a : EStateM ε σ α) s = .ok a s := rfl

@[simp] lemma map_apply (f : α → β) (x : EStateM ε σ α) (s : σ) :
    (f <$> x) s = match x s with
      | .ok a s' => .ok (f a) s'
      | .error e s' => .error e s' := by
  show EStateM.map f x s = _
  unfold EStateM.map
  cases x s with
  | ok a s' | error e s' => rfl

@[simp] lemma throw_apply (s : σ) : (throw e : EStateM ε σ α) s = .error e s := rfl

lemma bind_eq_ok {s s'' : σ} {b : β} :
    (x >>= f) s = .ok b s'' ↔ ∃ a s', x s = .ok a s' ∧ f a s' = .ok b s'' := by
  show EStateM.bind x f s = _ ↔ _
  unfold EStateM.bind
  cases hx : x s with
  | ok a s' =>
    constructor
    · intro h
      exact ⟨a, s', rfl, h⟩
    · rintro ⟨a', t, hok, h⟩
      cases hok
      exact h
  | error e s' => simp

lemma bind_of_ok {s s' : σ} (h : x s = .ok a s') : (x >>= f) s = f a s' := by
  show EStateM.bind x f s = _
  simp [EStateM.bind, h]

lemma bind_of_error {s s' : σ} {e : ε} (h : x s = .error e s') : (x >>= f) s = .error e s' := by
  show EStateM.bind x f s = _
  simp [EStateM.bind, h]

def final {σ : Type} : EStateM.Result ε σ α → σ
  | .ok _ s => s
  | .error _ s => s

/-! ## Statements -/

def dbCall [TransactionError ε] : TxM δ μ ε Unit := fun s =>
  if s.aborted then
    .error TransactionError.aborted s
  else
    match s.faults with
    | [] => .ok () s
    | none :: fs => .ok () { s with faults := fs }
    | some e :: fs => .error e { s with faults := fs, aborted := true }

def query [TransactionError ε] (f : δ → α) : TxM δ μ ε α := do
  dbCall
  return f (← get).db

def execute [TransactionError ε] (f : δ → δ) : TxM δ μ ε Unit := do
  dbCall
  modify fun s => { s with db := f s.db }

def inspect (f : δ → α) : TxM δ μ ε α := do
  return f (← get).db

def object : TxM δ μ ε μ := do
  return (← get).mem

def assign (f : μ → μ) : TxM δ μ ε Unit :=
  modify fun s => { s with mem := f s.mem }

/-- Run a method of another object; the caller's own object is back in place afterwards, also
when the method raises. -/
def onObject (o : μ) (m : TxM δ μ ε α) : TxM δ μ ε α := fun s =>
  match m { s with mem := o } with
  | .ok a s' => .ok a { s' with mem := s.mem }
  | .error e s' => .error e { s' with mem := s.mem }

/-- `try: body / except: handler`. -/
def attempt (body : TxM δ μ ε α) (handler : ε → TxM δ μ ε α) : TxM δ μ ε α := fun s =>
  match body s with
  | .ok a s' => .ok a s'
  | .error e s' => handler e s'

/-! ## Atomic blocks -/

/-- Undo the writes since `saved`.  A savepoint that cannot be rolled back leaves the transaction
aborted. -/
def rollback (outermost : Bool) (saved s : Session δ μ ε) : Session δ μ ε :=
  { s with db := saved.db, faults := s.faults.tail, aborted := !outermost && (s.faults.head?.getD none).isSome }

/-- The writes of a block are kept only if it returns normally on a healthy connection; on an aborted
one it is rolled back without an exception. -/
def atomic [TransactionError ε] (outermost : Bool) (m : TxM δ μ ε α) : TxM δ μ ε α := fun s =>
  match dbCall s with
  | .error e s₁ => .error e s₁
  | .ok _ s₁ =>
    match m s₁ with
    | .error e s₂ => .error e (rollback outermost s₁ s₂)
    | .ok a s₂ =>
      if s₂.aborted then
        .ok a (rollback outermost s₁ s₂)
      else
        match dbCall s₂ with
        | .ok _ s₃ => .ok a s₃
        | .error e s₃ => .error e (rollback outermost s₁ s₃)

/-! ## Fault-free sessions -/

def quiet (db : δ) (mem : μ) : Session δ μ ε :=
  { db := db, mem := mem, faults := [], aborted := false }

variable {m : TxM δ μ ε α}

section Quiet

variable [TransactionError ε] (db : δ) (o : μ)

@[simp] lemma dbCall_quiet :
    (dbCall : TxM δ μ ε Unit) (quiet db o) = .ok () (quiet db o) := rfl

@[simp] lemma query_quiet (f : δ → α) :
    (query f : TxM δ μ ε α) (quiet db o) = .ok (f db) (quiet db o) := rfl

@[simp] lemma execute_quiet (f : δ → δ) :
    (execute f : TxM δ μ ε Unit) (quiet db o) = .ok () (quiet (f db) o) := rfl

section

omit [TransactionError ε]

@[simp] lemma inspect_quiet (f : δ → α) :
    (inspect f : TxM δ μ ε α) (quiet db o) = .ok (f db) (quiet db o) := rfl

@[simp] lemma object_quiet :
    (object : TxM δ μ ε μ) (quiet db o) = .ok o (quiet db o) := rfl

@[simp] lemma assign_quiet (f : μ → μ) :
    (assign f : TxM δ μ ε Unit) (quiet db o) = .ok () (quiet db (f o)) := rfl

lemma onObject_quiet {o' o'' : μ} {db' : δ} (h : m (quiet db o') = .ok a (quiet db' o'')) :
    onObject o' m (quiet db o) = .ok a (quiet db' o) := by
  have hmem : { (quiet db o : Session δ μ ε) with mem := o' } = quiet db o' := rfl
  simp only [onObject, hmem, h]
  rfl

end

lemma atomic_quiet (out : Bool) {db' : δ} {o' : μ} (h : m (quiet db o) = .ok a (quiet db' o')) :
    atomic out m (quiet db o) = .ok a (quiet db' o') := by
  have habo : (quiet db' o' : Session δ μ ε).aborted = false := rfl
  simp [atomic, h, habo]

lemma atomic_quiet_error (out : Bool) {e : ε} (h : m (quiet db o) = .error e s) :
    ∃ s', atomic out m (quiet db o) = .error e s' ∧ s'.db = db := by
  refine ⟨rollback out (quiet db o) s, ?_, rfl⟩
  simp [atomic, h]

end Quiet

/-! ## Faults only interrupt

A program built from the statements above computes, whenever it returns at all, what it computes
without faults. -/

lemma aborted_of_dbCall [TransactionError ε] {s' : Session δ μ ε} {u : Unit} (h : dbCall s = .ok u s') :
    s.aborted = false ∧ s'.aborted = false ∧ s'.db = s.db ∧ s'.mem = s.mem := by
  unfold dbCall at h
  split at h
  · cases h
  rename_i hhea
  have hhea : s.aborted = false := by simpa using hhea
  split at h
  · cases h
    exact ⟨hhea, hhea, rfl, rfl⟩
  · cases h
    exact ⟨hhea, hhea, rfl, rfl⟩
  · cases h

/-- A run that returns leaves the connection as healthy as it was, and returns the same result on
a quiet session. -/
def Stable (m : TxM δ μ ε α) : Prop :=
  ∀ s a s', m s = .ok a s' → m (quiet s.db s.mem) = .ok a (quiet s'.db s'.mem) ∧ s'.aborted = s.aborted

variable {x y : TxM δ μ ε α} {f : α → TxM δ μ ε β} {γ : Type} {p : Prop}

namespace Stable

lemma pure (a : α) : Stable (pure a : TxM δ μ ε α) := by
  intro s b s' h
  cases h
  exact ⟨rfl, rfl⟩

lemma throw : Stable (throw e : TxM δ μ ε α) := by
  intro s a s' h
  cases h

lemma bind (hx : Stable x) (hf : ∀ a, Stable (f a)) : Stable (x >>= f) := by
  intro s b s'' h
  obtain ⟨a, s', hxs, hfs⟩ := bind_eq_ok.1 h
  obtain ⟨hxq, hxa⟩ := hx s a s' hxs
  obtain ⟨hfq, hfa⟩ := hf a s' b s'' hfs
  exact ⟨by rw [bind_of_ok hxq, hfq], hfa.trans hxa⟩

lemma dbCall [TransactionError ε] : Stable (dbCall : TxM δ μ ε Unit) := by
  intro s a s' h
  unfold Lib.dbCall at h
  split at h
  · cases h
  split at h
  · cases h
    exact ⟨rfl, rfl⟩
  · cases h
    exact ⟨rfl, rfl⟩
  · cases h

lemma inspect (f : δ → α) : Stable (inspect f : TxM δ μ ε α) := by
  intro s a s' h
  cases h
  exact ⟨rfl, rfl⟩

lemma assign (f : μ → μ) : Stable (assign f : TxM δ μ ε Unit) := by
  intro s a s' h
  cases h
  exact ⟨rfl, rfl⟩

lemma object : Stable (object : TxM δ μ ε μ) := by
  intro s a s' h
  cases h
  exact ⟨rfl, rfl⟩

lemma query [TransactionError ε] (f : δ → α) : Stable (query f : TxM δ μ ε α) :=
  .bind dbCall fun _ => .inspect f

lemma execute [TransactionError ε] (f : δ → δ) : Stable (execute f : TxM δ μ ε Unit) := by
  refine .bind dbCall fun _ => ?_
  intro s a s' h
  cases h
  exact ⟨rfl, rfl⟩

lemma onObject {o : μ} (hm : Stable m) : Stable (onObject o m) := by
  intro s a s' h
  unfold Lib.onObject at h
  split at h
  · rename_i b t hb
    cases h
    obtain ⟨hq, ha⟩ := hm _ _ _ hb
    exact ⟨onObject_quiet s.db s.mem hq, ha⟩
  · cases h

lemma forM {f : γ → TxM δ μ ε PUnit} (hf : ∀ c, Stable (f c)) : ∀ cs : List γ, Stable (cs.forM f)
  | [] => pure _
  | c :: cs => bind (hf c) fun _ => forM hf cs

lemma foldlM {f : β → γ → TxM δ μ ε β} (hf : ∀ b c, Stable (f b c)) :
    ∀ (cs : List γ) (b : β), Stable (cs.foldlM f b)
  | [], b => pure b
  | c :: cs, b => bind (hf b c) fun b' => foldlM hf cs b'

lemma ite [Decidable p] (hx : Stable x) (hy : Stable y) : Stable (if p then x else y) := by
  split
  · exact hx
  · exact hy

end Stable

/-! ## Leaving an atomic block -/

section

variable [TransactionError ε] {outermost : Bool} {m : TxM δ μ ε α} {s s' : Session δ μ ε}

lemma atomic_eq_ok (h : atomic outermost m s = .ok a s') :
    ∃ s₁ s₂, dbCall s = .ok () s₁ ∧ m s₁ = .ok a s₂ ∧
    ((s₂.aborted = true ∧ s'.db = s.db ∧ s'.mem = s₂.mem) ∨
    (s₂.aborted = false ∧ s'.db = s₂.db ∧ s'.mem = s₂.mem)) := by
  unfold atomic at h
  cases hbeg : dbCall s with
  | error e s₁ => simp [hbeg] at h
  | ok u s₁ =>
    have hs₁ := aborted_of_dbCall hbeg
    cases hbod : m s₁ with
    | error e s₂ => simp [hbeg, hbod] at h
    | ok b s₂ =>
      simp only [hbeg, hbod] at h
      refine ⟨s₁, s₂, rfl, ?_⟩
      split at h
      · rename_i habo
        cases h
        exact ⟨hbod, .inl ⟨habo, hs₁.2.2.1, rfl⟩⟩
      rename_i habo
      cases hcom : dbCall s₂ with
      | error e s₃ => simp [hcom] at h
      | ok v s₃ =>
        simp only [hcom] at h
        cases h
        have hs₃ := aborted_of_dbCall hcom
        exact ⟨hbod, .inr ⟨hs₃.1, hs₃.2.2.1, hs₃.2.2.2⟩⟩

lemma dbCall_mem (s : Session δ μ ε) : (final (dbCall s : EStateM.Result ε _ Unit)).mem = s.mem ∧
    (final (dbCall s : EStateM.Result ε _ Unit)).db = s.db := by
  unfold dbCall
  split
  · exact ⟨rfl, rfl⟩
  · split <;> exact ⟨rfl, rfl⟩

lemma atomic_eq_error {e : ε} (h : atomic outermost m s = .error e s') : s'.db = s.db := by
  unfold atomic at h
  have hbeg := dbCall_mem s
  cases hcal : dbCall s with
  | error e₁ s₁ =>
    rw [hcal] at hbeg
    simp only [hcal] at h
    cases h
    exact hbeg.2
  | ok u s₁ =>
    rw [hcal] at hbeg
    cases hbod : m s₁ with
    | error e₂ s₂ =>
      simp only [hcal, hbod] at h
      cases h
      exact hbeg.2
    | ok b s₂ =>
      simp only [hcal, hbod] at h
      split at h
      · cases h
      cases hcom : dbCall s₂ with
      | error e₃ s₃ =>
        simp only [hcom] at h
        cases h
        exact hbeg.2
      | ok v s₃ =>
        simp only [hcom] at h
        cases h

end

/-! ## Invariants of a program

What holds of the database and of the object before every statement holds after the program, also
when it raises. -/

/-- From a database with `D` and an object with `R` the program leaves such ones behind, also if it
raises; what it returns has `Q`. -/
def Maintains (D : δ → Prop) (R : μ → Prop) (Q : α → Prop) (m : TxM δ μ ε α) : Prop :=
  ∀ s, D s.db → R s.mem → D (final (m s)).db ∧ R (final (m s)).mem ∧ ∀ a s', m s = .ok a s' → Q a

variable {g : β → γ → TxM δ μ ε β} {body : TxM δ μ ε α} {hand : ε → TxM δ μ ε α}

namespace Maintains

variable {D : δ → Prop} {R : μ → Prop} {P : β → Prop} {Q : α → Prop}

lemma pure (ha : Q a) : Maintains D R Q (pure a : TxM δ μ ε α) := by
  intro s hdb hmem
  refine ⟨hdb, hmem, ?_⟩
  rintro b s' h
  cases h
  exact ha

lemma throw : Maintains D R Q (throw e : TxM δ μ ε α) :=
  fun _ hdb hmem => ⟨hdb, hmem, fun _ _ h => by cases h⟩

lemma bind (hx : Maintains D R Q x) (hf : ∀ a, Q a → Maintains D R P (f a)) :
    Maintains D R P (x >>= f) := by
  intro s hdb hmem
  obtain ⟨hdb₁, hmem₁, hval⟩ := hx s hdb hmem
  rw [bind_apply]
  cases hxs : x s with
  | ok a s₁ =>
    rw [hxs] at hdb₁ hmem₁
    exact hf a (hval a s₁ hxs) s₁ hdb₁ hmem₁
  | error e s₁ =>
    rw [hxs] at hdb₁ hmem₁
    exact ⟨hdb₁, hmem₁, fun _ _ h => by cases h⟩

lemma weaken {Q' : α → Prop} (hm : Maintains D R Q m) (h : ∀ a, Q a → Q' a) : Maintains D R Q' m := by
  intro s hdb hmem
  obtain ⟨hdb₁, hmem₁, hval⟩ := hm s hdb hmem
  exact ⟨hdb₁, hmem₁, fun a s' ha => h a (hval a s' ha)⟩

lemma dbCall [TransactionError ε] : Maintains D R (fun _ => True) (dbCall : TxM δ μ ε Unit) := by
  intro s hdb hmem
  obtain ⟨hmem', hdb'⟩ := dbCall_mem s
  exact ⟨hdb'.symm ▸ hdb, hmem'.symm ▸ hmem, fun _ _ _ => trivial⟩

lemma inspect {g : δ → α} (hg : ∀ db, D db → Q (g db)) : Maintains D R Q (inspect g : TxM δ μ ε α) := by
  intro s hdb hmem
  refine ⟨hdb, hmem, ?_⟩
  rintro a s' h
  cases h
  exact hg _ hdb

lemma object : Maintains D R R (object : TxM δ μ ε μ) := by
  intro s hdb hmem
  refine ⟨hdb, hmem, ?_⟩
  rintro o s' h
  cases h
  exact hmem

lemma assign {g : μ → μ} (hg : ∀ o, R o → R (g o)) :
    Maintains D R (fun _ => True) (assign g : TxM δ μ ε Unit) :=
  fun _ hdb hmem => ⟨hdb, hg _ hmem, fun _ _ _ => trivial⟩

lemma query [TransactionError ε] {g : δ → α} (hg : ∀ db, D db → Q (g db)) :
    Maintains D R Q (query g : TxM δ μ ε α) :=
  .bind dbCall fun _ _ => .inspect hg

lemma execute [TransactionError ε] {g : δ → δ} (hg : ∀ db, D db → D (g db)) :
    Maintains D R (fun _ => True) (execute g : TxM δ μ ε Unit) :=
  .bind dbCall fun _ _ => fun _ hdb hmem => ⟨hg _ hdb, hmem, fun _ _ _ => trivial⟩

lemma onObject {R' : μ → Prop} {o : μ} (ho : R' o) (hm : Maintains D R' Q m) :
    Maintains D R Q (onObject o m) := by
  intro s hdb hmem
  obtain ⟨hdb₁, _, hval⟩ := hm { s with mem := o } hdb ho
  unfold Lib.onObject
  cases hs : m { s with mem := o } with
  | ok a s₁ =>
    rw [hs] at hdb₁
    refine ⟨hdb₁, hmem, ?_⟩
    rintro b s' h
    cases h
    exact hval a s₁ hs
  | error e s₁ =>
    rw [hs] at hdb₁
    exact ⟨hdb₁, hmem, fun _ _ h => by cases h⟩

lemma forM {m : γ → TxM δ μ ε PUnit} : ∀ cs : List γ, (∀ c ∈ cs, Maintains D R (fun _ => True) (m c)) →
    Maintains D R (fun _ => True) (cs.forM m)
  | [], _ => pure trivial
  | c :: cs, h =>
    bind (h c List.mem_cons_self) fun _ _ => forM cs fun c' hc' => h c' (List.mem_cons_of_mem c hc')

lemma foldlM (hg : ∀ b c, P b → Maintains D R P (g b c)) :
    ∀ (cs : List γ) (b : β), P b → Maintains D R P (cs.foldlM g b)
  | [], _, hb => pure hb
  | c :: cs, b, hb => bind (hg b c hb) fun b' hb' => foldlM hg cs b' hb'

lemma ite [Decidable p] (hx : Maintains D R Q x) (hy : Maintains D R Q y) :
    Maintains D R Q (if p then x else y) := by
  split
  · exact hx
  · exact hy

lemma attempt (hbod : Maintains D R Q body)
    (hhan : ∀ e, Maintains D R Q (hand e)) : Maintains D R Q (attempt body hand) := by
  intro s hdb hmem
  obtain ⟨hdb₁, hmem₁, hval⟩ := hbod s hdb hmem
  unfold Lib.attempt
  cases hs : body s with
  | ok a s₁ =>
    rw [hs] at hdb₁ hmem₁
    refine ⟨hdb₁, hmem₁, ?_⟩
    rintro b s' h
    cases h
    exact hval a s₁ hs
  | error e s₁ =>
    rw [hs] at hdb₁ hmem₁
    exact hhan e s₁ hdb₁ hmem₁

lemma atomic [TransactionError ε] (out : Bool) (hm : Maintains D R Q m) :
    Maintains D R Q (atomic out m) := by
  intro s hdb hmem
  obtain ⟨hmem₀, hdb₀⟩ := dbCall_mem s
  unfold Lib.atomic
  cases hcal : Lib.dbCall s with
  | error e s₁ =>
    rw [hcal] at hmem₀ hdb₀
    exact ⟨hdb₀.symm ▸ hdb, hmem₀.symm ▸ hmem, fun _ _ h => by cases h⟩
  | ok u s₁ =>
    rw [hcal] at hmem₀ hdb₀
    have hdb₁ : D s₁.db := hdb₀.symm ▸ hdb
    obtain ⟨hdb₂, hmem₂, hval⟩ := hm s₁ hdb₁ (hmem₀.symm ▸ hmem)
    cases hrun : m s₁ with
    | error e s₂ =>
      rw [hrun] at hmem₂
      simp only [hrun]
      exact ⟨hdb₁, hmem₂, fun _ _ h => by cases h⟩
    | ok a s₂ =>
      rw [hrun] at hdb₂ hmem₂
      have ha : Q a := hval a s₂ hrun
      simp only [hrun]
      split
      · refine ⟨hdb₁, hmem₂, ?_⟩
        rintro b s' h
        cases h
        exact ha
      obtain ⟨hmem₃, hdb₃⟩ := dbCall_mem s₂
      cases hcom : Lib.dbCall s₂ with
      | error e s₃ =>
        rw [hcom] at hmem₃
        exact ⟨hdb₁, hmem₃.symm ▸ hmem₂, fun _ _ h => by cases h⟩
      | ok v s₃ =>
        rw [hcom] at hmem₃ hdb₃
        refine ⟨hdb₃.symm ▸ hdb₂, hmem₃.symm ▸ hmem₂, ?_⟩
        rintro b s' h
        cases h
        exact ha

end Maintains

end Toolchain.Lib
