import Toolchain.Lib.Collect
import Toolchain.Workflow.WorkUnit

/-!
# Effects — what the transition methods do when no statement fails

One equation for each method of `WorkUnit` says what it returns on a quiet session, as a function of the
database.  Later modules do not look inside the methods again.
-/

namespace Toolchain.Workflow

open Lib List Function Db Instance Stable

variable {tgt : Nat}

variable {sour : Nat}

namespace Db

variable (db : Db)

lemma setUnit_eq_self {db : Db} {pk : Nat} {row : WorkUnit} (h : db.unit pk = row) :
    db.setUnit pk row = db := by
  simp [setUnit, ← h]

@[simps -fullyApplied unit requires nextPk]
def transition (db : Db) (self : Instance) (state : UnitState) : Db :=
  { db with
    unit := update db.unit self.pk (self.setState state).row
    deltas := db.deltas ++
      [{ ctype := self.row.payloadCtype
         fromState := some self.row.state
         toState := some state
         delta := 1 }] }

@[simps -fullyApplied requires nextPk]
def rewrite (db : Db) (before after : Instance) : Db :=
  { db.setUnit before.pk after.row with
    deltas := db.deltas ++ if after.row.state = before.row.state then
        []
      else
        [{ ctype := before.row.payloadCtype, fromState := some before.row.state, toState := some after.row.state
           delta := 1 }] }

@[simp] lemma rewrite_unit (bef after : Instance) :
    (db.rewrite bef after).unit = update db.unit bef.pk after.row := rfl

/-- The database after the loop of `rerun`: every `PENDING` requirer is counted up. -/
@[simps -fullyApplied requires nextPk]
def bumpPending (db : Db) (pk : Nat) : Db :=
  { db with
    unit := fun p =>
      if p ∈ db.requirers pk ∧ (db.unit p).state = .pending then
        ((db.fetch p).addUnsatisfied 1).row
      else
        db.unit p }

lemma mem_requirers {db : Db} :
    sour ∈ db.requirers tgt ↔ sour < db.nextPk ∧ db.requires sour tgt = true := by
  simp [requirers]

lemma mem_unsat {db : Db} : tgt ∈ db.unsatisfied sour ↔
    tgt < db.nextPk ∧ db.requires sour tgt = true ∧ (db.unit tgt).state ≠ .succeeded := by
  simp [unsatisfied]

end Db

variable (self : Instance)

@[simp] lemma Db.bumpPending_state (db : Db) (pk p : Nat) :
    ((db.bumpPending pk).unit p).state = (db.unit p).state := by
  simp only [bumpPending]
  split <;> rfl

lemma Db.bumpPending_count (db : Db) (pk p : Nat) :
    ((db.bumpPending pk).unit p).numUnsatisfiedRequirements = (db.unit p).numUnsatisfiedRequirements +
    if p ∈ db.requirers pk ∧ (db.unit p).state = .pending then 1 else 0 := by
  simp only [bumpPending]
  split
  · rfl
  · exact (Int.add_zero _).symm

/-! ## Primitive methods -/

section

variable (db : Db) (self : Instance)

@[simp] lemma save_quiet : save (quiet db self) = .ok () (quiet (db.setUnit self.pk self.row) self) := by
  simp [save]

@[simp] lemma transition_quiet (st : UnitState) :
    transitionToState st (quiet db self) =
    .ok () (quiet (db.transition self st) (self.setState st)) := by
  simp [transitionToState]
  rfl

lemma assert_one_quiet {st : UnitState} (h : self.row.state = st) :
    assertState (.one st) (quiet db self) = .ok () (quiet db self) := by
  simp [assertState, h]

omit db self in
lemma assert_one_error {st : UnitState} {s : Session Db Instance PyException} (h : s.mem.row.state ≠ st) :
    assertState (.one st) s = .error (.unexpectedState s.mem.row.state) s := by
  change (if s.mem.row.state ≠ st then throw (.unexpectedState s.mem.row.state) else
    pure () : M Unit) s = _
  rw [if_pos h]
  rfl

end

/-! ## Loops over fetched instances -/

lemma forM_onObject_quiet (body : Instance → M Unit) {f : Db → Instance → Db} (self : Instance) :
    ∀ (os : List Instance) (db : Db),
      (∀ o ∈ os, ∀ db, ∃ o', body o (quiet db o) = .ok () (quiet (f db o) o')) →
    (os.forM fun o => onObject o (body o)) (quiet db self) = .ok () (quiet (os.foldl f db) self)
  | [], db, _ => rfl
  | o :: os, db, hbod => by
      obtain ⟨o', ho⟩ := hbod o (.head _) db
      have hhea := onObject_quiet db self ho
      show ((onObject o (body o)) >>= fun _ => os.forM fun o => onObject o (body o)) (quiet db self) = _
      rw [bind_of_ok hhea]
      exact forM_onObject_quiet body self os (f db o) fun o ho => hbod o (.tail _ ho)

def Db.bump (db : Db) (requirer : Instance) : Db :=
  if requirer.row.state = .pending then db.setUnit requirer.pk (requirer.addUnsatisfied 1).row else db

lemma foldl_bump (db₀ : Db) : ∀ (pks : List Nat) (db : Db), (pks.map db₀.fetch).foldl bump db =
        { db with
          unit := fun p =>
            if p ∈ pks ∧ (db₀.unit p).state = .pending then
              ((db₀.fetch p).addUnsatisfied 1).row
            else
              db.unit p }
  | [], db => by simp
  | pk :: pks, db => by
      rw [map_cons, foldl_cons, foldl_bump db₀ pks]
      by_cases hpk : (db₀.unit pk).state = .pending
      · simp only [bump, fetch_row, hpk, if_true, setUnit]
        congr 1
        funext p
        by_cases hp : p = pk
        · subst hp
          simp [hpk]
        · simp [hp]
      · simp only [bump, fetch_row, hpk, if_false]
        congr 1
        funext p
        by_cases hp : p = pk
        · subst hp
          simp [hpk]
        · simp [hp]

lemma rerun_quiet (db : Db) {self : Instance} (h : self.row.state = .succeeded) : rerun (quiet db self) =
    .ok () (quiet ((db.bumpPending self.pk).transition self .ready) (self.setState .ready)) := by
  have hbod : ∀ o ∈ (db.requirers self.pk).map db.fetch, ∀ db, ∃ o', (if o.row.state = .pending then do
          assign fun self => self.addUnsatisfied 1
          save
        else pure () : M Unit) (quiet db o) = .ok () (quiet (db.bump o) o') := by
    intro o _ db
    by_cases ho : o.row.state = .pending
    · exact ⟨o.addUnsatisfied 1, by simp [ho, bump]⟩
    · exact ⟨o, by simp [ho, bump]⟩
  have hloo := forM_onObject_quiet _ self ((db.requirers self.pk).map db.fetch) db hbod
  rw [foldl_bump] at hloo
  simp only [rerun, bind_apply, assert_one_quiet db self h, object_quiet, query_quiet]
  rw [hloo]
  exact transition_quiet _ _ _

/-! ## Satisfying a requirement -/

/-- The instance after `requirement_satisfied`, where `unsatisfied` is the number of requirements
that are not `SUCCEEDED`. -/
def Instance.satisfied (self : Instance) (now : Nat) (rerunIfSucceeded : Bool)
    (unsatisfied : Int) : Instance :=
  match self.row.state with
  | .pending =>
    if self.row.numUnsatisfiedRequirements - 1 = 0 then
      (self.addUnsatisfied (-1)).setState (if self.row.isRescheduled now then .leased else .ready)
    else
      self.addUnsatisfied (-1)
  | .succeeded => if rerunIfSucceeded then self.setState .ready else self
  | .leased => self.addUnsatisfied (-1)
  | .infeasible =>
    let counted : Instance :=
      { self with row := { self.row with numUnsatisfiedRequirements := unsatisfied } }
    if unsatisfied = 0 then counted.setState .ready else counted
  | .ready => self

/-- The `PENDING` requirers of a unit that is rerun are counted up, the unit's row is written, and a
change of state is accounted for. -/
def Db.satisfy (now : Nat) (rerunIfSucceeded : Bool) (db : Db) (self : Instance) : Db :=
  let after := self.satisfied now rerunIfSucceeded (db.unsatisfied self.pk).card
  let others :=
    if self.row.state = .succeeded ∧ rerunIfSucceeded = true then db.bumpPending self.pk else db
  { others.setUnit self.pk after.row with
    deltas := db.deltas ++ if after.row.state = self.row.state then
        []
      else
        [{ ctype := self.row.payloadCtype, fromState := some self.row.state, toState := some after.row.state
           delta := 1 }] }

variable {unsat : Int}

section Satisfy

variable (now : Nat) (rerun : Bool) (db : Db) (self : Instance)

lemma Instance.satisfied_succeeded (unsat : Int) (h : ¬ (self.row.state = .succeeded ∧ rerun)) :
    (self.satisfied now rerun unsat).row.state = .succeeded ↔ self.row.state = .succeeded := by
  unfold satisfied
  cases hsta : self.row.state with
  | pending =>
    by_cases hzer : self.row.numUnsatisfiedRequirements - 1 = 0
    · cases hlat : self.row.isRescheduled now <;> simp [hzer]
    · simp [hzer, hsta]
  | succeeded =>
    have hno : rerun = false := by simpa [hsta] using h
    simp [hno, hsta]
  | leased | ready => simp [hsta]
  | infeasible => by_cases hzer : unsat = 0 <;> simp [hzer, hsta]

lemma Instance.satisfied_infeasible (h : (self.satisfied now rerun unsat).row.state = .infeasible) :
    self.row.state = .infeasible := by
  unfold satisfied at h
  cases hsta : self.row.state with
  | pending =>
    by_cases hzer : self.row.numUnsatisfiedRequirements - 1 = 0
    · cases hlat : self.row.isRescheduled now <;> simp [hsta, hzer, hlat] at h
    · simp [hsta, hzer] at h
  | succeeded => cases rerun <;> simp [hsta] at h
  | leased | ready => simp [hsta] at h
  | infeasible => rfl

lemma Instance.satisfied_nonneg (huns : 0 ≤ unsat) (hcou : 0 ≤ self.row.numUnsatisfiedRequirements)
    (hone : self.row.state = .pending ∨ self.row.state = .leased →
      1 ≤ self.row.numUnsatisfiedRequirements) :
    0 ≤ (self.satisfied now rerun unsat).row.numUnsatisfiedRequirements := by
  unfold satisfied
  cases hsta : self.row.state with
  | pending =>
    have hone := hone (.inl hsta)
    simp only
    split
    · simp
      omega
    · simp only [addUnsatisfied_row_numUnsatisfiedRequirements]
      omega
  | succeeded => cases rerun <;> simpa using hcou
  | leased =>
    have hone := hone (.inr hsta)
    simp only [addUnsatisfied_row_numUnsatisfiedRequirements]
    omega
  | infeasible =>
    simp only
    split <;> exact huns
  | ready => exact hcou

lemma Instance.satisfied_pending (h : (self.satisfied now rerun unsat).row.state = .pending) :
    self.row.state = .pending ∧ self.row.numUnsatisfiedRequirements ≠ 1 ∧
    (self.satisfied now rerun unsat).row.numUnsatisfiedRequirements =
      self.row.numUnsatisfiedRequirements - 1 := by
  unfold satisfied at h ⊢
  cases hsta : self.row.state with
  | pending =>
    by_cases hzer : self.row.numUnsatisfiedRequirements - 1 = 0
    · cases hlat : self.row.isRescheduled now <;> simp [hsta, hzer, hlat] at h
    · simp only [hzer, if_false, addUnsatisfied_row_numUnsatisfiedRequirements]
      exact ⟨trivial, by omega, by omega⟩
  | succeeded => cases rerun <;> simp [hsta] at h
  | leased | ready => simp [hsta] at h
  | infeasible => by_cases hzer : unsat = 0 <;> simp [hzer, hsta] at h

@[simp] lemma Db.satisfy_nextPk : (db.satisfy now rerun self).nextPk = db.nextPk := by
  simp only [satisfy]
  split <;> rfl

@[simp] lemma Db.satisfy_requires :
    (db.satisfy now rerun self).requires = db.requires := by
  simp only [satisfy]
  split <;> rfl

lemma Db.satisfy_unit_self : (db.satisfy now rerun self).unit self.pk =
    (self.satisfied now rerun (db.unsatisfied self.pk).card).row := by
  simp [satisfy]

lemma Db.satisfy_state_of_ne {p : Nat} (hne : p ≠ self.pk) :
    ((db.satisfy now rerun self).unit p).state = (db.unit p).state := by
  by_cases hrer : self.row.state = .succeeded ∧ rerun = true
  · simp [satisfy, hrer, hne]
  · simp [satisfy, hrer, hne]

lemma Db.satisfy_unit_of_not_rerun (h : ¬ (self.row.state = .succeeded ∧ rerun)) :
    (db.satisfy now rerun self).unit = update db.unit self.pk
    (self.satisfied now rerun (db.unsatisfied self.pk).card).row := by
  simp only [satisfy, h, if_false]
  rfl

lemma Db.satisfy_unit_of_rerun (h : self.row.state = .succeeded) :
    (db.satisfy now true self).unit = update (db.bumpPending self.pk).unit self.pk
      (self.setState .ready).row := by
  simp [satisfy, h, satisfied]

end Satisfy

variable (db : Db) (self : Instance)

variable (self : Instance)

lemma req_quiet (now : Nat) (rerun : Bool) :
    (do requirementSatisfied now rerun; save : M Unit) (quiet db self) =
    .ok () (quiet (db.satisfy now rerun self)
    (self.satisfied now rerun (db.unsatisfied self.pk).card)) := by
  unfold requirementSatisfied
  simp only [bind_apply, object_quiet]
  cases hsta : self.row.state with
  | pending =>
    by_cases hzer : self.row.numUnsatisfiedRequirements - 1 = 0
    · by_cases hlat : self.row.isRescheduled now
      · simp [hzer, hlat, satisfy, satisfied, hsta, transition, setUnit]
        rfl
      · simp [hzer, hlat, satisfy, satisfied, hsta, transition, setUnit]
        rfl
    · simp [hzer, satisfy, satisfied, hsta, setUnit]
  | succeeded =>
    cases rerun with
    | true =>
      simp [rerun_quiet db hsta, satisfy, satisfied, hsta, transition, setUnit, bumpPending]
    | false => simp [satisfy, satisfied, hsta, setUnit]
  | leased => simp [satisfy, satisfied, hsta, setUnit]
  | infeasible =>
    by_cases hzer : db.unsatisfied self.pk = ∅
    · simp [hzer, satisfy, satisfied, hsta, transition, setUnit]
    · simp [hzer, satisfy, satisfied, hsta, setUnit]
  | ready => simp [satisfy, satisfied, hsta, setUnit]

def Db.satisfyAll (now : Nat) (rerunRequirers : Bool) (db : Db) (pk : Nat) : Db :=
  ((db.requirers pk).map db.fetch).foldl (satisfy now rerunRequirers) db

lemma Db.foldl_satisfy_nextPk (now : Nat) (again : Bool) : ∀ (os : List Instance) (db : Db),
    (os.foldl (satisfy now again) db).nextPk = db.nextPk
  | [], _ => rfl
  | o :: os, db => (foldl_satisfy_nextPk now again os _).trans (satisfy_nextPk now again db o)

@[simp] lemma Db.satisfyAll_nextPk (now : Nat) (again : Bool) (db : Db) (pk : Nat) :
    (db.satisfyAll now again pk).nextPk = db.nextPk :=
  foldl_satisfy_nextPk now again _ db

@[simps pk row_state row_numUnsatisfiedRequirements]
def Instance.succeed (self : Instance) : Instance :=
  { self with row := { self.row with succeededAt := self.row.lastAttempt, state := .succeeded } }

def Db.succeed (db : Db) (self : Instance) : Db :=
  db.transition
    { self with row := { self.row with succeededAt := self.row.lastAttempt } } .succeeded

@[simp] lemma Db.succeed_unit :
    (db.succeed self).unit = update db.unit self.pk self.succeed.row := rfl

@[simp] lemma Db.succeed_nextPk :
    (db.succeed self).nextPk = db.nextPk := rfl

lemma succeeded_quiet (h : self.row.state = .leased) (now : Nat) (again : Bool) :
    workSucceeded now again (quiet db self) =
    .ok () (quiet ((db.succeed self).satisfyAll now again self.pk) self.succeed) := by
  have hsav : (db.succeed self).setUnit self.pk self.succeed.row = db.succeed self := by
    simp [Db.succeed, Db.transition, Db.setUnit, Instance.succeed, Instance.setState]
  have hsel : setState
      { self with row := { self.row with succeededAt := self.row.lastAttempt } } .succeeded =
        self.succeed := rfl
  simp [workSucceeded, assert_one_quiet db self h]
  change satisfyRequirers now again self.pk
    (quiet ((db.succeed self).setUnit self.pk self.succeed.row) self.succeed) = _
  rw [hsav]
  simp only [satisfyRequirers, bind_apply, query_quiet]
  exact forM_onObject_quiet (fun _ => do requirementSatisfied now again; save) _ _ _
    fun o _ db => ⟨_, req_quiet db o now again⟩

/-! ## Adding requirements -/

/-- The instance after a requirement was added; `target` is the state of a target that is not
`SUCCEEDED`. -/
def Instance.requiring (self : Instance) : Option UnitState → Instance
  | none => self
  | some .infeasible => (self.addUnsatisfied 1).setState .infeasible
  | some _ => (self.addUnsatisfied 1).setState .pending

lemma Instance.requiring_of_ne {st : UnitState} (h : st ≠ .infeasible) :
    self.requiring (some st) = (self.addUnsatisfied 1).setState .pending := by
  cases st with
  | infeasible => exact absurd rfl h
  | pending | ready | leased | succeeded => rfl

def Db.unsatisfiedTarget (db : Db) (target : Nat) : Option UnitState :=
  if target < db.nextPk ∧ (db.unit target).state ≠ .succeeded then some (db.unit target).state else none

@[simps -fullyApplied unit nextPk]
def Db.addEdge (db : Db) (source target : Nat) : Db :=
  { db with requires := fun s t => (s == source && t == target) || db.requires s t }

lemma addReq_quiet_old (h : db.requires self.pk tgt = true) :
    addRequirement tgt (quiet db self) = .ok false (quiet db self) := by
  simp [addRequirement, assertState, getOrCreateRequirement, h]

lemma addReq_quiet_missing (hnew : db.requires self.pk tgt = false) (h : ¬ tgt < db.nextPk) :
    addRequirement tgt (quiet db self) = .error (.databaseError "foreign key constraint violated") (quiet db self) := by
  simp [addRequirement, assertState, getOrCreateRequirement, hnew, h]

def Db.require (db : Db) (self : Instance) (target : Nat) : Db :=
  match db.unsatisfiedTarget target with
  | none => (db.addEdge self.pk target).setUnit self.pk self.row
  | some .infeasible => (db.addEdge self.pk target).transition (self.addUnsatisfied 1) .infeasible
  | some _ =>
    if self.row.state = .pending then
      (db.addEdge self.pk target).setUnit self.pk (self.addUnsatisfied 1).row
    else
      (db.addEdge self.pk target).transition (self.addUnsatisfied 1) .pending

lemma Db.require_of_ne {st : UnitState} (htar : db.unsatisfiedTarget tgt = some st)
    (h : st ≠ .infeasible) :
    db.require self tgt = if self.row.state = .pending then
        (db.addEdge self.pk tgt).setUnit self.pk (self.addUnsatisfied 1).row
      else
        (db.addEdge self.pk tgt).transition (self.addUnsatisfied 1) .pending := by
  unfold require
  cases st with
  | infeasible => exact absurd rfl h
  | pending | ready | leased | succeeded => simp [htar]

lemma Instance.setState_of_eq {st : UnitState} (h : self.row.state = st) : self.setState st = self := by
  simp [setState, ← h]

section Require

variable (db : Db) (self : Instance) (tgt : Nat)

@[simp] lemma Db.require_nextPk : (db.require self tgt).nextPk = db.nextPk := by
  unfold require
  split
  · rfl
  · rfl
  · split <;> rfl

@[simp] lemma Db.require_requires :
    (db.require self tgt).requires = (db.addEdge self.pk tgt).requires := by
  unfold require
  split
  · rfl
  · rfl
  · split <;> rfl

lemma Db.require_unit : (db.require self tgt).unit = update db.unit self.pk
    (self.requiring (db.unsatisfiedTarget tgt)).row := by
  cases htar : db.unsatisfiedTarget tgt with
  | none => simp [require, htar, requiring]
  | some state =>
    by_cases hinf : state = .infeasible
    · subst hinf
      simp [require, htar, requiring]
    rw [db.require_of_ne self htar hinf, self.requiring_of_ne hinf]
    split
    · rename_i hpen
      rw [(self.addUnsatisfied 1).setState_of_eq hpen]
      rfl
    · rfl

end Require

lemma addReq_quiet_new (db : Db) (self : Instance) (hnew : db.requires self.pk tgt = false)
    (h : tgt < db.nextPk) :
    (do let _ ← addRequirement tgt; save : M Unit) (quiet db self) =
      .ok () (quiet (db.require self tgt) (self.requiring (db.unsatisfiedTarget tgt))) := by
  have hcre : getOrCreateRequirement self.pk tgt (quiet db self) =
    .ok true (quiet (db.addEdge self.pk tgt) self) := by
    simp [getOrCreateRequirement, hnew, h, addEdge]
  have hloc : lockUnsatisfiedTarget tgt (quiet (db.addEdge self.pk tgt) self) =
      .ok (db.unsatisfiedTarget tgt) (quiet (db.addEdge self.pk tgt) self) := rfl
  simp [addRequirement, assertState, hcre, hloc]
  cases htar : db.unsatisfiedTarget tgt with
  | none => simp [requiring, require, htar]
  | some state =>
    by_cases hinf : state = .infeasible
    · subst hinf
      simp [requiring, require, htar, transition, setUnit]
    rw [self.requiring_of_ne hinf, db.require_of_ne self htar hinf]
    by_cases hpen : self.row.state = .pending
    · rw [(self.addUnsatisfied 1).setState_of_eq hpen]
      simp [hinf, hpen]
    · simp [hinf, hpen, transition, setUnit]

def Instance.requiringNew (self : Instance) (n : Nat) : Instance :=
  if self.row.state = .ready then (self.addUnsatisfied n).setState .pending else self.addUnsatisfied n

@[simp] lemma Instance.requiringNew_pk (self : Instance) (n : Nat) :
    (self.requiringNew n).pk = self.pk := by
  unfold requiringNew
  split <;> rfl

@[simp] lemma Instance.requiringNew_count (self : Instance) (n : Nat) :
    (self.requiringNew n).row.numUnsatisfiedRequirements = self.row.numUnsatisfiedRequirements + n := by
  unfold requiringNew
  split <;> rfl

def Db.requireNew (db : Db) (self : Instance) (ctype createdAt n : Nat) : Db :=
  if self.row.state = .ready then
    ((db.bulkCreate ctype createdAt n).requireLast self.pk n).transition (self.addUnsatisfied n) .pending
  else
    ((db.bulkCreate ctype createdAt n).requireLast self.pk n).setUnit self.pk (self.addUnsatisfied n).row

section RequireNew

variable (db : Db) (self : Instance) (ctype createdAt n : Nat)

@[simp] lemma Db.requireNew_nextPk :
    (db.requireNew self ctype createdAt n).nextPk = db.nextPk + n := by
  unfold requireNew
  split <;> rfl

@[simp] lemma Db.requireNew_requires :
    (db.requireNew self ctype createdAt n).requires =
    ((db.bulkCreate ctype createdAt n).requireLast self.pk n).requires := by
  unfold requireNew
  split <;> rfl

lemma Db.requireNew_unit : (db.requireNew self ctype createdAt n).unit =
    update (db.bulkCreate ctype createdAt n).unit self.pk (self.requiringNew n).row := by
  unfold requireNew requiringNew
  split <;> rfl

end RequireNew

variable {s s' : Session Db Instance PyException} (db : Db) (state st : UnitState) {self : Instance}

lemma create_quiet (self : Instance) (ctype crea : Nat) {n : Nat} (h : n ≠ 0) :
    createRequirements ctype crea n (quiet db self) =
    .ok () (quiet (db.requireNew self ctype crea n) (self.requiringNew n)) := by
  by_cases hrea : self.row.state = .ready
  · simp [createRequirements, assertState, h, hrea, requiringNew, requireNew, transition, setUnit]
  · simp [createRequirements, assertState, h, hrea, requiringNew, requireNew]

lemma createWorkUnit_quiet (self : Instance) (ctype createdAt : Nat) :
    createWorkUnit ctype createdAt (quiet db self) =
    .ok () (quiet (db.bulkCreate ctype createdAt 1) self) := by
  have huni : update db.unit db.nextPk
      { payloadCtype := ctype, createdAt := createdAt } = (db.bulkCreate ctype createdAt 1).unit := by
    funext pk
    by_cases hpk : pk = db.nextPk
    · subst hpk
      simp [bulkCreate]
    · have hold : ¬ (db.nextPk ≤ pk ∧ pk < db.nextPk + 1) := by omega
      rw [update_of_ne hpk]
      exact (if_neg hold).symm
  simp only [createWorkUnit, accountForStateTransition, bind_apply, execute_quiet, huni]
  rfl

/-! ## Leases and feasibility -/

@[simps pk row_state]
def Instance.lease (self : Instance) (holder : String) (until_ lastAttempt : Nat) (node : String) :
    Instance :=
  { self with
    row := { self.row with
      state := .leased
      leasedUntil := some until_
      leaseHolder := holder
      node := node
      lastAttempt := lastAttempt } }

lemma takeLease_quiet (self : Instance) (h : self.row.state = .ready)
    (hld : String) (unt last : Nat) (node : String) :
    takeLease hld unt last node (quiet db self) =
    .ok () (quiet (db.rewrite self (self.lease hld unt last node))
    (self.lease hld unt last node)) := by
  simp [takeLease, leaseTaken, assertState, h, transition, rewrite, setState, lease]

lemma takeLease_quiet_error (self : Instance) (h : self.row.state ≠ .ready)
    (hld : String) (unt last : Nat) (node : String) :
    ∃ s, takeLease hld unt last node (quiet db self) = .error (.unexpectedState self.row.state) s := by
  simp [takeLease, leaseTaken, assertState, h]

lemma revokeLease_quiet (h : self.row.state = .leased) : revokeLease (quiet db self) =
    .ok () (quiet (db.transition self self.row.stateForCount) (self.setState self.row.stateForCount)) := by
  simp [revokeLease, assert_one_quiet db self h]

lemma feasible_quiet (h : self.row.state = .infeasible) : markAsFeasible (quiet db self) =
    .ok () (quiet (db.transition self self.row.stateForCount) (self.setState self.row.stateForCount)) := by
  simp [markAsFeasible, assert_one_quiet db self h]

/-- The instance after `check_num_unsatisfied_requirements`, where `actual` is the number of
requirements that are not `SUCCEEDED`. -/
def Instance.recounted (self : Instance) (actual : Int) : Instance :=
  let counted : Instance := { self with row := { self.row with numUnsatisfiedRequirements := actual } }
  if actual ≠ self.row.numUnsatisfiedRequirements ∧ actual = 0 ∧ self.row.state = .pending then
    counted.setState .ready
  else
    counted

lemma checkNum_quiet (self : Instance) :
    (do let _ ← checkNumUnsatisfiedRequirements; save : M Unit) (quiet db self) =
      .ok () (quiet (db.rewrite self (self.recounted (db.unsatisfied self.pk).card))
        (self.recounted (db.unsatisfied self.pk).card)) := by
  simp only [checkNumUnsatisfiedRequirements, assertState, bind_apply, pure_apply, object_quiet,
    query_quiet]
  generalize ((db.unsatisfied self.pk).card : Int) = actual
  by_cases hsam : self.row.numUnsatisfiedRequirements = actual
  · subst hsam
    simp [recounted, rewrite, setUnit]
  have hne : actual ≠ self.row.numUnsatisfiedRequirements := .symm hsam
  rw [if_neg hsam]
  by_cases hdon : actual = 0 ∧ self.row.state = .pending
  · obtain ⟨rfl, hpen⟩ := hdon
    simp [hne, hpen, recounted, rewrite, transition, setUnit]
  · simp [hdon, recounted, rewrite, setUnit]

/-! ## Permanent errors -/

def Db.otherRequirers (db : Db) (pk : Nat) : List Nat :=
  (db.requirers pk).filter (· ≠ pk)

lemma gather_quiet (self : Instance) : ∀ (fuel pk : Nat) (ret : Finset Nat),
    gatherTransitiveRequirers fuel pk ret (quiet db self) =
    .ok (collect db.otherRequirers fuel pk ret) (quiet db self)
  | 0, pk, ret => rfl
  | fuel + 1, pk, ret => by
      have hfol : ∀ (pks : List Nat) (ret : Finset Nat),
          (pks.foldlM (fun ret requ => gatherTransitiveRequirers fuel requ ret) ret) (quiet db self) =
          .ok (pks.foldl (fun ret requ => collect db.otherRequirers fuel requ ret) ret)
            (quiet db self) := by
        intro pks
        induction pks with
        | nil => intro ret; rfl
        | cons pk pks ih =>
          intro ret
          rw [foldlM_cons, bind_of_ok (gather_quiet self fuel pk ret)]
          exact ih _
      simp only [gatherTransitiveRequirers, bind_apply, query_quiet, collect]
      exact hfol _ _

lemma foldl_infeasible (db₀ : Db) : ∀ (pks : List Nat) (db : Db),
      let db' := (pks.map db₀.fetch).foldl (fun db o => db.transition o .infeasible) db
      db'.nextPk = db.nextPk ∧ db'.requires = db.requires ∧ db'.unit = fun p =>
          if p ∈ pks then ((db₀.fetch p).setState .infeasible).row else db.unit p
  | [], db => by simp
  | pk :: pks, db => by
      obtain ⟨hnex, hreq, huni⟩ := foldl_infeasible db₀ pks (db.transition (db₀.fetch pk) .infeasible)
      refine ⟨hnex, hreq, ?_⟩
      rw [map_cons, foldl_cons, huni]
      funext p
      by_cases hp : p = pk
      · subst hp
        simp
      · simp [hp]

def Db.doomed (db : Db) (pk : Nat) : Finset Nat :=
  collect db.otherRequirers (db.nextPk + 1) pk ∅

lemma Db.mem_range_of_otherRequirers {db : Db} :
    ∀ tgt, ∀ sour ∈ db.otherRequirers tgt, sour ∈ Finset.range db.nextPk :=
  fun _ _ h => Finset.mem_range.2 (mem_requirers.1 (mem_of_mem_filter h)).1

lemma Db.mem_doomed_iff {db : Db} {pk p : Nat} :
    p ∈ db.doomed pk ↔ Relation.TransGen (fun tgt sour => sour ∈ db.otherRequirers tgt) pk p :=
  mem_collect_iff _ mem_range_of_otherRequirers (by simp)

lemma Db.mem_doomed {db : Db} {pk target : Nat}
    (htar : target = pk ∨ target ∈ db.doomed pk) (hsou : sour ∈ db.requirers target)
    (hne : sour ≠ target) : sour ∈ db.doomed pk := by
  have hmem : sour ∈ db.otherRequirers target := by simp [otherRequirers, hsou, hne]
  rw [mem_doomed_iff] at htar ⊢
  rcases htar with rfl | htar
  · exact .single hmem
  · exact .tail htar hmem

def Db.condemned (db : Db) (pk : Nat) : List Nat :=
  (range db.nextPk).filter fun p => decide (p ∈ db.doomed pk ∧ (db.unit p).state ≠ .infeasible)

def Db.condemn (db : Db) (pk : Nat) : Db :=
  ((db.condemned pk).map db.fetch).foldl (fun db o => db.transition o .infeasible) db

@[simp] lemma Db.condemn_nextPk (pk : Nat) : (db.condemn pk).nextPk = db.nextPk :=
  (foldl_infeasible db (db.condemned pk) db).1

@[simp] lemma Db.condemn_requires (pk : Nat) :
    (db.condemn pk).requires = db.requires :=
  (foldl_infeasible db (db.condemned pk) db).2.1

lemma Db.condemn_unit (pk : Nat) : (db.condemn pk).unit = fun p =>
      if p < db.nextPk ∧ p ∈ db.doomed pk then
        ((db.fetch p).setState .infeasible).row
      else
        db.unit p := by
  rw [condemn, (foldl_infeasible db (db.condemned pk) db).2.2]
  funext p
  by_cases hinf : (db.unit p).state = .infeasible
  · -- an infeasible unit is skipped, and marking it would not change it
    have hsam : ((db.fetch p).setState .infeasible).row = db.unit p := by
      rw [(db.fetch p).setState_of_eq hinf]
      rfl
    simp [hsam]
  · simp [condemned, hinf]

lemma infeasible_quiet (self : Instance) : hasInfeasibleRequirement (quiet db self) =
    .ok () (quiet (db.transition self .infeasible) (self.setState .infeasible)) := by
  simp [hasInfeasibleRequirement, assertState]

lemma permanent_quiet (self : Instance) (h : self.row.state = .leased) :
    permanentErrorOccurred (quiet db self) =
    .ok () (quiet ((db.condemn self.pk).transition self .infeasible) (self.setState .infeasible)) := by
  have hloo := forM_onObject_quiet (fun _ => hasInfeasibleRequirement) self
    ((db.condemned self.pk).map db.fetch) db
    fun o _ db => ⟨_, infeasible_quiet db o⟩
  simp only [permanentErrorOccurred, bind_apply, assert_one_quiet db self h, object_quiet,
    inspect_quiet, gather_quiet, query_quiet]
  unfold condemned doomed at hloo
  rw [hloo]
  exact transition_quiet _ _ _

/-! ## Methods under faults -/

lemma stable_save : Stable save := .bind object fun _ => .execute _

lemma stable_transition : Stable (transitionToState st) :=
  .bind object fun _ => .bind (.execute _) fun _ => .bind (.assign _) fun _ => stable_save

lemma stable_assert_one : Stable (assertState (.one st)) :=
  .bind object fun _ => .ite (.throw _) (.pure _)

lemma stable_rerun : Stable rerun := by
  refine .bind (stable_assert_one _) fun _ => .bind object fun _ =>
    .bind (.query _) fun _ => .bind (.forM ?_ _) fun _ => stable_transition _
  intro requ
  exact .onObject (.ite (.bind (.assign _) fun _ => stable_save) (.pure _))

lemma stable_req (now : Nat) (rerun : Bool) : Stable (requirementSatisfied now rerun) := by
  refine .bind object fun self => ?_
  cases self.row.state with
  | pending =>
    exact .bind (.assign _) fun _ => .ite (.ite (stable_transition _) (stable_transition _)) (.pure _)
  | succeeded => exact .ite stable_rerun (.pure _)
  | leased => exact .assign _
  | infeasible =>
    exact .bind (.query _) fun _ => .bind (.assign _) fun _ => .ite (stable_transition _) (.pure _)
  | ready => exact .pure _

lemma stable_succeeded (now : Nat) (again : Bool) : Stable (workSucceeded now again) := by
  refine .bind (stable_assert_one _) fun _ => .bind (.assign _) fun _ =>
    .bind (stable_transition _) fun _ => .bind stable_save fun _ =>
      .bind object fun _ => .bind (.query _) fun _ => .forM ?_ _
  intro requ
  exact .onObject (.bind (stable_req now again) fun _ => stable_save)

lemma stable_gather : ∀ (fuel pk : Nat) (ret : Finset Nat), Stable (gatherTransitiveRequirers fuel pk ret)
  | 0, _, _ => pure _
  | fuel + 1, _, _ => bind (query _) fun _ =>
    foldlM (fun _ requ => stable_gather fuel requ _) _ _

lemma stable_permanent : Stable permanentErrorOccurred := by
  refine .bind (stable_assert_one _) fun _ => .bind object fun _ =>
    .bind (.inspect _) fun _ =>
      .bind (stable_gather _ _ _) fun _ =>
        .bind (.query _) fun _ => .bind (.forM ?_ _) fun _ => stable_transition _
  intro requ
  exact .onObject (.bind (.pure _) fun _ => stable_transition _)

lemma eq_of_quiet {m : M Unit} {db : Db} (hsta : Stable m) (h : m s = .ok () s')
    (hqui : m (quiet s.db s.mem) = .ok () (quiet db self)) :
    s'.db = db ∧ s'.mem = self ∧ s'.aborted = s.aborted := by
  obtain ⟨hsam, habo⟩ := hsta s () s' h
  rw [hqui] at hsam
  injection hsam with _ hses
  exact ⟨(congrArg Session.db hses).symm, (congrArg Session.mem hses).symm, habo⟩

lemma save_ok (h : save s = .ok () s') :
    s'.db = s.db.setUnit s.mem.pk s.mem.row ∧ s'.mem = s.mem ∧ s'.aborted = false := by
  obtain ⟨hdb, hmem, habo⟩ := eq_of_quiet stable_save h (save_quiet _ _)
  obtain ⟨self, s₁, hsel, hexe⟩ := bind_eq_ok.1 h
  cases hsel
  obtain ⟨_, s₂, hcal, _⟩ := bind_eq_ok.1 hexe
  exact ⟨hdb, hmem, habo.trans (aborted_of_dbCall hcal).1⟩

lemma state_of_assert {st : UnitState}
    {u : Unit} (h : assertState (.one st) s = .ok u s') : s.mem.row.state = st ∧ s' = s := by
  obtain ⟨self, s₁, hsel, hche⟩ := bind_eq_ok.1 h
  cases hsel
  by_cases hsta : s.mem.row.state = st
  · simp only [hsta, ne_eq, not_true_eq_false, if_false] at hche
    cases hche
    exact ⟨hsta, rfl⟩
  · simp only [hsta, ne_eq, not_false_eq_true, if_true] at hche
    cases hche

lemma succeeded_ok {now : Nat} {again : Bool} (h : workSucceeded now again s = .ok () s') :
    s'.db = (s.db.succeed s.mem).satisfyAll now again s.mem.pk ∧ s'.mem = s.mem.succeed ∧
      s'.aborted = false := by
  obtain ⟨_, s₁, hasg, hres⟩ := bind_eq_ok.1 h
  obtain ⟨hlea, rfl⟩ := state_of_assert hasg
  obtain ⟨hdb, hmem, habo⟩ :=
    eq_of_quiet (stable_succeeded now again) h (succeeded_quiet _ _ hlea now again)
  -- the statement that accounts for the transition is answered, so the connection is healthy
  obtain ⟨_, s₂, hass, hres⟩ := bind_eq_ok.1 hres
  cases hass
  obtain ⟨_, s₃, htra, _⟩ := bind_eq_ok.1 hres
  obtain ⟨_, s₄, hsel, htra⟩ := bind_eq_ok.1 htra
  cases hsel
  obtain ⟨_, s₅, hacc, _⟩ := bind_eq_ok.1 htra
  obtain ⟨_, s₆, hcal, _⟩ := bind_eq_ok.1 hacc
  exact ⟨hdb, hmem, habo.trans (aborted_of_dbCall hcal).1⟩

lemma permanent_ok (h : permanentErrorOccurred s = .ok () s') :
    s'.mem = s.mem.setState .infeasible ∧ ∀ p ∈ s.db.requirers s.mem.pk, p ≠ s.mem.pk →
    s'.db.unit p = ((s.db.fetch p).setState .infeasible).row := by
  obtain ⟨_, s₁, hasg, hres⟩ := bind_eq_ok.1 h
  obtain ⟨hlea, rfl⟩ := state_of_assert hasg
  obtain ⟨hdb, hmem, _⟩ := eq_of_quiet stable_permanent h (permanent_quiet s₁.db s₁.mem hlea)
  refine ⟨hmem, ?_⟩
  intro p hp hne
  have hdoo := mem_doomed (.inl rfl) hp hne
  rw [hdb]
  simp [hne, condemn_unit, hdoo, (mem_requirers.1 hp).1]

end Toolchain.Workflow
