import Toolchain.Lib.Run
import Toolchain.Workflow.Effects

/-!
# Steps — every way the rows of work units change

An `Operation` is a method that is called from outside, in its transaction; a `Transition` is one of
these, a bulk method, or a method otherwise called by other methods only.  `perform_eq` and `transit_eq`
say once what a step does.
-/

namespace Toolchain.Workflow

open Lib Db

/-! ## The machine -/

inductive Operation
  | create (ctype createdAt : Nat)
  | addRequirement (pk target : Nat)
  | createRequirements (pk ctype createdAt n : Nat)
  | takeLease (pk : Nat) (holder : String) (until_ lastAttempt : Nat) (node : String)
  | revokeLease (pk : Nat)
  | workSucceeded (pk now : Nat) (rerunRequirers : Bool)
  | rerun (pk : Nat)
  | permanentErrorOccurred (pk : Nat)
  | markAsFeasible (pk : Nat)
  deriving DecidableEq, Repr

def Db.locked {α : Type} (db : Db) (pk : Nat) (method : M α) : Db :=
  if pk < db.nextPk then
    match atomic true (do let _ ← method; save) (quiet db (db.fetch pk)) with
    | .ok _ s => s.db
    | .error _ s => s.db
  else
    db

def Db.perform (db : Db) : Operation → Db
  | .create ctype createdAt =>
    match atomic true (createWorkUnit ctype createdAt) (quiet db default) with
    | .ok _ s => s.db
    | .error _ s => s.db
  | .addRequirement pk target => db.locked pk (addRequirement target)
  | .createRequirements pk ctype createdAt n => db.locked pk (createRequirements ctype createdAt n)
  | .takeLease pk holder until_ lastAttempt node => db.locked pk (takeLease holder until_ lastAttempt node)
  | .revokeLease pk => db.locked pk revokeLease
  | .workSucceeded pk now rerunRequirers => db.locked pk (workSucceeded now rerunRequirers)
  | .rerun pk => db.locked pk rerun
  | .permanentErrorOccurred pk => db.locked pk permanentErrorOccurred
  | .markAsFeasible pk => db.locked pk markAsFeasible

/-! ## Running a method -/

section

variable {α : Type} {db db' : Db} {pk : Nat} {method : M α} {self : Instance}

lemma Db.locked_of_saved (hpk : pk < db.nextPk)
    (h : (do let _ ← method; save : M Unit) (quiet db (db.fetch pk)) = .ok () (quiet db' self)) :
    db.locked pk method = db' := by
  simp only [locked, hpk, if_true, atomic_quiet db (db.fetch pk) true h]
  rfl

lemma Db.locked_of_ok (hpk : pk < db.nextPk) {a : α}
    (h : method (quiet db (db.fetch pk)) = .ok a (quiet db' self)) :
    db.locked pk method = db'.setUnit self.pk self.row :=
  locked_of_saved hpk (by rw [bind_of_ok h, save_quiet])

lemma Db.locked_of_error {e : PyException} {s : Session Db Instance PyException}
    (h : method (quiet db (db.fetch pk)) = .error e s) : db.locked pk method = db := by
  have hbod : (do let _ ← method; save : M Unit) (quiet db (db.fetch pk)) = .error e s := bind_of_error h
  obtain ⟨s', hato, hdb⟩ := atomic_quiet_error db (db.fetch pk) true hbod
  simp only [locked, hato, hdb, ite_self]

lemma Db.locked_of_missing (hpk : ¬ pk < db.nextPk) : db.locked pk method = db := by simp [locked, hpk]

lemma Db.locked_of_not_enabled {state : UnitState} {rest : M Unit}
    (h : ¬ (pk < db.nextPk ∧ (db.unit pk).state = state)) :
    db.locked pk (do assertState (.one state); rest) = db := by
  by_cases hpk : pk < db.nextPk
  · exact locked_of_error (bind_of_error (assert_one_error fun hstate => h ⟨hpk, hstate⟩))
  · exact locked_of_missing hpk

end

/-! ## What the operations do -/

def Db.Enabled (db : Db) : Operation → Prop
  | .create .. => True
  | .addRequirement pk target => pk < db.nextPk ∧ db.requires pk target = false ∧ target < db.nextPk
  | .createRequirements pk _ _ n => pk < db.nextPk ∧ n ≠ 0
  | .takeLease pk .. => pk < db.nextPk ∧ (db.unit pk).state = .ready
  | .revokeLease pk => pk < db.nextPk ∧ (db.unit pk).state = .leased
  | .workSucceeded pk .. => pk < db.nextPk ∧ (db.unit pk).state = .leased
  | .rerun pk => pk < db.nextPk ∧ (db.unit pk).state = .succeeded
  | .permanentErrorOccurred pk => pk < db.nextPk ∧ (db.unit pk).state = .leased
  | .markAsFeasible pk => pk < db.nextPk ∧ (db.unit pk).state = .infeasible

instance (db : Db) : (op : Operation) → Decidable (db.Enabled op)
  | .create .. => instDecidableTrue
  | .addRequirement .. => instDecidableAnd
  | .createRequirements .. => instDecidableAnd
  | .takeLease .. => instDecidableAnd
  | .revokeLease _ => instDecidableAnd
  | .workSucceeded .. => instDecidableAnd
  | .rerun _ => instDecidableAnd
  | .permanentErrorOccurred _ => instDecidableAnd
  | .markAsFeasible _ => instDecidableAnd

def Db.effect (db : Db) : Operation → Db
  | .create ctype createdAt => db.bulkCreate ctype createdAt 1
  | .addRequirement pk target => db.require (db.fetch pk) target
  | .createRequirements pk ctype createdAt n => db.requireNew (db.fetch pk) ctype createdAt n
  | .takeLease pk holder until_ lastAttempt node =>
    db.rewrite (db.fetch pk) ((db.fetch pk).lease holder until_ lastAttempt node)
  | .revokeLease pk => db.transition (db.fetch pk) (db.unit pk).stateForCount
  | .workSucceeded pk now rerunRequirers =>
    ((db.succeed (db.fetch pk)).satisfyAll now rerunRequirers pk).setUnit pk (db.fetch pk).succeed.row
  | .rerun pk => (db.bumpPending pk).transition (db.fetch pk) .ready
  | .permanentErrorOccurred pk => (db.condemn pk).transition (db.fetch pk) .infeasible
  | .markAsFeasible pk => db.transition (db.fetch pk) (db.unit pk).stateForCount

lemma Db.locked_of_transition {db db' : Db} {pk : Nat} {met : M Unit} {self : Instance}
    {state : UnitState} (hpk : pk < db.nextPk)
    (h : met (quiet db (db.fetch pk)) = .ok () (quiet (db'.transition self state) (self.setState state))) :
    db.locked pk met = db'.transition self state := by
  rw [locked_of_ok hpk h]
  exact setUnit_eq_self (by simp)

lemma perform_of_not_enabled {db : Db} {op : Operation} (h : ¬ db.Enabled op) : db.perform op = db := by
  cases op with
  | create ctype made => exact absurd trivial h
  | addRequirement pk tgt =>
    by_cases hpk : pk < db.nextPk
    swap
    · exact locked_of_missing hpk
    cases hedg : db.requires pk tgt with
    | true =>
      rw [perform, locked_of_ok hpk (addReq_quiet_old db (db.fetch pk) hedg)]
      exact setUnit_eq_self rfl
    | false =>
      have htar : ¬ tgt < db.nextPk := fun htar => h ⟨hpk, hedg, htar⟩
      exact locked_of_error (addReq_quiet_missing db _ hedg htar)
  | createRequirements pk ctype made n =>
    by_cases hpk : pk < db.nextPk
    · obtain rfl : n = 0 := by
        by_contra hn
        exact h ⟨hpk, hn⟩
      have hrun : createRequirements ctype made 0 (quiet db (db.fetch pk)) =
        .ok () (quiet db (db.fetch pk)) := rfl
      rw [perform, locked_of_ok hpk hrun]
      exact setUnit_eq_self rfl
    · exact locked_of_missing hpk
  | takeLease pk holder unt last node =>
    by_cases hpk : pk < db.nextPk
    · have hsta : (db.fetch pk).row.state ≠ .ready := fun hsta => h ⟨hpk, hsta⟩
      obtain ⟨s, herr⟩ := takeLease_quiet_error db _ hsta holder unt last node
      exact locked_of_error herr
    · exact locked_of_missing hpk
  | revokeLease pk | workSucceeded pk now again | rerun pk | permanentErrorOccurred pk
  | markAsFeasible pk => exact locked_of_not_enabled h

lemma perform_of_enabled {db : Db} {op : Operation} (h : db.Enabled op) :
    db.perform op = db.effect op := by
  cases op with
  | create ctype made =>
    simp only [perform, atomic_quiet db default true (createWorkUnit_quiet db default ctype made)]
    rfl
  | addRequirement pk tgt =>
    obtain ⟨hpk, hedg, htar⟩ := h
    exact locked_of_saved hpk (addReq_quiet_new db (db.fetch pk) hedg htar)
  | createRequirements pk ctype made n =>
    obtain ⟨hpk, hn⟩ := h
    rw [perform, locked_of_ok hpk (create_quiet db (db.fetch pk) ctype made hn)]
    exact setUnit_eq_self (by simp [requireNew_unit])
  | takeLease pk holder unt last node =>
    obtain ⟨hpk, hrea⟩ := h
    rw [perform, locked_of_ok hpk (takeLease_quiet db (db.fetch pk) hrea holder unt last node)]
    exact setUnit_eq_self (by simp)
  | revokeLease pk => exact locked_of_transition h.1 (revokeLease_quiet db h.2)
  | workSucceeded pk now again => exact locked_of_ok h.1 (succeeded_quiet db (db.fetch pk) h.2 now again)
  | rerun pk => exact locked_of_transition h.1 (rerun_quiet db h.2)
  | permanentErrorOccurred pk => exact locked_of_transition h.1 (permanent_quiet db (db.fetch pk) h.2)
  | markAsFeasible pk => exact locked_of_transition h.1 (feasible_quiet db h.2)

lemma perform_eq (db : Db) (op : Operation) :
    db.perform op = if db.Enabled op then db.effect op else db := by
  split
  · rename_i h
    exact perform_of_enabled h
  · rename_i h
    exact perform_of_not_enabled h

/-! ## Bulk methods -/

def Db.countUnits (db : Db) (selected : WorkUnit → Bool) : Nat :=
  (List.range db.nextPk).countP fun pk => selected (db.unit pk)

def Db.updateState (db : Db) (selected : WorkUnit → Bool) (state : UnitState) : Db :=
  { db with
    unit := fun pk =>
      if pk < db.nextPk ∧ selected (db.unit pk) = true then { db.unit pk with state := state } else
        db.unit pk }

def updateState (selected : WorkUnit → Bool) (state : UnitState) : M Nat := do
  let num ← inspect fun db => db.countUnits selected
  execute fun db => db.updateState selected state
  return num

def WorkUnit.selected (ctype : Nat) (state : UnitState) (extra : WorkUnit → Bool)
    (row : WorkUnit) : Bool :=
  row.payloadCtype == ctype && row.state == state && extra row

/-- The common part of `rerun_all` and `mark_all_as_feasible`: one statement moves the units, and
one row accounts for all of them. -/
def transitionAll (ctype : Nat) (fromState toState : UnitState) (extra : WorkUnit → Bool) :
    M Unit := do
  let num ← updateState (WorkUnit.selected ctype fromState extra) toState
  execute fun db =>
    { db with
      deltas := db.deltas ++
        [{ ctype := ctype, fromState := some fromState, toState := some toState, delta := num }] }

def WorkUnit.createdBetween (fromDate toDate : Option Nat) (row : WorkUnit) : Bool :=
  (fromDate.all fun date => decide (date ≤ row.createdAt)) &&
    (toDate.all fun date => decide (row.createdAt ≤ date))

def rerunAll (ctype : Nat) (fromDate toDate : Option Nat) : M Unit := do
  dbCall
  if ← query fun db => (List.range db.nextPk).any fun pk => (db.unit pk).state == .pending then
    throw (.other "Must not call WorkUnit.rerun_all() when there are outstanding PENDING WorkUnits.")
  transitionAll ctype .succeeded .ready (WorkUnit.createdBetween fromDate toDate)

def markAllAsFeasible (ctype : Nat) : M Unit := do
  dbCall
  transitionAll ctype .infeasible .ready fun row => row.numUnsatisfiedRequirements == 0

def markAsFeasibleForIds (workUnitIds : Finset Nat) : M Unit := do
  let workUnits ← query fun db =>
    ((List.range db.nextPk).filter fun pk =>
      decide (pk ∈ workUnitIds ∧ (db.unit pk).state = .infeasible)).map db.fetch
  workUnits.forM fun workUnit => onObject workUnit markAsFeasible

/-! ## All transitions -/

inductive Transition
  | perform (op : Operation)
  | bulkCreate (ctype createdAt n : Nat)
  | requirementSatisfied (pk now : Nat) (rerunIfSucceeded : Bool)
  | leaseTaken (pk : Nat)
  | hasInfeasibleRequirement (pk : Nat)
  | checkNumUnsatisfiedRequirements (pk : Nat)
  | rerunAll (ctype : Nat) (fromDate toDate : Option Nat)
  | markAllAsFeasible (ctype : Nat)
  | markAsFeasibleForIds (workUnitIds : Finset Nat)
  deriving DecidableEq

def Db.transaction {α : Type} (db : Db) (method : M α) : Db :=
  (final (atomic true method (quiet db default))).db

def Db.transit (db : Db) : Transition → Db
  | .perform op => db.perform op
  | .bulkCreate ctype createdAt n => db.transaction (execute fun db => db.bulkCreate ctype createdAt n)
  | .requirementSatisfied pk now rerunIfSucceeded =>
    db.locked pk (requirementSatisfied now rerunIfSucceeded)
  | .leaseTaken pk => db.locked pk leaseTaken
  | .hasInfeasibleRequirement pk => db.locked pk hasInfeasibleRequirement
  | .checkNumUnsatisfiedRequirements pk => db.locked pk checkNumUnsatisfiedRequirements
  | .rerunAll ctype fromDate toDate => db.transaction (rerunAll ctype fromDate toDate)
  | .markAllAsFeasible ctype => db.transaction (markAllAsFeasible ctype)
  | .markAsFeasibleForIds workUnitIds => db.transaction (markAsFeasibleForIds workUnitIds)

def Db.CanTransit (db : Db) : Transition → Prop
  | .perform op => db.Enabled op
  | .bulkCreate .. => True
  | .requirementSatisfied pk .. => pk < db.nextPk
  | .leaseTaken pk => pk < db.nextPk ∧ (db.unit pk).state = .ready
  | .hasInfeasibleRequirement pk => pk < db.nextPk
  | .checkNumUnsatisfiedRequirements pk => pk < db.nextPk
  | .rerunAll .. => ∀ pk < db.nextPk, (db.unit pk).state ≠ .pending
  | .markAllAsFeasible _ => True
  | .markAsFeasibleForIds _ => True

instance (db : Db) (t : Transition) : Decidable (db.CanTransit t) := by
  cases t <;> (unfold Db.CanTransit; infer_instance)

def Db.transitionAll (db : Db) (ctype : Nat) (fromState toState : UnitState)
    (extra : WorkUnit → Bool) : Db :=
  { db.updateState (WorkUnit.selected ctype fromState extra) toState with
    deltas := db.deltas ++
      [{ ctype := ctype, fromState := some fromState, toState := some toState
         delta := db.countUnits (WorkUnit.selected ctype fromState extra) }] }

def Db.markFeasible (db : Db) (workUnitIds : Finset Nat) : Db :=
  (((List.range db.nextPk).filter fun pk =>
      decide (pk ∈ workUnitIds ∧ (db.unit pk).state = .infeasible)).map db.fetch).foldl
    (fun db workUnit => db.transition workUnit workUnit.row.stateForCount) db

def Db.transitEffect (db : Db) : Transition → Db
  | .perform op => db.effect op
  | .bulkCreate ctype createdAt n => db.bulkCreate ctype createdAt n
  | .requirementSatisfied pk now rerunIfSucceeded => db.satisfy now rerunIfSucceeded (db.fetch pk)
  | .leaseTaken pk => db.transition (db.fetch pk) .leased
  | .hasInfeasibleRequirement pk => db.transition (db.fetch pk) .infeasible
  | .checkNumUnsatisfiedRequirements pk =>
    db.rewrite (db.fetch pk) ((db.fetch pk).recounted (db.unsatisfied pk).card)
  | .rerunAll ctype fromDate toDate =>
    db.transitionAll ctype .succeeded .ready (WorkUnit.createdBetween fromDate toDate)
  | .markAllAsFeasible ctype =>
    db.transitionAll ctype .infeasible .ready fun row => row.numUnsatisfiedRequirements == 0
  | .markAsFeasibleForIds workUnitIds => db.markFeasible workUnitIds

section Transaction

variable {α : Type} {db db' : Db} {method : M α}

lemma Db.transaction_of_ok {self : Instance} {a : α}
    (h : method (quiet db default) = .ok a (quiet db' self)) : db.transaction method = db' := by
  rw [transaction, atomic_quiet db default true h]
  rfl

lemma Db.transaction_of_error {e : PyException} {s : Session Db Instance PyException}
    (h : method (quiet db default) = .error e s) : db.transaction method = db := by
  obtain ⟨s', hato, hdb⟩ := atomic_quiet_error db default true h
  rwa [transaction, hato]

end Transaction

variable (db : Db)

variable (self : Instance)

lemma all_quiet (ctype : Nat)
    (old toState : UnitState) (extra : WorkUnit → Bool) :
    transitionAll ctype old toState extra (quiet db self) =
    .ok () (quiet (db.transitionAll ctype old toState extra) self) := by
  simp [transitionAll, updateState]
  rfl

lemma any_pending_iff : ((List.range db.nextPk).any fun pk => (db.unit pk).state == .pending) = true ↔
    ¬ ∀ pk < db.nextPk, (db.unit pk).state ≠ .pending := by
  simp

lemma rerunAll_quiet (ctype : Nat) (fromDate toDate : Option Nat)
    (h : ∀ pk < db.nextPk, (db.unit pk).state ≠ .pending) :
    rerunAll ctype fromDate toDate (quiet db self) = .ok () (quiet
    (db.transitionAll ctype .succeeded .ready (WorkUnit.createdBetween fromDate toDate))
    self) := by
  have hnon : ¬ ((List.range db.nextPk).any fun pk => (db.unit pk).state == .pending) = true :=
    fun hsom => (any_pending_iff db).1 hsom h
  simp only [rerunAll, bind_apply, dbCall_quiet, query_quiet, if_neg hnon]
  exact all_quiet db self _ _ _ _

lemma markAsFeasibleForIds_quiet (work : Finset Nat) : markAsFeasibleForIds work (quiet db self) =
    .ok () (quiet (db.markFeasible work) self) := by
  simp only [markAsFeasibleForIds, bind_apply, query_quiet]
  refine forM_onObject_quiet (fun _ => markAsFeasible) self _ db fun workUnit hmem db' => ?_
  obtain ⟨pk, hpk, rfl⟩ := List.mem_map.1 hmem
  have hinf : (db.fetch pk).row.state = .infeasible := by
    have hpk := (List.mem_filter.1 hpk).2
    exact (of_decide_eq_true hpk).2
  exact ⟨_, feasible_quiet db' hinf⟩

lemma transit_of_not_canTransit {db : Db} {t : Transition} (h : ¬ db.CanTransit t) :
    db.transit t = db := by
  cases t with
  | perform op => exact perform_of_not_enabled h
  | bulkCreate ctype made n => exact absurd trivial h
  | requirementSatisfied pk now again => exact locked_of_missing h
  | leaseTaken pk => exact locked_of_not_enabled h
  | hasInfeasibleRequirement pk =>
    change db.locked pk hasInfeasibleRequirement = db
    exact locked_of_missing h
  | checkNumUnsatisfiedRequirements pk => exact locked_of_missing h
  | rerunAll ctype date toDate =>
    have hsom := (any_pending_iff db).2 h
    apply transaction_of_error
    simp only [rerunAll, bind_apply, dbCall_quiet, query_quiet, if_pos hsom, throw_apply]
    rfl
  | markAllAsFeasible ctype | markAsFeasibleForIds workUnitIds => exact absurd trivial h

lemma transit_of_canTransit {db : Db} {t : Transition} (h : db.CanTransit t) :
    db.transit t = db.transitEffect t := by
  cases t with
  | perform op => exact perform_of_enabled h
  | bulkCreate ctype made n => exact transaction_of_ok (execute_quiet _ _ _)
  | requirementSatisfied pk now again => exact locked_of_saved h (req_quiet db (db.fetch pk) now again)
  | leaseTaken pk => exact locked_of_transition h.1 (by simp [leaseTaken, assert_one_quiet db (db.fetch pk) h.2])
  | hasInfeasibleRequirement pk => exact locked_of_transition h (infeasible_quiet db (db.fetch pk))
  | checkNumUnsatisfiedRequirements pk => exact locked_of_saved h (checkNum_quiet db (db.fetch pk))
  | rerunAll ctype fromDate toDate =>
    exact transaction_of_ok (rerunAll_quiet db default ctype fromDate toDate h)
  | markAllAsFeasible ctype => exact transaction_of_ok (all_quiet db default _ _ _ _)
  | markAsFeasibleForIds workUnitIds =>
    exact transaction_of_ok (markAsFeasibleForIds_quiet db default workUnitIds)

lemma transit_eq (t : Transition) : db.transit t = if db.CanTransit t then db.transitEffect t else db := by
  split
  · rename_i h
    exact transit_of_canTransit h
  · rename_i h
    exact transit_of_not_canTransit h

end Toolchain.Workflow
