import Mathlib.Data.Finset.Card
import Toolchain.Lib.Transaction

/-!
# WorkUnit — the workflow tables and the transition methods of a work unit

The tables are those of `workflow/models.py`.  Work units are never deleted, so their keys are the
numbers below `nextPk`, and `order_by("pk")` is the order of `List.range`.  A method assigns attributes
of an `Instance` in memory and sends statements, each of which may fail.
-/

namespace Toolchain.Workflow

open Lib

/-! ## Tables -/

inductive UnitState
  | pending | ready | leased | succeeded | infeasible
  deriving DecidableEq, Repr

structure WorkUnit where
  payloadCtype : Nat
  state : UnitState := .ready
  numUnsatisfiedRequirements : Int := 0
  createdAt : Nat := 0
  lastAttempt : Nat := 0
  succeededAt : Nat := 0
  leasedUntil : Option Nat := none
  leaseHolder : String := ""
  node : String := ""
  deriving DecidableEq, Repr, Inhabited

structure StateCountDelta where
  ctype : Nat
  (fromState toState : Option UnitState)
  delta : Int
  deriving DecidableEq, Repr

structure Db where
  nextPk : Nat
  unit : Nat → WorkUnit
  requires : Nat → Nat → Bool
  deltas : List StateCountDelta

structure Instance where
  pk : Nat
  row : WorkUnit
  deriving DecidableEq, Repr, Inhabited

namespace Db

def empty : Db :=
  { nextPk := 0, unit := fun _ => default, requires := fun _ _ => false, deltas := [] }

@[simps -fullyApplied unit requires nextPk]
def setUnit (db : Db) (pk : Nat) (row : WorkUnit) : Db :=
  { db with unit := Function.update db.unit pk row }

@[simps pk row]
def fetch (db : Db) (pk : Nat) : Instance :=
  { pk := pk, row := db.unit pk }

def requirers (db : Db) (pk : Nat) : List Nat :=
  (List.range db.nextPk).filter fun source => db.requires source pk

def unsatisfied (db : Db) (pk : Nat) : Finset Nat :=
  (Finset.range db.nextPk).filter fun target =>
    db.requires pk target = true ∧ (db.unit target).state ≠ .succeeded

end Db

/-! ## Exceptions -/

inductive Category
  | advisory | transient | permanent
  deriving DecidableEq, Repr

inductive PyException
  | workException (category : Category)
  | operationalError (message : String)
  | interfaceError (message : String)
  | databaseError (message : String)
  | noCredentialsError (message : String)
  | unexpectedState (state : UnitState)
  | doesNotExist
  | other (message : String)
  deriving DecidableEq, Repr

def PyException.isDbError : PyException → Bool
  | .operationalError _ => true
  | .interfaceError _ => true
  | .databaseError _ => true
  | _ => false

instance : TransactionError PyException where
  aborted := .databaseError "current transaction is aborted"

abbrev M (α : Type) := TxM Db Instance PyException α

/-! ## State bookkeeping -/

def save : M Unit := do
  let self ← object
  execute fun db => db.setUnit self.pk self.row

def accountForStateTransition (ctype : Nat) (fromState toState : Option UnitState) : M Unit :=
  execute fun db =>
    { db with
      deltas := db.deltas ++ [{ ctype := ctype, fromState := fromState, toState := toState, delta := 1 }] }

@[simps pk row_state row_numUnsatisfiedRequirements]
def Instance.setState (self : Instance) (state : UnitState) : Instance :=
  { self with row := { self.row with state := state } }

@[simps pk row_state row_numUnsatisfiedRequirements]
def Instance.addUnsatisfied (self : Instance) (n : Int) : Instance :=
  { self with row := { self.row with numUnsatisfiedRequirements := self.row.numUnsatisfiedRequirements + n } }

/-- The first read of the cached property `payload` is a query of its own; the two are one here. -/
def transitionToState (newState : UnitState) : M Unit := do
  let self ← object
  accountForStateTransition self.row.payloadCtype (some self.row.state) (some newState)
  assign fun self => self.setState newState
  save

inductive AllowedStates
  | one (state : UnitState)
  | list (states : List UnitState)

/-- `_assert_state`; its `raise` stands inside the branch for a single state, so a list of
allowed states is never checked. -/
def assertState : AllowedStates → M Unit
  | .one state => do
      let self ← object
      if self.row.state ≠ state then
        throw (.unexpectedState self.row.state)
  | .list _ => pure ()

/-! ## Transition methods -/

def createWorkUnit (ctype createdAt : Nat) : M Unit := do
  execute fun db =>
    { db with
      nextPk := db.nextPk + 1
      unit := Function.update db.unit db.nextPk
        { payloadCtype := ctype, createdAt := createdAt } }
  accountForStateTransition ctype none (some .ready)

def getOrCreateRequirement (source target : Nat) : M Bool := do
  if ← query fun db => db.requires source target then
    return false
  if ← inspect fun db => decide (target < db.nextPk) then
    execute fun db => { db with requires := fun s t => (s == source && t == target) || db.requires s t }
    return true
  throw (.databaseError "foreign key constraint violated")

def lockUnsatisfiedTarget (target : Nat) : M (Option UnitState) :=
  query fun db =>
    if target < db.nextPk ∧ (db.unit target).state ≠ .succeeded then some (db.unit target).state else none

def addRequirement (targetPk : Nat) : M Bool := do
  assertState (.list [.pending, .ready, .leased])
  let self ← object
  let created ← getOrCreateRequirement self.pk targetPk
  if created then
    match ← lockUnsatisfiedTarget targetPk with
    | none => pure ()
    | some targetState =>
      assign fun self => self.addUnsatisfied 1
      if targetState = .infeasible then
        transitionToState .infeasible
      else if self.row.state ≠ .pending then
        transitionToState .pending
  return created

def Db.bulkCreate (db : Db) (ctype createdAt n : Nat) : Db :=
  { db with
    nextPk := db.nextPk + n
    unit := fun pk =>
      if db.nextPk ≤ pk ∧ pk < db.nextPk + n then
        { payloadCtype := ctype, createdAt := createdAt }
      else
        db.unit pk
    deltas := db.deltas ++ [{ ctype := ctype, fromState := none, toState := some .ready, delta := n }] }

def Db.requireLast (db : Db) (source n : Nat) : Db :=
  { db with
    requires := fun s t => (s == source && decide (db.nextPk ≤ t + n ∧ t < db.nextPk)) || db.requires s t }

def createRequirements (ctype createdAt n : Nat) : M Unit := do
  assertState (.list [.pending, .ready, .leased])
  if n = 0 then
    return
  let self ← object
  execute fun db => db.bulkCreate ctype createdAt n
  execute fun db => db.requireLast self.pk n
  assign fun self => self.addUnsatisfied n
  if self.row.state = .ready then
    transitionToState .pending
  save

def rerun : M Unit := do
  assertState (.one .succeeded)
  let self ← object
  let requirers ← query fun db => (db.requirers self.pk).map db.fetch
  requirers.forM fun requirer => onObject requirer do
    if requirer.row.state = .pending then
      assign fun self => self.addUnsatisfied 1
      save
  transitionToState .ready

def WorkUnit.isRescheduled (row : WorkUnit) (now : Nat) : Bool :=
  match row.leasedUntil with
  | none => false
  | some t => decide (now < t)

def requirementSatisfied (now : Nat) (rerunIfSucceeded : Bool) : M Unit := do
  let self ← object
  match self.row.state with
  | .pending =>
    assign fun self => self.addUnsatisfied (-1)
    if self.row.numUnsatisfiedRequirements - 1 = 0 then
      if self.row.isRescheduled now then transitionToState .leased else transitionToState .ready
  | .succeeded =>
    if rerunIfSucceeded then
      rerun
  | .leased => assign fun self => self.addUnsatisfied (-1)
  | .infeasible =>
    let count ← query fun db => ((db.unsatisfied self.pk).card : Int)
    assign fun self => { self with row := { self.row with numUnsatisfiedRequirements := count } }
    if count = 0 then
      transitionToState .ready
  | .ready => pure ()

def leaseTaken : M Unit := do
  assertState (.one .ready)
  transitionToState .leased

def takeLease (holder : String) (until_ lastAttempt : Nat) (node : String) : M Unit := do
  assign fun self =>
    { self with
      row := { self.row with
        leasedUntil := some until_
        leaseHolder := holder
        node := node
        lastAttempt := lastAttempt } }
  leaseTaken

def WorkUnit.stateForCount (row : WorkUnit) : UnitState :=
  if row.numUnsatisfiedRequirements = 0 then .ready else .pending

def revokeLease : M Unit := do
  assertState (.one .leased)
  transitionToState (← object).row.stateForCount

/-- The loop at the end of `work_succeeded`: all requirers are fetched before the first one is
handled. -/
def satisfyRequirers (now : Nat) (rerunRequirers : Bool) (pk : Nat) : M Unit := do
  let requirers ← query fun db => (db.requirers pk).map db.fetch
  requirers.forM fun requirer => onObject requirer do
    requirementSatisfied now rerunRequirers
    save

def workSucceeded (now : Nat) (rerunRequirers : Bool) : M Unit := do
  assertState (.one .leased)
  assign fun self => { self with row := { self.row with succeededAt := self.row.lastAttempt } }
  transitionToState .succeeded
  save
  satisfyRequirers now rerunRequirers (← object).pk

/-- The recursion of `_gather_transitive_requirers`; `fuel` bounds its depth. -/
def gatherTransitiveRequirers : Nat → Nat → Finset Nat → M (Finset Nat)
  | 0, _, ret => return ret
  | fuel + 1, pk, ret => do
      let direct ← query fun db => (db.requirers pk).filter (· ≠ pk)
      let unhandled := direct.filter (· ∉ ret)
      unhandled.foldlM (fun ret requirer => gatherTransitiveRequirers fuel requirer ret)
        (ret ∪ direct.toFinset)

def hasInfeasibleRequirement : M Unit := do
  assertState (.list [.pending, .succeeded])
  transitionToState .infeasible

def permanentErrorOccurred : M Unit := do
  assertState (.one .leased)
  let self ← object
  let depth ← inspect fun db => db.nextPk + 1
  let pks ← gatherTransitiveRequirers depth self.pk ∅
  let requirers ← query fun db =>
    ((List.range db.nextPk).filter fun pk =>
      decide (pk ∈ pks ∧ (db.unit pk).state ≠ .infeasible)).map db.fetch
  requirers.forM fun requirer => onObject requirer hasInfeasibleRequirement
  transitionToState .infeasible

def markAsFeasible : M Unit := do
  assertState (.one .infeasible)
  transitionToState (← object).row.stateForCount

def checkNumUnsatisfiedRequirements : M (Option Int) := do
  assertState (.list [.pending, .infeasible])
  let self ← object
  let actual ← query fun db => ((db.unsatisfied self.pk).card : Int)
  if self.row.numUnsatisfiedRequirements = actual then
    return none
  assign fun self => { self with row := { self.row with numUnsatisfiedRequirements := actual } }
  if actual = 0 ∧ self.row.state = .pending then
    transitionToState .ready
  return some actual

end Toolchain.Workflow
