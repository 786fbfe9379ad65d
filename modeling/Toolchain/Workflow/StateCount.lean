import Toolchain.Lib.Ledger
import Toolchain.Workflow.Steps

/-!
# StateCount — the counts of work units by type and state

A transition leaves a row in `WorkUnitStateCountDelta`; a background process folds batches of them into
`WorkUnitStateCount`, each into a random shard.  `recompute` counts again when no delta is outstanding.
-/

namespace Toolchain.Workflow

open Lib List StateCountDelta

/-! ## Keys and totals -/

structure StateCountKey where
  ctype : Nat
  state : UnitState
  deriving DecidableEq, Repr

def UnitState.rank : UnitState → Nat
  | .infeasible => 0
  | .leased => 1
  | .pending => 2
  | .ready => 3
  | .succeeded => 4

def StateCountKey.le (a b : StateCountKey) : Bool :=
  decide (a.ctype < b.ctype ∨ a.ctype = b.ctype ∧ a.state.rank ≤ b.state.rank)

def WorkUnit.countKey (row : WorkUnit) : StateCountKey :=
  { ctype := row.payloadCtype, state := row.state }

def StateCountDelta.entry (row : StateCountDelta) : Entry StateCountKey where
  source := row.fromState.map (StateCountKey.mk row.ctype)
  target := row.toState.map (StateCountKey.mk row.ctype)
  amount := row.delta

def Db.netDelta (db : Db) (key : StateCountKey) : Int :=
  net (db.deltas.map StateCountDelta.entry) key

def Db.numUnits (db : Db) (key : StateCountKey) : Nat :=
  population db.nextPk (fun pk => (db.unit pk).countKey) key

/-! ## The background process -/

structure CountedDb where
  db : Db
  counts : Counters StateCountKey

namespace CountedDb

def empty : CountedDb :=
  { db := Db.empty, counts := Counters.empty }

def applyDeltas (counts : Counters StateCountKey) (shard : Nat)
    (keyToDelta : List (StateCountKey × Int)) : Counters StateCountKey :=
  counts.addAll shard (keyToDelta.insertionSort fun a b => a.1.le b.1)

/-- The rows `objects.all()[0:n].select_for_update(skip_locked=True)` returns, with their keys; the
rows at the positions in `locked` are skipped. -/
def batch (db : Db) (n : Nat) (locked : Finset Nat) : List (StateCountDelta × Nat) :=
  (db.deltas.zipIdx.filter fun row => decide (row.2 ∉ locked)).take n

def apply (s : CountedDb) (n : Nat) (locked : Finset Nat) (shard : Nat) : CountedDb :=
  let rows := batch s.db n locked
  { db :=
      { s.db with
        deltas := (s.db.deltas.zipIdx.filter fun row => decide (row.2 ∉ rows.map Prod.snd)).map Prod.fst }
    counts := applyDeltas s.counts shard (collate (rows.map fun row => row.1.entry)) }

def recompute (s : CountedDb) : CountedDb :=
  if s.db.deltas = [] then
    { s with
      counts := Counters.recount 0 ((List.range s.db.nextPk).map fun pk => (s.db.unit pk).countKey)
        (fun key => s.db.numUnits key) }
  else
    s

inductive Event
  | transit (t : Transition)
  | apply (n : Nat) (locked : Finset Nat) (shard : Nat)
  | recompute

def step (s : CountedDb) : Event → CountedDb
  | .transit t => { s with db := s.db.transit t }
  | .apply n locked shard => s.apply n locked shard
  | .recompute => s.recompute

def Conserved (s : CountedDb) : Prop :=
  ∀ key, s.counts.total key + s.db.netDelta key = s.db.numUnits key

/-! ## Applying and recounting -/

lemma net_batch (db : Db) (n : Nat) (loc : Finset Nat) (key : StateCountKey) :
    net ((batch db n loc).map fun row => row.1.entry) key + net ((db.deltas.zipIdx.filter fun row =>
    decide (row.2 ∉ (batch db n loc).map Prod.snd)).map fun row => row.1.entry) key =
    db.netDelta key := by
  have hsub : (batch db n loc).Sublist db.deltas.zipIdx := (take_sublist _ _).trans filter_sublist
  have huni : (db.deltas.zipIdx.map Prod.snd).Nodup := by
    rw [zipIdx_map_snd]
    exact nodup_range'
  have hall : db.deltas.zipIdx.map (fun row => row.1.entry) = db.deltas.map entry := by
    calc db.deltas.zipIdx.map (fun row => row.1.entry) = (db.deltas.zipIdx.map Prod.fst).map entry := by
          rw [map_map]
          rfl
      _ = db.deltas.map entry := by rw [zipIdx_map_fst]
  have hper := (perm_of_sublist Prod.snd hsub huni).map fun row => row.1.entry
  rw [map_append, hall] at hper
  rw [← net_append]
  exact net_perm hper key

lemma conserved_apply {s : CountedDb} (h : s.Conserved) (n : Nat) (loc : Finset Nat)
    (shard : Nat) : (s.apply n loc shard).Conserved := by
  intro key
  have htot : (s.apply n loc shard).counts.total key =
      s.counts.total key + net ((batch s.db n loc).map fun row => row.1.entry) key := by
    rw [← balance_collate]
    exact (Counters.total_addAll ..).trans (congrArg _ (balance_perm (perm_insertionSort _ _) key))
  have hlef : (s.apply n loc shard).db.netDelta key = net ((s.db.deltas.zipIdx.filter fun row =>
        decide (row.2 ∉ (batch s.db n loc).map Prod.snd)).map fun row => row.1.entry) key := by
    simp [apply, Db.netDelta, Function.comp_def]
  have hnet := net_batch s.db n loc key
  have hkey := h key
  have hsam : (s.apply n loc shard).db.numUnits key = s.db.numUnits key := rfl
  omega

lemma conserved_recompute {s : CountedDb} (h : s.Conserved) : s.recompute.Conserved := by
  unfold recompute
  split
  swap
  · exact h
  rename_i hnon
  intro key
  have hnet : s.db.netDelta key = 0 := by simp [Db.netDelta, hnon]
  simp only [Counters.total_recount, hnet, add_zero]
  split
  · rfl
  -- a key that no unit has is not counted
  rename_i hmem
  have hzer : s.db.numUnits key = 0 := by
    refine countP_eq_zero.2 fun pk hpk hkey => hmem ?_
    exact mem_map.2 ⟨pk, hpk, of_decide_eq_true hkey⟩
  simp [hzer]

end CountedDb

end Toolchain.Workflow
