import Toolchain.Workflow.Infeasibility
import Toolchain.Workflow.StateCount

/-!
# Conservation — every change of state is accounted for, once

A delta is right if the instance that is moved is in the state of its row; so each loop carries the fact
that the rows still to be handled have kept their states.  Over a cyclic requirement graph that fails: a
unit may be its own requirer.
-/

namespace Toolchain.Workflow

open Lib List Db WorkUnit StateCountDelta StateCountKey Instance CountedDb

def Db.Balanced (db : Db) (applied : StateCountKey → Int) : Prop :=
  ∀ key, applied key + db.netDelta key = db.numUnits key

variable {pk : Nat}

variable {self : Instance}

namespace Db.Balanced

variable {db db' : Db} {applied : StateCountKey → Int}

/-! ## Writes of one row -/

variable {row : WorkUnit}

section

variable (h : db.Balanced applied)

include h

lemma touch (hnex : db'.nextPk = db.nextPk) (hdel : db'.deltas = db.deltas)
    (hkey : ∀ pk < db.nextPk, (db'.unit pk).countKey = (db.unit pk).countKey) :
    db'.Balanced applied := by
  intro key
  have hsam : db'.numUnits key = db.numUnits key := by
    unfold numUnits
    rw [hnex]
    exact population_congr hkey key
  rw [hsam, netDelta, hdel]
  exact h key

lemma move (hpk : pk < db.nextPk) (hnex : db'.nextPk = db.nextPk)
    (huni : db'.unit = Function.update db.unit pk row)
    (hcty : row.payloadCtype = (db.unit pk).payloadCtype)
    (hdel : db'.deltas = db.deltas ++
      [{ ctype := (db.unit pk).payloadCtype, fromState := some (db.unit pk).state, toState := some row.state
         delta := 1 }]) : db'.Balanced applied := by
  intro key
  have hnum : (db'.numUnits key : Int) = db.numUnits key +
      (if row.countKey = key then 1 else 0) - (if (db.unit pk).countKey = key then 1 else 0) := by
    unfold numUnits
    rw [hnex, huni]
    have hoth : ∀ p < db.nextPk, p ≠ pk → (Function.update db.unit pk row p).countKey =
      (db.unit p).countKey :=
      fun p _ hne => by simp [hne]
    have hupd := population_update hpk hoth key
    simpa using hupd
  have hnet : db'.netDelta key = db.netDelta key +
      ((if row.countKey = key then 1 else 0) - (if (db.unit pk).countKey = key then 1 else 0)) := by
    have hto : (⟨(db.unit pk).payloadCtype, row.state⟩ : StateCountKey) = row.countKey := by
      simp [countKey, hcty]
    simp only [netDelta, hdel, entry, map_append, map_cons,
      map_nil, Option.map_some, net_append, net_cons, net_nil, Entry.net_move, hto, add_zero]
    rfl
  have hkey := h key
  omega

lemma transition (hpk : self.pk < db.nextPk) (hfre : self.row.countKey = (db.unit self.pk).countKey)
    (st : UnitState) :
    (db.transition self st).Balanced applied := by
  have hcty : self.row.payloadCtype = (db.unit self.pk).payloadCtype := congrArg StateCountKey.ctype hfre
  have hsta : self.row.state = (db.unit self.pk).state := congrArg StateCountKey.state hfre
  refine h.move hpk rfl (Db.transition_unit _ _ _) hcty ?_
  simp [Db.transition, hcty, hsta]

lemma setUnit (hkey : row.countKey = (db.unit pk).countKey) : (db.setUnit pk row).Balanced applied := by
  refine h.touch rfl rfl fun p _ => ?_
  by_cases hne : p = pk
  · subst hne
    simpa using hkey
  · simp [hne]

lemma rewrite {bef after : Instance} (hpk : bef.pk < db.nextPk)
    (hfre : bef.row.countKey = (db.unit bef.pk).countKey)
    (hcty : after.row.payloadCtype = bef.row.payloadCtype) :
    (db.rewrite bef after).Balanced applied := by
  have hcty' : bef.row.payloadCtype = (db.unit bef.pk).payloadCtype := congrArg StateCountKey.ctype hfre
  have hsta : bef.row.state = (db.unit bef.pk).state := congrArg StateCountKey.state hfre
  by_cases hsam : after.row.state = bef.row.state
  · have hkey : after.row.countKey = (db.unit bef.pk).countKey := by
      simp [WorkUnit.countKey, hcty, hcty', hsam, hsta]
    exact (h.setUnit hkey).touch rfl (by simp [Db.rewrite, Db.setUnit, hsam]) fun _ _ => rfl
  · refine h.move hpk rfl (Db.rewrite_unit _ _ _) (hcty.trans hcty') ?_
    rw [hsta] at hsam
    simp [Db.rewrite, hsam, hcty', hsta]

lemma bulkCreate (ctype made n : Nat) : (db.bulkCreate ctype made n).Balanced applied := by
  intro key
  have hnum : ((db.bulkCreate ctype made n).numUnits key : Int) = db.numUnits key +
      if (⟨ctype, .ready⟩ : StateCountKey) = key then (n : Int) else 0 := by
    refine population_append key ?_ ?_
    · intro pk hpk
      simp [Db.bulkCreate, Nat.not_le.2 hpk]
    · intro pk hle hlt
      simp [Db.bulkCreate, hle, hlt, WorkUnit.countKey]
  have hnet : (db.bulkCreate ctype made n).netDelta key = db.netDelta key +
      if (⟨ctype, .ready⟩ : StateCountKey) = key then (n : Int) else 0 := by
    simp [Db.netDelta, Db.bulkCreate, StateCountDelta.entry, Entry.net_new]
  have hkey := h key
  omega

lemma transitionAll (ctype : Nat) (fromState toState : UnitState) (extra : WorkUnit → Bool) :
    (db.transitionAll ctype fromState toState extra).Balanced applied := by
  intro key
  have hnum : ((db.transitionAll ctype fromState toState extra).numUnits key : Int) =
      db.numUnits key + (if (⟨ctype, toState⟩ : StateCountKey) = key then
      (db.countUnits (WorkUnit.selected ctype fromState extra) : Int) else 0) -
      (if (⟨ctype, fromState⟩ : StateCountKey) = key then
      (db.countUnits (WorkUnit.selected ctype fromState extra) : Int) else 0) := by
    refine population_move (fun pk => WorkUnit.selected ctype fromState extra (db.unit pk)) key ?_ ?_
    · intro pk hpk hsel
      have hrow : (db.unit pk).payloadCtype = ctype ∧ (db.unit pk).state = fromState := by
        simp only [WorkUnit.selected, Bool.and_eq_true, beq_iff_eq] at hsel
        exact hsel.1
      have hpk : pk < db.nextPk := hpk
      simp [Db.transitionAll, Db.updateState, hpk, hsel, WorkUnit.countKey, hrow]
    · intro pk _ hsel
      simp [Db.transitionAll, Db.updateState, hsel]
  have hnet : (db.transitionAll ctype fromState toState extra).netDelta key = db.netDelta key +
      ((if (⟨ctype, toState⟩ : StateCountKey) = key then
      (db.countUnits (WorkUnit.selected ctype fromState extra) : Int) else 0) -
      (if (⟨ctype, fromState⟩ : StateCountKey) = key then
      (db.countUnits (WorkUnit.selected ctype fromState extra) : Int) else 0)) := by
    simp [Db.netDelta, Db.transitionAll, StateCountDelta.entry, Entry.net_move]
  have hkey := h key
  omega

end

end Db.Balanced

/-! ## What keeps the type and the state of a unit -/

@[simp] lemma Db.bumpPending_countKey (db : Db) (pk p : Nat) :
    ((db.bumpPending pk).unit p).countKey = (db.unit p).countKey := by
  simp only [bumpPending]
  split <;> rfl

lemma Instance.satisfied_payloadCtype (now : Nat) (again : Bool) (self : Instance) (unsat : Int) :
    (self.satisfied now again unsat).row.payloadCtype =
    self.row.payloadCtype := by
  unfold satisfied
  cases self.row.state with
  | pending | succeeded => simp only; split <;> rfl
  | leased => rfl
  | infeasible => simp only; split <;> rfl
  | ready => rfl

lemma Db.satisfy_eq_rewrite (now : Nat) (again : Bool) (db : Db) (self : Instance) :
    db.satisfy now again self = (if self.row.state = .succeeded ∧ again = true then
        db.bumpPending self.pk
      else
        db).rewrite self (self.satisfied now again (db.unsatisfied self.pk).card) := by
  unfold satisfy rewrite
  simp only
  split <;> rfl

lemma Db.satisfy_countKey_of_ne (now : Nat) (again : Bool) (db : Db) {p : Nat} (hne : p ≠ self.pk) :
    ((db.satisfy now again self).unit p).countKey = (db.unit p).countKey := by
  rw [satisfy_eq_rewrite, rewrite_unit, Function.update_of_ne hne]
  split
  · simp
  · rfl

namespace Db.Balanced

variable {db : Db} {applied : StateCountKey → Int}

lemma bumpPending (h : db.Balanced applied) (pk : Nat) : (db.bumpPending pk).Balanced applied :=
  h.touch rfl rfl fun p _ => bumpPending_countKey db pk p

lemma satisfy (h : db.Balanced applied) (hpk : self.pk < db.nextPk)
    (hfre : self.row.countKey = (db.unit self.pk).countKey) (now : Nat)
    (again : Bool) : (db.satisfy now again self).Balanced applied := by
  rw [satisfy_eq_rewrite]
  split
  · exact (h.bumpPending self.pk).rewrite hpk (by simpa using hfre) (satisfied_payloadCtype _ _ _ _)
  · exact h.rewrite hpk hfre (satisfied_payloadCtype _ _ _ _)

/-- A loop over fetched units, each of which only writes its own row. -/
lemma foldl_fetched (start : Db) {f : Db → Instance → Db}
    (hbal : ∀ db pk, db.Balanced applied → pk < db.nextPk →
      (start.unit pk).countKey = (db.unit pk).countKey →
    (f db (start.fetch pk)).Balanced applied)
    (hkep : ∀ db pk, (f db (start.fetch pk)).nextPk = db.nextPk ∧ ∀ p, p ≠ pk →
    ((f db (start.fetch pk)).unit p).countKey = (db.unit p).countKey) :
    ∀ (pks : List Nat) (db : Db), db.Balanced applied → pks.Nodup →
    (∀ p ∈ pks, p < db.nextPk ∧ (start.unit p).countKey = (db.unit p).countKey) →
    ((pks.map start.fetch).foldl f db).Balanced applied ∧ ∀ p, p ∉ pks →
    (((pks.map start.fetch).foldl f db).unit p).countKey = (db.unit p).countKey
  | [], db, h, _, _ => ⟨h, fun _ _ => rfl⟩
  | pk :: pks, db, h, hnod, hpks => by
      obtain ⟨hnew, hnod⟩ := nodup_cons.1 hnod
      obtain ⟨hlt, hfre⟩ := hpks pk (.head _)
      obtain ⟨hnex, hoth⟩ := hkep db pk
      obtain ⟨hres, hsam⟩ := foldl_fetched start hbal hkep pks _ (hbal db pk h hlt hfre) hnod (by
        intro p hp
        rw [hnex, hoth p fun heq => hnew (heq ▸ hp)]
        exact hpks p (.tail _ hp))
      refine ⟨hres, fun p hp => ?_⟩
      rw [mem_cons, not_or] at hp
      rw [map_cons, foldl_cons, hsam p hp.2, hoth p hp.1]

end Db.Balanced

/-! ## Operations -/

section

variable {db : Db} {applied : StateCountKey → Int} (h : db.Balanced applied)
include h

lemma balanced_require {tgt : Nat} (hpk : pk < db.nextPk) :
    (db.require (db.fetch pk) tgt).Balanced applied := by
  have hedg := h.touch rfl rfl fun _ _ => rfl
  unfold require
  split
  · exact hedg.setUnit rfl
  · exact hedg.transition hpk rfl _
  · split
    · exact hedg.setUnit rfl
    · exact hedg.transition hpk rfl _

lemma balanced_requireNew (hpk : pk < db.nextPk) (ctype made n : Nat) :
    (db.requireNew (db.fetch pk) ctype made n).Balanced applied := by
  have hcre := (h.bulkCreate ctype made n).touch rfl rfl fun _ _ => rfl
  have hold : ((db.bulkCreate ctype made n).requireLast pk n).unit pk = db.unit pk := by
    simp [requireLast, bulkCreate, Nat.not_le.2 hpk]
  have hfre : ((db.fetch pk).addUnsatisfied n).row.countKey =
      (((db.bulkCreate ctype made n).requireLast pk n).unit pk).countKey := by
    rw [hold]
    rfl
  unfold requireNew
  split
  · exact hcre.transition (Nat.lt_add_right n hpk) hfre _
  · exact hcre.setUnit hfre

lemma balanced_succeeded (hacy : db.Acyclic) (hpk : pk < db.nextPk) (now : Nat) (again : Bool) :
    (db.effect (.workSucceeded pk now again)).Balanced applied := by
  have hsel : (db.succeed (db.fetch pk)).Balanced applied := h.transition hpk rfl _
  obtain ⟨hloo, hkep⟩ := Db.Balanced.foldl_fetched (db.succeed (db.fetch pk))
    (fun _ _ h hlt hfre => h.satisfy hlt hfre now again)
    (fun db _ => ⟨by simp, fun _ hne => satisfy_countKey_of_ne now again db hne⟩)
    ((db.succeed (db.fetch pk)).requirers pk) _ hsel
    ((db.succeed (db.fetch pk)).pairwise_requirers pk).nodup
    (fun p hp => ⟨(mem_requirers.1 hp).1, rfl⟩)
  refine hloo.setUnit ?_
  -- the unit is none of its requirers, so the loop has left it `SUCCEEDED`
  rw [hkep pk (hacy.notMem_requirers pk)]
  simp

omit h in
lemma notMem_condemned (hacy : db.Acyclic) (pk : Nat) : pk ∉ db.condemned pk := by
  intro hmem
  have hdoo := (of_decide_eq_true (mem_filter.1 hmem).2).1
  rw [mem_doomed_iff, ← Relation.transGen_swap] at hdoo
  refine hacy pk (.mono (fun sour tgt hedg => ?_) _ _ hdoo)
  exact (mem_requirers.1 (mem_of_mem_filter hedg)).2

lemma balanced_permanent (hacy : db.Acyclic) (hpk : pk < db.nextPk) :
    (db.effect (.permanentErrorOccurred pk)).Balanced applied := by
  obtain ⟨hloo, hkep⟩ := Db.Balanced.foldl_fetched db (f := fun db o => db.transition o .infeasible)
    (fun _ _ h hlt hfre => h.transition hlt hfre _) (fun _ _ => ⟨rfl, fun _ hne => by simp [hne]⟩)
    (db.condemned pk) db h (nodup_range.filter _)
    (fun p hp => ⟨mem_range.1 (mem_of_mem_filter hp), rfl⟩)
  refine .transition hloo ?_ (hkep pk (notMem_condemned hacy pk)).symm _
  change pk < (db.condemn pk).nextPk
  simpa using hpk

lemma balanced_transit (hacy : db.Acyclic) (t : Transition) : (db.transit t).Balanced applied := by
  rw [transit_eq]
  split
  swap
  · exact h
  rename_i hcan
  cases t with
  | perform op =>
    cases op with
    | create ctype made => exact h.bulkCreate ctype made 1
    | addRequirement pk tgt => exact balanced_require h hcan.1
    | createRequirements pk ctype made n => exact balanced_requireNew h hcan.1 ctype made n
    | takeLease pk holder unt last node => exact h.rewrite hcan.1 rfl rfl
    | revokeLease pk | markAsFeasible pk => exact h.transition hcan.1 rfl _
    | workSucceeded pk now again => exact balanced_succeeded h hacy hcan.1 now again
    | rerun pk => exact (h.bumpPending pk).transition hcan.1 (by simp) _
    | permanentErrorOccurred pk => exact balanced_permanent h hacy hcan.1
  | bulkCreate ctype made n => exact h.bulkCreate ctype made n
  | requirementSatisfied pk now again =>
    have hpk : (db.fetch pk).pk < db.nextPk := hcan
    exact h.satisfy hpk rfl now again
  | leaseTaken pk => exact h.transition hcan.1 rfl _
  | hasInfeasibleRequirement pk =>
    have hpk : (db.fetch pk).pk < db.nextPk := hcan
    exact h.transition hpk rfl _
  | checkNumUnsatisfiedRequirements pk =>
    have hpk := hcan
    refine h.rewrite hpk rfl ?_
    simp only [recounted]
    split <;> rfl
  | rerunAll ctype fromDate toDate | markAllAsFeasible ctype => exact h.transitionAll ctype _ _ _
  | markAsFeasibleForIds workUnitIds =>
    exact (Db.Balanced.foldl_fetched db (f := fun db o => db.transition o o.row.stateForCount)
      (fun _ _ h hlt hfre => h.transition hlt hfre _) (fun _ _ => ⟨rfl, fun _ hne => by simp [hne]⟩) _ db h
      (nodup_range.filter _) (fun p hp => ⟨mem_range.1 (mem_of_mem_filter hp), rfl⟩)).1

end

namespace CountedDb

lemma conserved_step {s : CountedDb} (h : s.Conserved) (hacy : s.db.Acyclic) (e : Event) :
    (s.step e).Conserved := by
  cases e with
  | transit t =>
    have hbal := h
    exact balanced_transit hbal hacy t
  | apply n loc shard => exact conserved_apply h n loc shard
  | recompute => exact conserved_recompute h

lemma conserved_empty : empty.Conserved := by
  intro key
  simp [empty, Counters.empty, Counters.total, Db.empty, Db.netDelta, Db.numUnits, population]

/-- In every run over acyclic graphs the counts of all shards and the outstanding deltas together are
the number of units. -/
theorem counts_conserved (events : List Event)
    (hacyclic : ∀ s ∈ trace step empty events, s.db.Acyclic) :
    ∀ s ∈ trace step empty events, ∀ key, s.counts.total key + s.db.netDelta key = s.db.numUnits key := by
  have htri : Guarded step (fun _ _ => True) empty events :=
    guarded_of_forall_mem (fun _ _ _ => trivial) _
  exact forall_trace_of_guarded Conserved (fun s e hs hgua => conserved_step hs hgua.1 e) conserved_empty
    (htri.and_trace hacyclic)

def countedRun : List Event :=
  [.transit (.bulkCreate 0 0 2), .transit (.perform (.addRequirement 1 0)), .apply 1 ∅ 7,
    .transit (.perform (.takeLease 0 "a" 10 5 "n")), .transit (.perform (.workSucceeded 0 6 true)),
    .apply 10 {0} 50, .apply 10 ∅ 0, .recompute]

theorem counts_conserved_countedRun : (run step empty countedRun).Conserved :=
  counts_conserved countedRun (fun s hs => acyclic_of_requires_eq ((trace step empty countedRun).map db)
      (m := 2) (n := 7) rfl s.db (mem_map_of_mem hs))
    _ (run_mem_trace _ _)

end CountedDb

end Toolchain.Workflow
