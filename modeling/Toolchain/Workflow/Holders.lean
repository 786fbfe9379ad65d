import Toolchain.Workflow.Steps

/-!
# Holders — who may write the column `lease_holder`

`take_lease` is the only method that writes an identifier into `lease_holder`.  So what holds of the
holder of every row, and of the instance in memory, does so after any other method, whichever statements
fail.
-/

namespace Toolchain.Workflow

open Lib Maintains

variable {H : Nat → String → Prop} {α : Type}

def Db.Holders (H : Nat → String → Prop) (db : Db) : Prop :=
  ∀ pk, H pk (db.unit pk).leaseHolder

def Instance.Holder (H : Nat → String → Prop) (pk : Nat) (self : Instance) : Prop :=
  self.pk = pk ∧ H pk self.row.leaseHolder

/-- The program keeps `H` of all holders, and the primary key of the instance, also if it raises. -/
def KeepsHolders (H : Nat → String → Prop) (m : M α) : Prop :=
  ∀ pk, Maintains (Db.Holders H) (Instance.Holder H pk) (fun _ => True) m

/-! ## Statements -/

section

variable {β : Type} {x y : M α}

lemma holders_bind {f : α → M β} (hx : KeepsHolders H x) (hf : ∀ a, KeepsHolders H (f a)) :
    KeepsHolders H (x >>= f) :=
  fun pk => .bind (hx pk) fun a _ => hf a pk

lemma holders_pure (a : α) : KeepsHolders H (pure a : M α) := fun _ => .pure trivial

lemma holders_throw (e : PyException) : KeepsHolders H (throw e : M α) := fun _ => .throw e

lemma holders_ite {p : Prop} [Decidable p] (hx : KeepsHolders H x) (hy : KeepsHolders H y) :
    KeepsHolders H (if p then x else y) :=
  fun pk => .ite (hx pk) (hy pk)

lemma holders_dbCall : KeepsHolders H (dbCall : M Unit) := fun _ => .dbCall

lemma holders_query (g : Db → α) : KeepsHolders H (query g : M α) := fun _ => .query fun _ _ => trivial

lemma holders_inspect (g : Db → α) : KeepsHolders H (inspect g : M α) :=
  fun _ => .inspect fun _ _ => trivial

lemma holders_object : KeepsHolders H (object : M Instance) := fun _ => object.weaken fun _ _ => trivial

lemma holders_attempt {handler : PyException → M α} (hx : KeepsHolders H x)
    (hhandler : ∀ e, KeepsHolders H (handler e)) : KeepsHolders H (attempt x handler) :=
  fun pk => .attempt (hx pk) fun e => hhandler e pk

lemma holders_atomic (outermost : Bool) (hx : KeepsHolders H x) : KeepsHolders H (atomic outermost x) :=
  fun pk => .atomic outermost (hx pk)

/-- The primary key of the instance is never assigned. -/
lemma pk_of_keepsHolders (hx : KeepsHolders (fun _ _ => True) x) (s : Session Db Instance PyException) :
    (final (x s)).mem.pk = s.mem.pk :=
  (hx s.mem.pk s (fun _ => trivial) ⟨rfl, trivial⟩).2.1.1

end

lemma holders_assign {g : Instance → Instance}
    (hg : ∀ self, (g self).pk = self.pk ∧ (g self).row.leaseHolder = self.row.leaseHolder) :
    KeepsHolders H (assign g : M Unit) := by
  refine fun pk => .assign fun self hself => ?_
  unfold Instance.Holder
  rwa [(hg self).1, (hg self).2]

lemma holders_execute {g : Db → Db} (hempty : ∀ pk, H pk "")
    (hg : ∀ db pk, ((g db).unit pk).leaseHolder = "" ∨
    ((g db).unit pk).leaseHolder = (db.unit pk).leaseHolder) : KeepsHolders H (execute g : M Unit) := by
  refine fun _ => .execute fun db hdb pk => ?_
  rcases hg db pk with hnone | hsame
  · rw [hnone]
    exact hempty pk
  · rw [hsame]
    exact hdb pk

lemma holders_execute_same {g : Db → Db}
    (hg : ∀ db pk, ((g db).unit pk).leaseHolder = (db.unit pk).leaseHolder) :
    KeepsHolders H (execute g : M Unit) := by
  refine fun _ => .execute fun db hdb pk => ?_
  rw [hg db pk]
  exact hdb pk

lemma holders_save : KeepsHolders H save := by
  refine fun _ => .bind object fun self hself => .execute fun db hdb pk => ?_
  by_cases hpk : pk = self.pk
  · subst hpk
    simpa [hself.1] using hself.2
  · simpa [hpk] using hdb pk

lemma holders_fetched {g : Db → List Nat} {f : List Instance → M α}
    (hf : ∀ os, (∀ o ∈ os, H o.pk o.row.leaseHolder) → KeepsHolders H (f os)) :
    KeepsHolders H (query (fun db => (g db).map db.fetch) >>= f) := by
  refine fun pk => .bind (.query fun db hdb o ho => ?_) fun os hos => hf os hos pk
  obtain ⟨pk, _, rfl⟩ := List.mem_map.1 ho
  exact hdb pk

lemma holders_forM {body : Instance → M PUnit} {os : List Instance}
    (hos : ∀ o ∈ os, H o.pk o.row.leaseHolder) (hbody : ∀ o, KeepsHolders H (body o)) :
    KeepsHolders H (os.forM fun o => onObject o (body o)) :=
  fun _ => .forM os fun o ho => .onObject ⟨rfl, hos o ho⟩ (hbody o o.pk)

lemma holders_assert (allo : AllowedStates) : KeepsHolders H (assertState allo) := by
  cases allo with
  | one state => exact holders_bind holders_object fun _ => holders_ite (holders_throw _) (holders_pure _)
  | list stat => exact holders_pure _

lemma holders_transition (st : UnitState) : KeepsHolders H (transitionToState st) :=
  holders_bind holders_object fun _ => holders_bind (holders_execute_same fun _ _ => rfl) fun _ =>
    holders_bind (holders_assign fun _ => ⟨rfl, rfl⟩) fun _ => holders_save

/-! ## Transition methods -/

lemma holders_rerun : KeepsHolders H rerun :=
  holders_bind (holders_assert _) fun _ => holders_bind holders_object fun _ =>
    holders_fetched fun _ hos => holders_bind (holders_forM hos fun _ => holders_ite
        (holders_bind (holders_assign fun _ => ⟨rfl, rfl⟩) fun _ => holders_save)
        (holders_pure _))
      fun _ => holders_transition _

lemma holders_req (now : Nat) (again : Bool) : KeepsHolders H (requirementSatisfied now again) := by
  refine holders_bind holders_object fun self => ?_
  cases self.row.state with
  | pending =>
    exact holders_bind (holders_assign fun _ => ⟨rfl, rfl⟩) fun _ => holders_ite
      (holders_ite (holders_transition _) (holders_transition _))
      (holders_pure _)
  | succeeded => exact holders_ite holders_rerun (holders_pure _)
  | leased => exact holders_assign fun _ => ⟨rfl, rfl⟩
  | infeasible =>
    exact holders_bind (holders_query _) fun _ =>
      holders_bind (holders_assign fun _ => ⟨rfl, rfl⟩) fun _ =>
        holders_ite (holders_transition _) (holders_pure _)
  | ready => exact holders_pure _

lemma holders_succeeded (now : Nat) (again : Bool) : KeepsHolders H (workSucceeded now again) :=
  holders_bind (holders_assert _) fun _ =>
    holders_bind (holders_assign fun _ => ⟨rfl, rfl⟩) fun _ =>
      holders_bind (holders_transition _) fun _ => holders_bind holders_save fun _ =>
        holders_bind holders_object fun _ => holders_fetched fun _ hos =>
          holders_forM hos fun _ => holders_bind (holders_req now again) fun _ => holders_save

lemma holders_gather :
    ∀ (fuel pk : Nat) (ret : Finset Nat), KeepsHolders H (gatherTransitiveRequirers fuel pk ret)
  | 0, _, _ => holders_pure _
  | fuel + 1, _, _ => holders_bind (holders_query _) fun _ =>
    fun pk => foldlM (fun _ requirer _ => holders_gather fuel requirer _ pk) _ _ trivial

lemma holders_infeasible : KeepsHolders H hasInfeasibleRequirement :=
  holders_bind (holders_assert _) fun _ => holders_transition _

lemma holders_permanent : KeepsHolders H permanentErrorOccurred :=
  holders_bind (holders_assert _) fun _ => holders_bind holders_object fun _ =>
    holders_bind (holders_inspect _) fun _ =>
      holders_bind (holders_gather _ _ _) fun _ =>
        holders_fetched fun _ hos => holders_bind (holders_forM hos fun _ => holders_infeasible)
          fun _ => holders_transition _

lemma holders_revokeLease : KeepsHolders H revokeLease :=
  holders_bind (holders_assert _) fun _ => holders_bind holders_object fun _ => holders_transition _

lemma holders_feasible : KeepsHolders H markAsFeasible :=
  holders_bind (holders_assert _) fun _ => holders_bind holders_object fun _ => holders_transition _

lemma holders_checkNum :
    KeepsHolders H checkNumUnsatisfiedRequirements :=
  holders_bind (holders_assert _) fun _ => holders_bind holders_object fun _ =>
    holders_bind (holders_query _) fun _ => holders_ite (holders_pure _)
      (holders_bind (holders_assign fun _ => ⟨rfl, rfl⟩) fun _ => holders_ite
        (holders_bind (holders_transition _) fun _ => holders_pure _) (holders_pure _))

lemma holders_getOrCreateRequirement (sour tgt : Nat) : KeepsHolders H (getOrCreateRequirement sour tgt) :=
  holders_bind (holders_query _) fun _ =>
    holders_ite (holders_pure _) (holders_bind (holders_inspect _) fun _ => holders_ite
      (holders_bind (holders_execute_same fun _ _ => rfl) fun _ => holders_pure _)
      (holders_throw _))

lemma holders_addReq (tgt : Nat) : KeepsHolders H (addRequirement tgt) := by
  refine holders_bind (holders_assert _) fun _ => holders_bind holders_object fun _ =>
    holders_bind (holders_getOrCreateRequirement _ _) fun crea => holders_ite
      (holders_bind (holders_query _) fun tar => ?_) (holders_pure _)
  cases tar with
  | none => exact holders_pure _
  | some state =>
    exact holders_bind (holders_assign fun _ => ⟨rfl, rfl⟩) fun _ => holders_ite
      (holders_bind (holders_transition _) fun _ => holders_pure _)
      (holders_ite (holders_bind (holders_transition _) fun _ => holders_pure _) (holders_pure _))

lemma bulk_leaseHolder (db : Db) (ctype made n pk : Nat) : ((db.bulkCreate ctype made n).unit pk).leaseHolder = "" ∨
    ((db.bulkCreate ctype made n).unit pk).leaseHolder = (db.unit pk).leaseHolder := by
  simp only [Db.bulkCreate]
  split
  · exact .inl rfl
  · exact .inr rfl

lemma holders_create (hemp : ∀ pk, H pk "") (ctype made n : Nat) : KeepsHolders H (createRequirements ctype made n) :=
  holders_bind (holders_assert _) fun _ =>
    holders_ite (holders_pure _) (holders_bind holders_object fun _ => holders_bind
      (holders_execute hemp fun db => bulk_leaseHolder db ctype made n) fun _ =>
        holders_bind (holders_execute_same fun _ _ => rfl) fun _ =>
          holders_bind (holders_assign fun _ => ⟨rfl, rfl⟩) fun _ => holders_ite
            (holders_bind (holders_transition _) fun _ => holders_save) holders_save)

lemma holders_createWorkUnit (hemp : ∀ pk, H pk "") (ctype made : Nat) :
    KeepsHolders H (createWorkUnit ctype made) := by
  refine holders_bind (holders_execute hemp fun db pk => ?_) fun _ => holders_execute_same fun _ _ => rfl
  by_cases hpk : pk = db.nextPk
  · exact .inl (by simp [hpk])
  · exact .inr (by simp [hpk])

lemma holders_all (ctype : Nat) (old toState : UnitState) (extra : WorkUnit → Bool) :
    KeepsHolders H (transitionAll ctype old toState extra) := by
  refine holders_bind (holders_bind (holders_inspect _) fun _ =>
    holders_bind (holders_execute_same fun db pk => ?_) fun _ => holders_pure _)
    fun _ => holders_execute_same fun _ _ => rfl
  simp only [Db.updateState]
  split <;> rfl

/-! ## Transitions in their transactions -/

section

variable {db : Db} {met : M α} (hdb : db.Holders H) (hmet : KeepsHolders H met)

include hdb hmet

lemma Db.Holders.transaction (hemp : ∀ pk, H pk "") : (db.transaction met).Holders H :=
  (atomic true (hmet _) (quiet db default) hdb ⟨rfl, hemp _⟩).1

lemma Db.Holders.locked (pk : Nat) : (db.locked pk met).Holders H := by
  unfold Db.locked
  split
  · have hkep := (atomic true (holders_bind hmet (fun _ => holders_save) pk)
      (quiet db (db.fetch pk)) hdb ⟨rfl, hdb pk⟩).1
    split <;> rename_i hrun <;> (rw [hrun] at hkep; exact hkep)
  · exact hdb

end

def Transition.takesLease : Transition → Bool
  | .perform (.takeLease ..) => true
  | _ => false

lemma Db.Holders.transit {db : Db} (hdb : db.Holders H) (hemp : ∀ pk, H pk "")
    {t : Transition} (ht : t.takesLease = false) : (db.transit t).Holders H := by
  cases t with
  | perform op =>
    cases op with
    | create ctype made => exact hdb.transaction (holders_createWorkUnit hemp ctype made) hemp
    | addRequirement pk tgt => exact hdb.locked (holders_addReq tgt) pk
    | createRequirements pk ctype made n => exact hdb.locked (holders_create hemp ctype made n) pk
    | takeLease pk holder until_ last node => cases ht
    | revokeLease pk => exact hdb.locked holders_revokeLease pk
    | workSucceeded pk now again => exact hdb.locked (holders_succeeded now again) pk
    | rerun pk => exact hdb.locked holders_rerun pk
    | permanentErrorOccurred pk => exact hdb.locked holders_permanent pk
    | markAsFeasible pk => exact hdb.locked holders_feasible pk
  | bulkCreate ctype made n =>
    exact hdb.transaction (holders_execute hemp fun db => bulk_leaseHolder db ctype made n) hemp
  | requirementSatisfied pk now rerunIfSucceeded => exact hdb.locked (holders_req now rerunIfSucceeded) pk
  | leaseTaken pk => exact hdb.locked (holders_bind (holders_assert _) fun _ => holders_transition _) pk
  | hasInfeasibleRequirement pk => exact hdb.locked holders_infeasible pk
  | checkNumUnsatisfiedRequirements pk => exact hdb.locked holders_checkNum pk
  | rerunAll ctype fromDate toDate =>
    exact hdb.transaction (holders_bind holders_dbCall fun _ =>
      holders_bind (holders_query _) fun _ =>
        holders_ite (holders_bind (holders_throw _) fun _ => holders_all _ _ _ _)
        (holders_all _ _ _ _)) hemp
  | markAllAsFeasible ctype =>
    exact hdb.transaction (holders_bind holders_dbCall fun _ => holders_all _ _ _ _) hemp
  | markAsFeasibleForIds workUnitIds =>
    exact hdb.transaction (holders_fetched fun _ hos =>
      holders_forM hos fun _ => holders_feasible) hemp

/-- In any order of transitions, no other than `take_lease` writes an identifier into a row. -/
theorem holders_only_cleared (db : Db) (ts : List Transition) (hts : ∀ t ∈ ts, t.takesLease = false)
    (pk : Nat) :
    ((run Db.transit db ts).unit pk).leaseHolder = "" ∨
    ((run Db.transit db ts).unit pk).leaseHolder = (db.unit pk).leaseHolder :=
  forall_trace_of_guarded (Db.Holders fun p holder => holder = "" ∨ holder = (db.unit p).leaseHolder)
    (fun _ _ hdb ht => hdb.transit (fun _ => .inl rfl) ht) (fun _ => .inr rfl)
    (guarded_of_forall_mem (fun t ht _ => hts t ht) db) _ (run_mem_trace db ts) pk

/-- A lease that is revoked, on a unit that another unit requires. -/
theorem holders_only_cleared_revoked :
    let leased := run Db.transit .empty [.bulkCreate 0 0 2, .perform (.addRequirement 1 0),
      .perform (.takeLease 0 "a" 10 5 "n")]
    let revoked := run Db.transit leased [.perform (.revokeLease 0), .perform (.rerun 0),
      .checkNumUnsatisfiedRequirements 1]
    ((leased.unit 0).state = .leased ∧ (leased.unit 0).leaseHolder = "a") ∧
    (revoked.unit 0).state = .ready ∧
    ((revoked.unit 0).leaseHolder = "" ∨ (revoked.unit 0).leaseHolder = (leased.unit 0).leaseHolder) :=
  ⟨⟨by decide, by decide⟩, by decide, holders_only_cleared _ _ (by simp [Transition.takesLease]) 0⟩

end Toolchain.Workflow
