import Toolchain.Workflow.RequirementCount

/-!
# DocumentedCounts — the rule stated at `num_unsatisfied_requirements`

The comment at `num_unsatisfied_requirements` says: positive for a `PENDING` unit, zero for a `READY`,
`LEASED` or `SUCCEEDED` one, and not negative for an `INFEASIBLE` one.  Four transitions break the rule:
`create_requirements`, the two ways a `LEASED` requirer is decremented, and
`check_num_unsatisfied_requirements`.
-/

namespace Toolchain.Workflow

open Lib List Function WorkUnit Instance Db

/-! ## The rule -/

def WorkUnit.CountFits (row : WorkUnit) : Prop :=
  match row.state with
  | .pending => 0 < row.numUnsatisfiedRequirements
  | .ready => row.numUnsatisfiedRequirements = 0
  | .leased => row.numUnsatisfiedRequirements = 0
  | .succeeded => row.numUnsatisfiedRequirements = 0
  | .infeasible => True

instance (row : WorkUnit) : Decidable row.CountFits := by
  unfold WorkUnit.CountFits
  cases row.state <;> infer_instance

def Db.CountsFit (db : Db) : Prop :=
  ∀ pk < db.nextPk, (db.unit pk).CountFits

structure WorkUnit.Regular (row : WorkUnit) : Prop where
  fits : row.CountFits
  nonneg : 0 ≤ row.numUnsatisfiedRequirements

def Db.Regular (db : Db) : Prop :=
  ∀ pk < db.nextPk, (db.unit pk).Regular

/-- What a transition has to find for the rule to hold after it. -/
def Db.KeepsCounts (db : Db) : Transition → Prop
  | .perform (.createRequirements pk _ _ n) =>
    pk < db.nextPk → n ≠ 0 → (db.unit pk).state ≠ .leased ∧ (db.unit pk).state ≠ .succeeded
  | .perform (.workSucceeded pk _ _) =>
    pk < db.nextPk → (db.unit pk).state = .leased →
      ∀ requirer ∈ db.requirers pk, requirer ≠ pk → (db.unit requirer).state ≠ .leased
  | .requirementSatisfied pk _ _ => pk < db.nextPk → (db.unit pk).state ≠ .leased
  | .checkNumUnsatisfiedRequirements pk =>
    pk < db.nextPk → (db.unit pk).state ≠ .pending → (db.unit pk).state ≠ .infeasible →
      db.unsatisfied pk = ∅
  | _ => True

instance (db : Db) : DecidablePred db.KeepsCounts
  | .perform (.createRequirements ..) | .perform (.workSucceeded ..) | .requirementSatisfied ..
  | .checkNumUnsatisfiedRequirements _ => instDecidableForall
  | .perform (.create ..) | .perform (.addRequirement ..) | .perform (.takeLease ..)
  | .perform (.revokeLease _) | .perform (.rerun _) | .perform (.permanentErrorOccurred _)
  | .perform (.markAsFeasible _) | .bulkCreate .. | .leaseTaken .. | .hasInfeasibleRequirement ..
  | .rerunAll .. | .markAllAsFeasible .. | .markAsFeasibleForIds .. => instDecidableTrue

/-! ## Rows -/

section

variable {row : WorkUnit} {self : Instance}

lemma WorkUnit.regular_of_count (hnon : 0 ≤ row.numUnsatisfiedRequirements)
    (hpen : row.state = .pending → 0 < row.numUnsatisfiedRequirements)
    (hzer : row.state ≠ .pending → row.state ≠ .infeasible → row.numUnsatisfiedRequirements = 0) :
      row.Regular := by
  refine ⟨?_, hnon⟩
  unfold WorkUnit.CountFits
  cases hsta : row.state with
  | pending => exact hpen hsta
  | ready | leased | succeeded => exact hzer (by simp [hsta]) (by simp [hsta])
  | infeasible => trivial

lemma WorkUnit.CountFits.eq_zero (h : row.CountFits) (hpen : row.state ≠ .pending)
    (hinf : row.state ≠ .infeasible) : row.numUnsatisfiedRequirements = 0 := by
  unfold WorkUnit.CountFits at h
  cases hsta : row.state with
  | pending => exact absurd hsta hpen
  | ready | leased | succeeded => simpa [hsta] using h
  | infeasible => exact absurd hsta hinf

lemma WorkUnit.CountFits.pos (h : row.CountFits) (hpen : row.state = .pending) :
    0 < row.numUnsatisfiedRequirements := by
  unfold WorkUnit.CountFits at h
  simpa [hpen] using h

lemma Instance.regular_stateForCount (hnon : 0 ≤ self.row.numUnsatisfiedRequirements) :
    (self.setState self.row.stateForCount).row.Regular := by
  refine regular_of_count hnon ?_ ?_
  · unfold stateForCount
    split
    · simp
    · intro _
      simp only [setState_row_numUnsatisfiedRequirements]
      omega
  · unfold stateForCount
    split
    · intros
      assumption
    · simp

lemma Instance.regular_requiring (h : self.row.Regular) (tgt : Option UnitState) :
    (self.requiring tgt).row.Regular := by
  have hmor : 0 < (self.addUnsatisfied 1).row.numUnsatisfiedRequirements := by
    have hnon := h.nonneg
    simp only [addUnsatisfied_row_numUnsatisfiedRequirements]
    omega
  cases tgt with
  | none => exact h
  | some state =>
    by_cases hinf : state = .infeasible
    · subst hinf
      exact regular_of_count hmor.le (by simp [requiring]) (by simp [requiring])
    · rw [self.requiring_of_ne hinf]
      exact regular_of_count hmor.le (fun _ => hmor) (by simp)

lemma Instance.regular_requiringNew (h : self.row.Regular) {n : Nat} (hn : n ≠ 0)
    (hlea : self.row.state ≠ .leased) (hsuc : self.row.state ≠ .succeeded) :
    (self.requiringNew n).row.Regular := by
  have hmor : 0 < (self.requiringNew n).row.numUnsatisfiedRequirements := by
    have hnon := h.nonneg
    rw [requiringNew_count]
    omega
  refine regular_of_count hmor.le (fun _ => hmor) ?_
  cases hsta : self.row.state with
  | pending | ready => simp [requiringNew, hsta]
  | leased => exact absurd hsta hlea
  | succeeded => exact absurd hsta hsuc
  | infeasible => simp [requiringNew, hsta]

lemma Instance.regular_satisfied (h : self.row.Regular) (now : Nat) (again : Bool)
    {unsat : Int} (huns : 0 ≤ unsat) (hlea : self.row.state ≠ .leased) :
    (self.satisfied now again unsat).row.Regular := by
  unfold satisfied
  cases hsta : self.row.state with
  | pending =>
    have hpos := h.fits.pos hsta
    simp only
    split
    · rename_i hlas
      have hzer := hlas
      refine regular_of_count hzer.ge ?_ (fun _ _ => hzer)
      split <;> simp
    · have hmor : 0 < (self.addUnsatisfied (-1)).row.numUnsatisfiedRequirements := by
        simp only [addUnsatisfied_row_numUnsatisfiedRequirements]
        omega
      exact regular_of_count hmor.le (fun _ => hmor) (by simp [hsta])
  | ready => exact h
  | leased => exact absurd hsta hlea
  | succeeded =>
    have hzer := h.fits.eq_zero (by simp [hsta]) (by simp [hsta])
    simp only
    split
    · exact regular_of_count hzer.ge (by simp) (fun _ _ => hzer)
    · exact h
  | infeasible =>
    simp only
    split
    · rename_i hzer
      exact regular_of_count huns (by simp) (fun _ _ => hzer)
    · exact regular_of_count huns (by simp [hsta]) (by simp [hsta])

lemma Instance.regular_recounted {actu : Int} (hact : 0 ≤ actu) (h : self.row.Regular)
    (hzer : self.row.state ≠ .pending → self.row.state ≠ .infeasible → actu = 0) :
    (self.recounted actu).row.Regular := by
  unfold recounted
  simp only
  split
  · rename_i hdon
    exact regular_of_count hact (by simp) (fun _ _ => hdon.2.1)
  rename_i hdon
  refine regular_of_count hact ?_ hzer
  intro hpen
  have hpos := h.fits.pos hpen
  have hne : ¬ actu = 0 := by
    intro heq
    exact hdon ⟨by omega, heq, hpen⟩
  simp only
  omega

end

/-! ## Tables -/

variable {pk : Nat}

section

variable {db db' : Db}

section

variable (h : db.Regular)

include h

lemma Db.Regular.update {row : WorkUnit} (hnex : db'.nextPk = db.nextPk)
    (huni : db'.unit = update db.unit pk row)
    (hrow : row.Regular) : db'.Regular := by
  intro p hp
  rw [huni]
  by_cases hne : p = pk
  · subst hne
    simpa using hrow
  · rw [update_of_ne hne]
    exact h p (hnex ▸ hp)

lemma Db.Regular.bulkCreate (ctype made n : Nat) : (db.bulkCreate ctype made n).Regular := by
  intro p hp
  simp only [Db.bulkCreate] at hp ⊢
  split
  · exact regular_of_count (by simp) (by simp) (by simp)
  · exact h p (by omega)

lemma Db.Regular.bumpPending (pk : Nat) : (db.bumpPending pk).Regular := by
  intro p hp
  have hrow := h p hp
  simp only [Db.bumpPending]
  split
  · rename_i hpen
    have hpos := hrow.fits.pos hpen.2
    refine regular_of_count ?_ (fun _ => ?_) (by simp [hpen.2])
    · simp only [addUnsatisfied_row_numUnsatisfiedRequirements, fetch_row]
      omega
    · simp only [addUnsatisfied_row_numUnsatisfiedRequirements, fetch_row]
      omega
  · exact hrow

lemma Db.Regular.satisfy {self : Instance} (hsel : self.row.Regular)
    (hlea : self.row.state ≠ .leased) (now : Nat) (again : Bool) :
    (db.satisfy now again self).Regular := by
  have hrow := regular_satisfied hsel now again (Int.natCast_nonneg (db.unsatisfied self.pk).card) hlea
  by_cases hrer : self.row.state = .succeeded ∧ again = true
  · obtain ⟨hsuc, rfl⟩ := hrer
    refine (h.bumpPending self.pk).update (by simp) (satisfy_unit_of_rerun now db self hsuc) ?_
    simpa [satisfied, hsuc] using hrow
  · exact h.update (by simp) (satisfy_unit_of_not_rerun now again db self hrer) hrow

end

lemma Db.Regular.foldl_satisfy {start : Db} (hsta : start.Regular) (now : Nat) (again : Bool) :
    ∀ (pks : List Nat) (db : Db), db.Regular →
      (∀ pk ∈ pks, pk < start.nextPk ∧ (start.unit pk).state ≠ .leased) →
    ((pks.map start.fetch).foldl (Db.satisfy now again) db).Regular
  | [], _, h, _ => h
  | pk :: pks, db, h, hpks => by
      obtain ⟨hlt, hlea⟩ := hpks pk (.head _)
      exact .foldl_satisfy hsta now again pks _ (h.satisfy (hsta pk hlt) hlea now again) fun p hp =>
        hpks p (.tail _ hp)

lemma Db.Regular.foldl_transition {start : Db} (hstar : start.Regular) (st : Instance → UnitState)
    (hsta : ∀ pk < start.nextPk, ((start.fetch pk).setState (st (start.fetch pk))).row.Regular) :
    ∀ (pks : List Nat) (db : Db), db.Regular → (∀ pk ∈ pks, pk < start.nextPk) →
    ((pks.map start.fetch).foldl (fun db o => db.transition o (st o)) db).Regular
  | [], _, h, _ => h
  | pk :: pks, db, h, hpks => by
      refine Db.Regular.foldl_transition hstar st hsta pks _ ?_ fun p hp => hpks p (.tail _ hp)
      exact h.update rfl (transition_unit _ _ _) (hsta pk (hpks pk (.head _)))

lemma Db.Regular.transitionAll (h : db.Regular) (ctype : Nat) {old : UnitState} {extra : WorkUnit → Bool}
    (hzer : ∀ row : WorkUnit, row.Regular → row.state = old → extra row = true →
      row.numUnsatisfiedRequirements = 0) :
    (db.transitionAll ctype old .ready extra).Regular := by
  intro p hp
  have hrow := h p hp
  simp only [Db.transitionAll, Db.updateState]
  split
  · rename_i hsel
    simp only [selected, Bool.and_eq_true, beq_iff_eq] at hsel
    have hcou := hzer _ hrow hsel.2.1.2 hsel.2.2
    exact regular_of_count hrow.nonneg (by simp) (fun _ _ => hcou)
  · exact hrow

end

/-! ## Transitions that keep the rule -/

section

variable {db : Db} (h : db.Regular)
include h

lemma regular_succeeded (hpk : pk < db.nextPk) (hlea : (db.unit pk).state = .leased)
    (hreq : ∀ p ∈ db.requirers pk, p ≠ pk → (db.unit p).state ≠ .leased) (now : Nat)
    (again : Bool) : (db.effect (.workSucceeded pk now again)).Regular := by
  have hzer := (h pk hpk).fits.eq_zero (by simp [hlea]) (by simp [hlea])
  have hrow : (db.fetch pk).succeed.row.Regular :=
    regular_of_count hzer.ge (by simp) (fun _ _ => hzer)
  have hsel : (db.succeed (db.fetch pk)).Regular := h.update rfl (succeed_unit _ _) hrow
  have hloo : ((db.succeed (db.fetch pk)).satisfyAll now again pk).Regular := by
    refine Db.Regular.foldl_satisfy hsel now again _ _ hsel fun p hp => ?_
    refine ⟨(mem_requirers.1 hp).1, ?_⟩
    by_cases hne : p = pk
    · subst hne
      simp
    · rw [succeed_unit, fetch_pk, update_of_ne hne]
      exact hreq p hp hne
  exact hloo.update rfl rfl hrow

lemma regular_permanent (pk : Nat) (hpk : pk < db.nextPk) :
    (db.effect (.permanentErrorOccurred pk)).Regular := by
  have hrow : ∀ p < db.nextPk, ((db.fetch p).setState .infeasible).row.Regular := fun p hp =>
    regular_of_count (h p hp).nonneg (by simp) (by simp)
  have hloo : (db.condemn pk).Regular := by
    refine .foldl_transition h (fun _ => .infeasible) hrow _ db h fun p hp => ?_
    exact mem_range.1 (mem_filter.1 hp).1
  exact hloo.update rfl (transition_unit _ _ _) (hrow pk hpk)

lemma regular_effect {op : Operation} (hena : db.Enabled op)
    (hkee : db.KeepsCounts (.perform op)) : (db.effect op).Regular := by
  cases op with
  | create ctype made => exact h.bulkCreate ctype made 1
  | addRequirement pk tgt =>
    exact h.update (by simp [effect]) (require_unit _ _ _) (regular_requiring (h pk hena.1) _)
  | createRequirements pk ctype made n =>
    obtain ⟨hpk, hn⟩ := hena
    obtain ⟨hlea, hsuc⟩ := hkee hpk hn
    exact (h.bulkCreate ctype made n).update (by simp [effect, bulkCreate]) (requireNew_unit _ _ _ _ _)
      (regular_requiringNew (h pk hpk) hn hlea hsuc)
  | takeLease pk holder unt last node =>
    obtain ⟨hpk, hrea⟩ := hena
    have hzer := (h pk hpk).fits.eq_zero (by simp [hrea]) (by simp [hrea])
    exact h.update rfl (rewrite_unit _ _ _) (regular_of_count hzer.ge (by simp) (fun _ _ => hzer))
  | revokeLease pk | markAsFeasible pk =>
    exact h.update rfl (transition_unit _ _ _) (regular_stateForCount (h pk hena.1).nonneg)
  | workSucceeded pk now again =>
    obtain ⟨hpk, hlea⟩ := hena
    exact regular_succeeded h hpk hlea (hkee hpk hlea) now again
  | rerun pk =>
    obtain ⟨hpk, hsuc⟩ := hena
    have hzer := (h pk hpk).fits.eq_zero (by simp [hsuc]) (by simp [hsuc])
    exact (h.bumpPending pk).update rfl (transition_unit _ _ _)
      (regular_of_count hzer.ge (by simp) (fun _ _ => hzer))
  | permanentErrorOccurred pk => exact regular_permanent h pk hena.1

lemma regular_transit {t : Transition} (hkee : db.KeepsCounts t) : (db.transit t).Regular := by
  rw [transit_eq]
  split
  swap
  · exact h
  rename_i hcan
  cases t with
  | perform op => exact regular_effect h hcan hkee
  | bulkCreate ctype made n => exact h.bulkCreate ctype made n
  | requirementSatisfied pk now again => exact h.satisfy (h pk hcan) (hkee hcan) now again
  | leaseTaken pk =>
    obtain ⟨hpk, hrea⟩ := hcan
    have hzer := (h pk hpk).fits.eq_zero (by simp [hrea]) (by simp [hrea])
    exact h.update rfl (transition_unit _ _ _) (regular_of_count hzer.ge (by simp) (fun _ _ => hzer))
  | hasInfeasibleRequirement pk =>
    exact h.update rfl (transition_unit _ _ _) (regular_of_count (h pk hcan).nonneg (by simp) (by simp))
  | checkNumUnsatisfiedRequirements pk =>
    refine h.update rfl (rewrite_unit _ _ _) (regular_recounted (Int.natCast_nonneg _) (h pk hcan) ?_)
    intro hpen hinf
    simpa using hkee hcan hpen hinf
  | rerunAll ctype date toDate =>
    refine h.transitionAll ctype fun row hrow hsta _ => ?_
    exact hrow.fits.eq_zero (by simp [hsta]) (by simp [hsta])
  | markAllAsFeasible ctype =>
    refine h.transitionAll ctype fun row _ _ hzer => ?_
    simpa using hzer
  | markAsFeasibleForIds work =>
    refine .foldl_transition h (fun workUnit => workUnit.row.stateForCount)
      (fun p hp => regular_stateForCount (h p hp).nonneg) _ db h fun p hp => ?_
    exact mem_range.1 (mem_filter.1 hp).1

end

/-! ## Transitions that break it -/

variable {p : Nat}

section

variable {db : Db} (h : db.Regular)
include h

omit h in
lemma foldl_satisfy_leased (start : Db) (now : Nat) (again : Bool) :
    ∀ (pks : List Nat) (db : Db), p ∉ pks → (db.unit p).state = .leased →
    ((pks.map start.fetch).foldl (satisfy now again) db).unit p = db.unit p
  | [], _, _, _ => rfl
  | pk :: pks, db, hmem, hlea => by
      have hne : p ≠ pk := fun heq => hmem (heq ▸ (.head _))
      have hsam : (db.satisfy now again (start.fetch pk)).unit p = db.unit p := by
        by_cases hrer : (start.unit pk).state = .succeeded ∧ again = true
        · simp [satisfy, hrer, hne, bumpPending, hlea]
        · simp [satisfy, hrer, hne]
      have hres := foldl_satisfy_leased start now again pks _ (fun hp => hmem (.tail _ hp)) (hsam ▸ hlea)
      exact hres.trans hsam

omit h in
lemma satisfyAll_leased (start : Db) (now : Nat) (again : Bool)
    (hmem : p ∈ start.requirers pk) (hlea : (start.unit p).state = .leased) :
    (start.satisfyAll now again pk).unit p = ((start.fetch p).addUnsatisfied (-1)).row := by
  obtain ⟨bef, after, hspl⟩ := append_of_mem hmem
  have hfre : p ∉ after := by
    have hnod := (start.pairwise_requirers pk).nodup
    rw [hspl, nodup_append, nodup_cons] at hnod
    exact hnod.2.1.1
  rw [satisfyAll, hspl, map_append, map_cons, foldl_append, foldl_cons]
  generalize foldl (.satisfy now again) start (bef.map start.fetch) = mid
  have hrou : (mid.satisfy now again (start.fetch p)).unit p =
    ((start.fetch p).addUnsatisfied (-1)).row := by
    have hsel := satisfy_unit_self now again mid (start.fetch p)
    rw [fetch_pk] at hsel
    rw [hsel]
    simp [satisfied, hlea]
  rw [foldl_satisfy_leased start now again after _ hfre, hrou]
  rwa [hrou]

lemma not_countsFit_succeeded (hmem : p ∈ db.requirers pk) (hne : p ≠ pk)
    (hhel : (db.unit p).state = .leased) (now : Nat) (again : Bool) :
    ¬ (db.effect (.workSucceeded pk now again)).CountsFit := by
  intro hfit
  have hlt := (mem_requirers.1 hmem).1
  have hold : (db.succeed (db.fetch pk)).unit p = db.unit p := by simp [hne]
  have hrow : (db.effect (.workSucceeded pk now again)).unit p =
    ((db.fetch p).addUnsatisfied (-1)).row := by
    have hloo := satisfyAll_leased (db.succeed (db.fetch pk)) now again hmem (by rw [hold]; exact hhel)
    rw [effect, setUnit_unit, update_of_ne hne, hloo, fetch, hold]
    rfl
  have hfits := hfit p (by simpa [effect] using hlt)
  rw [hrow] at hfits
  have haft := hfits.eq_zero (by simp [hhel]) (by simp [hhel])
  have hbef := (h p hlt).fits.eq_zero (by simp [hhel]) (by simp [hhel])
  simp only [addUnsatisfied_row_numUnsatisfiedRequirements, fetch_row] at haft
  omega

lemma not_countsFit_create {n : Nat} (hpk : pk < db.nextPk) (hn : n ≠ 0)
    (hsta : (db.unit pk).state = .leased ∨ (db.unit pk).state = .succeeded)
    (ctype made : Nat) :
    ¬ (db.effect (.createRequirements pk ctype made n)).CountsFit := by
  intro hfit
  have hrea : (db.unit pk).state ≠ .ready := by rcases hsta with hs | hs <;> simp [hs]
  have hfits := hfit pk (by simp [effect]; omega)
  have hrow : (db.effect (.createRequirements pk ctype made n)).unit pk =
    ((db.fetch pk).addUnsatisfied n).row := by
    simp [effect, requireNew_unit, requiringNew, hrea]
  rw [hrow] at hfits
  have haft := hfits.eq_zero (by rcases hsta with hs | hs <;> simp [hs])
    (by rcases hsta with hs | hs <;> simp [hs])
  have hbef := (h pk hpk).nonneg
  simp only [addUnsatisfied_row_numUnsatisfiedRequirements, fetch_row] at haft
  omega

lemma not_countsFit_req (hpk : pk < db.nextPk) (hlea : (db.unit pk).state = .leased) (now : Nat)
    (again : Bool) :
    ¬ (db.satisfy now again (db.fetch pk)).CountsFit := by
  intro hfit
  have hfits := hfit pk (by simpa using hpk)
  have hsel := satisfy_unit_self now again db (db.fetch pk)
  rw [fetch_pk] at hsel
  rw [hsel] at hfits
  have haft := hfits.eq_zero (by simp [satisfied, hlea]) (by simp [satisfied, hlea])
  have hbef := (h pk hpk).fits.eq_zero (by simp [hlea]) (by simp [hlea])
  simp [satisfied, hlea, hbef] at haft

lemma keepsCounts_of_countsFit {t : Transition} (hfit : (db.transit t).CountsFit) :
    db.KeepsCounts t := by
  have heff : db.CanTransit t → (db.transitEffect t).CountsFit := fun hcan =>
    transit_of_canTransit hcan ▸ hfit
  unfold Db.KeepsCounts
  split
  · intro hpk hn
    have hfit := heff ⟨hpk, hn⟩
    exact ⟨fun hs => not_countsFit_create h hpk hn (.inl hs) _ _ hfit,
      fun hs => not_countsFit_create h hpk hn (.inr hs) _ _ hfit⟩
  · intro hpk hlea p hmem hne hhel
    exact not_countsFit_succeeded h hmem hne hhel _ _ (heff ⟨hpk, hlea⟩)
  · intro hpk hlea
    exact not_countsFit_req h hpk hlea _ _ (heff hpk)
  · rename_i pk
    intro hpk hpen hinf
    have hfits := heff hpk pk hpk
    rw [transitEffect, rewrite_unit, fetch_pk, update_self] at hfits
    have hsam : (db.fetch pk).recounted (db.unsatisfied pk).card =
        { db.fetch pk with
          row := { db.unit pk with numUnsatisfiedRequirements := (db.unsatisfied pk).card } } := by
      simp [recounted, hpen]
    rw [hsam] at hfits
    simpa using hfits.eq_zero hpen hinf
  · trivial

end

/-! ## Whole runs -/

lemma regular_empty : empty.Regular := fun pk hpk => absurd hpk (Nat.not_lt_zero pk)

/-- The documented rule holds in every state of a run exactly if every transition of the run finds
what it needs. -/
theorem countsFit_iff_keepsCounts (ts : List Transition) :
    (∀ db ∈ trace Db.transit Db.empty ts, db.CountsFit) ↔ Guarded Db.transit Db.KeepsCounts Db.empty ts :=
  forall_trace_iff_guarded Db.Regular (fun _ _ h hkee => regular_transit h hkee)
    (fun _ h pk hpk => (h pk hpk).fits) (fun _ _ h hfit => keepsCounts_of_countsFit h hfit)
    regular_empty

example : Guarded Db.transit Db.KeepsCounts Db.empty
    [.bulkCreate 0 0 1, .perform (.createRequirements 0 0 1 1), .perform (.takeLease 1 "a" 10 5 "n"),
      .perform (.workSucceeded 1 6 true), .checkNumUnsatisfiedRequirements 0] := by
  decide

def requireUnderLease : List Transition :=
  [.perform (.create 0 0), .perform (.takeLease 0 "a" 10 5 "n"), .perform (.createRequirements 0 0 6 1)]

theorem not_countsFit_requireUnderLease :
    ¬ ∀ ts, ∀ db ∈ trace Db.transit Db.empty ts, db.CountsFit := by
  intro h
  have hfit := h requireUnderLease _ (run_mem_trace _ _) 0 (by decide)
  revert hfit
  decide

end Toolchain.Workflow
