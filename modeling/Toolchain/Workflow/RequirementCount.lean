import Mathlib.Order.Interval.Finset.Nat
import Toolchain.Workflow.Steps

/-!
# RequirementCount — the denormalised count of unsatisfied requirements

The count of a `PENDING` unit is meant to be the number of its requirements that are not `SUCCEEDED`.  A
unit in another state does not follow requirements that are rerun, and the loop of `work_succeeded`
writes back requirers that a rerun inside it has changed; `Operation.CountsAgree` says what a step needs
to find.
-/

namespace Toolchain.Workflow

open Lib List Function Finset Db Instance

/-! ## What is claimed, and what a step needs -/

def Db.Accurate (db : Db) (pk : Nat) : Prop :=
  (db.unit pk).numUnsatisfiedRequirements = (db.unsatisfied pk).card

structure Db.CountsCorrect (db : Db) : Prop where
  nonneg : ∀ pk < db.nextPk, 0 ≤ (db.unit pk).numUnsatisfiedRequirements
  pending : ∀ pk < db.nextPk, (db.unit pk).state = .pending → db.Accurate pk

def Db.Acyclic (db : Db) : Prop :=
  ∀ pk, ¬ Relation.TransGen (fun source target => db.requires source target = true) pk pk

/-- What an operation has to find for the counts to stay correct.

* A unit that becomes `PENDING` takes its count along, so the count has to be accurate already.
* A unit that is `SUCCEEDED` must not become `PENDING` under requirers that are `PENDING`.
* `work_succeeded` decrements `LEASED` requirers, so these must count the unit.
* If it reruns `SUCCEEDED` requirers, none of them may be a requirement of a later requirer that
  stays `PENDING`: the increment would be overwritten. -/
def Db.CountsAgree (db : Db) : Operation → Prop
  | .addRequirement pk target =>
    target < db.nextPk → db.requires pk target = false → (db.unit target).state ≠ .succeeded →
      ((db.unit target).state ≠ .infeasible → db.Accurate pk) ∧ ((db.unit pk).state = .succeeded →
          ∀ requirer ∈ db.requirers pk, (db.unit requirer).state ≠ .pending)
  | .createRequirements pk _ _ n => n ≠ 0 → (db.unit pk).state = .ready → db.Accurate pk
  | .revokeLease pk =>
    (db.unit pk).state = .leased → (db.unit pk).numUnsatisfiedRequirements ≠ 0 → db.Accurate pk
  | .markAsFeasible pk =>
    (db.unit pk).state = .infeasible → (db.unit pk).numUnsatisfiedRequirements ≠ 0 → db.Accurate pk
  | .workSucceeded pk _ rerunRequirers =>
    (db.unit pk).state = .leased → (∀ requirer ∈ db.requirers pk, (db.unit requirer).state = .leased →
        1 ≤ (db.unit requirer).numUnsatisfiedRequirements) ∧
      (rerunRequirers = true → ∀ rerun ∈ db.requirers pk, ∀ later ∈ db.requirers pk, rerun < later →
          db.requires later rerun = true → (db.unit rerun).state = .succeeded →
            (db.unit later).state = .pending → (db.unit later).numUnsatisfiedRequirements ≤ 1)
  | .create .. => True
  | .takeLease .. => True
  | .rerun _ => True
  | .permanentErrorOccurred _ => True

instance (db : Db) (pk : Nat) : Decidable (db.Accurate pk) :=
  inferInstanceAs (Decidable (_ = _))

instance (db : Db) (op : Operation) : Decidable (db.CountsAgree op) := by
  cases op <;> (unfold Db.CountsAgree; infer_instance)

/-! ## Counting -/

variable {row : WorkUnit}

variable {db' : Db}

section

variable {db db' : Db} {pk : Nat}

lemma Db.unsat_congr (hnex : db.nextPk ≤ db'.nextPk) (hrequ : ∀ t, db'.requires pk t = db.requires pk t)
    (hedg : ∀ t < db'.nextPk, db.requires pk t = true → t < db.nextPk)
    (hsta : ∀ t < db.nextPk, db.requires pk t = true →
    ((db'.unit t).state = .succeeded ↔ (db.unit t).state = .succeeded)) :
    db'.unsatisfied pk = db.unsatisfied pk := by
  ext t
  simp only [mem_unsat, hrequ]
  constructor
  · rintro ⟨hlt, hreq, hne⟩
    have hlt := hedg t hlt hreq
    exact ⟨hlt, hreq, fun h => hne ((hsta t hlt hreq).2 h)⟩
  · rintro ⟨hlt, hreq, hne⟩
    exact ⟨lt_of_lt_of_le hlt hnex, hreq, fun h => hne ((hsta t hlt hreq).1 h)⟩

lemma Db.unsat_update {p : Nat} (hnex : db'.nextPk = db.nextPk)
    (hreq : db'.requires = db.requires) (huni : db'.unit = update db.unit p row)
    (hsta : row.state = .succeeded ↔ (db.unit p).state = .succeeded) :
    db'.unsatisfied pk = db.unsatisfied pk := by
  refine unsat_congr hnex.ge (fun t => by rw [hreq]) (fun t ht _ => hnex ▸ ht) ?_
  intro t _ _
  by_cases ht : t = p
  · subst ht
    simpa [huni] using hsta
  · simp [huni, ht]

lemma Db.card_unsat_reopen {t : Nat} (hnex : db'.nextPk = db.nextPk) (hrequ : db'.requires = db.requires)
    (hsta : ∀ u, u ≠ t → ((db'.unit u).state = .succeeded ↔ (db.unit u).state = .succeeded))
    (hlt : t < db.nextPk) (hreq : db.requires pk t = true)
    (hbef : (db.unit t).state = .succeeded) (haft : (db'.unit t).state ≠ .succeeded) :
    (db'.unsatisfied pk).card = (db.unsatisfied pk).card + 1 := by
  have hins : db'.unsatisfied pk = insert t (db.unsatisfied pk) := by
    ext u
    by_cases hu : u = t
    · subst hu
      simp [mem_unsat, hnex, hrequ, hlt, hreq, haft]
    · simp [mem_unsat, hnex, hrequ, hu, hsta u hu]
  rw [hins, card_insert_of_notMem]
  simp [mem_unsat, hbef]

structure Reopened (db db' : Db) (pk : Nat) (row : WorkUnit) : Prop where
  nextPk : db'.nextPk = db.nextPk
  requires : db'.requires = db.requires
  unit : db'.unit = update (db.bumpPending pk).unit pk row
  before : (db.unit pk).state = .succeeded
  after : row.state ≠ .succeeded

namespace Reopened

variable {row : WorkUnit} (h : Reopened db db' pk row)
include h

lemma state {p : Nat} (hp : p ≠ pk) : (db'.unit p).state = (db.unit p).state := by simp [h.unit, hp]

lemma count_le {p : Nat} (hp : p ≠ pk) :
    (db.unit p).numUnsatisfiedRequirements ≤ (db'.unit p).numUnsatisfiedRequirements := by
  simp only [h.unit, update_of_ne hp, bumpPending_count]
  split <;> omega

lemma unsat_of_not_requires {p : Nat} (hreq : db.requires p pk = false) :
    db'.unsatisfied p = db.unsatisfied p := by
  refine unsat_congr h.nextPk.ge (fun t => by rw [h.requires]) (fun t ht _ => h.nextPk ▸ ht) ?_
  intro t _ ht
  have hne : t ≠ pk := by
    rintro rfl
    rw [hreq] at ht
    cases ht
  rw [h.state hne]

lemma accurate {p : Nat} (hpk : pk < db.nextPk) (hne : p ≠ pk) (hp : p < db.nextPk)
    (hacc : (db.unit p).state = .pending → db.Accurate p)
    (hpen : (db'.unit p).state = .pending) : db'.Accurate p := by
  rw [h.state hne] at hpen
  have hcou := hacc hpen
  unfold Db.Accurate at hcou ⊢
  rw [h.unit, update_of_ne hne, bumpPending_count]
  cases hreq : db.requires p pk with
  | true =>
    have hcar := card_unsat_reopen h.nextPk h.requires
      (fun u hu => by rw [h.state hu]) hpk hreq h.before (by simpa [h.unit] using h.after)
    rw [if_pos ⟨mem_requirers.2 ⟨hp, hreq⟩, hpen⟩, hcar, hcou]
    simp
  | false =>
    rw [h.unsat_of_not_requires hreq, if_neg (by simp [mem_requirers, hreq]), hcou]
    simp

end Reopened

lemma Db.Acyclic.irrefl (h : db.Acyclic) (pk : Nat) : db.requires pk pk = false := by
  by_contra hloo
  exact h pk (.single (by simpa using hloo))

lemma Db.Acyclic.notMem_requirers (h : db.Acyclic) (pk : Nat) : pk ∉ db.requirers pk := by
  intro hmem
  have hloo := (mem_requirers.1 hmem).2
  rw [h.irrefl pk] at hloo
  cases hloo

end

/-! ## Steps that write one row -/

structure Db.Consistent (db : Db) : Prop extends db.CountsCorrect where
  edges : ∀ source target, db.requires source target = true → source < db.nextPk ∧ target < db.nextPk

open Nat

lemma Db.Consistent.extend {db db' : Db} (h : db.Consistent) (pk : Nat) (hnex : db.nextPk ≤ db'.nextPk)
    (hnew : ∀ p < db'.nextPk, db.nextPk ≤ p → (db'.unit p).state = .ready ∧
      0 ≤ (db'.unit p).numUnsatisfiedRequirements)
    (hold : ∀ p < db.nextPk, p ≠ pk → db'.unit p = db.unit p)
    (hrequ : ∀ p < db.nextPk, p ≠ pk → db'.requires p = db.requires p)
    (hedg : ∀ source tgt, db'.requires source tgt = true → source < db'.nextPk ∧ tgt < db'.nextPk)
    (hsta : ∀ p < db.nextPk, p ≠ pk → (db.unit p).state = .pending → db.requires p pk = true →
    ((db'.unit pk).state = .succeeded ↔ (db.unit pk).state = .succeeded))
    (hnon : pk < db.nextPk → 0 ≤ (db'.unit pk).numUnsatisfiedRequirements)
    (hpen : pk < db.nextPk → (db'.unit pk).state = .pending → db'.Accurate pk) :
    db'.Consistent := by
  refine ⟨⟨?_, ?_⟩, hedg⟩
  · intro p hp
    by_cases hlt : p < db.nextPk
    · by_cases hpk : p = pk
      · exact hpk ▸ hnon (hpk ▸ hlt)
      · rw [hold p hlt hpk]
        exact h.nonneg p hlt
    · exact (hnew p hp (Nat.le_of_not_lt hlt)).2
  · intro p hp hwai
    have hlt : p < db.nextPk := by
      by_contra hlt
      rw [(hnew p hp (Nat.le_of_not_lt hlt)).1] at hwai
      cases hwai
    by_cases hpk : p = pk
    · subst hpk
      exact hpen hlt hwai
    rw [hold p hlt hpk] at hwai
    have hsam : db'.unsatisfied p = db.unsatisfied p := by
      refine unsat_congr hnex (fun t => by rw [hrequ p hlt hpk]) (fun t _ ht => (h.edges p t ht).2) ?_
      intro t ht hreq
      by_cases heq : t = pk
      · subst heq
        exact hsta p hlt hpk hwai hreq
      · rw [hold t ht heq]
    unfold Db.Accurate
    rw [hsam, hold p hlt hpk]
    exact h.pending p hlt hwai

lemma Db.Consistent.write {db db' : Db} (h : db.Consistent) (pk : Nat) (row : WorkUnit)
    (hnex : db'.nextPk = db.nextPk) (hreq : db'.requires = db.requires)
    (huni : db'.unit = update db.unit pk row)
    (hsta : row.state = .succeeded ↔ (db.unit pk).state = .succeeded)
    (hnon : 0 ≤ row.numUnsatisfiedRequirements)
    (hpen : row.state = .pending → row.numUnsatisfiedRequirements = (db.unsatisfied pk).card) :
    db'.Consistent := by
  have hrow : db'.unit pk = row := by simp [huni]
  have hold : ∀ p, p ≠ pk → db'.unit p = db.unit p := fun p hp => by simp [huni, hp]
  refine h.extend pk hnex.ge (fun p hp hle => absurd (hnex ▸ hp) (not_lt.2 hle))
    (fun p _ => hold p) (fun p _ _ => by rw [hreq]) ?_ ?_ (fun _ => hrow ▸ hnon) ?_
  · simpa [hnex, hreq] using h.edges
  · intro _ _ _ _ _
    rwa [hrow]
  · intro _ hwai
    unfold Db.Accurate
    rw [unsat_update hnex hreq huni hsta, hrow]
    exact hpen (hrow ▸ hwai)

section OneRow

variable {db : Db} (h : db.Consistent)
include h

lemma consistent_takeLease {pk : Nat} (hpk : pk < db.nextPk) (hready : (db.unit pk).state = .ready)
    (holder : String) (until_ last : Nat) (node : String) :
    (db.rewrite (db.fetch pk) ((db.fetch pk).lease holder until_ last node)).Consistent :=
  h.write pk _ rfl rfl (rewrite_unit _ _ _) (by simp [lease, hready]) (h.nonneg pk hpk) (by simp [lease])

lemma consistent_stateForCount {pk : Nat} (hpk : pk < db.nextPk)
    (hstate : (db.unit pk).state ≠ .succeeded)
    (hcount : (db.unit pk).numUnsatisfiedRequirements ≠ 0 → db.Accurate pk) :
    (db.transition (db.fetch pk) (db.unit pk).stateForCount).Consistent := by
  refine h.write pk _ rfl rfl (transition_unit _ _ _) ?_ (h.nonneg pk hpk) ?_
  · simp only [setState_row_state, hstate, iff_false, WorkUnit.stateForCount]
    split <;> simp
  · intro hpending
    refine hcount fun hzero => ?_
    simp [WorkUnit.stateForCount, hzero] at hpending

end OneRow

/-! ## Steps that add units or requirements -/

section

variable {db : Db} (h : db.Consistent)
include h

lemma consistent_create (ctype made : Nat) : (db.bulkCreate ctype made 1).Consistent := by
  refine h.extend db.nextPk (le_succ _) ?_ ?_ (fun _ _ _ => rfl) ?_ ?_
    (fun hlt => absurd hlt (lt_irrefl _)) (fun hlt => absurd hlt (lt_irrefl _))
  · intro p hp hle
    obtain rfl := Nat.le_antisymm (Nat.lt_succ_iff.1 hp) hle
    simp [bulkCreate]
  · intro p hp _
    simp [bulkCreate, not_le.2 hp]
  · intro sour tgt hedg
    obtain ⟨hs, ht⟩ := h.edges sour tgt hedg
    exact ⟨lt_succ_of_lt hs, lt_succ_of_lt ht⟩
  · intro p _ _ _ hreq
    exact absurd (h.edges p _ hreq).2 (lt_irrefl _)

lemma consistent_require {db' : Db} {pk tgt : Nat} (hpk : pk < db.nextPk)
    (htar : tgt < db.nextPk) (hnew : db.requires pk tgt = false)
    (hagr : (db.unit tgt).state ≠ .succeeded →
    ((db.unit tgt).state ≠ .infeasible → db.Accurate pk) ∧ ((db.unit pk).state = .succeeded →
    ∀ requirer ∈ db.requirers pk, (db.unit requirer).state ≠ .pending))
    (hirr : db'.requires pk pk = false) (hnex : db'.nextPk = db.nextPk)
    (hrequ : db'.requires = (db.addEdge pk tgt).requires)
    (huni : db'.unit = update db.unit pk
    ((db.fetch pk).requiring (db.unsatisfiedTarget tgt)).row) : db'.Consistent := by
  have hrow : db'.unit pk = ((db.fetch pk).requiring (db.unsatisfiedTarget tgt)).row := by simp [huni]
  have hold : ∀ p, p ≠ pk → db'.unit p = db.unit p := fun p hp => by simp [huni, hp]
  have hedg : ∀ p t, db'.requires p t = true ↔ (p = pk ∧ t = tgt) ∨ db.requires p t = true := by
    simp [hrequ, addEdge]
  have hsel : ∀ t, db'.requires pk t = true → t ≠ pk := by
    rintro t ht rfl
    rw [hirr] at ht
    cases ht
  have hmem : ∀ t, t ∈ db'.unsatisfied pk ↔ (t = tgt ∧ (db.unit tgt).state ≠ .succeeded) ∨
    t ∈ db.unsatisfied pk := by
    intro t
    rw [mem_unsat, mem_unsat, hnex]
    constructor
    · rintro ⟨hlt, hreq, hne⟩
      rw [hold t (hsel t hreq)] at hne
      rcases (hedg pk t).1 hreq with ⟨_, rfl⟩ | hreq
      · exact .inl ⟨rfl, hne⟩
      · exact .inr ⟨hlt, hreq, hne⟩
    · rintro (⟨rfl, hne⟩ | ⟨hlt, hreq, hne⟩)
      · have hreq := (hedg pk t).2 (.inl ⟨rfl, rfl⟩)
        exact ⟨htar, hreq, by rwa [hold t (hsel t hreq)]⟩
      · have hreq := (hedg pk t).2 (.inr hreq)
        exact ⟨hlt, hreq, by rwa [hold t (hsel t hreq)]⟩
  refine h.extend pk hnex.ge (fun p hp hle => absurd (hnex ▸ hp) (not_lt.2 hle))
    (fun p _ => hold p) ?_ ?_ ?_ (fun _ => ?_) (fun _ hwai => ?_)
  · intro p _ hp
    funext t
    simp [hrequ, addEdge, hp]
  · intro p t hreq
    rw [hnex]
    rcases (hedg p t).1 hreq with ⟨rfl, rfl⟩ | hreq
    · exact ⟨hpk, htar⟩
    · exact h.edges p t hreq
  · -- a `SUCCEEDED` unit that is reopened has no `PENDING` requirers
    intro p hp _ hwai hreq
    by_cases hdon : (db.unit tgt).state = .succeeded
    · simp [hrow, unsatisfiedTarget, hdon, requiring]
    have hope : (db.unit pk).state ≠ .succeeded := fun hsuc =>
      (hagr hdon).2 hsuc p (mem_requirers.2 ⟨hp, hreq⟩) hwai
    by_cases hinf : (db.unit tgt).state = .infeasible
    · simp [hrow, unsatisfiedTarget, htar, hinf, requiring, hope]
    · simp [hrow, unsatisfiedTarget, htar, hdon, requiring_of_ne _ hinf, hope]
  · have hcou := h.nonneg pk hpk
    by_cases hdon : (db.unit tgt).state = .succeeded
    · simpa [hrow, unsatisfiedTarget, hdon, requiring] using hcou
    by_cases hinf : (db.unit tgt).state = .infeasible
    · simp [hrow, unsatisfiedTarget, htar, hinf, requiring]
      omega
    · simp [hrow, unsatisfiedTarget, htar, hdon, requiring_of_ne _ hinf]
      omega
  · unfold Db.Accurate
    by_cases hdon : (db.unit tgt).state = .succeeded
    · have hsam : db'.unsatisfied pk = db.unsatisfied pk := by
        ext t
        simp [hmem, hdon]
      have hrow : db'.unit pk = db.unit pk := by simp [hrow, unsatisfiedTarget, hdon, requiring]
      rw [hsam, hrow]
      exact h.pending pk hpk (hrow ▸ hwai)
    · have hins : db'.unsatisfied pk = insert tgt (db.unsatisfied pk) := by
        ext t
        simp [hmem, hdon]
      have hinf : (db.unit tgt).state ≠ .infeasible := by
        intro hinf
        simp [hrow, unsatisfiedTarget, htar, hinf, requiring] at hwai
      have hcou := (hagr hdon).1 hinf
      rw [hins, card_insert_of_notMem (by simp [mem_unsat, hnew])]
      simpa [hrow, unsatisfiedTarget, htar, hdon, requiring_of_ne _ hinf, Db.Accurate] using hcou

lemma consistent_requireNew {db' : Db} (pk n : Nat) (hpk : pk < db.nextPk)
    (hagr : (db.unit pk).state = .ready → db.Accurate pk)
    (hnex : db'.nextPk = db.nextPk + n)
    (hrequ : ∀ p t, db'.requires p t = true ↔ (p = pk ∧ db.nextPk ≤ t ∧ t < db.nextPk + n) ∨
      db.requires p t = true)
    (hrow : db'.unit pk = ((db.fetch pk).requiringNew n).row)
    (hold : ∀ p < db.nextPk, p ≠ pk → db'.unit p = db.unit p)
    (hnew : ∀ p < db.nextPk + n, db.nextPk ≤ p →
    (db'.unit p).state = .ready ∧ 0 ≤ (db'.unit p).numUnsatisfiedRequirements) :
    db'.Consistent := by
  have hsta : (db'.unit pk).state = .succeeded ↔ (db.unit pk).state = .succeeded := by
    by_cases hrea : (db.unit pk).state = .ready
    · simp [hrow, requiringNew, hrea]
    · simp [hrow, requiringNew, hrea]
  refine h.extend pk (by omega) (fun p hp => hnew p (hnex ▸ hp)) hold ?_ ?_
    (fun _ _ _ _ _ => hsta) (fun _ => ?_) (fun _ hwai => ?_)
  · intro p hp hne
    funext t
    rw [Bool.eq_iff_iff, hrequ]
    simp [hne]
  · intro p t hreq
    rcases (hrequ p t).1 hreq with ⟨rfl, hle, hlt⟩ | hreq
    · omega
    · have := h.edges p t hreq
      omega
  · have hcou := h.nonneg pk hpk
    rw [hrow, requiringNew_count, fetch_row]
    omega
  · have hcou : db.Accurate pk := by
      by_cases hrea : (db.unit pk).state = .ready
      · exact hagr hrea
      · exact h.pending pk hpk (by simpa [hrow, requiringNew, hrea] using hwai)
    have huni : db'.unsatisfied pk = db.unsatisfied pk ∪ Finset.Ico db.nextPk (db.nextPk + n) := by
      ext t
      simp only [mem_unsat, mem_union, mem_Ico, hnex, hrequ, true_and]
      by_cases hlt : t < db.nextPk
      · have hsam : (db'.unit t).state = .succeeded ↔ (db.unit t).state = .succeeded := by
          by_cases ht : t = pk
          · exact ht ▸ hsta
          · rw [hold t hlt ht]
        simp only [hlt, hsam, ne_eq]
        constructor
        · rintro ⟨_, ⟨hle, _⟩ | hreq, hne⟩
          · omega
          · exact .inl ⟨trivial, hreq, hne⟩
        · rintro (⟨_, hreq, hne⟩ | ⟨hle, _⟩)
          · exact ⟨by omega, .inr hreq, hne⟩
          · omega
      · have hnot : ¬ db.requires pk t = true := fun hreq => hlt (h.edges pk t hreq).2
        simp only [hlt, hnot, or_false, false_and, false_or, Bool.false_eq_true]
        constructor
        · rintro ⟨_, hnew, _⟩
          exact hnew
        · intro hran
          refine ⟨hran.2, hran, ?_⟩
          rw [(hnew t hran.2 hran.1).1]
          simp
    have hdis : Disjoint (db.unsatisfied pk) (Finset.Ico db.nextPk (db.nextPk + n)) := by
      rw [Finset.disjoint_left]
      intro t ht hran
      have := (mem_unsat.1 ht).1
      have := (mem_Ico.1 hran).1
      omega
    unfold Db.Accurate at hcou ⊢
    rw [huni, card_union_of_disjoint hdis, card_Ico, hrow, requiringNew_count, fetch_row, hcou]
    push_cast
    omega

lemma consistent_createRequirements {pk ctype made n : Nat} (hpk : pk < db.nextPk)
    (hagree : (db.unit pk).state = .ready → db.Accurate pk) :
    (db.requireNew (db.fetch pk) ctype made n).Consistent := by
  refine consistent_requireNew h pk n hpk hagree (by simp) ?_ ?_ ?_ ?_
  · intro p t
    simp [requireLast, bulkCreate]
  · simp [requireNew_unit]
  · intro p hp hne
    simp [requireNew_unit, bulkCreate, hne, not_le.2 hp]
  · intro p hp hle
    have hne : p ≠ pk := by omega
    simp [requireNew_unit, bulkCreate, hne, hle, hp]

end

/-! ## Steps that reopen units -/

section

variable {db : Db} (h : db.Consistent)
include h

lemma consistent_rerun {pk : Nat} (hpk : pk < db.nextPk) (hsucceeded : (db.unit pk).state = .succeeded) :
    ((db.bumpPending pk).transition (db.fetch pk) .ready).Consistent := by
  have hreo : Reopened db ((db.bumpPending pk).transition (db.fetch pk) .ready) pk
      ((db.fetch pk).setState .ready).row := ⟨rfl, rfl, rfl, hsucceeded, by simp⟩
  refine ⟨⟨?_, ?_⟩, h.edges⟩
  · intro p hp
    by_cases hne : p = pk
    · subst hne
      simpa using h.nonneg p hp
    · exact le_trans (h.nonneg p hp) (hreo.count_le hne)
  · intro p hp hpen
    have hne : p ≠ pk := by
      rintro rfl
      simp at hpen
    exact hreo.accurate hpk hne hp (h.pending p hp) hpen

lemma consistent_condemn {db' : Db} (pk : Nat) (hacy : db.Acyclic)
    (hnex : db'.nextPk = db.nextPk) (hreq : db'.requires = db.requires)
    (huni : ∀ p < db.nextPk, db'.unit p =
    if p = pk ∨ p ∈ db.doomed pk then ((db.fetch p).setState .infeasible).row else db.unit p) :
    db'.Consistent := by
  refine ⟨⟨?_, ?_⟩, by simpa [hnex, hreq] using h.edges⟩
  · intro p hp
    have hp : p < db.nextPk := hnex ▸ hp
    have hcou := h.nonneg p hp
    rw [huni p hp]
    split
    · exact hcou
    · exact hcou
  · intro p hp hpen
    have hp : p < db.nextPk := hnex ▸ hp
    have hsaf : ¬ (p = pk ∨ p ∈ db.doomed pk) := by
      intro hmar
      simp [huni p hp, hmar] at hpen
    have hrequ : ∀ t, db.requires p t = true → ¬ (t = pk ∨ t ∈ db.doomed pk) := by
      intro t ht hmar
      have hloo : p ≠ t := by
        rintro rfl
        rw [hacy.irrefl p] at ht
        cases ht
      exact hsaf (.inr (mem_doomed hmar (mem_requirers.2 ⟨hp, ht⟩) hloo))
    have hsam : db'.unsatisfied p = db.unsatisfied p := by
      refine unsat_congr hnex.ge (fun t => by rw [hreq]) (fun t ht _ => hnex ▸ ht) ?_
      intro t hlt ht
      rw [huni t hlt, if_neg (hrequ t ht)]
    rw [huni p hp, if_neg hsaf] at hpen
    unfold Db.Accurate
    rw [hsam, huni p hp, if_neg hsaf]
    exact h.pending p hp hpen

lemma consistent_permanent (hacyclic : db.Acyclic) (pk : Nat) :
    ((db.condemn pk).transition (db.fetch pk) .infeasible).Consistent := by
  refine consistent_condemn h pk hacyclic (by simp) (by simp) ?_
  intro p hp
  by_cases hne : p = pk
  · subst hne
    simp
  · simp [hne, hp, condemn_unit]

end

/-! ## The loop of `work_succeeded` -/

/-- The instances were fetched from `start`; a requirer that was handled, and a unit that is no
requirer, counts correctly. -/
structure SatisfyLoop (start : Db) (pk : Nat) (rest : List Nat) (db : Db) : Prop where
  nextPk : db.nextPk = start.nextPk
  requires : db.requires = start.requires
  self : db.unit pk = start.unit pk
  nonneg : ∀ p < start.nextPk, 0 ≤ (db.unit p).numUnsatisfiedRequirements
  state : ∀ p ∈ rest, (db.unit p).state = (start.unit p).state
  handled : ∀ p < start.nextPk, p ∉ rest → (db.unit p).state = .pending → db.Accurate p
  waiting : ∀ p ∈ rest, (start.unit p).state = .pending → 2 ≤ (start.unit p).numUnsatisfiedRequirements →
      ((db.unsatisfied p).card : Int) = (start.unit p).numUnsatisfiedRequirements - 1

namespace SatisfyLoop

variable {start db : Db} {pk requirer : Nat} {rest : List Nat}

lemma write (h : SatisfyLoop start pk (requirer :: rest) db)
    (hne : requirer ≠ pk) (hnex : db'.nextPk = db.nextPk) (hreq : db'.requires = db.requires)
    (huni : db'.unit = update db.unit requirer row)
    (hsta : row.state = .succeeded ↔ (start.unit requirer).state = .succeeded)
    (hfre : requirer ∉ rest)
    (hnon : 0 ≤ row.numUnsatisfiedRequirements)
    (hpen : row.state = .pending → row.numUnsatisfiedRequirements = (db.unsatisfied requirer).card) :
    SatisfyLoop start pk rest db' := by
  have hsam : ∀ p, db'.unsatisfied p = db.unsatisfied p := fun p =>
    unsat_update hnex hreq huni (by rw [hsta, h.state requirer ((.head _))])
  have hoth : ∀ p, p ≠ requirer → db'.unit p = db.unit p := fun p hp => by simp [huni, hp]
  have hrow : db'.unit requirer = row := by simp [huni]
  refine ⟨hnex.trans h.nextPk, hreq.trans h.requires, ?_, ?_, ?_, ?_, ?_⟩
  · rw [hoth pk hne.symm, h.self]
  · intro p hp
    by_cases heq : p = requirer
    · subst heq
      rwa [hrow]
    · rw [hoth p heq]
      exact h.nonneg p hp
  · intro p hp
    have heq : p ≠ requirer := fun heq => hfre (heq ▸ hp)
    rw [hoth p heq]
    exact h.state p (.tail _ hp)
  · intro p hp hres hwai
    unfold Db.Accurate
    rw [hsam p]
    by_cases heq : p = requirer
    · subst heq
      rw [hrow] at hwai ⊢
      exact hpen hwai
    · rw [hoth p heq] at hwai ⊢
      exact h.handled p hp (by simp [heq, hres]) hwai
  · intro p hp hwai htwo
    rw [hsam p]
    exact h.waiting p (.tail _ hp) hwai htwo

lemma reopen (h : SatisfyLoop start pk (requirer :: rest) db)
    (hne : requirer ≠ pk) (hsel : (start.unit pk).state ≠ .pending)
    (hreo : Reopened db db' requirer row) (hlt : requirer < start.nextPk)
    (hfre : requirer ∉ rest) (hnon : 0 ≤ row.numUnsatisfiedRequirements)
    (hrea : row.state = .ready)
    (hlat : ∀ p ∈ rest, (start.unit p).state = .pending →
    2 ≤ (start.unit p).numUnsatisfiedRequirements → start.requires p requirer = false) :
    SatisfyLoop start pk rest db' := by
  have hrow : db'.unit requirer = row := by simp [hreo.unit]
  refine ⟨hreo.nextPk.trans h.nextPk, hreo.requires.trans h.requires, ?_, ?_, ?_, ?_, ?_⟩
  · simp [hreo.unit, Ne.symm hne, bumpPending, hsel, h.self]
  · intro p hp
    by_cases heq : p = requirer
    · subst heq
      rwa [hrow]
    · exact le_trans (h.nonneg p hp) (hreo.count_le heq)
  · intro p hp
    have heq : p ≠ requirer := fun heq => hfre (heq ▸ hp)
    rw [hreo.state heq]
    exact h.state p (.tail _ hp)
  · intro p hp hres hwai
    have heq : p ≠ requirer := by
      rintro rfl
      rw [hrow, hrea] at hwai
      cases hwai
    exact hreo.accurate (h.nextPk ▸ hlt) heq (h.nextPk ▸ hp) (h.handled p hp (by simp [heq, hres])) hwai
  · intro p hp hwai htwo
    rw [hreo.unsat_of_not_requires (by rw [h.requires]; exact hlat p hp hwai htwo)]
    exact h.waiting p (.tail _ hp) hwai htwo

section Rounds

variable (start) (now : Nat) {again : Bool}
  (hself : (start.unit pk).state = .succeeded) (hirrefl : pk ∉ start.requirers pk)
  (hnonneg : ∀ p < start.nextPk, 0 ≤ (start.unit p).numUnsatisfiedRequirements)
  (hcounts : ∀ p ∈ start.requirers pk, (start.unit p).state = .pending ∨ (start.unit p).state = .leased →
      1 ≤ (start.unit p).numUnsatisfiedRequirements)
  (hrerun : again = true → ∀ p ∈ start.requirers pk, ∀ q ∈ start.requirers pk, p < q →
    start.requires q p = true →
      (start.unit p).state = .succeeded → (start.unit q).state = .pending →
        (start.unit q).numUnsatisfiedRequirements ≤ 1)
include hself hirrefl hnonneg hcounts hrerun

lemma satisfy (h : SatisfyLoop start pk (rqr :: rest) db) (hmem : rqr ∈ start.requirers pk)
    (hrest : ∀ p ∈ rest, p ∈ start.requirers pk ∧ rqr < p) :
    SatisfyLoop start pk rest (db.satisfy now again (start.fetch rqr)) := by
  have hne : rqr ≠ pk := fun heq => hirrefl (heq ▸ hmem)
  have hlt := (mem_requirers.1 hmem).1
  have hfre : rqr ∉ rest := fun hin => lt_irrefl _ (hrest rqr hin).2
  have hcou := hnonneg rqr hlt
  have hone := hcounts rqr hmem
  by_cases haga : (start.unit rqr).state = .succeeded ∧ again = true
  · obtain ⟨hsuc, rfl⟩ := haga
    refine h.reopen hne (by simp [hself]) ⟨by simp, by simp,
      satisfy_unit_of_rerun now db (start.fetch rqr) hsuc, ?_, by simp⟩
      hlt hfre hcou rfl ?_
    · exact (h.state rqr (.head _)).trans hsuc
    · intro p hp hwai htwo
      by_contra hreq
      have := hrerun rfl rqr hmem p (hrest p hp).1 (hrest p hp).2 (by simpa using hreq) hsuc hwai
      omega
  · refine h.write hne (by simp) (by simp)
      (satisfy_unit_of_not_rerun now again db (start.fetch rqr) haga) ?_ hfre ?_ ?_
    · exact satisfied_succeeded now again (start.fetch rqr) _ haga
    · exact satisfied_nonneg now again (start.fetch rqr) (Int.natCast_nonneg _) hcou hone
    · intro hsti
      obtain ⟨hwai, hmore, hless⟩ := satisfied_pending now again (start.fetch rqr) hsti
      have hone := hone (.inl hwai)
      have hwait := h.waiting rqr (.head _) hwai (by simp only [fetch_row] at hmore; omega)
      rw [hless, fetch_row, ← hwait]

lemma foldl_satisfy : ∀ (rest : List Nat) (db : Db), rest.Pairwise (· < ·) →
    (∀ p ∈ rest, p ∈ start.requirers pk) → SatisfyLoop start pk rest db → SatisfyLoop start pk []
    ((rest.map start.fetch).foldl (Db.satisfy now again) db)
  | [], _, _, _, h => h
  | rqr :: rest, db, hsor, hmem, h => by
      obtain ⟨hfir, hsor⟩ := pairwise_cons.1 hsor
      have hrou := satisfy start now hself hirrefl hnonneg hcounts hrerun h (hmem rqr (.head _))
        (fun p hp => ⟨hmem p (.tail _ hp), hfir p hp⟩)
      exact foldl_satisfy rest _ hsor (fun p hp => hmem p (.tail _ hp)) hrou

end Rounds

end SatisfyLoop

lemma Db.pairwise_requirers (db : Db) (pk : Nat) : (db.requirers pk).Pairwise (· < ·) :=
  pairwise_lt_range.filter _

lemma satisfyLoop_succeed {db : Db} {pk : Nat} (h : db.Consistent) (hpk : pk < db.nextPk)
    (hlea : (db.unit pk).state = .leased) (hirr : pk ∉ db.requirers pk) :
    SatisfyLoop (db.succeed (db.fetch pk)) pk (db.requirers pk) (db.succeed (db.fetch pk)) := by
  have hoth : ∀ p, p ≠ pk → (db.succeed (db.fetch pk)).unit p = db.unit p := fun p hp => by simp [hp]
  refine ⟨rfl, rfl, rfl, ?_, fun _ _ => rfl, ?_, ?_⟩
  · intro p hp
    by_cases hne : p = pk
    · subst hne
      simpa using h.nonneg p hp
    · rw [hoth p hne]
      exact h.nonneg p hp
  · intro p hp hmem hwai
    have hne : p ≠ pk := by
      rintro rfl
      simp at hwai
    rw [hoth p hne] at hwai
    have hsam : (db.succeed (db.fetch pk)).unsatisfied p = db.unsatisfied p := by
      refine unsat_congr (le_refl _) (fun _ => rfl) (fun _ ht _ => ht) ?_
      intro t _ hreq
      have ht : t ≠ pk := by
        rintro rfl
        exact hmem (mem_requirers.2 ⟨hp, hreq⟩)
      rw [hoth t ht]
    unfold Db.Accurate
    rw [hsam, hoth p hne]
    exact h.pending p hp hwai
  · intro p hmem hwai _
    obtain ⟨hp, hreq⟩ := mem_requirers.1 hmem
    have hne : p ≠ pk := fun heq => hirr (heq ▸ hmem)
    rw [hoth p hne] at hwai ⊢
    have hcar : (db.unsatisfied p).card = ((db.succeed (db.fetch pk)).unsatisfied p).card + 1 :=
      card_unsat_reopen (t := pk) rfl rfl (fun u hu => by rw [hoth u hu]) hpk hreq (by simp)
        (by simp [hlea])
    have hcou : (db.unit p).numUnsatisfiedRequirements = (db.unsatisfied p).card := h.pending p hp hwai
    omega

lemma consistent_succeeded {db : Db} (h : db.Consistent) (hacy : db.Acyclic) {pk now : Nat} {again : Bool}
    (hpk : pk < db.nextPk) (hlea : (db.unit pk).state = .leased)
    (hagr : db.CountsAgree (.workSucceeded pk now again)) :
    (db.effect (.workSucceeded pk now again)).Consistent := by
  obtain ⟨hcoun, hrer⟩ := hagr hlea
  have hirr := hacy.notMem_requirers pk
  have hoth : ∀ p ∈ db.requirers pk, (db.succeed (db.fetch pk)).unit p = db.unit p := by
    intro p hp
    have hne : p ≠ pk := fun heq => hirr (heq ▸ hp)
    simp [hne]
  have hsta := satisfyLoop_succeed h hpk hlea hirr
  have hone : ∀ p ∈ db.requirers pk, ((db.succeed (db.fetch pk)).unit p).state = .pending ∨
      ((db.succeed (db.fetch pk)).unit p).state = .leased →
      1 ≤ ((db.succeed (db.fetch pk)).unit p).numUnsatisfiedRequirements := by
    intro p hp
    rw [hoth p hp]
    rintro (hwai | hhel)
    · -- the unit itself is one of the requirements the requirer waits for
      obtain ⟨hlt, hreq⟩ := mem_requirers.1 hp
      have hcou : (db.unit p).numUnsatisfiedRequirements = (db.unsatisfied p).card := h.pending p hlt hwai
      have hsel := mem_unsat.2 ⟨hpk, hreq, by simp [hlea]⟩
      have hpos := card_pos.2 ⟨pk, hsel⟩
      omega
    · exact hcoun p hp hhel
  have hend : SatisfyLoop (db.succeed (db.fetch pk)) pk []
    ((db.succeed (db.fetch pk)).satisfyAll now again pk) :=
    .foldl_satisfy (db.succeed (db.fetch pk)) now (by simp) hirr hsta.nonneg hone
      (fun hr p hp q hq => by rw [hoth p hp, hoth q hq]; exact hrer hr p hp q hq)
      (db.requirers pk) _ (db.pairwise_requirers pk) (fun _ hp => hp) hsta
  have hrow : ((db.succeed (db.fetch pk)).satisfyAll now again pk).unit pk =
      (db.fetch pk).succeed.row := hend.self.trans (by simp)
  change (((db.succeed (db.fetch pk)).satisfyAll now again pk).setUnit pk
    (db.fetch pk).succeed.row).Consistent
  rw [setUnit_eq_self hrow]
  refine ⟨⟨?_, ?_⟩, ?_⟩
  · intro p hp
    exact hend.nonneg p (hend.nextPk ▸ hp)
  · intro p hp
    exact hend.handled p (hend.nextPk ▸ hp) (by simp)
  · intro sour tgt hedg
    rw [hend.requires] at hedg
    rw [hend.nextPk]
    exact h.edges sour tgt hedg

/-! ## Whole runs -/

lemma consistent_perform {db : Db} (h : db.Consistent) (op : Operation) (hbef : db.Acyclic)
    (haft : (db.perform op).Acyclic) (hagr : db.CountsAgree op) : (db.perform op).Consistent := by
  rw [perform_eq] at haft ⊢
  split
  swap
  · exact h
  rename_i henabled
  rw [if_pos henabled] at haft
  cases op with
  | create ctype made => exact consistent_create h ctype made
  | addRequirement pk tgt =>
    obtain ⟨hpk, hnew, htgt⟩ := henabled
    exact consistent_require h hpk htgt hnew (hagr htgt hnew) (haft.irrefl pk) (require_nextPk _ _ _)
      (require_requires _ _ _) (require_unit _ _ _)
  | createRequirements pk ctype made n =>
    exact consistent_createRequirements h henabled.1 (hagr henabled.2)
  | takeLease pk holder unt last node =>
    exact consistent_takeLease h henabled.1 henabled.2 holder unt last node
  | revokeLease pk | markAsFeasible pk =>
    exact consistent_stateForCount h henabled.1 (by simp [henabled.2]) (hagr henabled.2)
  | workSucceeded pk now again => exact consistent_succeeded h hbef henabled.1 henabled.2 hagr
  | rerun pk => exact consistent_rerun h henabled.1 henabled.2
  | permanentErrorOccurred pk => exact consistent_permanent h hbef pk

lemma consistent_empty : empty.Consistent :=
  ⟨⟨fun pk hpk => absurd hpk (not_lt_zero pk), fun pk hpk => absurd hpk (not_lt_zero pk)⟩,
    fun sour tgt hedg => by simp [empty] at hedg⟩

/-- In every run over acyclic graphs whose operations find the counts they rely on, no count is negative
and every `PENDING` unit counts its unsatisfied requirements. -/
theorem countsCorrect_of_countsAgree (ops : List Operation)
    (hacyclic : ∀ db ∈ trace perform empty ops, db.Acyclic)
    (hagree : Guarded perform Db.CountsAgree empty ops) :
    ∀ db ∈ trace perform empty ops, db.CountsCorrect := by
  intro db hdb
  have hcon :=
    forall_trace_of_guarded Db.Consistent (fun db op hdb ⟨hbef, haft, hagree⟩ =>
        consistent_perform hdb op hbef haft hagree)
      consistent_empty (hagree.and_trace hacyclic) db hdb
  exact hcon.toCountsCorrect

lemma Db.acyclic_of_descending {db : Db}
    (h : ∀ sour tgt, db.requires sour tgt = true → tgt < sour) : db.Acyclic := by
  intro pk hloo
  have hlt : ∀ {a b}, Relation.TransGen (fun sour tgt => db.requires sour tgt = true) a b → b < a := by
    intro a b hab
    induction hab with
    | single hedg => exact h _ _ hedg
    | tail _ hedg ih => exact lt_trans (h _ _ hedg) ih
  exact lt_irrefl _ (hlt hloo)

def inTurn : List Operation :=
  [.create 0 0, .create 0 0, .addRequirement 1 0, .takeLease 0 "a" 10 5 "n",
    .workSucceeded 0 6 true, .takeLease 1 "b" 20 15 "n", .workSucceeded 1 16 true]

def rerunUnderLease : List Operation :=
  [.create 0 0, .create 0 0, .addRequirement 1 0, .takeLease 0 "a" 10 5 "n",
    .workSucceeded 0 6 true, .takeLease 1 "b" 20 15 "n", .rerun 0, .takeLease 0 "c" 30 25 "n",
    .workSucceeded 0 26 true]

lemma acyclic_of_requires_eq (dbs : List Db) {m n : Nat}
    (h : dbs.map requires = replicate m (fun _ _ => false) ++
    replicate n (fun sour tgt => (sour == 1 && tgt == 0) || false)) :
    ∀ db ∈ dbs, db.Acyclic := by
  intro db hdb
  have hmem : db.requires ∈ dbs.map requires := mem_map_of_mem hdb
  rw [h, mem_append, mem_replicate, mem_replicate] at hmem
  refine acyclic_of_descending ?_
  intro sour tgt hedg
  rcases hmem with ⟨_, hmem⟩ | ⟨_, hmem⟩
  · simp [hmem] at hedg
  · simp only [hmem, Bool.or_false, Bool.and_eq_true, beq_iff_eq] at hedg
    omega

theorem countsCorrect_inTurn : (run perform empty inTurn).CountsCorrect :=
  countsCorrect_of_countsAgree inTurn (acyclic_of_requires_eq _ (m := 3) (n := 5) rfl) (by decide) _
    (run_mem_trace _ _)

theorem not_countsCorrect_of_rerunUnderLease :
    ¬ ∀ ops, (∀ db ∈ trace perform empty ops, db.Acyclic) →
    ∀ db ∈ trace perform empty ops, db.CountsCorrect := by
  intro h
  have hacy := acyclic_of_requires_eq (trace perform empty rerunUnderLease) (m := 3) (n := 7) rfl
  have hlas := h rerunUnderLease hacy _ (run_mem_trace empty rerunUnderLease)
  have hnon := hlas.nonneg 1 (by decide)
  have hcou : ((run perform empty rerunUnderLease).unit 1).numUnsatisfiedRequirements = -1 := by decide
  omega

end Toolchain.Workflow
