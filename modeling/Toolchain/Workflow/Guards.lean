import Toolchain.Workflow.Effects

/-!
# Guards — which transition methods check the state they start from

Ten methods of `WorkUnit` open with `_assert_state`.  The guard fires only for those that pass a single
state, since its `raise` stands inside the branch that turns one into a list.
-/

namespace Toolchain.Workflow

open Lib

/-! ## The methods and what they declare -/

def AllowedStates.states : AllowedStates → List UnitState
  | .one state => [state]
  | .list states => states

inductive GuardedMethod
  | addRequirement (targetPk : Nat)
  | createRequirements (ctype createdAt n : Nat)
  | leaseTaken | revokeLease
  | workSucceeded (now : Nat) (rerunRequirers : Bool)
  | rerun | permanentErrorOccurred | hasInfeasibleRequirement | markAsFeasible
  | checkNumUnsatisfiedRequirements
  deriving DecidableEq, Repr

namespace GuardedMethod

def allowedStates : GuardedMethod → AllowedStates
  | .addRequirement _ => .list [.pending, .ready, .leased]
  | .createRequirements _ _ _ => .list [.pending, .ready, .leased]
  | .leaseTaken => .one .ready
  | .revokeLease => .one .leased
  | .workSucceeded _ _ => .one .leased
  | .rerun => .one .succeeded
  | .permanentErrorOccurred => .one .leased
  | .hasInfeasibleRequirement => .list [.pending, .succeeded]
  | .markAsFeasible => .one .infeasible
  | .checkNumUnsatisfiedRequirements => .list [.pending, .infeasible]

def run : GuardedMethod → M Unit
  | .addRequirement targetPk => do let _ ← Workflow.addRequirement targetPk
  | .createRequirements ctype createdAt n => Workflow.createRequirements ctype createdAt n
  | .leaseTaken => Workflow.leaseTaken
  | .revokeLease => Workflow.revokeLease
  | .workSucceeded now rerunRequirers => Workflow.workSucceeded now rerunRequirers
  | .rerun => Workflow.rerun
  | .permanentErrorOccurred => Workflow.permanentErrorOccurred
  | .hasInfeasibleRequirement => Workflow.hasInfeasibleRequirement
  | .markAsFeasible => Workflow.markAsFeasible
  | .checkNumUnsatisfiedRequirements => do let _ ← Workflow.checkNumUnsatisfiedRequirements

def Rejects (method : GuardedMethod) (s : Session Db Instance PyException) : Prop :=
  ∃ s', method.run s = .error (.unexpectedState s.mem.row.state) s' ∧ s'.db = s.db

/-! ## Single states are checked, lists are not -/

lemma run_eq_assert (met : GuardedMethod) :
    ∃ rest : Unit → M Unit, met.run = assertState met.allowedStates >>= rest := by
  cases met with
  | addRequirement tar => exact ⟨fun _ => (addRequirement tar).run, rfl⟩
  | createRequirements ctype made n | leaseTaken | revokeLease | workSucceeded now again | rerun
  | permanentErrorOccurred | hasInfeasibleRequirement | markAsFeasible => exact ⟨_, rfl⟩
  | checkNumUnsatisfiedRequirements => exact ⟨fun _ => checkNumUnsatisfiedRequirements.run, rfl⟩

lemma not_rejects_of_list {met : GuardedMethod} {sts : List UnitState}
    (hlis : met.allowedStates = .list sts) (db : Db) (self : Instance) :
    ¬ met.Rejects (quiet db self) := by
  rintro ⟨s', hrai, -⟩
  cases met with
  | addRequirement tar =>
    cases hedg : db.requires self.pk tar with
    | true =>
      have hrun := addReq_quiet_old db self hedg
      simp [run, hrun] at hrai
    | false =>
      by_cases htar : tar < db.nextPk
      · obtain ⟨crea, s₁, hcal, -⟩ := bind_eq_ok.1 (addReq_quiet_new db self hedg htar)
        simp [run, hcal] at hrai
      · have hrun := addReq_quiet_missing db self hedg htar
        simp [run, hrun] at hrai
  | createRequirements ctype made n =>
    by_cases hn : n = 0
    · subst hn
      cases hrai
    · have hrun := create_quiet db self ctype made hn
      simp [run, hrun] at hrai
  | hasInfeasibleRequirement =>
    have hrun := infeasible_quiet db self
    simp [run, hrun] at hrai
  | checkNumUnsatisfiedRequirements =>
    obtain ⟨fixed, s₁, hcal, -⟩ := bind_eq_ok.1 (checkNum_quiet db self)
    simp [run, hcal] at hrai
  | leaseTaken | revokeLease | workSucceeded now again | rerun | permanentErrorOccurred
  | markAsFeasible => cases hlis

/-- A call on a unit outside the declared states is rejected, on whatever connection, exactly if
the method declares a single state. -/
theorem rejects_iff_declares_one (method : GuardedMethod) (db : Db) (self : Instance)
    (houtside : self.row.state ∉ method.allowedStates.states) :
    (∀ faults aborted, method.Rejects { db := db, mem := self, faults := faults, aborted := aborted }) ↔
    ∃ state, method.allowedStates = .one state := by
  cases hall : method.allowedStates with
  | one state =>
    have hne : self.row.state ≠ state := by
      simpa [hall, AllowedStates.states] using houtside
    refine ⟨fun _ => ⟨state, rfl⟩, fun _ faults aborted => ?_⟩
    obtain ⟨rest, hrun⟩ := method.run_eq_assert
    exact ⟨_, by rw [hrun, hall, bind_of_error (assert_one_error hne)], rfl⟩
  | list states =>
    constructor
    · intro hrej
      exact absurd (hrej [] false) (not_rejects_of_list hall db self)
    · rintro ⟨state, hone⟩
      cases hone

def succeededUnit : Db where
  nextPk := 2
  unit pk := { payloadCtype := 0, state := if pk = 1 then .succeeded else .ready }
  requires _ _ := false
  deltas := []

theorem rejects_rerun_ready :
    rerun.Rejects (quiet succeededUnit (succeededUnit.fetch 0)) :=
  (rejects_iff_declares_one .rerun succeededUnit (succeededUnit.fetch 0) (by decide)).2 ⟨_, rfl⟩ [] false

/-- `add_requirement` declares `PENDING`, `READY` and `LEASED`, but turns a unit that has succeeded
into one that waits. -/
theorem addRequirement_accepts_succeeded :
    (succeededUnit.fetch 1).row.state ∉ (addRequirement 0).allowedStates.states ∧
    ¬ (addRequirement 0).Rejects (quiet succeededUnit (succeededUnit.fetch 1)) ∧
    ((final ((addRequirement 0).run (quiet succeededUnit (succeededUnit.fetch 1)))).db.unit 1).state =
      .pending :=
  ⟨by decide, not_rejects_of_list rfl _ _, by decide⟩

end GuardedMethod

end Toolchain.Workflow
