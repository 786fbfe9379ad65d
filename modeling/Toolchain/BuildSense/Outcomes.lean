import Toolchain.BuildSense.Ingestion

/-!
# BuildSense.Outcomes — the outcome of a run is final, and is processed once

All three conditions forbid to change a row that holds an outcome, so at most one final report puts its
row and goes on to create the `ProcessPantsRun`.  But an outcome in the report at the *start* of a run
turns away every later one; and if the creation raises, the row is final and nobody processes it.
-/

namespace Toolchain.BuildSense

open Lib Ingestion IngestCall Concurrent IngestState Submission SubmitPoint

variable {tgt : BuildTarget} {shr : Ingestion} {call : IngestCall} {rpl : Reply}

namespace Ingestion

def isFinal (self : Ingestion) : Bool :=
  self.row.any fun row => decide row.IsFinal

lemma isFinal_iff {self : Ingestion} : self.isFinal = true ↔ ∃ row, self.row = some row ∧ row.IsFinal := by
  simp [isFinal, Option.any_eq_true]

end Ingestion

/-! ## Finality -/

lemma isFinal_eq_false_of_allows {stage : Stage} (h : stage.allows shr.row = true) :
    shr.isFinal = false := by
  unfold isFinal
  cases hrow : shr.row with
  | none => rfl
  | some row =>
    rw [hrow] at h
    cases stage with
    | start => cases h
    | final =>
      have hpen : row.outcome = notAvailable := by simpa [Stage.allows] using h
      simp [RunInfo.IsFinal, hpen]

lemma row_statement {row : RunInfo} (hrow : shr.row = some row) (hfin : row.IsFinal)
    (call : IngestCall) (rpl : Reply) :
    (call.statement tgt shr rpl).1.row = some row := by
  have heff := effect_statement tgt shr call rpl
  generalize (call.statement tgt shr rpl).1 = after at heff
  cases heff with
  | none | upload sub key => exact hrow
  | put sub key allo =>
    have hnot := isFinal_eq_false_of_allows allo
    rw [isFinal_iff.2 ⟨row, hrow, hfin⟩] at hnot
    cases hnot
  | create sub => exact hrow
  | update last other found allo =>
    rw [hrow] at found
    cases found
    exact absurd allo hfin

lemma row_step {row : RunInfo} (hfin : row.IsFinal) (s : IngestState) (ev : IngestEvent)
    (hrow : s.shared.row = some row) : (step tgt s ev).shared.row = some row := by
  rcases step_cases IngestRequest.begin (statement tgt) s ev with
    ⟨request, -, heq⟩ | heq | ⟨idx, rpl, call, -, -, heq⟩
  · rwa [IngestState.step, heq]
  · rwa [IngestState.step, heq]
  · rw [IngestState.step, heq]
    exact row_statement hrow hfin call rpl

def OutcomePermanent (target : BuildTarget) (objects : Text → Option S3Object)
    (events : List IngestEvent) : Prop :=
  ∀ before since rest, events = before ++ since ++ rest → ∀ row,
    (ingested target objects before).shared.row = some row → row.IsFinal →
      (ingested target objects (before ++ since)).shared.row = some row

lemma outcomePermanent (tgt : BuildTarget) (obj : Text → Option S3Object)
    (events : List IngestEvent) : OutcomePermanent tgt obj events := by
  rintro bef since rest - row hrow hfin
  unfold ingested at hrow ⊢
  rw [run_append]
  exact run_invariant (fun s : IngestState => s.shared.row = some row) (row_step hfin) since hrow

namespace SubmitPoint

def hasPut : SubmitPoint → Bool
  | .create => true
  | .returned _ => true
  | _ => false

def won : SubmitPoint → Bool
  | .create => true
  | .returned created => created
  | _ => false

end SubmitPoint

namespace IngestCall

def isFinalReport : IngestCall → Bool
  | .submit submission _ => submission.stage = .final && submission.report.outcome ≠ notAvailable
  | .updateWorkunits _ _ => false

def wins : IngestCall → Bool
  | .submit submission point =>
    submission.stage = .final && submission.report.outcome ≠ notAvailable && point.won
  | .updateWorkunits _ _ => false

def hasEnded : IngestCall → Bool
  | .submit submission (.returned created) => submission.stage = .final && created
  | _ => false

def hasReturned : IngestCall → Bool
  | .submit _ (.returned _) => true
  | _ => false

def isCreating : IngestCall → Bool
  | .submit _ .create => true
  | _ => false

end IngestCall

/-- A report at the start says that the outcome is not available if it puts the row, and the
`ProcessPantsRun` of an outcome gets created. -/
def Orderly (shared : Ingestion) (call : IngestCall) (reply : Reply) : Prop :=
  match call with
  | .submit submission (.put _) =>
    submission.stage = .start → shared.row = none → submission.report.outcome = notAvailable
  | .submit submission .create => submission.report.outcome ≠ notAvailable → reply = .performed
  | _ => True

instance (shared : Ingestion) : ∀ call reply, Decidable (Orderly shared call reply)
  | .submit submission (.put _), _ =>
    inferInstanceAs (Decidable (submission.stage = .start → shared.row = none →
      submission.report.outcome = notAvailable))
  | .submit submission .create, reply =>
    inferInstanceAs (Decidable (submission.report.outcome ≠ notAvailable → reply = .performed))
  | .submit _ .findKey, _ => inferInstanceAs (Decidable True)
  | .submit _ (.findDuplicateKeyName _), _ => inferInstanceAs (Decidable True)
  | .submit _ (.upload _), _ => inferInstanceAs (Decidable True)
  | .submit _ (.returned _), _ => inferInstanceAs (Decidable True)
  | .submit _ (.raised _), _ => inferInstanceAs (Decidable True)
  | .updateWorkunits _ _, _ => inferInstanceAs (Decidable True)

/-! ## Before the put -/

variable (sub : Submission)

lemma hasPut_saved (key : Text) : (sub.saved key).hasPut = false := by
  unfold saved
  split <;> rfl

lemma hasPut_findKey : (sub.findKeyForBuildFile tgt shr).hasPut = false := by
  unfold findKeyForBuildFile
  simp only
  split
  · rfl
  · split
    · exact hasPut_saved sub _
    · rfl

lemma hasPut_findDup (ctr : Nat) : (sub.findDuplicateKeyName tgt shr ctr).hasPut = false := by
  unfold Submission.findDuplicateKeyName
  simp only
  split
  · rfl
  · split <;> rfl

/-- What is known of a call from its point: only final reports create, and one that is turned away
has found an outcome. -/
def Consistent (shared : Ingestion) : IngestCall → Prop
  | .submit submission .create => submission.stage = .final
  | .submit submission (.returned created) =>
    submission.stage = .final → created = false → shared.isFinal = true
  | _ => True

section

variable {sub : Submission} {pt : SubmitPoint}

section

variable (h : pt.hasPut = false)

include h

lemma wins_eq_false : (submit sub pt).wins = false := by
  cases pt with
  | create | returned created => cases h
  | findKey | findDuplicateKeyName counter | upload key | put key | raised error =>
    simp [wins, won]

lemma hasEnded_eq_false : (submit sub pt).hasEnded = false := by
  cases pt with
  | create | returned created => cases h
  | findKey | findDuplicateKeyName counter | upload key | put key | raised error => rfl

lemma consistent_of_hasPut_eq_false : Consistent shr (.submit sub pt) := by
  cases pt with
  | create | returned created => cases h
  | findKey | findDuplicateKeyName counter | upload key | put key | raised error => trivial

end

end

/-! ## The put -/

lemma isFinal_updateWorkunits (last : Nat) : (shr.updateWorkunits last).1.isFinal = shr.isFinal := by
  unfold Ingestion.updateWorkunits
  split
  · rfl
  rename_i row hrow
  split
  · rename_i hpen
    simp [isFinal, hrow, RunInfo.IsFinal, hpen]
  · rfl

lemma wins_put {sub : Submission} {key : Text}
    (hstar : sub.stage = .start → shr.row = none → sub.report.outcome = notAvailable) :
    (sub.put tgt shr key).1.isFinal.toNat = shr.isFinal.toNat +
    (submit sub (sub.put tgt shr key).2).wins.toNat := by
  unfold Submission.put
  split
  swap
  · simp [wins, won]
  rename_i hall
  rw [isFinal_eq_false_of_allows hall]
  cases hsta : sub.stage with
  | start =>
    have hnon : shr.row = none := by simpa [hsta, Stage.allows] using hall
    have hpen := hstar hsta hnon
    simp [isFinal, RunInfo.IsFinal, runInfo, hpen, wins]
  | final =>
    by_cases hpen : sub.report.outcome = notAvailable
    · simp [isFinal, RunInfo.IsFinal, runInfo, wins, hpen]
    · simp [isFinal, RunInfo.IsFinal, runInfo, wins, hpen, hsta, won]

lemma wins_fail {sub : Submission} {pt : SubmitPoint} (err : String)
    (hcre : pt = .create → sub.report.outcome = notAvailable) :
    (submit sub (pt.fail err)).wins = (submit sub pt).wins := by
  cases pt with
  | create => simp [wins, hcre rfl]
  | findKey | findDuplicateKeyName counter | upload key | put key | returned created
  | raised ear => rfl

lemma wins_statement (tgt : BuildTarget) (hord : Orderly shr call rpl) :
    (call.statement tgt shr rpl).1.isFinal.toNat + call.wins.toNat =
    shr.isFinal.toNat + (call.statement tgt shr rpl).2.wins.toNat := by
  cases call with
  | updateWorkunits last point =>
    cases point with
    | update =>
      cases rpl with
      | performed =>
        simp only [statement, isFinal_updateWorkunits]
        rfl
      | raised error => rfl
    | returned updated | raised error => rfl
  | submit sub point =>
    cases rpl with
    | raised error =>
      have hcre : point = .create → sub.report.outcome = notAvailable := by
        rintro rfl
        by_contra hfin
        cases hord hfin
      simp only [statement, wins_fail error hcre]
    | performed =>
      simp only [statement]
      cases point with
      | findKey => rw [wins_eq_false rfl, perform, wins_eq_false (hasPut_findKey _)]
      | findDuplicateKeyName coun =>
        rw [wins_eq_false rfl, perform, wins_eq_false (hasPut_findDup _ coun)]
      | upload key =>
        rw [wins_eq_false rfl, perform, wins_eq_false (hasPut_saved _ key)]
        rfl
      | put key =>
        rw [wins_eq_false rfl]
        exact wins_put hord
      | create | returned created | raised error => rfl

/-! ## The requests together -/

lemma consistent_put (sub : Submission) (key : Text) : Consistent (sub.put tgt shr key).1
    (.submit sub (sub.put tgt shr key).2) := by
  unfold Submission.put
  split
  · cases hsta : sub.stage with
    | start =>
      intro _ hcre
      cases hcre
    | final => exact hsta
  · rename_i href
    intro hsta _
    rw [isFinal_iff]
    cases hrow : shr.row with
    | none =>
      rw [hsta, hrow] at href
      exact absurd rfl href
    | some row =>
      refine ⟨row, rfl, ?_⟩
      intro hpen
      rw [hsta, hrow] at href
      exact href (by simp [Stage.allows, hpen])

lemma consistent_statement (h : Consistent shr call) (rpl : Reply) :
    Consistent (call.statement tgt shr rpl).1 (call.statement tgt shr rpl).2 := by
  cases call with
  | updateWorkunits last point =>
    cases point with
    | update =>
      cases rpl with
      | performed | raised error => trivial
    | returned updated | raised error => trivial
  | submit sub point =>
    cases rpl with
    | raised error =>
      cases point with
      | returned crea => exact h
      | findKey | findDuplicateKeyName coun | upload key | put key | create | raised earlier => trivial
    | performed =>
      cases point with
      | findKey => exact consistent_of_hasPut_eq_false (hasPut_findKey sub)
      | findDuplicateKeyName coun => exact consistent_of_hasPut_eq_false (hasPut_findDup sub coun)
      | upload key => exact consistent_of_hasPut_eq_false (hasPut_saved sub key)
      | put key => exact consistent_put sub key
      | create =>
        intro _ hcre
        cases hcre
      | returned crea => exact h
      | raised error => trivial

lemma Consistent.of_other (h : Consistent shr call) (oth : IngestCall) (rpl : Reply) :
    Consistent (oth.statement tgt shr rpl).1 call := by
  cases call with
  | updateWorkunits last point => trivial
  | submit sub point =>
    cases point with
    | returned crea =>
      intro hsta hcre
      rcases isFinal_iff.1 (h hsta hcre) with ⟨row, hrow, hfin⟩
      exact isFinal_iff.2 ⟨row, row_statement hrow hfin oth rpl, hfin⟩
    | create => exact h
    | findKey | findDuplicateKeyName counter | upload key | put key | raised error => trivial

variable {s : IngestState}

lemma consistent_step (h : s.Annotated (fun _ => True) fun _ shr call => Consistent shr call)
    (event : IngestEvent) :
    (step tgt s event).Annotated (fun _ => True) fun _ shr call => Consistent shr call := by
  have hall : Concurrent.Allowed (fun _ _ _ => True) s event := by
    cases event with
    | begin request => trivial
    | advance idx rpl => exact fun _ _ => trivial
  refine h.step ?_ ?_ ?_ hall
  · intro idx shr request _
    cases request with
    | storeBuildStart report | storeBuildEnded report ignoreDups compressedFile
    | ingestWorkUnits time => trivial
  · intro idx shr call rpl _ hcal _
    exact ⟨trivial, consistent_statement hcal rpl⟩
  · intro idx other shr call rpl next _ _ _ _ hnex
    exact hnex.of_other call rpl

lemma wins_begin (rq : IngestRequest) : rq.begin.wins = false := by
  cases rq with
  | storeBuildStart report | storeBuildEnded report ignoreDups compressedFile => exact wins_eq_false rfl
  | ingestWorkUnits time => rfl

lemma hasEnded_begin (rq : IngestRequest) : rq.begin.hasEnded = false := by
  cases rq with
  | storeBuildStart report | storeBuildEnded report ignoreDups compressedFile
  | ingestWorkUnits time => rfl

lemma length_updateWorkunits (last : Nat) :
    (shr.updateWorkunits last).1.processPantsRuns = shr.processPantsRuns := by
  unfold Ingestion.updateWorkunits
  split
  · rfl
  · split <;> rfl

lemma hasEnded_put (tgt : BuildTarget) (shr : Ingestion) (sub : Submission) (key : Text) :
    (sub.put tgt shr key).1.processPantsRuns = shr.processPantsRuns ∧
    (submit sub (sub.put tgt shr key).2).hasEnded = false := by
  unfold Submission.put
  split
  · refine ⟨rfl, ?_⟩
    cases hsta : sub.stage with
    | start => simp [hasEnded, hsta]
    | final => rfl
  · exact ⟨rfl, by simp [hasEnded]⟩

lemma length_statement (tgt : BuildTarget) (h : Consistent shr call) (rpl : Reply) :
    (call.statement tgt shr rpl).1.processPantsRuns.length + call.hasEnded.toNat =
    shr.processPantsRuns.length + (call.statement tgt shr rpl).2.hasEnded.toNat := by
  cases call with
  | updateWorkunits last point =>
    cases point with
    | update =>
      cases rpl with
      | performed =>
        simp only [statement, length_updateWorkunits]
        rfl
      | raised error => rfl
    | returned updated | raised error => rfl
  | submit sub point =>
    cases rpl with
    | raised error =>
      cases point with
      | returned created | findKey | findDuplicateKeyName coun | upload key | put key | create
      | raised ear => rfl
    | performed =>
      simp only [statement]
      cases point with
      | findKey => rw [hasEnded_eq_false rfl, perform, hasEnded_eq_false (hasPut_findKey _)]
      | findDuplicateKeyName coun =>
        rw [hasEnded_eq_false rfl, perform, hasEnded_eq_false (hasPut_findDup _ coun)]
      | upload key => rw [hasEnded_eq_false rfl, perform, hasEnded_eq_false (hasPut_saved _ key)]
      | put key =>
        rcases hasEnded_put tgt shr sub key with ⟨hrun, hend⟩
        rw [hasEnded_eq_false rfl, perform, hrun, hend]
      | create =>
        have hsta : sub.stage = .final := h
        simp [perform, hasEnded, hsta]
      | returned created | raised error => rfl

/-! ## Runs -/

structure Tallied (s : IngestState) : Prop where
  consistent : s.Annotated (fun _ => True) fun _ shared call => Consistent shared call
  winners : s.calls.countP wins = s.shared.isFinal.toNat
  ended : s.calls.countP hasEnded = s.shared.processPantsRuns.length

lemma Tallied.step (h : Tallied s) {ev : IngestEvent}
    (hord : Concurrent.Allowed Orderly s ev) : Tallied (step tgt s ev) where
  consistent := consistent_step h.consistent ev
  winners := by
    refine countP_step wins (fun shr : Ingestion => shr.isFinal.toNat) wins_begin ?_ h.winners hord
    intro call rpl _ hcal
    exact wins_statement tgt hcal
  ended := by
    refine countP_step hasEnded (fun shr : Ingestion => shr.processPantsRuns.length) hasEnded_begin
      ?_ h.ended hord
    intro call rpl hmem _
    rcases List.mem_iff_getElem?.1 hmem with ⟨idx, hind⟩
    exact length_statement tgt (h.consistent.assertions idx call hind) rpl

lemma wins_eq (call : IngestCall) (h : call.isFinalReport = true → call.isCreating = false) :
    call.wins = (call.isFinalReport && call.hasEnded) := by
  cases call with
  | updateWorkunits last point => rfl
  | submit sub point =>
    cases point with
    | create =>
      cases hrep : (submit sub .create).isFinalReport with
      | true => cases h hrep
      | false =>
        simp only [isFinalReport] at hrep
        simp only [wins, hrep, Bool.false_and]
    | returned crea =>
      cases hsta : sub.stage with
      | start => simp [wins, isFinalReport, hsta]
      | final => simp [wins, isFinalReport, hasEnded, won, hsta]
    | findKey | findDuplicateKeyName counter | upload key | put key | raised error =>
      simp [wins, hasEnded, won]

/-- Exactly one of the final reports has returned `True`, and there is one `ProcessPantsRun` for every
report at the end that has. -/
def ProcessedOnce (s : IngestState) : Prop :=
  s.calls.countP (fun call => call.isFinalReport && call.hasEnded) = 1 ∧
    s.shared.processPantsRuns.length = s.calls.countP hasEnded

lemma Tallied.processedOnce (h : Tallied s)
    (hcre : ∀ call ∈ s.calls, call.isFinalReport = true → call.isCreating = false)
    (hret : ∃ call ∈ s.calls, call.isFinalReport = true ∧ call.hasReturned = true) :
    ProcessedOnce s := by
  refine ⟨?_, h.ended.symm⟩
  have hcou : s.calls.countP (fun call => call.isFinalReport && call.hasEnded) = s.calls.countP wins := by
    apply List.countP_congr
    intro call hmem
    rw [wins_eq call (hcre call hmem)]
  have hfin : s.shared.isFinal = true := by
    rcases hret with ⟨call, hmem, hrep, hove⟩
    cases call with
    | updateWorkunits last point => cases hrep
    | submit sub point =>
      cases point with
      | returned crea =>
        have hsta : sub.stage = .final := by
          simp only [isFinalReport, Bool.and_eq_true, decide_eq_true_eq] at hrep
          exact hrep.1
        rcases List.mem_iff_getElem?.1 hmem with ⟨idx, hind⟩
        cases crea with
        | false => exact h.consistent.assertions idx _ hind hsta rfl
        | true =>
          -- it has won, so the row is final
          have hwin : (submit sub (.returned true)).wins = true := by
            simpa [wins, isFinalReport, won] using hrep
          have hpos := List.countP_pos_iff.2 ⟨_, hmem, hwin⟩
          rw [h.winners] at hpos
          cases hrow : s.shared.isFinal with
          | true => rfl
          | false =>
            rw [hrow] at hpos
            cases hpos
      | findKey | findDuplicateKeyName counter | upload key | put key | create | raised error =>
        cases hove
  calc
    s.calls.countP (fun call => call.isFinalReport && call.hasEnded) = s.calls.countP wins := hcou
    _ = s.shared.isFinal.toNat := h.winners
    _ = 1 := by rw [hfin]; rfl

/-- An outcome is final, and if all goes orderly exactly one final report has been accepted as soon as
one has been answered. -/
theorem outcome_processed_once (target : BuildTarget) (objects : Text → Option S3Object)
    (events : List IngestEvent) :
    OutcomePermanent target objects events ∧ (Guarded (step target) (Concurrent.Allowed Orderly)
    (init (.unreported objects)) events →
    (∀ call ∈ (ingested target objects events).calls, call.isFinalReport = true →
      call.isCreating = false) →
    (∃ call ∈ (ingested target objects events).calls, call.isFinalReport = true ∧
      call.hasReturned = true) →
    ProcessedOnce (ingested target objects events)) := by
  refine ⟨outcomePermanent target objects events, ?_⟩
  intro hord hcre hret
  have htal :=
    forall_trace_of_guarded Tallied (fun _ _ h hall => h.step hall) ⟨annotated_init trivial, rfl, rfl⟩
      hord _ (run_mem_trace _ events)
  exact htal.processedOnce hcre hret

/-! ## Reports that are not processed -/

def startAndEnd (outcome : String) : List IngestEvent :=
  [.begin (.storeBuildStart (reportOf outcome [])), .advance 0 .performed, .advance 0 .performed,
    .advance 0 .performed,
    .begin (.storeBuildEnded (reportOf "SUCCESS" []) false none), .advance 1 .performed,
    .advance 1 .performed, .advance 1 .performed, .advance 1 .performed]

theorem outcome_processed_once_startAndEnd :
    ProcessedOnce (ingested nightly (fun _ => none) (startAndEnd notAvailable)) :=
  (outcome_processed_once nightly (fun _ => none) (startAndEnd notAvailable)).2 (by decide +kernel)
    (by decide +kernel) (by decide +kernel)

/-- A report at the end that puts the row but fails to create the `ProcessPantsRun`, and is sent
again. -/
def sentAgain : List IngestEvent :=
  [.begin (.storeBuildEnded (reportOf "SUCCESS" []) false none), .advance 0 .performed,
    .advance 0 .performed, .advance 0 .performed, .advance 0 (.raised "OperationalError"),
    .begin (.storeBuildEnded (reportOf "SUCCESS" []) true none), .advance 1 .performed,
    .advance 1 .performed]

/-- The run is never processed if its first report has an outcome, or if the creation of the
`ProcessPantsRun` raises. -/
theorem outcome_never_processed :
    ((∃ call ∈ (ingested nightly (fun _ => none) (startAndEnd "SUCCESS")).calls,
    call.isFinalReport = true ∧ call.hasReturned = true) ∧
    (∀ call ∈ (ingested nightly (fun _ => none) (startAndEnd "SUCCESS")).calls,
    call.isFinalReport = true → call.hasEnded = false) ∧
    (ingested nightly (fun _ => none) (startAndEnd "SUCCESS")).shared.processPantsRuns = []) ∧
    (∃ call ∈ (ingested nightly (fun _ => none) sentAgain).calls,
    call.isFinalReport = true ∧ call.hasReturned = true) ∧
    (∀ call ∈ (ingested nightly (fun _ => none) sentAgain).calls,
    call.isFinalReport = true → call.hasEnded = false) ∧
    (ingested nightly (fun _ => none) sentAgain).shared.processPantsRuns = [] := by
  decide +kernel

end Toolchain.BuildSense
