import Toolchain.BuildSense.Ingestion

/-!
# BuildSense.RawData — the row of a run and the object it points to

A key is found free in one statement, the object is uploaded in the next, and the row is put in a
third.  Two final reports that both find the key free, or one sent with `ignore_dups` that finds an
object, may leave a row whose object is another report.  In all other runs they belong together.
-/

namespace Toolchain.BuildSense

open Lib Function IngestCall Submission

variable {tgt : BuildTarget} {shr : Ingestion} {call : IngestCall} {rpl : Reply}

/-- The object that the row points to is that of the report the row was made from. -/
def SameReport (shared : Ingestion) : Prop :=
  ∀ row submission, shared.row = some row → shared.writer = some submission →
    shared.objects row.serverInfo.s3Key = some submission.object

instance (shared : Ingestion) : Decidable (SameReport shared) :=
  decidable_of_iff (∀ row ∈ shared.row, ∀ submission ∈ shared.writer,
      shared.objects row.serverInfo.s3Key = some submission.object)
    ⟨fun h row submission hrow hwriter => h row hrow submission hwriter,
      fun h row hrow submission hwriter => h row submission hrow hwriter⟩

/-- An object that is found under the key of an upload, or taken for the one to upload, is the same. -/
def Undisturbed (target : BuildTarget) (shared : Ingestion) (call : IngestCall) (_ : Reply) : Prop :=
  match call with
  | .submit submission .findKey =>
    submission.ignoreDups = true →
      ∀ object ∈ shared.objects (target.buildFileKey submission.stage), object = submission.object
  | .submit submission (.upload key) => ∀ object ∈ shared.objects key, object = submission.object
  | _ => True

instance (target : BuildTarget) (shared : Ingestion) :
    ∀ call reply, Decidable (Undisturbed target shared call reply)
  | .submit submission .findKey, _ =>
    inferInstanceAs (Decidable (submission.ignoreDups = true →
      ∀ object ∈ shared.objects (target.buildFileKey submission.stage), object = submission.object))
  | .submit submission (.upload key), _ =>
    inferInstanceAs (Decidable (∀ object ∈ shared.objects key, object = submission.object))
  | .submit _ (.findDuplicateKeyName _), _ => inferInstanceAs (Decidable True)
  | .submit _ (.put _), _ => inferInstanceAs (Decidable True)
  | .submit _ .create, _ => inferInstanceAs (Decidable True)
  | .submit _ (.returned _), _ => inferInstanceAs (Decidable True)
  | .submit _ (.raised _), _ => inferInstanceAs (Decidable True)
  | .updateWorkunits _ _, _ => inferInstanceAs (Decidable True)

def Uploaded (shared : Ingestion) : IngestCall → Prop
  | .submit submission (.put key) => shared.objects key = some submission.object
  | _ => True

/-! ## One statement -/

lemma objects_statement (h : Undisturbed tgt shr call rpl) {key : Text} {object : S3Object}
    (hobj : shr.objects key = some object) :
    (call.statement tgt shr rpl).1.objects key = some object := by
  have heff := effect_statement tgt shr call rpl
  generalize (call.statement tgt shr rpl).1 = after at heff
  cases heff with
  | none => exact hobj
  | upload sub other =>
    by_cases hkey : key = other
    · subst hkey
      rw [h object hobj]
      exact update_self ..
    · calc
        update shr.objects other (some sub.object) key = shr.objects key := update_of_ne hkey ..
        _ = some object := hobj
  | put sub other allowed | create sub | update last row found allowed => exact hobj

lemma sameReport_statement (h : SameReport shr) (hupl : Uploaded shr call)
    (hund : Undisturbed tgt shr call rpl) :
    SameReport (call.statement tgt shr rpl).1 := by
  intro row sub hrow hwri
  have hkee := @objects_statement _ _ _ _ hund
  have heff := effect_statement tgt shr call rpl
  generalize (call.statement tgt shr rpl).1 = after at heff hrow hwri hkee
  cases heff with
  | none | create other => exact h row sub hrow hwri
  | upload other key => exact hkee (h row sub hrow hwri)
  | put other key allo =>
    -- the row is the one just put
    cases hrow
    cases hwri
    exact hupl
  | update last ear found allo =>
    cases hrow
    exact h ear sub found hwri

lemma uploaded_saved {sub : Submission} {key : Text} (h : shr.objects key = some sub.object) :
    Uploaded shr (.submit sub (sub.saved key)) := by
  unfold saved
  split
  · trivial
  · exact h

lemma uploaded_statement (hupl : Uploaded shr call) (hund : Undisturbed tgt shr call rpl) :
    Uploaded (call.statement tgt shr rpl).1 (call.statement tgt shr rpl).2 := by
  cases call with
  | updateWorkunits last point =>
    cases point with
    | update =>
      cases rpl with
      | performed | raised error => trivial
    | returned updated | raised error => trivial
  | submit sub point =>
    cases rpl with
    | raised error =>
      cases point with
      | findKey | findDuplicateKeyName coun | upload key | put key | create | returned created
      | raised ear => trivial
    | performed =>
      cases point with
      | findKey =>
        simp only [statement, perform, findKeyForBuildFile]
        split
        · trivial
        rename_i hfou
        split
        · -- the object found there is taken for the one to upload
          rename_i hign
          rcases Option.ne_none_iff_exists'.1 hfou with ⟨object, hobj⟩
          apply uploaded_saved
          rw [hobj, hund hign object hobj]
        · trivial
      | findDuplicateKeyName coun =>
        simp only [statement, perform, findDuplicateKeyName]
        split
        · trivial
        · split <;> trivial
      | upload key =>
        apply uploaded_saved
        exact update_self ..
      | put key =>
        simp only [statement, perform, put]
        split
        · cases sub.stage with
          | start | final => trivial
        · trivial
      | create | returned created | raised error => trivial

lemma Uploaded.of_other {oth : IngestCall} (h : Uploaded shr call) (hund : Undisturbed tgt shr oth rpl) :
    Uploaded (oth.statement tgt shr rpl).1 call := by
  cases call with
  | updateWorkunits last point => trivial
  | submit sub point =>
    cases point with
    | put key => exact objects_statement hund h
    | findKey | findDuplicateKeyName counter | upload key | create | returned created
    | raised error => trivial

/-! ## Runs -/

/-- As long as reports that differ do not meet under a key, the row of a run is made from the report
that its key leads to. -/
theorem row_of_same_report (target : BuildTarget) (objects : Text → Option S3Object)
    (events : List IngestEvent)
    (hundisturbed : Guarded (IngestState.step target) (Concurrent.Allowed (Undisturbed target))
    (Concurrent.init (.unreported objects)) events) :
    ∀ s ∈ trace (IngestState.step target) (Concurrent.init (.unreported objects)) events,
      SameReport s.shared := by
  have hini : (Concurrent.init (.unreported objects) : IngestState).Annotated SameReport
      fun _ shared call => Uploaded shared call := by
    apply Concurrent.annotated_init
    rintro row sub hrow -
    cases hrow
  intro s hs
  refine (forall_trace_of_guarded _ ?_ hini hundisturbed s hs).invariant
  intro s event h hall
  refine h.step ?_ ?_ ?_ hall
  · intro index shared request _
    cases request with
    | storeBuildStart report | storeBuildEnded report ignoreDups compressedFile
    | ingestWorkUnits time => trivial
  · intro index shared call reply hsam hupl hcal
    exact ⟨sameReport_statement hsam hupl hcal, uploaded_statement hupl hcal⟩
  · intro index other shared call reply next _ _ hcal _ hnex
    exact hnex.of_other hcal

/-! ## Reports that meet -/

def finalReport (buildStats : List UInt8) : IngestRequest :=
  .storeBuildEnded (reportOf "SUCCESS" buildStats) false none

def oneAfterTheOther : List IngestEvent :=
  [.begin (finalReport [1]), .advance 0 .performed, .advance 0 .performed, .advance 0 .performed,
    .begin (finalReport [2]), .advance 1 .performed, .advance 1 .performed, .advance 1 .performed,
    .advance 1 .performed]

theorem row_of_same_report_oneAfterTheOther :
    (ingested nightly (fun _ => none) oneAfterTheOther).shared.row.isSome = true ∧
    SameReport (ingested nightly (fun _ => none) oneAfterTheOther).shared :=
  ⟨by decide +kernel, row_of_same_report nightly (fun _ => none) oneAfterTheOther (by decide +kernel) _
      (run_mem_trace _ oneAfterTheOther)⟩

def atTheSameTime : List IngestEvent :=
  [.begin (finalReport [1]), .begin (finalReport [2]), .advance 0 .performed, .advance 1 .performed,
    .advance 0 .performed, .advance 1 .performed, .advance 0 .performed]

/-- The row was put by the first report, and leads to the build stats of the second. -/
theorem row_of_other_report :
    (ingested nightly (fun _ => none) atTheSameTime).shared.writer.map (·.report.buildStats) = some [1] ∧
    ((ingested nightly (fun _ => none) atTheSameTime).shared.row.bind fun row =>
    (ingested nightly (fun _ => none) atTheSameTime).shared.objects row.serverInfo.s3Key).map
    (·.content) = some [2] ∧
    ¬SameReport (ingested nightly (fun _ => none) atTheSameTime).shared := by
  decide +kernel

end Toolchain.BuildSense
