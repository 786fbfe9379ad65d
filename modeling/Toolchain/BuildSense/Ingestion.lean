import Toolchain.Lib.Concurrent
import Toolchain.Lib.Text

/-!
# BuildSense.Ingestion — reports of a build on their way into S3 and DynamoDB

A report of a run is uploaded to S3 under a key that was found free, its row is put into DynamoDB under
a condition, and if it is final a `ProcessPantsRun` is created.  Each statement is atomic and may raise;
the requests, all for one run of one user, take them in any order.
-/

namespace Toolchain.BuildSense

open Lib

/-! ## Reports -/

structure RequestContext where
  requestId : String
  acceptTime : Nat
  statsVersion : String
  clientIp : Option String
  deriving DecidableEq, Repr

/-- The data of a report: what becomes the row, and the build stats as they are uploaded. -/
structure Report where
  outcome : String
  /-- The other fields of `run_info`, after they have been sanitized. -/
  runInfo : List (String × String)
  buildStats : List UInt8
  context : RequestContext
  deriving DecidableEq, Repr

inductive Stage
  | start | final
  deriving DecidableEq, Repr

def Stage.name : Stage → Text
  | .start => "start.json".toList
  | .final => "final.json".toList

structure S3Object where
  content : List UInt8
  contentType : String
  metadata : List (String × String)
  deriving DecidableEq, Repr

structure Submission where
  stage : Stage
  report : Report
  ignoreDups : Bool
  compressedFile : Option (List UInt8)
  deriving DecidableEq, Repr

/-- `_prepare_data` for the content that `_save_build_stats_for_stage` chooses. -/
def Submission.object (self : Submission) : S3Object :=
  match self.compressedFile with
  | some file => { content := file, contentType := "application/json", metadata := [("compression", "zlib")] }
  | none => { content := self.report.buildStats, contentType := "application/json", metadata := [] }

/-! ## The row -/

structure ServerInfo where
  requestId : String
  acceptTime : Nat
  (statsVersion environment s3Bucket : String)
  s3Key : Text
  clientIp : Option String
  deriving DecidableEq, Repr

structure RunInfo where
  outcome : String
  fields : List (String × String)
  serverInfo : ServerInfo
  deriving DecidableEq, Repr

def notAvailable : String := "NOT_AVAILABLE"

def RunInfo.IsFinal (self : RunInfo) : Prop :=
  self.outcome ≠ notAvailable

instance (row : RunInfo) : Decidable row.IsFinal :=
  inferInstanceAs (Decidable (row.outcome ≠ notAvailable))

structure ProcessPantsRun where
  (repoId userApiId runId repoFullName : String)
  deriving DecidableEq, Repr

structure BuildTarget where
  (environment bucket : String)
  /-- Base path, customer, repo, user and run, as `_create_key` joins them. -/
  directory : Text
  run : ProcessPantsRun

namespace BuildTarget

def createKey (self : BuildTarget) (name : Text) : Text :=
  self.directory ++ '/' :: name

def buildFileKey (self : BuildTarget) (stage : Stage) : Text :=
  self.createKey stage.name

def duplicateKey (self : BuildTarget) (stage : Stage) (counter : Nat) : Text :=
  self.createKey ("duplicates/".toList ++ stage.name ++ '_' :: Nat.toDigits 10 counter ++ ".json".toList)

end BuildTarget

namespace Submission

def forbiddenInputFields : List String :=
  ["indicators", "modified_fields", "collected_platform_info"]

/-- Fields that `from_post_data` and `RunInfo.from_json_dict` drop. -/
def droppedFields : List String :=
  ["user", "target_data", "goals", "datetime", "report_url", "default_report"]

/-- The errors of `from_post_data`; a missing field is a `KeyError`. -/
def postDataError? (self : Submission) : Option String :=
  let names := self.report.runInfo.map Prod.fst
  if names.any (forbiddenInputFields.contains ·) then
    some "Forbidden fields in build data"
  else if !names.contains "user" then
    some "user"
  else if !names.contains "datetime" then some "datetime" else none

def serverInfo (target : BuildTarget) (self : Submission) (key : Text) : ServerInfo where
  requestId := self.report.context.requestId
  acceptTime := self.report.context.acceptTime
  statsVersion := self.report.context.statsVersion
  environment := target.environment
  s3Bucket := target.bucket
  s3Key := key
  clientIp := if self.report.context.clientIp = some "127.0.0.1" then none else self.report.context.clientIp

def runInfo (target : BuildTarget) (self : Submission) (key : Text) : RunInfo where
  outcome := self.report.outcome
  fields := self.report.runInfo.filter fun field => !droppedFields.contains field.1
  serverInfo := self.serverInfo target key

end Submission

/-! ## The stores -/

/-- What the requests share.  `writer` is not stored anywhere: it is the submission that has put the
row. -/
structure Ingestion where
  objects : Text → Option S3Object
  row : Option RunInfo
  writer : Option Submission
  processPantsRuns : List ProcessPantsRun

namespace Ingestion

def unreported (objects : Text → Option S3Object) : Ingestion where
  objects := objects
  row := none
  writer := none
  processPantsRuns := []

end Ingestion

/-- `AVOID_OVERWRITE_EXPRESSION` for the report at the start, `ALLOW_OVERWRITE_NON_FINAL` for the one at
the end. -/
def Stage.allows : Stage → Option RunInfo → Bool
  | .start, row => row.isNone
  | .final, none => true
  | .final, some row => row.outcome = notAvailable

/-! ## The requests -/

inductive SubmitPoint
  | findKey
  | findDuplicateKeyName (counter : Nat)
  | upload (key : Text)
  | put (key : Text)
  | create
  | returned (created : Bool)
  | raised (error : String)
  deriving DecidableEq, Repr

inductive UpdatePoint
  | update
  | returned (updated : Bool)
  | raised (error : String)
  deriving DecidableEq, Repr

inductive IngestCall
  | submit (submission : Submission) (point : SubmitPoint)
  | updateWorkunits (lastUpdate : Nat) (point : UpdatePoint)
  deriving DecidableEq, Repr

inductive IngestRequest
  | storeBuildStart (report : Report)
  | storeBuildEnded (report : Report) (ignoreDups : Bool) (compressedFile : Option (List UInt8))
  | ingestWorkUnits (acceptTime : Nat)
  deriving DecidableEq, Repr

def IngestRequest.begin : IngestRequest → IngestCall
  | .storeBuildStart report =>
    .submit
      { stage := .start, report := report, ignoreDups := false, compressedFile := none }
      .findKey
  | .storeBuildEnded report ignoreDups compressedFile =>
    .submit
      { stage := .final, report := report, ignoreDups := ignoreDups, compressedFile := compressedFile }
      .findKey
  | .ingestWorkUnits acceptTime => .updateWorkunits acceptTime .update

inductive Reply
  | performed
  | raised (error : String)
  deriving DecidableEq, Repr

namespace Submission

def maxDuplicates : Nat := 10

def saved (self : Submission) (key : Text) : SubmitPoint :=
  match self.postDataError? with
  | some error => .raised error
  | none => .put key

/-- `_find_key_for_build_file`; the mode is `SKIP` or `DUPLICATES`. -/
def findKeyForBuildFile (target : BuildTarget) (self : Submission) (shared : Ingestion) : SubmitPoint :=
  let key := target.buildFileKey self.stage
  if shared.objects key = none then
    .upload key
  else if self.ignoreDups then self.saved key else .findDuplicateKeyName 1

/-- One round of the loop of `_find_duplicate_key_name`. -/
def findDuplicateKeyName (target : BuildTarget) (self : Submission) (shared : Ingestion)
    (counter : Nat) : SubmitPoint :=
  let key := target.duplicateKey self.stage counter
  if shared.objects key = none then
    .upload key
  else if counter < maxDuplicates then
    .findDuplicateKeyName (counter + 1)
  else
    .raised "Could not find unique key, aborting"

/-- `save_run` or `update_or_insert_run`. -/
def put (target : BuildTarget) (self : Submission) (shared : Ingestion) (key : Text) :
    Ingestion × SubmitPoint :=
  if self.stage.allows shared.row then
    ({ shared with
        row := some (self.runInfo target key)
        writer := some self },
      match self.stage with
      | .start => .returned true
      | .final => .create)
  else
    (shared, .returned false)

def perform (target : BuildTarget) (self : Submission) (shared : Ingestion) :
    SubmitPoint → Ingestion × SubmitPoint
  | .findKey => (shared, self.findKeyForBuildFile target shared)
  | .findDuplicateKeyName counter => (shared, self.findDuplicateKeyName target shared counter)
  | .upload key =>
    ({ shared with objects := Function.update shared.objects key (some self.object) }, self.saved key)
  | .put key => self.put target shared key
  | .create => ({ shared with processPantsRuns := shared.processPantsRuns ++ [target.run] },
    .returned true)
  | .returned created => (shared, .returned created)
  | .raised error => (shared, .raised error)

end Submission

namespace SubmitPoint

def fail (error : String) : SubmitPoint → SubmitPoint
  | .returned created => .returned created
  | .raised earlier => .raised earlier
  | _ => .raised error

end SubmitPoint

/-- `update_workunits` under `UPDATE_NOT_FINAL_EXPRESSION`. -/
def Ingestion.updateWorkunits (shared : Ingestion) (lastUpdate : Nat) : Ingestion × Bool :=
  match shared.row with
  | none => (shared, false)
  | some row =>
    if row.outcome = notAvailable then
      ({ shared with
          row := some { row with serverInfo := { row.serverInfo with acceptTime := lastUpdate } } },
        true)
    else
      (shared, false)

namespace IngestCall

def statement (target : BuildTarget) (shared : Ingestion) : IngestCall → Reply → Ingestion × IngestCall
  | .submit submission point, .performed =>
    ((submission.perform target shared point).1,
      .submit submission (submission.perform target shared point).2)
  | .submit submission point, .raised error => (shared, .submit submission (point.fail error))
  | .updateWorkunits lastUpdate .update, .performed =>
    ((shared.updateWorkunits lastUpdate).1,
      .updateWorkunits lastUpdate (.returned (shared.updateWorkunits lastUpdate).2))
  | .updateWorkunits lastUpdate .update, .raised error =>
    (shared, .updateWorkunits lastUpdate (.raised error))
  | .updateWorkunits lastUpdate point, _ => (shared, .updateWorkunits lastUpdate point)

end IngestCall

abbrev IngestEvent := Scheduled IngestRequest Reply

abbrev IngestState := Concurrent Ingestion IngestCall

def IngestState.step (target : BuildTarget) : IngestState → IngestEvent → IngestState :=
  Concurrent.step IngestRequest.begin (IngestCall.statement target)

def ingested (target : BuildTarget) (objects : Text → Option S3Object) (events : List IngestEvent) :
    IngestState :=
  run (IngestState.step target) (Concurrent.init (.unreported objects)) events

namespace IngestCall

inductive Effect (target : BuildTarget) (shared : Ingestion) : IngestCall → Reply → Ingestion → Prop
  | none (call : IngestCall) (reply : Reply) : Effect target shared call reply shared
  | upload (submission : Submission) (key : Text) :
    Effect target shared (.submit submission (.upload key)) .performed
        { shared with objects := Function.update shared.objects key (some submission.object) }
  | put (submission : Submission) (key : Text) (allowed : submission.stage.allows shared.row = true) :
      Effect target shared (.submit submission (.put key)) .performed
        { shared with row := some (submission.runInfo target key), writer := some submission }
  | create (submission : Submission) : Effect target shared (.submit submission .create) .performed
        { shared with processPantsRuns := shared.processPantsRuns ++ [target.run] }
  | update (lastUpdate : Nat) (row : RunInfo) (found : shared.row = some row)
    (allowed : row.outcome = notAvailable) :
      Effect target shared (.updateWorkunits lastUpdate .update) .performed
        { shared with row := some { row with serverInfo := { row.serverInfo with acceptTime := lastUpdate } } }

lemma effect_statement (tgt : BuildTarget) (shr : Ingestion) (call : IngestCall)
    (rpl : Reply) : Effect tgt shr call rpl (call.statement tgt shr rpl).1 := by
  cases call with
  | submit sub point =>
    cases rpl with
    | raised error => exact .none _ _
    | performed =>
      cases point with
      | findKey | findDuplicateKeyName counter => exact .none _ _
      | upload key => exact .upload sub key
      | put key =>
        simp only [statement, Submission.perform, Submission.put]
        split
        · rename_i allo
          exact .put sub key allo
        · exact .none _ _
      | create => exact .create sub
      | returned created | raised error => exact .none _ _
  | updateWorkunits last point =>
    cases point with
    | update =>
      cases rpl with
      | raised error => exact .none _ _
      | performed =>
        simp only [statement, Ingestion.updateWorkunits]
        split
        · exact .none _ _
        rename_i row found
        split
        · rename_i allo
          exact .update last row found allo
        · exact .none _ _
    | returned updated | raised error => exact .none _ _

end IngestCall

/-! ## A run to send reports for -/

def nightly : BuildTarget where
  environment := "prod"
  bucket := "builds"
  directory := "nightly".toList
  run := { repoId := "repo", userApiId := "user", runId := "nightly", repoFullName := "customer/repo" }

def reportOf (outcome : String) (buildStats : List UInt8) : Report where
  outcome := outcome
  runInfo := [("user", "user"), ("datetime", "today")]
  buildStats := buildStats
  context := { requestId := "request", acceptTime := 0, statsVersion := "3", clientIp := none }

end Toolchain.BuildSense
