import Toolchain.Pants.LocalStore
import Toolchain.Lib.Run

/-!
# Pants.Reporter — the BuildSense plugin while a build runs

The engine calls the reporter with work units; a second thread sends the initial report, the queued work
units, builds left from earlier runs, and, once told to terminate, the final report.  A step is one
statement of either thread.  The client does not raise; an exception ends the thread it is raised in.
-/

namespace Toolchain.Pants

open Lib

/-! ## What the engine reports -/

structure RunTrackerBuildInfo where
  hasEnded : Bool
  runId : String
  named : runId ≠ ""
  buildStats : List (String × Json)
  hasLogFile : Bool

abbrev WorkUnitsMap := List (String × Json)

structure WorkUnitsChunk where
  callNum : Nat
  workunits : WorkUnitsMap
  timestamp : Nat

structure Callback where
  (startedWorkunits completedWorkunits : WorkUnitsMap)
  runTrackerInfo : RunTrackerBuildInfo
  finished : Bool
  timestamp : Nat

abbrev Artifacts := List (String × List UInt8)

def setItem {V : Type} (d : List (String × V)) (key : String) (value : V) : List (String × V) :=
  if d.any (·.1 = key) then
    d.map fun item => if item.1 = key then (key, value) else item
  else
    d ++ [(key, value)]

/-- `d.setdefault(key, value)` -/
def setDefault (d : List (String × Json)) (item : String × Json) : List (String × Json) :=
  if d.any (·.1 = item.1) then d else d ++ [item]

def Callback.workUnitsMap (self : Callback) : WorkUnitsMap :=
  self.completedWorkunits.foldl (fun d item => setItem d item.1 item.2)
    (self.startedWorkunits.foldl (fun d item => setItem d item.1 item.2) [])

def latestWorkunits (data : List WorkUnitsChunk) : Int × WorkUnitsMap × Nat :=
  match data.insertionSort fun a b => b.callNum ≤ a.callNum with
  | [] => (-1, [], 0)
  | last :: earlier =>
    (last.callNum, (last :: earlier).foldl (fun d chunk => chunk.workunits.foldl setDefault d) [],
      last.timestamp)

/-- The converter of `converter.py`.  Each of its functions may raise, as `transform` does for a work unit
whose parent it has not been given. -/
structure WorkUnitConverter (C : Type) where
  create : Option Json → Except String C
  transform : C → WorkUnitsMap → Int → Nat → Except String (C × List Json)
  getAllWorkUnits : C → Nat → Nat → Except String (C × List Json)
  getStandaloneArtifacts : C → Except String Artifacts

structure Plugin (C : Type) where
  codec : JsonCodec
  converter : WorkUnitConverter C

/-! ## The client -/

structure ServerResponse where
  isEmpty : Bool
  (ciUserApiId link : Option String)
  config : Json

inductive ClientReply
  | accepted (response : ServerResponse)
  | failed | unsent

namespace ClientReply

def count (successfulCalls : Nat) : ClientReply → Nat
  | .accepted _ => successfulCalls + 1
  | .failed => 0
  | .unsent => successfulCalls

def response? : ClientReply → Option ServerResponse
  | .accepted response => if response.isEmpty then none else some response
  | _ => none

end ClientReply

/-- What a statement of the thread meets; `logFile` is the log as it can be read, if it can. -/
structure Surroundings where
  authAvailable : Bool
  reply : ClientReply
  now : Nat
  batchName : String
  logFile : Option (List UInt8)

/-! ## The state -/

structure BuildState (C : Type) where
  enabled : Bool
  initialReport : Option RunTrackerBuildInfo
  endReportData : Option (RunTrackerBuildInfo × Nat)
  sentInitialReport : Bool
  (runId ciUserApiId : Option String)
  workunitsChunksQueue : List WorkUnitsChunk
  converter : Option C
  localStore : LocalBuildsStore
  submitBatches : Bool
  buildLink : Option String
  config : Option Json
  askedForConfig : Bool
  successfulCalls : Nat

inductive ReportOperation
  | noOp | sent | error
  deriving DecidableEq, Repr

inductive MainPoint
  | idle
  | handleWorkunits (callback : Callback)
  | queueWorkunits (callback : Callback)
  | submitFinalReport (callback : Callback)
  | stopThread (callback : Callback)
  | join (callback : Callback)
  | returned (callback : Callback)
  | raised (callback : Callback) (error : String)

inductive ThreadPoint
  | loop | sendReport | maybeGetConfig | maybeSendInitialReport
  | emptyQueue (operation : ReportOperation) (data : List WorkUnitsChunk)
  | submitWorkunits (workunits : List Json)
  | maybeSendBatchedBuilds (operation : ReportOperation)
  | submitBatch (batch : BatchedData)
  | emptyLastQueue (data : List WorkUnitsChunk)
  | submitRunEnd (runId : String) (buildStats : List (String × Json)) (artifacts : Artifacts)
  | storeBuild (runId : String) (buildStats : List (String × Json))
  | uploadArtifacts (artifacts : Artifacts)
  | ended
  | raised (error : String)

/-- An enabled reporter, with the next statement of either thread. -/
structure Reporter (C : Type) where
  state : BuildState C
  callCount : Nat
  main : MainPoint
  terminate : Bool
  thread : ThreadPoint

variable {C : Type}

def Reporter.init (localStore : LocalBuildsStore) : Reporter C where
  state :=
    { enabled := true, initialReport := none, endReportData := none, sentInitialReport := false,
      runId := none
      ciUserApiId := none, workunitsChunksQueue := [], converter := none, localStore := localStore
      submitBatches := true, buildLink := none, config := none, askedForConfig := false,
        successfulCalls := 0 }
  callCount := 0
  main := .idle
  terminate := false
  thread := .loop

namespace BuildState

def maxQueueSize : Nat := 300

/-- `queue_workunits`; `put_nowait` raises if the queue is full. -/
def queueWorkunits (self : BuildState C) (chunk : WorkUnitsChunk) : Except String (BuildState C) :=
  if !self.enabled then
    .ok self
  else if chunk.workunits.isEmpty then
    .ok self
  else if self.runId.getD "" = "" then
    .error "run_id must be initialized."
  else if self.workunitsChunksQueue.length < maxQueueSize then
    .ok { self with workunitsChunksQueue := chunk :: self.workunitsChunksQueue }
  else
    .error "Full"

def queueInitialReport (self : BuildState C) (info : RunTrackerBuildInfo) : BuildState C :=
  { self with runId := some info.runId, initialReport := some info }

def submitFinalReport (self : BuildState C) (info : RunTrackerBuildInfo) (callsCount : Nat) :
    BuildState C :=
  if info.hasEnded then
    { self with
      runId := some (if self.runId.getD "" = "" then info.runId else self.runId.getD "")
      endReportData := some (info, callsCount) }
  else
    self

def hasSuccessfulCalls (self : BuildState C) : Bool :=
  self.successfulCalls > 2

def getConverter (plugin : Plugin C) (self : BuildState C) : Except String C :=
  match self.converter with
  | some converter => .ok converter
  | none => plugin.converter.create self.config

/-- The converter after the work units of some chunks, and these as they are sent. -/
def transform (plugin : Plugin C) (self : BuildState C) (data : List WorkUnitsChunk) :
    Except String (C × List Json) := do
  let (callNum, workunits, timestamp) := latestWorkunits data
  plugin.converter.transform (← self.getConverter plugin) workunits callNum timestamp

def getAllWorkUnits (plugin : Plugin C) (self : BuildState C) (data : List WorkUnitsChunk)
    (callsCount now : Nat) : Except String (C × List Json) := do
  plugin.converter.getAllWorkUnits (← self.transform plugin data).1 callsCount now

def count (self : BuildState C) (reply : ClientReply) : BuildState C :=
  { self with successfulCalls := reply.count self.successfulCalls }

end BuildState

namespace Reporter

def chunk (self : Reporter C) (callback : Callback) : WorkUnitsChunk where
  callNum := self.callCount
  workunits := callback.workUnitsMap
  timestamp := callback.timestamp

def advanceMain (self : Reporter C) : Reporter C :=
  match self.main with
  | .idle => self
  | .handleWorkunits callback =>
    { self with
      state :=
        if callback.finished then
          { self.state with runId := some callback.runTrackerInfo.runId }
        else if self.callCount = 0 then self.state.queueInitialReport callback.runTrackerInfo else
          self.state
      main := .queueWorkunits callback }
  | .queueWorkunits callback =>
    match self.state.queueWorkunits (self.chunk callback) with
    | .ok state =>
      if callback.finished then
        { self with state := state, main := .submitFinalReport callback }
      else
        { self with state := state, callCount := self.callCount + 1, main := .idle }
    | .error error =>
      -- a callback that is not the last is forgotten; there will be another one
      { self with main := if callback.finished then .raised callback error else .idle }
  | .submitFinalReport callback =>
    { self with
      state := self.state.submitFinalReport callback.runTrackerInfo self.callCount
      main := .stopThread callback }
  | .stopThread callback => { self with terminate := true, main := .join callback }
  | .join callback =>
    match self.thread with
    | .ended => { self with main := .returned callback }
    | .raised _ => { self with main := .returned callback }
    | _ => self
  | .returned _ => self
  | .raised _ _ => self

/-! ## The reporter thread -/

/-- The loop of `_report_loop`, and the first check of `send_final_report`. -/
def reportLoop (self : Reporter C) : Reporter C :=
  if self.terminate then
    match self.state.endReportData with
    | none => { self with thread := .raised "End report data not captured." }
    | some _ => { self with thread := .emptyLastQueue [] }
  else
    { self with thread := .sendReport }

def sendReport (self : Reporter C) (authAvailable : Bool) : Reporter C :=
  if !self.state.enabled then
    { self with thread := .loop }
  else if !authAvailable then
    { self with state := { self.state with enabled := false }, thread := .loop }
  else
    { self with thread := .maybeGetConfig }

def maybeGetConfig (self : Reporter C) (reply : ClientReply) : Reporter C :=
  if self.state.askedForConfig then
    { self with thread := .maybeSendInitialReport }
  else
    { self with
      state :=
        { self.state with
          askedForConfig := true
          config := (reply.response?.map (·.config)).or self.state.config
          -- only a failure is counted here
          successfulCalls :=
            match reply with
            | .failed => 0
            | _ => self.state.successfulCalls }
      thread := .maybeSendInitialReport }

def maybeSendInitialReport (self : Reporter C) (reply : ClientReply) : Reporter C :=
  if self.state.sentInitialReport || self.state.initialReport.isNone then
    { self with thread := .emptyQueue .noOp [] }
  else
    match reply with
    | .accepted response =>
      { self with
        state :=
          { self.state.count reply with
            ciUserApiId := response.ciUserApiId
            sentInitialReport := true
            buildLink := response.link }
        thread := .emptyQueue .sent [] }
    | _ => { self with state := self.state.count reply, thread := .loop }

/-- What `_send_workunit_queue` does once the queue is empty. -/
def sendWorkunits (plugin : Plugin C) (self : Reporter C) (operation : ReportOperation)
    (data : List WorkUnitsChunk) : Reporter C :=
  if (latestWorkunits data).2.1.isEmpty then
    { self with thread := .maybeSendBatchedBuilds operation }
  else if self.state.runId.getD "" = "" then
    { self with thread := .raised "run_id must be initialized." }
  else
    match self.state.transform plugin data with
    | .error error => { self with thread := .raised error }
    | .ok (converter, workunits) =>
      { self with
        state := { self.state with converter := some converter }
        thread := if workunits.isEmpty then .maybeSendBatchedBuilds operation else .submitWorkunits
          workunits }

def maybeSendBatchedBuilds (plugin : Plugin C) (self : Reporter C) (surroundings : Surroundings) :
    Reporter C :=
  if !self.state.hasSuccessfulCalls && self.state.submitBatches then
    { self with thread := .loop }
  else
    match self.state.localStore.getUploadBatch plugin.codec surroundings.batchName surroundings.now with
    | .error error => { self with thread := .raised error }
    | .ok (none, store) => { self with state := { self.state with localStore := store }, thread := .loop }
    | .ok (some batch, store) =>
      { self with
        state := { self.state with localStore := store }
        thread :=
          match batch.getBatchedData plugin.codec with
          | none => .raised "UnicodeDecodeError"
          | some _ => .submitBatch batch }

def submitBatch (self : Reporter C) (batch : BatchedData) (reply : ClientReply) : Reporter C :=
  { self with
    state :=
      if reply.response?.isSome then
        { self.state.count reply with localStore := self.state.localStore.deleteBatchFile batch }
      else
        { self.state.count reply with submitBatches := false }
    thread := .loop }

def withWorkunits (buildStats : List (String × Json)) (workunits : List Json) : List (String × Json) :=
  setItem buildStats "workunits" (.array workunits)

/-- The contents of the log file; none if the run has no log, and an error if it cannot be read. -/
def getLogFile (info : RunTrackerBuildInfo) (logFile : Option (List UInt8)) : Except String (List UInt8) :=
  if info.hasLogFile then
    match logFile with
    | some logData => .ok logData
    | none => .error "OSError"
  else
    .ok []

def getArtifacts (plugin : Plugin C) (converter : C) (info : RunTrackerBuildInfo)
    (logFile : Option (List UInt8)) : Except String Artifacts := do
  let artifacts ← plugin.converter.getStandaloneArtifacts converter
  let pantsRunLog ← getLogFile info logFile
  return if pantsRunLog.isEmpty then artifacts else setItem artifacts "pants_run_log" pantsRunLog

/-- What `send_final_report` does once the queue is empty.  The artifacts are collected before the report
is sent, and any error ends the thread. -/
def prepareFinalReport (plugin : Plugin C) (self : Reporter C) (data : List WorkUnitsChunk)
    (surroundings : Surroundings) : Reporter C :=
  match self.state.endReportData with
  | none => { self with thread := .raised "End report data not captured." }
  | some (info, callsCount) =>
    match self.state.getAllWorkUnits plugin data callsCount surroundings.now with
    | .error error => { self with thread := .raised error }
    | .ok (converter, allWorkunits) =>
      { self with
        state := { self.state with converter := some converter }
        thread :=
          if self.state.runId.getD "" = "" then
            .ended
          else
            match getArtifacts plugin converter info surroundings.logFile with
            | .error error => .raised error
            | .ok artifacts =>
              .submitRunEnd (self.state.runId.getD "") (withWorkunits info.buildStats allWorkunits) artifacts }

def submitRunEnd (self : Reporter C) (runId : String) (buildStats : List (String × Json))
    (artifacts : Artifacts) (reply : ClientReply) : Reporter C :=
  match reply.response? with
  | some response =>
    { self with
      state := { self.state.count reply with buildLink := self.state.buildLink.or response.link }
      thread := if artifacts.isEmpty then .ended else .uploadArtifacts artifacts }
  | none => { self with state := self.state.count reply, thread := .storeBuild runId buildStats }

def storeBuild (plugin : Plugin C) (self : Reporter C) (runId : String)
    (buildStats : List (String × Json)) (now : Nat) : Reporter C :=
  { self with
    state :=
      { self.state with
        localStore := self.state.localStore.storeBuild runId
          (plugin.codec.dumps (.object buildStats)) now }
    thread := .ended }

def advanceThread (plugin : Plugin C) (self : Reporter C) (surroundings : Surroundings) : Reporter C :=
  match self.thread with
  | .loop => self.reportLoop
  | .sendReport => self.sendReport surroundings.authAvailable
  | .maybeGetConfig => self.maybeGetConfig surroundings.reply
  | .maybeSendInitialReport => self.maybeSendInitialReport surroundings.reply
  | .emptyQueue operation data =>
    match self.state.workunitsChunksQueue with
    | [] => self.sendWorkunits plugin operation data
    | chunk :: rest =>
      { self with
        state := { self.state with workunitsChunksQueue := rest }
        thread := .emptyQueue operation (data ++ [chunk]) }
  | .submitWorkunits _ => { self with state := self.state.count surroundings.reply, thread := .loop }
  | .maybeSendBatchedBuilds _ => self.maybeSendBatchedBuilds plugin surroundings
  | .submitBatch batch => self.submitBatch batch surroundings.reply
  | .emptyLastQueue data =>
    match self.state.workunitsChunksQueue with
    | [] => self.prepareFinalReport plugin data surroundings
    | chunk :: rest =>
      { self with
        state := { self.state with workunitsChunksQueue := rest }
        thread := .emptyLastQueue (data ++ [chunk]) }
  | .submitRunEnd runId buildStats artifacts =>
    self.submitRunEnd runId buildStats artifacts surroundings.reply
  | .storeBuild runId buildStats => self.storeBuild plugin runId buildStats surroundings.now
  | .uploadArtifacts _ => { self with state := self.state.count surroundings.reply, thread := .ended }
  | .ended => self
  | .raised _ => self

end Reporter

/-! ## Runs -/

inductive ReporterEvent
  | callback (callback : Callback)
  | main
  | thread (surroundings : Surroundings)
  | files (buildQueue buildStats uploadStaging : List Entry)

namespace Reporter

def step (plugin : Plugin C) (self : Reporter C) : ReporterEvent → Reporter C
  | .callback callback =>
    match self.main with
    | .idle => { self with main := .handleWorkunits callback }
    | _ => self
  | .main => self.advanceMain
  | .thread surroundings => self.advanceThread plugin surroundings
  | .files buildQueue buildStats uploadStaging =>
    { self with
      state :=
        { self.state with
          localStore :=
            { self.state.localStore with
              buildQueue := buildQueue
              buildStats := buildStats
              uploadStaging := uploadStaging } } }

end Reporter

end Toolchain.Pants
