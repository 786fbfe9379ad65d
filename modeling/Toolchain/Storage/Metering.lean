import Toolchain.Lib.Run
import Toolchain.Storage.Combinators

/-!
# Storage.Metering — usage reports on their way to the meters

An actor adds up the usage reports of each customer, sends the sums when a window ends, and forgets them
only if they were sent.

Models `UsageReport::add_assign` and `AmberfloEmitter` of `storage/src/driver/metering.rs`.
-/

namespace Toolchain.Storage

open Lib List

inductive Meter
  | cacheReadBytes | numReadBlobs | cacheWriteBytes | numWriteBlobs
  deriving DecidableEq

namespace Meter

def all : List Meter :=
  [.cacheReadBytes, .numReadBlobs, .cacheWriteBytes, .numWriteBlobs]

def apiName : Meter → String
  | .cacheReadBytes => "cache-read-bytes"
  | .numReadBlobs => "cache-num-read-blobs"
  | .cacheWriteBytes => "cache-write-bytes"
  | .numWriteBlobs => "cache-num-write-blobs"

def amount : Meter → UsageReport → Nat
  | .cacheReadBytes, report => report.cacheReadBytes
  | .numReadBlobs, report => report.numReadBlobs
  | .cacheWriteBytes, report => report.cacheWriteBytes
  | .numWriteBlobs, report => report.numWriteBlobs

end Meter

/-- The numbers are of 64 bits, and a sum that is larger wraps around. -/
def UsageReport.addAssign (self rhs : UsageReport) : UsageReport where
  customerId := self.customerId
  cacheReadBytes := (self.cacheReadBytes + rhs.cacheReadBytes) % 2 ^ 64
  numReadBlobs := (self.numReadBlobs + rhs.numReadBlobs) % 2 ^ 64
  cacheWriteBytes := (self.cacheWriteBytes + rhs.cacheWriteBytes) % 2 ^ 64
  numWriteBlobs := (self.numWriteBlobs + rhs.numWriteBlobs) % 2 ^ 64

@[simp] lemma Meter.amount_addAssign (meter : Meter) (self rhs : UsageReport) :
    meter.amount (self.addAssign rhs) = (meter.amount self + meter.amount rhs) % 2 ^ 64 := by
  cases meter with
  | cacheReadBytes | numReadBlobs | cacheWriteBytes | numWriteBlobs => rfl

structure AmberfloIngestionEvent where
  customerId : Text
  meterApiName : String
  meterValue : Nat
  env : Text

structure AmberfloEmitter where
  (idPrefix envDimension : Text)

abbrev AggregatedUsage := List (Text × UsageReport)

def AggregatedUsage.aggregate (report : UsageReport) : AggregatedUsage → AggregatedUsage
  | [] => [(report.customerId, report)]
  | (customer, aggregated) :: rest =>
    if customer = report.customerId then (customer, aggregated.addAssign report) :: rest
    else (customer, aggregated) :: aggregate report rest

namespace AmberfloEmitter

variable (self : AmberfloEmitter)

def eventsOf (customer : Text) (report : UsageReport) : List AmberfloIngestionEvent :=
  Meter.all.map fun meter =>
    { customerId := self.idPrefix ++ '_' :: customer, meterApiName := meter.apiName
      meterValue := meter.amount report, env := self.envDimension }

def records (aggregated : AggregatedUsage) : List AmberfloIngestionEvent :=
  (aggregated.flatMap fun entry => self.eventsOf entry.1 entry.2).filter (0 < ·.meterValue)

end AmberfloEmitter

/-- `received` and `emitted` are not stored anywhere: the reports that were taken from the channel, and
the batches that were sent with success. -/
structure EmitterState where
  continueRunning : Bool
  aggregated : AggregatedUsage
  received : List UsageReport
  emitted : List (List AmberfloIngestionEvent)

/-- What the actor waits for: a report, the end of the window or that of the channel.  After one of
the latter it sends, with the answer of the server. -/
inductive EmitterEvent
  | report (report : UsageReport)
  | windowEnds (accepted : Bool)
  | channelCloses (accepted : Bool)

namespace EmitterState

def init : EmitterState where
  continueRunning := true
  aggregated := []
  received := []
  emitted := []

def send (emitter : AmberfloEmitter) (self : EmitterState) (accepted : Bool) : EmitterState :=
  let records := emitter.records self.aggregated
  if self.aggregated.isEmpty then self
  else if records.isEmpty || accepted then
    { self with aggregated := [], emitted := self.emitted ++ [records] }
  else
    self

def step (emitter : AmberfloEmitter) (self : EmitterState) (event : EmitterEvent) : EmitterState :=
  if self.continueRunning then
    match event with
    | .report report =>
      { self with aggregated := self.aggregated.aggregate report, received := self.received ++ [report] }
    | .windowEnds accepted => self.send emitter accepted
    | .channelCloses accepted => { self.send emitter accepted with continueRunning := false }
  else
    self

end EmitterState

/-! ## Sums -/

def sumWhere {α : Type} (p : α → Bool) (f : α → Nat) (list : List α) : Nat :=
  ((list.filter p).map f).sum

section SumWhere

variable {α : Type} (p : α → Bool) (f : α → Nat)

lemma sumWhere_cons (a : α) (list : List α) :
    sumWhere p f (a :: list) = (if p a then f a else 0) + sumWhere p f list := by
  unfold sumWhere
  rw [filter_cons]
  split
  · simp
  · simp

lemma sumWhere_append (list rest : List α) :
    sumWhere p f (list ++ rest) = sumWhere p f list + sumWhere p f rest := by
  simp [sumWhere]

lemma sumWhere_filter (list : List α) : sumWhere p f (list.filter (0 < f ·)) = sumWhere p f list := by
  induction list with
  | nil => rfl
  | cons a list ih =>
    rw [filter_cons, sumWhere_cons]
    split
    · rw [sumWhere_cons, ih]
    · rw [ih]
      simp_all

end SumWhere

variable (meter : Meter) (customer : Text)

def Meter.sum (reports : AggregatedUsage) : Nat :=
  sumWhere (·.1 = customer) (meter.amount ·.2) reports

def AmberfloEmitter.sum (self : AmberfloEmitter) (events : List AmberfloIngestionEvent) : Nat :=
  sumWhere (fun event => event.customerId = self.idPrefix ++ '_' :: customer ∧
    event.meterApiName = meter.apiName) (·.meterValue) events

def EmitterState.Conserves (emitter : AmberfloEmitter) (self : EmitterState) : Prop :=
  ∀ meter customer, emitter.sum meter customer self.emitted.flatten + meter.sum customer self.aggregated =
    meter.sum customer (self.received.map fun report => (report.customerId, report))

/-- A report can be added to what is kept for its customer. -/
def EmitterState.Fits (self : EmitterState) : EmitterEvent → Prop
  | .report report => self.continueRunning = true →
    ∀ aggregated ∈ self.aggregated.lookup report.customerId, ∀ meter : Meter,
      meter.amount aggregated + meter.amount report < 2 ^ 64
  | _ => True

open Meter AggregatedUsage EmitterState

@[simp] lemma Meter.sum_nil : meter.sum customer [] = 0 := rfl

lemma Meter.sum_cons (ent : Text × UsageReport) (rest : AggregatedUsage) :
    meter.sum customer (ent :: rest) =
    (if ent.1 = customer then meter.amount ent.2 else 0) + meter.sum customer rest := by
  simp [sum, sumWhere_cons]

lemma AmberfloEmitter.sum_records (self : AmberfloEmitter) (aggregated : AggregatedUsage) :
    self.sum meter customer (self.records aggregated) = meter.sum customer aggregated := by
  unfold records AmberfloEmitter.sum
  rw [sumWhere_filter]
  induction aggregated with
  | nil => rfl
  | cons entry rest ih =>
    rw [flatMap_cons, sumWhere_append, ih, sum_cons]
    congr 1
    by_cases hcus : entry.1 = customer
    · cases meter with
      | cacheReadBytes | numReadBlobs | cacheWriteBytes | numWriteBlobs =>
        simp [sumWhere, eventsOf, Meter.all, Meter.apiName, hcus]
    · simp [sumWhere, eventsOf, Meter.all, hcus]

lemma Meter.sum_aggregate (rep : UsageReport) (ents : AggregatedUsage) :
    match ents.lookup rep.customerId with
    | none => meter.sum customer (ents.aggregate rep) =
        meter.sum customer ents + if rep.customerId = customer then meter.amount rep else 0
    | some kept => meter.sum customer (ents.aggregate rep) +
        (if rep.customerId = customer then meter.amount kept else 0) = meter.sum customer ents +
        if rep.customerId = customer then (meter.amount kept + meter.amount rep) % 2 ^ 64 else 0 := by
  induction ents with
  | nil => simp [aggregate, sum_cons]
  | cons entry rest ih =>
    obtain ⟨owner, kept⟩ := entry
    by_cases hown : owner = rep.customerId
    · subst hown
      simp only [lookup_cons, beq_self_eq_true, aggregate, if_true, sum_cons, amount_addAssign]
      split
      · omega
      · omega
    · rw [lookup_cons, beq_false_of_ne (Ne.symm hown)]
      simp only [aggregate, hown, if_false, sum_cons]
      cases hloo : rest.lookup rep.customerId with
      | none | some found =>
        rw [hloo] at ih
        simp only at ih ⊢
        omega

/-! ## Runs -/

section

variable {emitter : AmberfloEmitter} {s : EmitterState}

lemma EmitterState.conserves_send (h : s.Conserves emitter) (accd : Bool) :
    (s.send emitter accd).Conserves emitter := by
  unfold send
  dsimp only
  split
  · exact h
  split
  · intro meter cus
    have hbef := h meter cus
    have hrec := emitter.sum_records meter cus s.aggregated
    simp only [AmberfloEmitter.sum, flatten_append, flatten_cons, flatten_nil, append_nil,
      sumWhere_append, sum_nil] at hbef hrec ⊢
    omega
  · exact h

lemma Meter.sum_received (rep : UsageReport) (rec : List UsageReport) :
    meter.sum customer ((rec ++ [rep]).map fun rep => (rep.customerId, rep)) =
    meter.sum customer (rec.map fun rep => (rep.customerId, rep)) +
    if rep.customerId = customer then meter.amount rep else 0 := by
  rw [map_append, sum, sumWhere_append]
  exact congrArg _ (sum_cons meter customer (rep.customerId, rep) [])

lemma EmitterState.conserves_step_iff (h : s.Conserves emitter) (event : EmitterEvent) :
    (s.step emitter event).Conserves emitter ↔ s.Fits event := by
  unfold step
  split
  · rename_i hrun
    cases event with
    | windowEnds accepted => exact iff_of_true (conserves_send h accepted) trivial
    | channelCloses accepted =>
      have hsen := conserves_send h accepted
      exact iff_of_true hsen trivial
    | report report =>
      have hsum := fun meter cus => sum_aggregate meter cus report s.aggregated
      simp only [Conserves, Fits, hrun, forall_const, sum_received] at h ⊢
      cases hloo : s.aggregated.lookup report.customerId with
      | none =>
        simp only [hloo] at hsum
        refine iff_of_true (fun meter cus => ?_) (by simp)
        rw [hsum, ← h, Nat.add_assoc]
      | some kept =>
        simp only [hloo] at hsum
        simp only [Option.mem_some_iff, forall_eq']
        -- only the sum of the report's own customer can wrap
        constructor
        · intro haft meter
          have hsum := hsum meter report.customerId
          have haft := haft meter report.customerId
          rw [← h] at haft
          simp only [if_true] at hsum haft
          omega
        · intro hfit meter cus
          have hsum := hsum meter cus
          rw [Nat.mod_eq_of_lt (hfit meter)] at hsum
          rw [← h]
          split at hsum
          · rw [if_pos ‹_›]
            omega
          · rw [if_neg ‹_›]
            omega
  · rename_i hsto
    refine iff_of_true h ?_
    cases event with
    | report report => exact fun hrun => absurd hrun hsto
    | windowEnds accepted | channelCloses accepted => trivial

end

/-- At every moment of a run the usage is conserved, exactly if every report can be added. -/
theorem metering_conserves_iff (emitter : AmberfloEmitter) (events : List EmitterEvent) :
    (∀ s ∈ trace (step emitter) .init events, s.Conserves emitter) ↔
    Guarded (step emitter) EmitterState.Fits .init events := by
  refine forall_trace_iff_guarded (EmitterState.Conserves emitter) ?_ (fun _ h => h) ?_ fun _ _ => rfl
  · exact fun s event h => (conserves_step_iff h event).2
  · exact fun s event h => (conserves_step_iff h event).1

theorem metering_wraps :
    let report : UsageReport := { customerId := [], cacheReadBytes := 2 ^ 63 }
    let s := run (step { idPrefix := [], envDimension := [] }) .init [.report report, .report report]
    cacheReadBytes.sum [] s.aggregated = 0 ∧ s.emitted = [] ∧
      cacheReadBytes.sum [] (s.received.map fun report => (report.customerId, report)) = 2 ^ 64 := by
  decide

end Toolchain.Storage
