import Toolchain.Lib.Run

/-!
# Pypi.Dumps — the serials that are crawled, and those that are dumped

A `ProcessChangelog` crawls a range of serials,
  and a `DumpDistributionData` that requires it writes out what
was found.  The next range starts where the last successful crawl ended, whatever became of its dump.

Models `crawler/pypi/models.py` and `crawler/pypi/workers/periodic_changelog_processor.py`.
-/

namespace Toolchain.Pypi

open Lib List

/-- The two units that `queue_process_changes` creates, and whether each has succeeded or failed for good. -/
structure QueuedChanges where
  (serialFrom serialTo : Nat)
  ordered : serialFrom < serialTo
  (changelog dump : Option Bool)
  deriving DecidableEq

/-- A crawler after a full crawl and a full dump at `serial`. -/
structure Crawler where
  serial : Nat
  queued : List QueuedChanges

inductive CrawlerEvent
  | periodicChangelogProcessor (lastSerial : Nat)
  | processChangelog (index : Nat) (succeeded : Bool)
  | dumpDistributionData (index : Nat) (succeeded : Bool)

namespace Crawler

def mostRecentCompleteSerial (self : Crawler) : Nat :=
  ((self.queued.filter (·.changelog = some true)).map (·.serialTo)).foldl max self.serial

def queueProcessChanges (self : Crawler) {serialFrom serialTo : Nat}
    (ordered : serialFrom < serialTo) : Crawler :=
  { self with queued :=
    self.queued ++ [{ serialFrom, serialTo, ordered, changelog := none, dump := none }] }

def step (self : Crawler) : CrawlerEvent → Crawler
  | .periodicChangelogProcessor lastSerial =>
    -- a serial of zero raises
    if h : self.mostRecentCompleteSerial ≠ 0 ∧ self.mostRecentCompleteSerial < lastSerial then
      self.queueProcessChanges h.2
    else
      self
  | .processChangelog index succeeded =>
    { self with queued := self.queued.modify index fun changes =>
        if changes.changelog = none then { changes with changelog := some succeeded } else changes }
  | .dumpDistributionData index succeeded =>
    { self with queued := self.queued.modify index fun changes =>
        if changes.changelog = some true ∧
          changes.dump = none then { changes with dump := some succeeded } else changes }

/-- The ranges of the successful incremental dumps. -/
def dumped (self : Crawler) : List (Nat × Nat) :=
  (self.queued.filter (·.dump = some true)).map fun changes => (changes.serialFrom, changes.serialTo)

/-- Up to the largest serial of a successful dump, every serial is in one. -/
def HasNoGap (self : Crawler) : Prop :=
  ∀ serial, self.serial ≤ serial → (∃ range ∈ self.dumped, serial < range.2) →
    ∃ range ∈ self.dumped, range.1 ≤ serial ∧ serial < range.2

/-- The range of the dump that succeeds in a step. -/
def dumps? (self : Crawler) : CrawlerEvent → Option (Nat × Nat)
  | .dumpDistributionData index true => do
    let changes ← self.queued[index]?
    if changes.changelog = some true ∧
      changes.dump = none then some (changes.serialFrom, changes.serialTo) else none
  | _ => none

/-- A dump that succeeds starts no later than the serial up to which there are dumps. -/
def DumpsInOrder (self : Crawler) (event : CrawlerEvent) : Prop :=
  ∀ range ∈ self.dumps? event, range.1 ≤ self.serial ∨ ∃ earlier ∈ self.dumped, range.1 ≤ earlier.2

variable {self : Crawler} {event : CrawlerEvent} {range : Nat × Nat}

lemma mem_dumped : range ∈ self.dumped ↔ ∃ (i : Nat) (changes : QueuedChanges),
    self.queued[i]? = some changes ∧ changes.dump = some true ∧
      (changes.serialFrom, changes.serialTo) = range := by
  simp only [dumped, mem_map, mem_filter, decide_eq_true_eq]
  constructor
  · rintro ⟨changes, ⟨hmem, hdum⟩, heq⟩
    obtain ⟨i, hi⟩ := mem_iff_getElem?.1 hmem
    exact ⟨i, changes, hi, hdum, heq⟩
  · rintro ⟨i, changes, hi, hdum, heq⟩
    exact ⟨changes, ⟨mem_of_getElem? hi, hdum⟩, heq⟩

lemma lt_of_mem_dumped (h : range ∈ self.dumped) : range.1 < range.2 := by
  obtain ⟨i, changes, -, -, rfl⟩ := mem_dumped.1 h
  exact changes.ordered

lemma mem_dumped_step :
    range ∈ (self.step event).dumped ↔ range ∈ self.dumped ∨ range ∈ self.dumps? event := by
  cases event with
  | periodicChangelogProcessor serial =>
    simp only [step, dumps?]
    split <;> simp [dumped, queueProcessChanges]
  | processChangelog index succeeded =>
    simp only [mem_dumped, step, dumps?, getElem?_modify]
    grind
  | dumpDistributionData index succeeded =>
    simp only [mem_dumped, step, getElem?_modify]
    cases succeeded with
    | true => simp [dumps?]; grind
    | false => simp [dumps?]; grind

lemma serial_step : (self.step event).serial = self.serial := by
  cases event with
  | periodicChangelogProcessor lastSerial =>
    simp only [step]
    split <;> rfl
  | processChangelog index succeeded | dumpDistributionData index succeeded => rfl

/-- Dumps leave no gap just if each that succeeds starts within or at the end of the earlier ones.  The
work units do not see to that: a dump requires the crawl of its own range and nothing of the ranges
before it. -/
theorem hasNoGap_iff (serial : Nat) (events : List CrawlerEvent) :
    (∀ self ∈ trace step { serial, queued := [] } events, self.HasNoGap) ↔
    Guarded step DumpsInOrder { serial, queued := [] } events := by
  apply forall_trace_iff_guarded HasNoGap
  · intro self event h hord serial hser ⟨range, hran, hlt⟩
    simp only [mem_dumped_step] at hran ⊢
    rw [serial_step] at hser
    -- below the range that is dumped now, there are earlier dumps
    have hear : (∃ earlier ∈ self.dumped, serial < earlier.2) →
        ∃ range, (range ∈ self.dumped ∨ range ∈ self.dumps? event) ∧ range.1 ≤ serial ∧ serial <
          range.2 := fun hold =>
      let ⟨range, hmem, hin⟩ := h serial hser hold
      ⟨range, .inl hmem, hin⟩
    rcases hran with hran | hran
    · exact hear ⟨range, hran, hlt⟩
    by_cases hle : range.1 ≤ serial
    · exact ⟨range, .inr hran, hle, hlt⟩
    rcases hord range hran with hfir | ⟨earlier, hmem, hto⟩
    · exact absurd (hfir.trans hser) hle
    · exact hear ⟨earlier, hmem, (Nat.not_le.1 hle).trans_le hto⟩
  · exact fun self h => h
  · intro self event h hgap range hran
    by_contra hnon
    rw [not_or] at hnon
    have hmem := mem_dumped_step.2 (.inr hran)
    have hlt := lt_of_mem_dumped hmem
    -- the serial before the range is in no dump
    obtain ⟨other, hoth, hle, hotlt⟩ :=
      hgap (range.1 - 1) (by rw [serial_step]; omega) ⟨range, hmem, by omega⟩
    rcases mem_dumped_step.1 hoth with hold | hnew
    · exact hnon.2 ⟨other, hold, by omega⟩
    · rw [Option.mem_unique hnew hran] at hle
      omega
  · exact fun serial _ ⟨range, hran, _⟩ => absurd hran not_mem_nil

/-- The dump of the first range fails for good, or is late, and that of the second succeeds. -/
theorem gap_after_failed_dump : ¬∀ self ∈ trace step { serial := 1, queued := [] }
    [.periodicChangelogProcessor 2, .processChangelog 0 true, .dumpDistributionData 0 false,
    .periodicChangelogProcessor 3, .processChangelog 1 true, .dumpDistributionData 1 true],
      self.HasNoGap := by
  intro h
  obtain ⟨range, hran, hin⟩ := h _ (run_mem_trace _ _) 1 le_rfl ⟨(2, 3), by decide, by decide⟩
  rw [show range = (2, 3) from mem_singleton.1 hran] at hin
  exact absurd hin (by decide)

end Crawler
end Toolchain.Pypi
