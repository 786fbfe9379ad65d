import Toolchain.Lib.Fields
import Mathlib.Logic.Function.Basic

/-!
# BuildSense.BuildsQueue — batches of builds that wait

A batch is stored under the second in which a node accepted it, and read by the key alone.

Models `buildsense/ingestion/batched_builds_queue.py`.
-/

namespace Toolchain.BuildSense

open Lib List Function

structure DateTime where
  (year month day hour minute second microsecond : Nat)

/-- `strftime` with `%Y_%m_%d_%H_%M_%S`, and the separator that follows in a key. -/
def DateTime.strftime (self : DateTime) : Text :=
  terminated '_' ([(4, self.year), (2, self.month), (2, self.day), (2, self.hour), (2, self.minute),
    (2, self.second)].map fun field => leftpad field.1 '0' (decimal field.2))

/-- A batch that a node accepts: its builds and, as the metadata of the object, all else. -/
structure QueuedBuilds (β : Type) where
  (nodeId userApiId requestId : Text)
  acceptedTime : DateTime
  builds : β

structure BatchedBuildsQueue where
  (basePath customerId repoId : Text)

variable {β : Type}

def QueuedBuilds.batch (self : QueuedBuilds β) : β × Text × Text :=
  (self.builds, self.userApiId, self.requestId)

namespace BatchedBuildsQueue

variable (self : BatchedBuildsQueue)

def key (upload : QueuedBuilds β) : Text :=
  self.basePath ++ ("/builds/".toList ++ self.customerId ++ '/' :: self.repoId ++
    '/' :: (upload.acceptedTime.strftime ++ (upload.nodeId ++ ".json".toList)))

def queueBuilds (objects : Text → Option (QueuedBuilds β)) (upload : QueuedBuilds β) :
    Text → Option (QueuedBuilds β) :=
  update objects (self.key upload) (some upload)

def getBuilds (objects : Text → Option (QueuedBuilds β)) (key : Text) : Option (QueuedBuilds β) :=
  if self.basePath.isPrefixOf key then objects key else none

end BatchedBuildsQueue

lemma leftpad_decimal_inj {width n m : Nat} :
    leftpad width '0' (decimal n) = leftpad width '0' (decimal m) ↔ n = m := by
  have hzer (count : Nat) : Nat.ofDigitChars 10 (replicate count '0') 0 = 0 := by
    induction count with
    | zero => rfl
    | succ count ih => rwa [replicate_succ, Nat.ofDigitChars_cons]
  have hval (n : Nat) : Nat.ofDigitChars 10 (leftpad width '0' (decimal n)) 0 = n := by
    rw [leftpad, Nat.ofDigitChars_append, hzer, decimal_eq_toDigits, Nat.ofDigitChars_toDigits]
    all_goals decide
  refine ⟨fun h => ?_, fun h => by rw [h]⟩
  rw [← hval n, h, hval]

lemma strftime_append_inj {time oth : DateTime} {rest others : Text} :
    time.strftime ++ rest = oth.strftime ++ others ↔
    { time with microsecond := 0 } = { oth with microsecond := 0 } ∧ rest = others := by
  have hfre (width n : Nat) : '_' ∉ leftpad width '0' (decimal n) := by simp [leftpad, not_mem_decimal]
  simp only [DateTime.strftime, map_cons, map_nil, terminated_cons, terminated_nil, append_assoc,
    cons_append,
    nil_append, append_sep_inj (hfre _ _) (hfre _ _), leftpad_decimal_inj, DateTime.mk.injEq,
    and_true, and_assoc]

variable {queue : BatchedBuildsQueue} {objects : Text → Option (QueuedBuilds β)} {key : Text}
  {batch : β × Text × Text}

open BatchedBuildsQueue

lemma key_eq_iff {first second : QueuedBuilds β} : queue.key first = queue.key second ↔
    first.nodeId = second.nodeId ∧ { first.acceptedTime with microsecond := 0 } =
    { second.acceptedTime with microsecond := 0 } := by
  simp [key, strftime_append_inj, and_comm]

/-- A key keeps its batch as long as all that is stored under it is the same. -/
lemma batch_foldl_queueBuilds {upl : List (QueuedBuilds β)}
    (h : ∀ upload ∈ upl, queue.key upload = key → upload.batch = batch)
    (hkey : (objects key).map QueuedBuilds.batch = some batch) :
    (upl.foldl queue.queueBuilds objects key).map QueuedBuilds.batch = some batch := by
  induction upl generalizing objects with
  | nil => exact hkey
  | cons upload upl ih =>
    rw [forall_mem_cons] at h
    refine ih h.2 ?_
    unfold queueBuilds
    by_cases hsam : key = queue.key upload
    · simp [hsam, h.1 hsam.symm]
    · rwa [update_of_ne hsam]

lemma getBuilds_key (upload : QueuedBuilds β) : queue.getBuilds objects (queue.key upload) =
    objects (queue.key upload) := by
  simp [getBuilds, key, isPrefixOf_iff_prefix]

/-- At any later time every batch is read as it was uploaded exactly if all that a node has accepted in one
second is the same batch. -/
theorem batches_read_iff (queue : BatchedBuildsQueue) (objects : Text → Option (QueuedBuilds β))
    (uploads : List (QueuedBuilds β)) :
    (∀ before upload later after, uploads = before ++ upload :: later ++ after →
    (queue.getBuilds ((before ++ upload :: later).foldl queue.queueBuilds objects)
    (queue.key upload)).map QueuedBuilds.batch = some upload.batch) ↔
    uploads.Pairwise fun first second => first.nodeId = second.nodeId →
    { first.acceptedTime with microsecond := 0 } = { second.acceptedTime with microsecond := 0 } →
    first.batch = second.batch := by
  simp only [getBuilds_key, foldl_append, foldl_cons]
  constructor
  · intro h
    rw [pairwise_iff_forall_sublist]
    intro first second hsub hnod htim
    obtain ⟨front, back, rfl, hfir, hsec⟩ := cons_sublist_iff.1 hsub
    obtain ⟨before, later, rfl⟩ := append_of_mem hfir
    obtain ⟨bet, after, rfl⟩ := append_of_mem (singleton_sublist.1 hsec)
    -- the first batch is read right after the second has been stored
    have hrea := h before first (later ++ bet ++ [second]) after (by simp)
    rw [key_eq_iff.2 ⟨hnod, htim⟩, foldl_concat, queueBuilds, update_self] at hrea
    exact (Option.some.inj hrea).symm
  · rintro h before upload later after rfl
    refine batch_foldl_queueBuilds (fun other hoth hkey => ?_) ?_
    · rw [append_assoc, pairwise_append, cons_append, pairwise_cons] at h
      obtain ⟨hnod, htim⟩ := key_eq_iff.1 hkey.symm
      exact (h.2.1.1 other (mem_append_left _ hoth) hnod htim).symm
    · rw [queueBuilds, update_self]
      rfl

theorem second_upload_overwrites :
    let queue : BatchedBuildsQueue := ⟨[], [], []⟩
    let first : QueuedBuilds Nat := ⟨"n".toList, "jane".toList, [], ⟨2020, 1, 1, 0, 0, 0, 0⟩, 1⟩
    let second : QueuedBuilds Nat := ⟨"n".toList, "joe".toList, [], ⟨2020, 1, 1, 0, 0, 0, 9⟩, 2⟩
    (queue.getBuilds ([first, second].foldl queue.queueBuilds fun _ => none) (queue.key first)).map
      QueuedBuilds.batch = some second.batch := by
  rfl

end Toolchain.BuildSense
