import Toolchain.BuildSense.RawKeys
import Mathlib.Data.List.Sort

/-!
# BuildSense.Retention — builds that are deleted

The files of a build are deleted by the text of its directory as a prefix, which those of other runs may
have too.  Retention marks builds as deleted in a dry run as well, and does not look at the keys that a
batch call leaves unprocessed.

Models `delete_build_data` of `buildsense/ingestion/run_info_raw_store.py` and `workers/retention.py`.
-/

namespace Toolchain.BuildSense

open Lib List Option

def pantsRun : Text := "pants_run".toList

structure RunKey where
  (user run : PathId)
  deriving DecidableEq

/-- The file a row points to: that of a stage, or its duplicate in a directory of its own. -/
structure RowKey where
  stage : Stage
  duplicate : Option Nat

inductive DeleteError
  | unexpectedKey
  | unexpectedNumber (count : Nat)

def maxBuildFilesDeletion : Nat := 45

def deleteObjects (doomed : Text → Bool) (keys : List Text) : Except DeleteError (Nat × List Text) :=
  if maxBuildFilesDeletion < (keys.filter doomed).length then
    .error (.unexpectedNumber (keys.filter doomed).length)
  else
    .ok ((keys.filter doomed).length, keys.filter (!doomed ·))

namespace RunKey

variable (store : RunInfoRawStore) (self : RunKey)

def directory : Text :=
  store.userPath self.user ++ '/' :: self.run.text

/-- The parent of the key of a row, with its name, and the name of the key itself. -/
def keyPath (row : RowKey) : Text × Text × Text :=
  match row.duplicate with
  | none => (self.directory store, self.run.text, row.stage.name)
  | some counter => (self.directory store ++ "/duplicates".toList, "duplicates".toList,
      row.stage.name ++ '_' :: decimal counter ++ ".json".toList)

def deleteBuildData (dryRun : Bool) (row : RowKey) (keys : List Text) :
    Except DeleteError (Nat × List Text) :=
  let (base, baseName, name) := self.keyPath store row
  let key := base ++ '/' :: name
  let done (result : Nat × List Text) := (result.1, if dryRun then keys else result.2)
  if pantsRun.isPrefixOf name ∧ key ∈ keys then .ok (done (1, keys.filter (· ≠ key)))
  else if pantsRun.isPrefixOf baseName then (deleteObjects (base.isPrefixOf ·) keys).map done
  else .error .unexpectedKey

end RunKey

/-! ## Deleting the files of a build -/

section

variable {store : RunInfoRawStore} {build : RunKey} {row : RowKey} {keys : List Text} {dryRun : Bool}

lemma not_pantsRun (stage : Stage) (rest : Text) : pantsRun.isPrefixOf (stage.name ++ rest) = false := by
  cases stage with
  | start | final => rfl

/-- A row has a directory to delete if it does not point to a duplicate, nor has another kind of run id. -/
def Deletable (build : RunKey) (row : RowKey) : Prop :=
  row.duplicate = none ∧ pantsRun <+: build.run.text

lemma deleteBuildData_eq : (Deletable build row → build.deleteBuildData store dryRun row keys =
    (deleteObjects ((build.directory store).isPrefixOf ·) keys).map fun res =>
    (res.1, if dryRun then keys else res.2)) ∧
    (¬Deletable build row → build.deleteBuildData store dryRun row keys = .error .unexpectedKey) := by
  unfold RunKey.deleteBuildData RunKey.keyPath Deletable
  cases row.duplicate with
  | none =>
    have hnam := not_pantsRun row.stage []
    rw [append_nil] at hnam
    simp +contextual [hnam, isPrefixOf_iff_prefix]
  | some coun =>
    simp only [append_assoc, not_pantsRun]
    exact ⟨nofun, fun _ => rfl⟩

lemma deleteObjects_eq_iff {wide nar : Text → Bool} (h : ∀ key, nar key → wide key) :
    deleteObjects wide keys = deleteObjects nar keys ↔ ∀ key ∈ keys, wide key → nar key := by
  constructor
  · intro heq key hkey hwid
    have hlen : (keys.filter wide).length = (keys.filter nar).length := by
      unfold deleteObjects at heq
      split at heq <;> split at heq <;> simp_all
    have hmem := mem_filter.2 ⟨hkey, hwid⟩
    rw [← (monotone_filter_right keys h).eq_of_length hlen.symm] at hmem
    exact (mem_filter.1 hmem).2
  · intro hall
    have hsam (key : Text) (hkey : key ∈ keys) := Bool.eq_iff_iff.2 ⟨hall key hkey, h key⟩
    have hnot : keys.filter (!wide ·) = keys.filter (!nar ·) :=
      filter_congr fun key hkey => by rw [hsam key hkey]
    rw [deleteObjects, deleteObjects, filter_congr hsam, hnot]

/-- The deletion of a build is that of the objects inside its directory exactly if its row has one, and
no other key begins with the directory. -/
theorem delete_own_files_iff (store : RunInfoRawStore) (build : RunKey) (row : RowKey) (keys : List Text) :
    build.deleteBuildData store false row keys =
      deleteObjects ((build.directory store ++ ['/']).isPrefixOf ·) keys ↔
    Deletable build row ∧ ∀ key ∈ keys, build.directory store <+: key →
      build.directory store ++ ['/'] <+: key := by
  by_cases hdel : Deletable build row
  · have hmap : build.deleteBuildData store false row keys =
        deleteObjects ((build.directory store).isPrefixOf ·) keys := by
      rw [deleteBuildData_eq.1 hdel]
      exact congrFun Except.map_id _
    rw [hmap, deleteObjects_eq_iff]
    · simp [hdel, isPrefixOf_iff_prefix]
    · simpa [ isPrefixOf_iff_prefix] using fun key => (prefix_append ..).trans
  · rw [deleteBuildData_eq.2 hdel]
    unfold deleteObjects
    split <;> simp [hdel]

theorem delete_files_of_other_run :
    let build : RunKey := ⟨acme, ⟨"pants_run_1".toList, by decide, by decide⟩⟩
    let other := build.directory prodStore ++ "0/final.json".toList
    build.deleteBuildData prodStore false ⟨.final, none⟩ [other] = .ok (1, []) := by
  rfl

end

/-! ## Retention -/

/-- What retention may change; the marks say of the work of a run whether it is deleted. -/
@[ext]
structure Retained where
  rows : RunKey → Option RowKey
  keys : List Text
  (runs metrics : RunKey → Option Bool)

/-- The keys that successful batch calls have processed, in the order of the answer. -/
structure Batches where
  (loaded deleted : List RunKey)

def markAsDeleted (runKeys : List RunKey) (marks : RunKey → Option Bool) (key : RunKey) : Option Bool :=
  if key ∈ runKeys then (marks key).map fun _ => true else marks key

def deleteFiles (store : RunInfoRawStore) (dryRun : Bool) :
    List (RunKey × RowKey) → List Text → List Text × Bool
  | [], keys => (keys, true)
  | (build, row) :: runInfos, keys =>
    match build.deleteBuildData store dryRun row keys with
    | .ok (_, rest) => deleteFiles store dryRun runInfos rest
    | .error _ => (keys, false)

/-- `get_by_run_ids`, sorted by the run ids alone. -/
def getByRunIds (loaded runKeys : List RunKey) (rows : RunKey → Option RowKey) : List (RunKey × RowKey) :=
  let index (build : RunKey × RowKey) := (runKeys.map (·.run)).idxOf build.1.run
  (loaded.filterMap fun key => if key ∈ runKeys then (rows key).map (key, ·) else none).insertionSort
    (index · ≤ index ·)

/-- `_delete_builds`; it has no count where it raises. -/
def deleteBuilds (store : RunInfoRawStore) (batches : Batches) (dryRun : Bool) (runKeys : List RunKey)
    (self : Retained) : Retained × Option Nat :=
  if runKeys = [] then (self, some 0) else
  let runInfos := getByRunIds batches.loaded runKeys self.rows
  let marked := { self with
    runs := markAsDeleted runKeys self.runs, metrics := markAsDeleted runKeys self.metrics }
  if !dryRun ∧ 25 < runKeys.length then (marked, none) else
  let (keys, done) := deleteFiles store dryRun runInfos self.keys
  ({ marked with
      keys, rows key := if !dryRun ∧ key ∈ runKeys ∧ key ∈ batches.deleted then none else self.rows key },
    if done then some runInfos.length else none)

structure ProcessBuildDataRetention where
  retentionDays : Nat
  periodMinutes : Option Nat
  dryRun : Bool

/-- With the repository, if it is found and active, and what the search has found. -/
def doWork (store : RunInfoRawStore) (batches : Batches) (bdr : ProcessBuildDataRetention)
    (active : Option Bool) (runKeys : List RunKey) (self : Retained) : Retained × Option Bool :=
  match active with
  | none => (self, none)
  | some active =>
    let (after, count) := deleteBuilds store batches bdr.dryRun runKeys self
    (after, count.map fun count =>
      !active && bdr.retentionDays == 0 && count == 0 || bdr.periodMinutes.isNone &&
        (bdr.dryRun || count == 0))

section

variable {store : RunInfoRawStore} {build : RunKey} {row : RowKey} {keys rest : List Text}
  {dryRun : Bool} {runKeys : List RunKey}
  {infos : List (RunKey × RowKey)}

lemma deleteBuildData_ok {count : Nat}
    (h : build.deleteBuildData store dryRun row keys = .ok (count, rest)) :
    rest = if dryRun then keys else keys.filter (!(build.directory store).isPrefixOf ·) := by
  by_cases hdel : Deletable build row
  · simp only [deleteBuildData_eq.1 hdel, deleteObjects, Except.map] at h
    split_ifs at h <;> cases h <;> simp [*]
  · cases (deleteBuildData_eq.2 hdel).symm.trans h

lemma deleteFiles_dryRun : (deleteFiles store true infos keys).1 = keys := by
  induction infos with
  | nil => rfl
  | cons info infos ih =>
    unfold deleteFiles
    split
    · rename_i hok
      rw [deleteBuildData_ok hok]
      exact ih
    · rfl

/-- A loop over the builds that ends leaves the keys that begin with none of their directories. -/
lemma mem_deleteFiles (h : deleteFiles store false infos keys = (rest, true)) (key : Text) :
    key ∈ rest ↔ key ∈ keys ∧ ∀ info ∈ infos, ¬info.1.directory store <+: key := by
  induction infos generalizing keys with
  | nil =>
    cases h
    simp
  | cons info infos ih =>
    unfold deleteFiles at h
    split at h
    · rename_i hok
      rw [ih h, deleteBuildData_ok hok]
      simp [← isPrefixOf_iff_prefix, and_assoc]
    · cases h

lemma markAsDeleted_eq_iff {marks : RunKey → Option Bool} :
    markAsDeleted runKeys marks = marks ↔ ∀ key ∈ runKeys, marks key ≠ some false := by
  rw [funext_iff]
  refine forall_congr' fun key => ?_
  by_cases hkey : key ∈ runKeys
  · rcases hmar : marks key with _ | _ | _ <;> simp [markAsDeleted, hkey, hmar]
  · simp [markAsDeleted, hkey]

lemma count_slash_directory (build : RunKey) :
    (build.directory store).count '/' = store.basePath.count '/' + 4 := by
  have hid (id : PathId) := count_eq_zero.2 id.slash_notMem
  simp [RunKey.directory, RunInfoRawStore.userPath, hid]

lemma directory_isPrefix_iff {oth : RunKey} {key : Text} (h : build.directory store ++ ['/'] <+: key) :
    oth.directory store <+: key ↔ oth.directory store <+: build.directory store := by
  refine ⟨fun hoth => ?_, fun hoth => (hoth.trans (prefix_append ..)).trans h⟩
  obtain hsho | hlon := prefix_or_prefix_of_prefix hoth h
  · exact (prefix_concat_iff.1 hsho).resolve_left fun heq => by
      simpa [heq, count_slash_directory build] using @count_slash_directory store oth
  · -- all directories have as many separators
    have hle := hlon.sublist.count_le '/'
    simp [count_slash_directory] at hle

lemma mem_getByRunIds {loa : List RunKey} {rows : RunKey → Option RowKey} :
    (build, row) ∈ getByRunIds loa runKeys rows ↔ build ∈ loa ∧ build ∈ runKeys ∧
      rows build = some row := by
  simp only [getByRunIds, mem_insertionSort, mem_filterMap, ite_none_right_eq_some, map_eq_some_iff,
    Prod.mk.injEq]
  grind

lemma deleteBuilds_ok {bats : Batches} {self after : Retained} {count : Nat} (hbui : build ∈ runKeys)
    (h : deleteBuilds store bats false runKeys self = (after, some count)) :
    after.rows build = (if build ∈ bats.deleted then none else self.rows build) ∧
    ∀ key, key ∈ after.keys ↔ key ∈ self.keys ∧ ∀ other ∈ runKeys, other ∈ bats.loaded →
    self.rows other ≠ none → ¬other.directory store <+: key := by
  rw [deleteBuilds, if_neg (ne_nil_of_mem hbui)] at h
  split_ifs at h
  · cases h
  obtain ⟨rfl, hcou⟩ := Prod.mk.inj h
  refine ⟨by simp [hbui], fun key => ?_⟩
  rw [mem_deleteFiles (Prod.ext rfl (ite_none_right_eq_some.1 hcou).1)]
  simp only [Prod.forall, mem_getByRunIds, ne_none_iff_exists']
  grind

/-- If `_delete_builds` returns, each build that had a row and files has lost both or none exactly if its
row was deleted just when a row was loaded with a directory that its own begins with. -/
theorem row_and_files_together_iff {store : RunInfoRawStore} {batches : Batches} {runKeys : List RunKey}
    {self after : Retained} {count : Nat}
    (h : deleteBuilds store batches false runKeys self = (after, some count)) :
    (∀ build ∈ runKeys, self.rows build ≠ none → ∀ key ∈ self.keys,
      build.directory store ++ ['/'] <+: key →
    (after.rows build = none ↔ key ∉ after.keys)) ↔
    ∀ build ∈ runKeys, self.rows build ≠ none →
      (∃ key ∈ self.keys, build.directory store ++ ['/'] <+: key) →
    (build ∈ batches.deleted ↔ ∃ other ∈ runKeys, other ∈ batches.loaded ∧ self.rows other ≠ none ∧
    other.directory store <+: build.directory store) := by
  refine forall₃_congr fun build hbui hrow => ?_
  obtain ⟨hrows, hkeys⟩ := deleteBuilds_ok hbui h
  have hiff (key : Text) (hkey : key ∈ self.keys) (hin : build.directory store ++ ['/'] <+: key) :
      (after.rows build = none ↔ key ∉ after.keys) ↔ (build ∈ batches.deleted ↔ ∃ other ∈ runKeys,
      other ∈ batches.loaded ∧ self.rows other ≠ none ∧
        other.directory store <+: build.directory store) := by
    simp [hrows, hkeys, hrow, hkey, directory_isPrefix_iff hin]
  exact ⟨fun h ⟨key, hkey, hin⟩ => (hiff key hkey hin).1 (h key hkey hin),
    fun h key hkey hin => (hiff key hkey hin).2 (h ⟨key, hkey, hin⟩)⟩

def keptBuild : RunKey :=
  ⟨acme, ⟨pantsRun, by decide, by decide⟩⟩

def keptKey : Text :=
  keptBuild.directory prodStore ++ "/final.json".toList

def kept : Retained :=
  ⟨fun _ => some ⟨.final, none⟩, [keptKey], fun _ => some false, fun _ => none⟩

theorem together_if_all_processed :
    (deleteBuilds prodStore ⟨[keptBuild], [keptBuild]⟩ false [keptBuild] kept).1.rows keptBuild = none ↔
    keptKey ∉ (deleteBuilds prodStore ⟨[keptBuild], [keptBuild]⟩ false [keptBuild] kept).1.keys := by
  refine (@row_and_files_together_iff prodStore ⟨[keptBuild], [keptBuild]⟩ [keptBuild] kept _ 1 rfl).2 ?_
    keptBuild (.head _) nofun _ (.head _) (by decide)
  simp [kept]

theorem files_of_unloaded_row_remain :
    let (after, count) := deleteBuilds prodStore ⟨[], [keptBuild]⟩ false [keptBuild] kept
    count = some 0 ∧ after.rows keptBuild = none ∧ after.keys = [keptKey] :=
  ⟨rfl, rfl, rfl⟩

/-- A dry run leaves everything as it is exactly if there is no repository, or no run that is found has
work that is not marked as deleted already. -/
theorem dry_run_unchanged_iff (store : RunInfoRawStore) (batches : Batches) (days : Nat)
    (period : Option Nat) (active : Option Bool) (runKeys : List RunKey) (self : Retained) :
    (doWork store batches ⟨days, period, true⟩ active runKeys self).1 = self ↔
    active = none ∨ ∀ key ∈ runKeys, self.runs key ≠ some false ∧ self.metrics key ≠ some false := by
  cases active with
  | none => simp [doWork]
  | some active =>
    by_cases hnil : runKeys = []
    · simp [doWork, deleteBuilds, hnil]
    · simp [doWork, deleteBuilds, hnil, Retained.ext_iff, deleteFiles_dryRun, markAsDeleted_eq_iff,
        forall_and]

theorem dry_run_marks_run :
    (doWork prodStore ⟨[], []⟩ ⟨30, none, true⟩ (some true) [keptBuild] kept).1.runs keptBuild =
      some true :=
  rfl

end

end Toolchain.BuildSense
