import Toolchain.BuildSense.Ingestion
import Toolchain.BuildSense.ResultFiles

/-!
# BuildSense.RawKeys — the keys of raw files

A key is joined from the tenant, the user, the run and a name.  The run id of a report comes from its
body, and an absolute one discards what stands before it.

Models `run_info_raw_store.py`, `pants_data_ingestion.py` and `views_api.py` of `buildsense/ingestion`.
-/

namespace Toolchain.BuildSense

open Lib List

/-- `os.path.join` of two components. -/
def pathJoin (path part : Text) : Text :=
  if part.head? = some '/' then part
  else if path = [] ∨ path.getLast? = some '/' then path ++ part
  else path ++ '/' :: part

/-- An id or a name that is one component of a path. -/
structure PathId where
  text : Text
  ne_nil : text ≠ []
  slash_notMem : '/' ∉ text
  deriving DecidableEq

structure RunInfoRawStore where
  basePath : Text
  (customerId repoId : PathId)
  ne_nil : basePath ≠ []
  relative : basePath.head? ≠ some '/'
  unended : basePath.getLast? ≠ some '/'

inductive RunId
  | payload (text : Text)
  | url (id : PathId)

def RunId.text : RunId → Text
  | .payload text => text
  | .url id => id.text

/-- A file on its way to `save_build_file`: in the mode `SKIP` or `DUPLICATES`. -/
structure SavedFile where
  user : PathId
  run : RunId
  name : PathId
  skip : Bool

lemma Stage.name_component (stage : Stage) : stage.name ≠ [] ∧ '/' ∉ stage.name := by
  cases stage with
  | start | final => decide

def Stage.file (stage : Stage) : PathId :=
  ⟨stage.name, stage.name_component.1, stage.name_component.2⟩

lemma pantsLog_component : pantsLog ≠ [] ∧ '/' ∉ pantsLog := by decide

structure Artifact where
  (name path : Text)
  content : List UInt8

def normalize (data : Text) : Text :=
  data.map fun c => if c = '/' then '_' else c

lemma slash_notMem_normalize (data : Text) : '/' ∉ normalize data := by
  simp only [normalize, mem_map, not_exists, not_and]
  intro c _
  split
  · decide
  · assumption

lemma keyName_component (name path : Text) :
    normalize name ++ '_' :: normalize path ≠ [] ∧ '/' ∉ normalize name ++ '_' :: normalize path := by
  simp [slash_notMem_normalize]

def Artifact.keyName (self : Artifact) : PathId :=
  ⟨_, (keyName_component self.name self.path).1, (keyName_component self.name self.path).2⟩

/-- Requests, with the user that a build is attributed to. -/
inductive SaveRequest
  | start (user : PathId) (runId : Text)
  | ended (user : PathId) (runId : Text)
  | batch (builds : List (PathId × Text))
  | artifacts (user run : PathId) (log : Bool) (uploads : List Artifact)

def SaveRequest.files : SaveRequest → List SavedFile
  | .start user runId => [⟨user, .payload runId, Stage.start.file, false⟩]
  | .ended user runId => [⟨user, .payload runId, Stage.final.file, false⟩]
  | .batch builds => builds.map fun build => ⟨build.1, .payload build.2, Stage.final.file, true⟩
  | .artifacts user run log uploads =>
    (if log then [⟨user, .url run, ⟨_, pantsLog_component.1, pantsLog_component.2⟩, true⟩] else []) ++
      uploads.map fun artifact => ⟨user, .url run, artifact.keyName, true⟩

namespace RunInfoRawStore

variable (self : RunInfoRawStore)

def createKey (parts : List Text) : Text :=
  parts.foldl pathJoin (pathJoin (pathJoin self.basePath self.customerId.text) self.repoId.text)

/-- `_find_key_for_build_file`: the key that is written, if there is one. -/
def findKey (exist : Text → Bool) (file : SavedFile) : Option Text :=
  let key := self.createKey [file.user.text, file.run.text, file.name.text]
  let duplicate counter := self.createKey [file.user.text, file.run.text, "duplicates".toList,
    file.name.text ++ '_' :: decimal (counter + 1) ++ ".json".toList]
  (key :: if file.skip then [] else (range Submission.maxDuplicates).map duplicate).find? (!exist ·)

def userPath (user : PathId) : Text :=
  self.basePath ++ '/' :: self.customerId.text ++ '/' :: self.repoId.text ++ '/' :: user.text

end RunInfoRawStore

section Paths

variable {path part : Text} {parts : List Text} {store : RunInfoRawStore} {user : PathId}

lemma pathJoin_relative (hpat : path ≠ [] ∧ path.getLast? ≠ some '/') (h : part.head? ≠ some '/') :
    pathJoin path part = path ++ '/' :: part := by
  rw [pathJoin, if_neg h, if_neg (not_or.2 hpat)]

lemma PathId.relative (id : PathId) : id.text.head? ≠ some '/' := fun h => id.slash_notMem (mem_of_head? h)

lemma pathJoin_id (hpat : path ≠ [] ∧ path.getLast? ≠ some '/') (id : PathId) :
    pathJoin path id.text = path ++ '/' :: id.text ∧ path ++ '/' :: id.text ≠ [] ∧
    (path ++ '/' :: id.text).getLast? ≠ some '/' := by
  refine ⟨pathJoin_relative hpat id.relative, by simp, fun h => id.slash_notMem (mem_of_getLast? ?_)⟩
  simpa [getLast?_append, getLast?_cons, getLast?_eq_some_getLast id.ne_nil] using h

lemma createKey_user (pts : List Text) :
    store.createKey (user.text :: pts) = pts.foldl pathJoin (store.userPath user) ∧
    store.userPath user ≠ [] ∧ (store.userPath user).getLast? ≠ some '/' := by
  obtain ⟨hcus, hope⟩ := pathJoin_id ⟨store.ne_nil, store.unended⟩ store.customerId
  obtain ⟨hrep, hope⟩ := pathJoin_id hope store.repoId
  obtain ⟨huse, hope⟩ := pathJoin_id hope user
  refine ⟨?_, hope⟩
  rw [RunInfoRawStore.createKey, foldl_cons, hcus, hrep, huse]
  rfl

end Paths

section Inside

variable {store : RunInfoRawStore} {user : PathId} {run : Text} {parts : List Text}

def acme : PathId where
  text := "acme".toList
  ne_nil := by decide
  slash_notMem := by decide

def prodStore : RunInfoRawStore where
  basePath := "prod/v1/buildsense".toList
  customerId := acme
  repoId := acme
  ne_nil := by decide
  relative := by decide
  unended := by decide

end Inside

section Artifacts

variable (store : RunInfoRawStore) (user run : PathId)

def fileKey (name : Text) : Text :=
  store.userPath user ++ '/' :: run.text ++ '/' :: name

/-- `start.json`, and what processing reads and makes. -/
def IsServerFile (name : Text) : Prop :=
  name ∈ [Stage.start.name, finalStats, pantsLog] ∨ ∃ file : ResultFile, name = file.name

/-- `save_artifact` saves a file although there is an object under a key. -/
def SavedBeside (key : Text) (artifact : Artifact) : Prop :=
  store.findKey (· = key) ⟨user, .url run, artifact.keyName, true⟩ ≠ none

variable {store user run}

lemma createKey_file (name : PathId) :
    store.createKey [user.text, run.text, name.text] = fileKey store user run name.text := by
  obtain ⟨hkey, hope⟩ := @createKey_user store user [run.text, name.text]
  obtain ⟨hrun, hope⟩ := pathJoin_id hope run
  rw [hkey, foldl_cons, foldl_cons, hrun, (pathJoin_id hope name).1]
  rfl

lemma savedBeside_iff {name : Text} {artifact : Artifact} :
    SavedBeside store user run (fileKey store user run name) artifact ↔ name ≠ artifact.keyName.text := by
  rw [SavedBeside, RunInfoRawStore.findKey, ne_comm (a := name)]
  simp [RunId.text, createKey_file, fileKey]

/-! ### Joined names -/

/-- The pairs that joined with `c` between them are a text. -/
def splits (c : Char) : Text → List (Text × Text)
  | [] => []
  | x :: text => (if x = c then [([], text)] else []) ++ (splits c text).map fun pair =>
    (x :: pair.1, pair.2)

lemma mem_splits_iff {c : Char} {first second text : Text} :
    (first, second) ∈ splits c text ↔ first ++ c :: second = text := by
  induction text generalizing first with
  | nil => simp [splits]
  | cons x text ih =>
    cases first with
    | nil =>
      by_cases hx : x = c
      · simp [splits, hx, eq_comm]
      · simp [splits, hx, Ne.symm hx]
    | cons y first =>
      by_cases hx : x = c <;> simp [splits, hx, ih, eq_comm, and_comm]

/-- The two pairs are the same but for slashes, or a part between underscores belongs to the name in
one and to the path in the other. -/
def Artifact.SameKey (self other : Artifact) : Prop :=
  (normalize self.name = normalize other.name ∧ normalize self.path = normalize other.path) ∨
    (∃ part, normalize self.name = normalize other.name ++ '_' :: part ∧
      normalize other.path = part ++ '_' :: normalize self.path) ∨
    ∃ part, normalize other.name = normalize self.name ++ '_' :: part ∧
      normalize self.path = part ++ '_' :: normalize other.path

lemma keyName_eq_iff (first second : Artifact) :
    first.keyName.text = second.keyName.text ↔ first.SameKey second := by
  change normalize first.name ++ '_' :: normalize first.path =
    normalize second.name ++ '_' :: normalize second.path ↔ _
  rw [append_eq_append_iff, Artifact.SameKey]
  constructor
  · rintro (⟨_ | ⟨_, part⟩, hname, hpath⟩ | ⟨_ | ⟨_, part⟩, hname, hpath⟩)
    · exact .inl (by simpa [eq_comm] using And.intro hname hpath)
    · obtain ⟨rfl, hparts⟩ := cons.inj hpath
      exact .inr (.inr ⟨part, hname, hparts⟩)
    · exact .inl (by simpa [eq_comm] using And.intro hname hpath)
    · obtain ⟨rfl, hparts⟩ := cons.inj hpath
      exact .inr (.inl ⟨part, hname, hparts⟩)
  · rintro (⟨hname, hpath⟩ | ⟨part, hname, hpath⟩ | ⟨part, hname, hpath⟩)
    · exact .inl ⟨[], by simp [hname], by simp [hpath]⟩
    · exact .inr ⟨'_' :: part, hname, by simp [hpath]⟩
    · exact .inl ⟨'_' :: part, hname, by simp [hpath]⟩

/-- The pairs that are joined to the name of a file of the server, but for those of outputs. -/
def serverPairs : List (Text × Text) :=
  [("pants", "run_log.txt"), ("pants_run", "log.txt"), ("zipkin", "trace.json"),
    ("pytest", "results.json"), ("coverage", "summary.json"), ("aggregate", "metrics.json"),
    ("pants", "options.json"), ("targets", "specs.json"), ("platform", "info.json"),
    ("artifacts", "work_units.json"), ("artifacts_work", "units.json")].map
      fun pair => (pair.1.toList, pair.2.toList)

/-- Outputs end in `_artifacts.json`, with an underscore before it. -/
def Artifact.LikeServerFile (self : Artifact) : Prop :=
  (normalize self.name, normalize self.path) ∈ serverPairs ∨
    "_artifacts.json".toList <:+ normalize self.path ∨
    normalize self.path = "artifacts.json".toList ∧ '_' ∈ normalize self.name

lemma exists_console_iff {name path : Text} :
    (∃ goal workunitId, name ++ '_' :: path = goal ++ '_' :: workunitId ++ "_artifacts.json".toList) ↔
      "_artifacts.json".toList <:+ path ∨ path = "artifacts.json".toList ∧ '_' ∈ name := by
  constructor
  · rintro ⟨goal, workunitId, heq⟩
    rcases append_eq_append_iff.1 heq with ⟨_ | ⟨_, part⟩, hname, hpath⟩ | ⟨part, hname, hpath⟩
    · refine .inr ⟨(cons.inj hpath).2, ?_⟩
      rw [append_nil] at hname
      simp [← hname]
    · exact .inl ⟨part, (cons.inj hpath).2.symm⟩
    · -- there is no other underscore in the ending
      rcases part with _ | ⟨c, part⟩
      · refine .inr ⟨(cons.inj hpath).2.symm, ?_⟩
        rw [hname]
        simp
      · have hsplit := mem_splits_iff.2 (show part ++ '_' :: path = "artifacts.json".toList from
          (cons.inj hpath).2.symm)
        rw [show splits '_' "artifacts.json".toList = [] by decide] at hsplit
        cases hsplit
  · rintro (⟨part, rfl⟩ | ⟨rfl, hmem⟩)
    · exact ⟨name, part, by simp⟩
    · obtain ⟨goal, workunitId, rfl⟩ := append_of_mem hmem
      exact ⟨goal, workunitId, by simp⟩

lemma isServerFile_keyName_iff (artifact : Artifact) :
    IsServerFile artifact.keyName.text ↔ artifact.LikeServerFile := by
  let names := [Stage.start.name, finalStats, pantsLog] ++ ([.zipkinTrace, .pytestResults,
    .coverageSummary, .aggregateMetrics, .pantsOptions, .targetsSpecs, .platformInfo,
    .workUnits] : List ResultFile).map ResultFile.name
  have hpairs : names.flatMap (splits '_') = serverPairs := by decide
  have hserver (name : Text) : IsServerFile name ↔ name ∈ names ∨
      ∃ goal workunitId, name = (ResultFile.console goal workunitId).name := by
    constructor
    · rintro (hname | ⟨file, rfl⟩)
      · exact .inl (mem_append_left _ hname)
      · cases file with
        | console goal workunitId => exact .inr ⟨goal, workunitId, rfl⟩
        | _ => exact .inl (mem_append_right _ (mem_map_of_mem (by simp)))
    · rintro (hname | ⟨goal, workunitId, rfl⟩)
      · rcases mem_append.1 hname with hname | hname
        · exact .inl hname
        · obtain ⟨file, -, rfl⟩ := mem_map.1 hname
          exact .inr ⟨file, rfl⟩
      · exact .inr ⟨_, rfl⟩
  rw [hserver, Artifact.LikeServerFile, ← hpairs, ← exists_console_iff, mem_flatMap]
  simp only [mem_splits_iff, exists_eq_right']
  rfl

/-- Every artifact is saved beside those before it and beside the files of the server exactly if no two
pairs of a name and a path differ only in slashes or in where a part belongs, and none is joined to the
name of a file of the server. -/
theorem artifacts_saved_iff (store : RunInfoRawStore) (user run : PathId) (uploads : List Artifact) :
    (uploads.Pairwise (fun first second =>
    SavedBeside store user run (fileKey store user run first.keyName.text) second) ∧
    ∀ artifact ∈ uploads, ∀ name, IsServerFile name →
    SavedBeside store user run (fileKey store user run name) artifact) ↔
    uploads.Pairwise (fun first second => ¬first.SameKey second) ∧
    ∀ artifact ∈ uploads, ¬artifact.LikeServerFile := by
  simp only [savedBeside_iff, ← keyName_eq_iff, ← isServerFile_keyName_iff]
  refine and_congr_right fun _ => forall₂_congr fun artifact _ => ?_
  exact ⟨fun h hser => h _ hser rfl, fun h name hser heq => h (heq ▸ hser)⟩

theorem second_artifact_skipped :
    let uploads : List Artifact := [⟨"a_b".toList, "c".toList, []⟩, ⟨"a".toList, "b_c".toList, []⟩]
    ¬uploads.Pairwise fun first second =>
      SavedBeside prodStore acme acme (fileKey prodStore acme acme first.keyName.text) second := by
  intro uploads h
  exact rel_of_pairwise_cons h (.head _) (by decide)

end Artifacts

section Owner

/-- `get_ci_info`: the user passed in comes before the one who is found, and both count in CI only. -/
def getCiInfo (ci : Bool) (found ciUser : Option PathId) : Option PathId :=
  if ci then ciUser.or found else none

inductive Endpoint
  | start | workUnits | ended | pantsLog | artifact

/-- Whose row or directory a request addresses; the plugin passes on whom the first answer names. -/
def Endpoint.owner (ci : Bool) (found : Option PathId) (user : PathId) : Endpoint → PathId
  | .start | .workUnits => (getCiInfo ci found none).getD user
  | .ended => (getCiInfo ci found (getCiInfo ci found none)).getD user
  | .pantsLog | .artifact => user

def RunInfoRawStore.partition (store : RunInfoRawStore) (env : Text) (user : PathId) : Text :=
  env ++ ':' :: store.customerId.text ++ ':' :: store.repoId.text ++ ':' :: user.text

variable {ci : Bool} {found : Option PathId} {user : PathId}

lemma owner_eq (endp : Endpoint) : endp.owner ci found user = user ∨
    endp.owner ci found user = Endpoint.start.owner ci found user := by
  cases endp with
  | start | workUnits => exact .inr rfl
  | ended => cases ci <;> cases found <;> exact .inr rfl
  | pantsLog | artifact => exact .inl rfl

/-- All requests of a run address one partition and one directory exactly if no other user is found. -/
theorem reports_meet_iff (store : RunInfoRawStore) (env : Text) (ci : Bool) (found : Option PathId)
    (user : PathId) :
    (∀ first second : Endpoint, store.partition env (first.owner ci found user) =
    store.partition env (second.owner ci found user) ∧
    store.userPath (first.owner ci found user) = store.userPath (second.owner ci found user)) ↔
    ∀ ciUser ∈ getCiInfo ci found none, ciUser.text = user.text := by
  simp only [RunInfoRawStore.partition, RunInfoRawStore.userPath, append_cancel_left_eq, cons.injEq,
    true_and, and_self]
  constructor
  · intro h ciUser hci
    have hsam := h .start .artifact
    rwa [Endpoint.owner, Endpoint.owner, Option.mem_def.1 hci] at hsam
  · intro h
    have hsta : (Endpoint.start.owner ci found user).text = user.text := by
      cases hci : getCiInfo ci found none with
      | none => rw [Endpoint.owner, hci]; rfl
      | some ciUser => rw [Endpoint.owner, hci]; exact h ciUser hci
    have hown (endpoint : Endpoint) : (endpoint.owner ci found user).text = user.text := by
      obtain heq | heq := owner_eq endpoint
      · rw [heq]
      · rw [heq, hsta]
    intro first second
    rw [hown, hown]

theorem artifact_of_other_user :
    let ciUser : PathId := ⟨"ci".toList, by decide, by decide⟩
    prodStore.partition [] (Endpoint.start.owner true (some ciUser) acme) ≠
      prodStore.partition [] (Endpoint.artifact.owner true (some ciUser) acme) := by
  decide

end Owner

end Toolchain.BuildSense
