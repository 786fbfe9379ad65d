import Mathlib.Data.List.Sort
import Mathlib.Data.Prod.Lex
import Mathlib.Data.String.Basic

/-!
# Pants.LocalStore — builds kept on disk until they can be uploaded

Final reports that could not be sent are kept in files, which a later run collects into a batch and
uploads once a few of its own calls have succeeded.  Other processes write to the directory too, and a
file may be cut off; `json.loads` raises then, and nobody catches it.  JSON is a parameter.
-/

namespace Toolchain.Pants

open List

inductive Json
  | null
  | bool (value : Bool)
  | number (value : Int)
  | string (value : String)
  | array (items : List Json)
  | object (fields : List (String × Json))

/-- `json.loads` and `json.dumps` on the bytes of a file, and `Path.read_text`. -/
structure JsonCodec where
  loads : List UInt8 → Option Json
  dumps : Json → List UInt8
  readText : List UInt8 → Option String

inductive Content
  | directory
  | file (bytes : List UInt8)
  deriving DecidableEq, Repr

structure Entry where
  stem : String
  modified : Nat
  content : Content
  deriving DecidableEq, Repr

namespace Entry

def sortKey (self : Entry) : Nat ×ₗ String :=
  toLex (self.modified / 60, self.stem)

def load (codec : JsonCodec) (self : Entry) : Option Json :=
  match self.content with
  | .directory => none
  | .file bytes => codec.loads bytes

end Entry

structure BatchedData where
  path : Entry
  version : String
  numOfFiles : Nat

def BatchedData.getBatchedData (codec : JsonCodec) (self : BatchedData) : Option String :=
  match self.path.content with
  | .directory => none
  | .file bytes => codec.readText bytes

structure LocalBuildsStore where
  enabled : Bool
  maxBatchSize : Nat
  /-- `queue`, as `iterdir` lists it -/
  buildQueue : List Entry
  /-- `queue/build_stats` -/
  buildStats : List Entry
  /-- `upload` -/
  uploadStaging : List Entry

namespace LocalBuildsStore

def batchVersion : String := "1"

/-- The loop of `_get_files_for_batch`: entries that are no files are passed over, and the first file
that does not fit ends it. -/
def takeFiles (maxBatchSize : Nat) : Nat → List Entry → List Entry
  | _, [] => []
  | totalSize, entry :: rest =>
    match entry.content with
    | .directory => takeFiles maxBatchSize totalSize rest
    | .file bytes =>
      if bytes.length + totalSize > maxBatchSize then
        []
      else
        entry :: takeFiles maxBatchSize (totalSize + bytes.length) rest

def getFilesForBatch (self : LocalBuildsStore) (entries : List Entry) : List Entry :=
  takeFiles self.maxBatchSize 0 (entries.insertionSort fun a b => b.sortKey ≤ a.sortKey)

def loadFiles (codec : JsonCodec) (files : List Entry) : Option (List (String × Json)) :=
  files.mapM fun entry => (entry.load codec).map (entry.stem, ·)

def filesInBatch (self : LocalBuildsStore) : List Entry :=
  self.getFilesForBatch self.buildQueue ++ self.getFilesForBatch self.buildStats

def batchJson (builds : List (String × Json)) : Json :=
  let version := ("version", Json.string batchVersion)
  if builds.isEmpty then .object [version] else .object [version, ("build_stats", .object builds)]

/-- `_get_batched_data`.  Both directories have the same key, and the second replaces the first. -/
def batchedData (codec : JsonCodec) (self : LocalBuildsStore) : Option Json := do
  let old ← loadFiles codec (self.getFilesForBatch self.buildQueue)
  let new ← loadFiles codec (self.getFilesForBatch self.buildStats)
  return batchJson (if new.isEmpty then old else new)

/-- `_create_batch`; the name is made from the time and the process id. -/
def createBatch (codec : JsonCodec) (self : LocalBuildsStore) (name : String) (now : Nat) :
    Except String (Option BatchedData × LocalBuildsStore) :=
  match self.batchedData codec with
  | none => .error "JSONDecodeError"
  | some batch =>
    if self.filesInBatch.isEmpty then
      .ok (none, self)
    else
      let batchFile : Entry := { stem := name, modified := now, content := .file (codec.dumps batch) }
      .ok (some
          { path := batchFile, version := batchVersion
            numOfFiles := self.filesInBatch.length },
          { self with
            buildQueue := self.buildQueue.filter (· ∉ self.filesInBatch)
            buildStats := self.buildStats.filter (· ∉ self.filesInBatch)
            uploadStaging := self.uploadStaging ++ [batchFile] })

def getNumOfFiles (codec : JsonCodec) (batchFile : Entry) : Except String Nat :=
  match batchFile.content with
  | .directory => .error "IsADirectoryError"
  | .file bytes =>
    match codec.loads bytes with
    | none => .error "JSONDecodeError"
    | some (.object fields) =>
      .ok (fields.foldl (fun count field =>
        match field.2 with
        | .object files => count + files.length
        | _ => count) 0)
    | some _ => .error "AttributeError"

def getUploadBatch (codec : JsonCodec) (self : LocalBuildsStore) (name : String) (now : Nat) :
    Except String (Option BatchedData × LocalBuildsStore) :=
  if self.enabled then
    match self.uploadStaging with
    | [] => self.createBatch codec name now
    | uploadBatch :: _ => do
        let numOfFiles ← getNumOfFiles codec uploadBatch
        return (some
          { path := uploadBatch, version := batchVersion, numOfFiles := numOfFiles }, self)
  else
    .ok (none, self)

def deleteBatchFile (self : LocalBuildsStore) (batch : BatchedData) : LocalBuildsStore :=
  { self with uploadStaging := self.uploadStaging.filter (·.stem ≠ batch.path.stem) }

def storeBuild (self : LocalBuildsStore) (runId : String) (bytes : List UInt8) (now : Nat) :
    LocalBuildsStore :=
  if self.enabled then
    let file : Entry := { stem := runId, modified := now, content := .file bytes }
    { self with buildStats := self.buildStats.filter (·.stem ≠ runId) ++ [file] }
  else
    self

variable {codec : JsonCodec} {self : LocalBuildsStore}

lemma loadFiles_isSome {files : List Entry} (h : ∀ entry ∈ files, (entry.load codec).isSome = true) :
    ∃ builds, loadFiles codec files = some builds := by
  induction files with
  | nil => exact ⟨[], rfl⟩
  | cons entry files ih =>
    rcases Option.isSome_iff_exists.1 (h entry (.head _)) with ⟨json, hjso⟩
    rcases ih fun other hoth => h other (.tail _ hoth) with ⟨builds, hbui⟩
    refine ⟨(entry.stem, json) :: builds, ?_⟩
    unfold loadFiles at hbui ⊢
    rw [mapM_cons, hjso, hbui]
    rfl

lemma batchedData_isSome (h : ∀ entry ∈ self.filesInBatch, (entry.load codec).isSome = true) :
    ∃ batch, self.batchedData codec = some batch := by
  have hold := loadFiles_isSome fun entry hent => h entry (mem_append_left _ hent)
  have hnew := loadFiles_isSome fun entry hent => h entry (mem_append_right _ hent)
  rcases hold with ⟨old, hold⟩
  rcases hnew with ⟨new, hnew⟩
  refine ⟨batchJson (if new.isEmpty then old else new), ?_⟩
  unfold batchedData
  rw [hold, hnew]
  rfl

end LocalBuildsStore

end Toolchain.Pants
