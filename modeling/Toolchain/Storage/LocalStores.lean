import Toolchain.Storage.Api
import Toolchain.Storage.FileBacked
import Toolchain.Storage.Memory
import Toolchain.Storage.Reads

/-!
# LocalStores — the same drivers for content-addressed blobs and for the action cache

Both drivers keep the first content that is written under a digest.  Neither reports `Digest::EMPTY` as
missing, but it has to be written before it is read (`missing_iff_unreadable_iff`).

Models `storage/src/driver/memory.rs` and `file_backed.rs`.
-/

namespace Toolchain.Storage

open Lib MemoryInner

variable {H : Type} [DecidableEq H]

/-! ## Memory -/

structure MemoryWriteAttempt (H : Type) where
  inst : Text
  digest : Digest H
  content : Bytes

namespace MemoryInner

variable (inner : MemoryInner H) (inst : Text) (digest dig : Digest H)

def findMissingBlobs (empty : Digest H) (digests : List (Digest H)) :
    Except (StorageError H) (List (Digest H)) :=
  (inner.getBlobsForInstance inst).map fun instanceBlobs =>
    digests.filter fun digest => digest ≠ empty ∧
      (instanceBlobs.contains digest = false ∨ (inner.blobs.lookup digest).isNone)

def beginWriteBlob : Except (StreamingWriteError H) (MemoryWriteAttempt H) :=
  match inner.getBlobsForInstance inst with
  | .error error => .error (.storageError error)
  | .ok instanceBlobs =>
    if instanceBlobs.contains digest then .error .alreadyExists
    else .ok { inst := inst, digest := digest, content := [] }

def commit (attempt : MemoryWriteAttempt H) : MemoryInner H where
  blobs :=
    if (inner.blobs.lookup attempt.digest).isSome then inner.blobs
    else Dict.assign inner.blobs (attempt.digest, attempt.content)
  blobsByInstance :=
    let instanceBlobs := (inner.blobsByInstance.lookup attempt.inst).getD []
    Dict.assign inner.blobsByInstance (attempt.inst, instanceBlobs.insert attempt.digest)

def visible : Bool :=
  ((inner.blobsByInstance.lookup inst).getD []).contains digest

lemma readBlob_cases (window : Window) :
    inner.visible inst dig = false ∧ (∃ error, inner.readBlob inst dig window = .error error) ∨
    inner.readBlob inst dig window =
      .ok ((if inner.visible inst dig then inner.blobs.lookup dig else none).map
    (.ofWindow window)) := by
  unfold readBlob getBlobsForInstance visible
  cases inner.blobsByInstance.lookup inst with
  | none => exact .inl ⟨rfl, _, rfl⟩
  | some instanceBlobs =>
    cases h : instanceBlobs.contains dig <;> cases inner.blobs.lookup dig <;>
      simp [-List.contains_eq_mem, h]

lemma beginWriteBlob_cases : (∃ error, inner.beginWriteBlob inst dig = .error (.storageError error)) ∨
    inner.visible inst dig = true ∧ inner.beginWriteBlob inst dig = .error .alreadyExists ∨
    inner.visible inst dig = false ∧ inner.beginWriteBlob inst dig = .ok ⟨inst, dig, []⟩ := by
  unfold beginWriteBlob getBlobsForInstance visible
  cases inner.blobsByInstance.lookup inst with
  | none => exact .inl ⟨_, rfl⟩
  | some instanceBlobs => cases h : instanceBlobs.contains dig <;> simp [-List.contains_eq_mem, h]

lemma visible_commit (data : Bytes) : (inner.commit ⟨inst, dig, data⟩).visible inst dig = true := by
  simp [visible, commit, Dict.lookup_assign]

lemma lookup_commit (data : Bytes) :
    (inner.commit ⟨inst, dig, data⟩).blobs.lookup dig = some ((inner.blobs.lookup dig).getD data) := by
  cases hblob : inner.blobs.lookup dig with
  | none => simp [commit, hblob, Dict.lookup_assign]
  | some blob => simp [commit, hblob]

end MemoryInner

/-! ## Files -/

abbrev BlobFiles := List Text → Option Bytes

namespace BlobFiles

variable (deployment : Deployment H) (process : Nat) (files : BlobFiles) (inst : Text)
  (digest : Digest H)

def content : Option Bytes :=
  files (deployment.finalPath process inst digest)

def findMissingBlobs (empty : Digest H) (digests : List (Digest H)) : List (Digest H) :=
  digests.filter fun digest => digest ≠ empty ∧ (files.content deployment process inst digest).isNone

end BlobFiles

/-! ## Existence and reads -/

/-- Blobs that are not reported as missing are those that can be read, except for the empty blob if
it has not been written. -/
theorem missing_iff_unreadable_iff (empty digest : Digest H) (inst : Text) :
    (∀ inner : MemoryInner H, (inner.findMissingBlobs inst empty [digest] = .ok [] ↔
    ∃ stream, inner.readBlob inst digest (.full 1) = .ok (some stream)) ↔
    (digest = empty → (inner.blobsByInstance.lookup inst).isSome →
    inner.visible inst digest = true ∧ (inner.blobs.lookup digest).isSome)) ∧
    ∀ (deployment : Deployment H) (process : Nat) (files : BlobFiles),
    (files.findMissingBlobs deployment process inst empty [digest] = [] ↔
    (files.content deployment process inst digest).isSome) ↔
    (digest = empty → (files.content deployment process inst digest).isSome) := by
  constructor
  · intro inner
    unfold visible findMissingBlobs readBlob getBlobsForInstance
    cases inner.blobsByInstance.lookup inst with
    | none => simp [Except.map]
    | some instanceBlobs =>
      rcases eq_or_ne digest empty with rfl | hemp <;>
        cases hvis : instanceBlobs.contains digest <;> cases hblo : inner.blobs.lookup digest <;>
        simp [Except.map, -List.contains_eq_mem, *]
  · intro deployment process files
    unfold BlobFiles.findMissingBlobs
    cases hfil : files.content deployment process inst digest <;> by_cases hemp :
      digest = empty <;> simp [hfil, hemp]

def emptyMemory : MemoryInner Unit where
  blobs := []
  blobsByInstance := [([], [])]

theorem emptyMemory_empty_digest :
    emptyMemory.findMissingBlobs [] ⟨(), 0⟩ [⟨(), 0⟩] = .ok [] ∧
    emptyMemory.readBlob [] ⟨(), 0⟩ (.full 1) = .ok none :=
  ⟨rfl, rfl⟩

/-! ## The drivers -/

/-- A read that looks something up and streams it.  A stream that does not end after as many turns as
there are bytes has panicked, or yields empty batches for ever. -/
def readWith {σ β : Type} (lookup : σ → Except (StorageError H) (Option β))
    (stream : β → Option (ReadStream H)) :
    Future σ (Except (StorageError H) (Option (ReadStream H))) :=
  (Future.act fun s => (lookup s, s)).andThen fun
    | none => .ready (.ok none)
    | some found =>
      match stream found with
      | none => .hang
      | some chunks => .ready (.ok (some chunks))

omit [DecidableEq H] in
lemma exists_finish_readWith {σ β : Type} {lookup : σ → Except (StorageError H) (Option β)}
    {stream : β → Option (ReadStream H)} {content : Option Bytes} {s : σ} (find : Bytes → β)
    (hlookup : content = none ∧ (∃ error, lookup s = .error error) ∨ lookup s = .ok (content.map find))
    (hstream : ∀ data ∈ content, ∃ chunks, stream (find data) = some chunks ∧
      chunks.consolidate = .ok data)
    (choices : List Bool) :
    ∃ result, (readWith lookup stream).finish choices s = (some result, s) ∧
    (∀ data ∈ content, ∃ chunks, result = .ok (some chunks) ∧ chunks.consolidate = .ok data) ∧
    (content = none → ∀ chunks, result ≠ .ok (some chunks)) := by
  simp only [readWith, Future.andThen, Future.act, Future.bind, Future.finish]
  rcases hlookup with ⟨rfl, error, hlookup⟩ | hlookup
  · exact ⟨.error error, by simp [hlookup, Future.finish], by simp⟩
  cases content with
  | none => exact ⟨.ok none, by simp [hlookup, Future.finish], by simp⟩
  | some data =>
    obtain ⟨chunks, hchunks, hdata⟩ := hstream data rfl
    refine ⟨.ok (some chunks), by simp [hlookup, hchunks, Future.finish], ?_, by simp⟩
    rintro _ ⟨⟩
    exact ⟨chunks, rfl, hdata⟩

def memoryStorage (empty : Digest H) : Driver H where
  State := MemoryInner H
  Attempt := MemoryWriteAttempt H
  Task := Empty
  init := { blobs := [], blobsByInstance := [] }
  Visible inner inst digest content := inner.visible inst digest = true ∧
    inner.blobs.lookup digest = some content
  findMissingBlobs inst digests := .act fun inner => (inner.findMissingBlobs inst empty digests, inner)
  readBlob inst digest window := readWith (fun inner => inner.readBlob inst digest window) fun stream =>
    (stream.collect (stream.blob.length + 1)).map fun chunks => ⟨chunks, none⟩
  beginWriteBlob inst digest := .act fun inner => (inner.beginWriteBlob inst digest, inner)
  write attempt batch := .ready (.ok (), { attempt with content := attempt.content ++ batch })
  commit attempt := .act fun inner => (.ok (), inner.commit attempt)
  runTask := nofun

/-- A whole blob is read to its end. -/
lemma collect_full {blob : Bytes} (hlength : blob.length < 2 ^ 63) {size : Nat} (hpos : 1 ≤ size)
    (hsize : size < 2 ^ 64) :
    ∃ chunks, (MemoryStream.ofWindow (.full size) blob).collect (blob.length + 1) = some chunks ∧
    chunks.flatten = blob := by
  have hfinal : (MemoryStream.ofWindow (.full size) blob).finalOffset = blob.length := by
    simp only [MemoryStream.ofWindow, Window.full, Option.getD_none, min_self, zero_add]
    omega
  obtain ⟨chunks, hcollect, hflatten⟩ := @MemoryStream.collect_of_batches (.ofWindow (.full size) blob)
    ⟨Nat.zero_le _, hlength, hpos, hsize⟩ (blob.length + 1) (by rw [hfinal]; omega) (Nat.zero_le _)
      hfinal.le
    (.inl (by simpa [MemoryStream.ofWindow, Window.full] using hsize)) (.inr hfinal)
  refine ⟨chunks, hcollect, hflatten.trans ?_⟩
  rw [hfinal]
  exact List.take_length ..

/-- The storage of a process.  Temporary files are the attempts they belong to, and `rename` replaces a
file that is there. -/
def fileBackedStorage (deployment : Deployment H) (process : Nat) (empty : Digest H) : Driver H where
  State := BlobFiles
  Attempt := MemoryWriteAttempt H
  Task := Empty
  init _ := none
  Visible files inst digest content := files.content deployment process inst digest = some content
  findMissingBlobs inst digests :=
    .act fun files => (.ok (files.findMissingBlobs deployment process inst empty digests), files)
  readBlob inst digest window := readWith (fun files => .ok (files.content deployment process inst digest))
    fun content => fileStream (content.length + 1) window content
  beginWriteBlob inst digest := .act fun files =>
    (if (files.content deployment process inst digest).isSome then .error .alreadyExists
      else .ok ⟨inst, digest, []⟩, files)
  write attempt batch := .ready (.ok (), { attempt with content := attempt.content ++ batch })
  commit attempt := .act fun files => (.ok (), Function.update files
    (deployment.finalPath process attempt.inst attempt.digest) (some attempt.content))
  runTask := nofun

end Toolchain.Storage
