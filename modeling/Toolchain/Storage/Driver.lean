import Toolchain.Lib.Chunks
import Toolchain.Lib.Future
import Toolchain.Lib.Hex

/-!
# Driver — the storage traits and the drivers at the leaves

A driver answers which digests it lacks, reads a blob as a stream, and writes one through an attempt
that `commit` publishes.  Every method is a future over the driver's state.  Which calls of a leaf fail,
and how far they got, is a parameter.
-/

namespace Toolchain.Storage

open Lib

abbrev Bytes := List UInt8

structure Digest (H : Type) where
  hash : H
  sizeBytes : Nat
deriving DecidableEq

abbrev Sha256Hash := {bytes : Bytes // bytes.length = 32}

def zeroHash : Sha256Hash := ⟨List.replicate 32 0, List.length_replicate⟩

inductive StorageError (H : Type)
  | cancelled (message : Text)
  | invalidArgument (message : Text)
  | invalidSize (expectedSize : Nat) (isDataLoss : Bool)
  | invalidHash (expectedDigest actualDigest : Digest H) (isDataLoss : Bool)
  | internal (message : Text)
  | unavailable (message : Text)
  | outOfRange (parameter : Text) (value : Nat)
deriving DecidableEq

inductive StreamingWriteError (H : Type)
  | alreadyExists
  | storageError (error : StorageError H)
deriving DecidableEq

structure Window where
  maxBatchSize : Nat
  (readOffset readLimit : Option Nat)

structure ReadStream (H : Type) where
  chunks : List Bytes
  failure : Option (StorageError H)

variable {H : Type}

def Digest.ofBytes (sha256 : Bytes → H) (content : Bytes) : Digest H where
  hash := sha256 content
  sizeBytes := content.length

def StreamingWriteError.okIfAlreadyExists : StreamingWriteError H → Except (StorageError H) Unit
  | .alreadyExists => .ok ()
  | .storageError error => .error error

def StreamingWriteError.orOk : Except (StreamingWriteError H) Unit → Except (StorageError H) Unit
  | .ok () => .ok ()
  | .error error => error.okIfAlreadyExists

def Window.full (maxBatchSize : Nat) : Window where
  maxBatchSize := maxBatchSize
  readOffset := none
  readLimit := none

def Window.slice (window : Window) (content : Bytes) : Bytes :=
  (content.drop (window.readOffset.getD 0)).take (window.readLimit.getD content.length)

def ReadStream.consolidate (stream : ReadStream H) : Except (StorageError H) Bytes :=
  match stream.failure with
  | none => .ok stream.chunks.flatten
  | some error => .error error

/-! ## The traits -/

/-- A driver with streams.  `Visible` says which blobs its leaves hold, and `runTask` is the work
it has left to the background. -/
structure Driver (H : Type) where
  State : Type
  Attempt : Type
  Task : Type
  init : State
  Visible : State → Text → Digest H → Bytes → Prop
  findMissingBlobs : Text → List (Digest H) → Future State (Except (StorageError H) (List (Digest H)))
  readBlob : Text → Digest H → Window → Future State (Except (StorageError H) (Option (ReadStream H)))
  beginWriteBlob : Text → Digest H → Future State (Except (StreamingWriteError H) Attempt)
  write : Attempt → Bytes → Future State (Except (StreamingWriteError H) Unit × Attempt)
  commit : Attempt → Future State (Except (StreamingWriteError H) Unit)
  runTask : Task → Future State Unit

structure SmallDriver (H : Type) where
  State : Type
  Task : Type
  init : State
  Visible : State → Text → Digest H → Bytes → Prop
  findMissingBlobs : Text → List (Digest H) → Future State (Except (StorageError H) (List (Digest H)))
  readBlob : Text → Digest H → Future State (Except (StorageError H) (Option Bytes))
  writeBlob : Text → Digest H → Bytes → Future State (Except (StorageError H) Unit)
  runTask : Task → Future State Unit

/-- Writes to an attempt and goes on with it, as `attempt.write(batch).await?` does. -/
def Driver.writeThen {α : Type} (driver : Driver H) (attempt : driver.Attempt) (batch : Bytes)
    (k : driver.Attempt → Future driver.State (Except (StreamingWriteError H) α)) :
    Future driver.State (Except (StreamingWriteError H) α) :=
  (driver.write attempt batch).bind fun
    | (.ok (), attempt) => k attempt
    | (.error error, _) => .ready (.error error)

def Driver.writeBlob (driver : Driver H) (inst : Text) (digest : Digest H) (content : Bytes) :
    Future driver.State (Except (StreamingWriteError H) Unit) :=
  (driver.beginWriteBlob inst digest).andThen fun attempt => driver.writeThen attempt content driver.commit

/-! ## Leaves -/

/-- A call that fails has got as far as `progress`: a write has stored so many bytes, a stream yields
one chunk less, and a commit has published its blob. -/
inductive Fault (H : Type)
  | alreadyExists
  | error (error : StorageError H) (progress : Nat)

structure Blobs (H : Type) where
  calls : Nat
  blobs : List ((Text × Digest H) × Bytes)

structure LeafAttempt (H : Type) where
  inst : Text
  digest : Digest H
  content : Bytes

/-- A leaf driver.  Some look whether a blob exists before they begin to write it, and some replace
a blob that exists. -/
structure Leaf (H : Type) where
  (checksExistence overwrites : Bool)
  faults : Nat → Option (Fault H)

/-- A store whose calls never fail, and which keeps the first content of a digest. -/
def steadyLeaf (H : Type) : Leaf H where
  checksExistence := true
  overwrites := false
  faults _ := none

variable [DecidableEq H]

def Blobs.find? (state : Blobs H) (inst : Text) (digest : Digest H) : Option Bytes :=
  state.blobs.lookup (inst, digest)

def Blobs.publish (overwrites : Bool) (inst : Text) (digest : Digest H) (content : Bytes)
    (state : Blobs H) : Blobs H :=
  if overwrites || (state.find? inst digest).isNone then
    { state with blobs := ((inst, digest), content) :: state.blobs }
  else
    state

namespace Leaf

variable (leaf : Leaf H)

def call {α : Type} (access : Option (Fault H) → Blobs H → α × Blobs H) : Future (Blobs H) α :=
  .act fun state => access (leaf.faults state.calls) { state with calls := state.calls + 1 }

def findMissingBlobs (inst : Text) (digests : List (Digest H)) :
    Future (Blobs H) (Except (StorageError H) (List (Digest H))) :=
  leaf.call fun
    | some (.error error _), state => (.error error, state)
    | _, state => (.ok (digests.filter fun digest => (state.find? inst digest).isNone), state)

def stream (window : Window) (content : Bytes) : Option (Fault H) → ReadStream H
  | some (.error error progress) =>
    { chunks := (Lib.chunks window.maxBatchSize (window.slice content)).take (progress - 1)
      failure := some error }
  | _ => { chunks := Lib.chunks window.maxBatchSize (window.slice content), failure := none }

def readBlob (inst : Text) (digest : Digest H) (window : Window) :
    Future (Blobs H) (Except (StorageError H) (Option (ReadStream H))) :=
  (leaf.call fun fault state => ((fault, state.find? inst digest), state)).bind fun
    | (some (.error error 0), _) => .ready (.error error)
    | (_, none) => .ready (.ok none)
    | (fault, some content) =>
      -- batches of no bytes never get to the end of the blob
      if window.maxBatchSize = 0 then .hang
      else .ready (.ok (some (stream window content fault)))

def beginWriteBlob (inst : Text) (digest : Digest H) :
    Future (Blobs H) (Except (StreamingWriteError H) (LeafAttempt H)) :=
  leaf.call fun
    | some .alreadyExists, state => (.error .alreadyExists, state)
    | some (.error error _), state => (.error (.storageError error), state)
    | none, state =>
      if leaf.checksExistence && (state.find? inst digest).isSome then
        (.error .alreadyExists, state)
      else
        (.ok { inst := inst, digest := digest, content := [] }, state)

def write (attempt : LeafAttempt H) (batch : Bytes) :
    Future (Blobs H) (Except (StreamingWriteError H) Unit × LeafAttempt H) :=
  leaf.call fun
    | some .alreadyExists, state => ((.error .alreadyExists, attempt), state)
    | some (.error error progress), state =>
      ((.error (.storageError error),
        { attempt with content := attempt.content ++ batch.take progress }), state)
    | none, state => ((.ok (), { attempt with content := attempt.content ++ batch }), state)

def commit (attempt : LeafAttempt H) : Future (Blobs H) (Except (StreamingWriteError H) Unit) :=
  leaf.call fun
    | some .alreadyExists, state => (.error .alreadyExists, state)
    | some (.error error 0), state => (.error (.storageError error), state)
    | some (.error error (_ + 1)), state =>
      (.error (.storageError error),
        state.publish leaf.overwrites attempt.inst attempt.digest attempt.content)
    | none, state => (.ok (), state.publish leaf.overwrites attempt.inst attempt.digest attempt.content)

def driver : Driver H where
  State := Blobs H
  Attempt := LeafAttempt H
  Task := Empty
  init := { calls := 0, blobs := [] }
  Visible state inst digest content := state.find? inst digest = some content
  findMissingBlobs := leaf.findMissingBlobs
  readBlob := leaf.readBlob
  beginWriteBlob := leaf.beginWriteBlob
  write := leaf.write
  commit := leaf.commit
  runTask := nofun

end Leaf

namespace Leaf

variable (leaf : Leaf H)

def readWhole (inst : Text) (digest : Digest H) :
    Future (Blobs H) (Except (StorageError H) (Option Bytes)) :=
  leaf.call fun
    | some (.error error _), state => (.error error, state)
    | _, state => (.ok (state.find? inst digest), state)

def writeWhole (inst : Text) (digest : Digest H) (content : Bytes) :
    Future (Blobs H) (Except (StorageError H) Unit) :=
  leaf.call fun
    | some (.error error 0), state => (.error error, state)
    | some (.error error (_ + 1)), state =>
      (.error error, state.publish leaf.overwrites inst digest content)
    | _, state => (.ok (), state.publish leaf.overwrites inst digest content)

def smallDriver : SmallDriver H where
  State := Blobs H
  Task := Empty
  init := { calls := 0, blobs := [] }
  Visible state inst digest content := state.find? inst digest = some content
  findMissingBlobs := leaf.findMissingBlobs
  readBlob := leaf.readWhole
  writeBlob := leaf.writeWhole
  runTask := nofun

end Leaf

def redisDirect (faults : Nat → Option (Fault H)) : Leaf H where
  checksExistence := false
  overwrites := true
  faults := faults

omit [DecidableEq H] in
def nullStorage : SmallDriver H where
  State := Unit
  Task := Empty
  init := ()
  Visible _ _ _ _ := False
  findMissingBlobs _ digests := .ready (.ok digests)
  readBlob _ _ := .ready (.ok none)
  writeBlob _ _ _ := .ready (.ok ())
  runTask := nofun

def alwaysErrors : StorageError H :=
  .internal "This always will error!".toList

def alwaysErrorsStorage : SmallDriver H where
  State := Unit
  Task := Empty
  init := ()
  Visible _ _ _ _ := False
  findMissingBlobs _ _ := .ready (.error alwaysErrors)
  readBlob _ _ := .ready (.error alwaysErrors)
  writeBlob _ _ _ := .ready (.error alwaysErrors)
  runTask := nofun

/-! ## Adapters between the two traits -/

inductive Content
  | empty
  | first (chunk : Bytes)
  | merging (content : Bytes)

def Content.add (chunk : Bytes) : Content → Content
  | .empty => .first chunk
  | .first content => .merging (content ++ chunk)
  | .merging content => .merging (content ++ chunk)

def Content.bytes : Content → Bytes
  | .empty => []
  | .first content => content
  | .merging content => content

structure SmallAttempt (H : Type) where
  inst : Text
  digest : Digest H
  content : Content

def smallWindow (window : Window) (content : Bytes) : Except (StorageError H) (ReadStream H) :=
  let startIndex := window.readOffset.getD 0
  if startIndex > content.length then
    .error (.outOfRange "read_offset".toList startIndex)
  else
    let endIndex := match window.readLimit with
      | none | some 0 => content.length
      | some limit => min (startIndex + limit) content.length
    .ok ⟨[(content.take endIndex).drop startIndex], none⟩

def smallBlobStorageAdapter (inner : SmallDriver H) : Driver H where
  State := inner.State
  Attempt := SmallAttempt H
  Task := inner.Task
  init := inner.init
  Visible := inner.Visible
  findMissingBlobs := inner.findMissingBlobs
  readBlob inst digest window := (inner.readBlob inst digest).map fun
    | .ok (some content) => (smallWindow window content).map some
    | .ok none => .ok none
    | .error error => .error error
  beginWriteBlob inst digest := .ready (.ok { inst := inst, digest := digest, content := .empty })
  write attempt batch := .ready (.ok (), { attempt with content := attempt.content.add batch })
  commit attempt :=
    (inner.writeBlob attempt.inst attempt.digest attempt.content.bytes).map (Except.mapError .storageError)
  runTask := inner.runTask

def maxBatchTotalSizeBytes : Nat := 1024 * 1024

def blobStorageAdapter (inner : Driver H) : SmallDriver H where
  State := inner.State
  Task := inner.Task
  init := inner.init
  Visible := inner.Visible
  findMissingBlobs := inner.findMissingBlobs
  readBlob inst digest :=
    (inner.readBlob inst digest (.full maxBatchTotalSizeBytes)).map fun
      | .ok (some stream) => stream.consolidate.map some
      | .ok none => .ok none
      | .error error => .error error
  writeBlob inst digest content := (inner.writeBlob inst digest content).map StreamingWriteError.orOk
  runTask := inner.runTask

end Toolchain.Storage
