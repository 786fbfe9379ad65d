import Mathlib.Data.List.Dedup
import Toolchain.Storage.Driver

/-!
# Combinators — the drivers built from other drivers

A combinator runs the methods of the drivers below it on its parts of the state (`Future.zoom`); what
the source joins runs interleaved, and what it races drops the slower part.
-/

namespace Toolchain.Storage

open Lib

variable {H : Type} [DecidableEq H]

/-! ## Size split -/

def sizeSplit (splitSize : Nat) (storage1 storage2 : Driver H) : Driver H where
  State := storage1.State × storage2.State
  Attempt := storage1.Attempt ⊕ storage2.Attempt
  Task := storage1.Task ⊕ storage2.Task
  init := (storage1.init, storage2.init)
  Visible state inst digest content :=
    storage1.Visible state.1 inst digest content ∨ storage2.Visible state.2 inst digest content
  findMissingBlobs inst digests :=
    let digests1 := digests.filter fun digest => digest.sizeBytes < splitSize
    let digests2 := digests.filter fun digest => ¬digest.sizeBytes < splitSize
    (((storage1.findMissingBlobs inst digests1).zoom Lens.fst).tryJoin
      ((storage2.findMissingBlobs inst digests2).zoom Lens.snd)).map (Except.map fun missing =>
        missing.1 ++ missing.2)
  readBlob inst digest window :=
    if digest.sizeBytes < splitSize then (storage1.readBlob inst digest window).zoom Lens.fst
    else (storage2.readBlob inst digest window).zoom Lens.snd
  beginWriteBlob inst digest :=
    if digest.sizeBytes < splitSize then
      ((storage1.beginWriteBlob inst digest).zoom Lens.fst).map (Except.map .inl)
    else
      ((storage2.beginWriteBlob inst digest).zoom Lens.snd).map (Except.map .inr)
  write attempt batch := match attempt with
    | .inl attempt => ((storage1.write attempt batch).zoom Lens.fst).map (Prod.map id .inl)
    | .inr attempt => ((storage2.write attempt batch).zoom Lens.snd).map (Prod.map id .inr)
  commit
    | .inl attempt => (storage1.commit attempt).zoom Lens.fst
    | .inr attempt => (storage2.commit attempt).zoom Lens.snd
  runTask
    | .inl task => (storage1.runTask task).zoom Lens.fst
    | .inr task => (storage2.runTask task).zoom Lens.snd

/-! ## Sharding -/

/-- The ring of `n` shards: the shards of a digest, in the order of the ring, of which the first
`keyReplicas` are used. -/
structure Ring (H : Type) (n : Nat) where
  replicas : Digest H → List (Fin n)
  keyReplicas : Nat
  keyReplicas_pos : 0 < keyReplicas

namespace Ring

variable {n : Nat} (ring : Ring H n)

def storagesForDigest (digest : Digest H) : List (Fin n) :=
  (ring.replicas digest).take ring.keyReplicas

def digestsFor (digests : List (Digest H)) (shard : Fin n) : List (Digest H) :=
  (digests.filter fun digest => shard ∈ ring.storagesForDigest digest).dedup

/-- What the result of one shard says about a digest: whether it is present there, or nothing if the
shard failed or was not asked. -/
def vote (digests : List (Digest H)) (digest : Digest H)
    (result : Fin n × Except (StorageError H) (List (Digest H))) : Option Bool :=
  match result.2 with
  | .ok missing =>
    if digest ∈ ring.digestsFor digests result.1 then some (decide (digest ∉ missing)) else none
  | .error _ => none

def answer (digests : List (Digest H))
    (results : List (Fin n × Except (StorageError H) (List (Digest H)))) (digest : Digest H) :
    Option Bool :=
  results.foldl (fun answer result =>
    match answer, ring.vote digests digest result with
    | answer, none => answer
    | none, some isPresentHere => some isPresentHere
    | some isPresentAnywhere, some isPresentHere => some (isPresentAnywhere || isPresentHere)) none

def merge (digests : List (Digest H))
    (results : List (Fin n × Except (StorageError H) (List (Digest H)))) :
    Except (StorageError H) (List (Digest H)) :=
  if digests.any fun digest => (ring.answer digests results digest).isNone then
    .error (.unavailable "Not enough shards were available to answer query.".toList)
  else
    .ok (digests.dedup.filter fun digest => ring.answer digests results digest = some false)

end Ring

namespace Sharding

variable {n : Nat} (shards : Fin n → Driver H) (ring : Ring H n)

abbrev State := (shard : Fin n) → (shards shard).State

abbrev Attempt := (shard : Fin n) × (shards shard).Attempt

variable {shards} in
def on {α : Type} (shard : Fin n) (future : Future (shards shard).State α) :
    Future (State shards) α :=
  future.zoom (Lens.member shard)

def findMissingBlobs (order : List (Fin n)) (inst : Text) (digests : List (Digest H)) :
    Future (State shards) (Except (StorageError H) (List (Digest H))) :=
  let asked := order.filter fun shard => !(ring.digestsFor digests shard).isEmpty
  (Future.joinAll (asked.map fun shard =>
    (on shard ((shards shard).findMissingBlobs inst (ring.digestsFor digests shard))).map
      fun result => (shard, result))).map (ring.merge digests)

def decisive : Except (StorageError H) (Option (ReadStream H)) → Bool
  | .ok (some _) => true
  | .ok none => false
  | .error (.unavailable _) => false
  | .error _ => true

def noShards : Except (StorageError H) (Option (ReadStream H)) :=
  .error (.unavailable "No shards were available to answer read query.".toList)

def mergeReads : Except (StorageError H) (Option (ReadStream H)) →
    Except (StorageError H) (Option (ReadStream H)) →
    Except (StorageError H) (Option (ReadStream H))
  | .ok _, _ => .ok none
  | _, .ok _ => .ok none
  | _, _ => noShards

def readBlob (inst : Text) (digest : Digest H) (window : Window) :
    Future (State shards) (Except (StorageError H) (Option (ReadStream H))) :=
  Future.raceAll decisive mergeReads noShards ((ring.storagesForDigest digest).map fun shard =>
    on shard ((shards shard).readBlob inst digest window))

def isAlreadyExists {α : Type} : Except (StreamingWriteError H) α → Bool
  | .error .alreadyExists => true
  | _ => false

def isOk {ε α : Type} : Except ε α → Bool
  | .ok _ => true
  | .error _ => false

def beginWriteBlob (inst : Text) (digest : Digest H) :
    Future (State shards) (Except (StreamingWriteError H) (List (Attempt shards))) :=
  (Future.joinAll ((ring.storagesForDigest digest).map fun shard =>
    (on shard ((shards shard).beginWriteBlob inst digest)).map
      (Except.map fun attempt => (⟨shard, attempt⟩ : Attempt shards)))).map fun results =>
        if results.all isAlreadyExists then .error .alreadyExists
        else .ok (results.filterMap Except.toOption)

def indicesToRemove {ε α : Type} (results : List (Except ε α)) : List Nat :=
  results.zipIdx.filterMap fun entry => if isOk entry.1 then none else some entry.2

/-- Writes a batch to every shard that is left, and removes those that fail, the last one
first. -/
def write (attempts : List (Attempt shards)) (batch : Bytes) :
    Future (State shards) (Except (StreamingWriteError H) Unit × List (Attempt shards)) :=
  (Future.joinAll (attempts.map fun attempt =>
    (on attempt.1 ((shards attempt.1).write attempt.2 batch)).map fun result =>
      (result.1, (⟨attempt.1, result.2⟩ : Attempt shards)))).map fun results =>
        (.ok (), (indicesToRemove (results.map Prod.fst)).reverse.foldl List.eraseIdx
          (results.map Prod.snd))

def committed (results : List (Except (StreamingWriteError H) Unit)) :
    Except (StreamingWriteError H) Unit :=
  if results.any isOk then .ok ()
  else
    match results.foldl (fun last result => match result with
      | .ok () => last
      | .error error => some error) none with
    | some error => .error error
    | none => .error (.storageError (.unavailable "All shards returned errors during write.".toList))

def commit (attempts : List (Attempt shards)) :
    Future (State shards) (Except (StreamingWriteError H) Unit) :=
  (Future.joinAll (attempts.map fun attempt =>
    on attempt.1 ((shards attempt.1).commit attempt.2))).map committed

end Sharding

def sharded {n : Nat} (shards : Fin n → Driver H) (ring : Ring H n) : Driver H where
  State := Sharding.State shards
  Attempt := List (Sharding.Attempt shards)
  Task := (shard : Fin n) × (shards shard).Task
  init := fun shard => (shards shard).init
  Visible state inst digest content := ∃ shard, (shards shard).Visible (state shard) inst digest content
  findMissingBlobs := Sharding.findMissingBlobs shards ring (List.finRange n)
  readBlob := Sharding.readBlob shards ring
  beginWriteBlob := Sharding.beginWriteBlob shards ring
  write := Sharding.write shards
  commit := Sharding.commit shards
  runTask task := Sharding.on task.1 ((shards task.1).runTask task.2)

/-! ## Fast and slow storage -/

def slowBatchSize : Nat := 128 * 1024 * 1024

def readSlow (fast : SmallDriver H) (slow : Driver H) (inst : Text) (digest : Digest H) :
    Future (fast.State × slow.State) (Except (StorageError H) (Option Bytes)) :=
  ((slow.readBlob inst digest (.full slowBatchSize)).zoom Lens.snd).andThen fun
    | none => .ready (.ok none)
    | some stream =>
      match stream.consolidate with
      | .error error => .ready (.error error)
      | .ok content =>
        ((fast.writeBlob inst digest content).zoom Lens.fst).andThen fun _ => .ready (.ok (some content))

def fastSlow (fast : SmallDriver H) (slow : Driver H) : SmallDriver H where
  State := fast.State × slow.State
  Task := fast.Task ⊕ slow.Task
  init := (fast.init, slow.init)
  Visible state inst digest content :=
    fast.Visible state.1 inst digest content ∨ slow.Visible state.2 inst digest content
  findMissingBlobs inst digests :=
    ((fast.findMissingBlobs inst digests).zoom Lens.fst).andThen fun missingFromFast =>
      (slow.findMissingBlobs inst missingFromFast).zoom Lens.snd
  readBlob inst digest :=
    ((fast.readBlob inst digest).zoom Lens.fst).bind fun
      | .ok (some content) => .ready (.ok (some content))
      -- missing or an error
      | _ => readSlow fast slow inst digest
  writeBlob inst digest content :=
    ((((fast.writeBlob inst digest content).zoom Lens.fst).map
        (Except.mapError StreamingWriteError.storageError)).tryJoin
      ((slow.writeBlob inst digest content).zoom Lens.snd)).map fun result =>
        StreamingWriteError.orOk (result.map fun _ => ())
  runTask
    | .inl task => (fast.runTask task).zoom Lens.fst
    | .inr task => (slow.runTask task).zoom Lens.snd

/-! ## Existence cache -/

abbrev Cache (H : Type) := List (Text × Digest H)

def Cache.put (capacity : Nat) (key : Text × Digest H) (cache : Cache H) : Cache H :=
  (key :: cache.erase key).take capacity

def existenceCache (maxEntries : Nat) (underlying : Driver H) : Driver H where
  State := underlying.State × Cache H
  Attempt := underlying.Attempt
  Task := underlying.Task
  init := (underlying.init, [])
  Visible state := underlying.Visible state.1
  findMissingBlobs inst digests :=
    (Future.act fun state : underlying.State × Cache H =>
      (digests.filter fun digest => (inst, digest) ∉ state.2, state)).bind fun unknownDigests =>
        if unknownDigests.isEmpty then .ready (.ok [])
        else
          ((underlying.findMissingBlobs inst unknownDigests).zoom Lens.fst).andThen fun missingDigests =>
              let presentDigests := unknownDigests.filter (· ∉ missingDigests)
              .act fun state => (.ok missingDigests, (state.1, presentDigests.foldl (fun cache digest =>
                  cache.put maxEntries (inst, digest)) state.2))
  readBlob inst digest window := (underlying.readBlob inst digest window).zoom Lens.fst
  beginWriteBlob inst digest := (underlying.beginWriteBlob inst digest).zoom Lens.fst
  write attempt batch := (underlying.write attempt batch).zoom Lens.fst
  commit attempt := (underlying.commit attempt).zoom Lens.fst
  runTask task := (underlying.runTask task).zoom Lens.fst

/-! ## Metering -/

structure UsageReport where
  customerId : Text
  cacheReadBytes : Nat := 0
  numReadBlobs : Nat := 0
  cacheWriteBytes : Nat := 0
  numWriteBlobs : Nat := 0

def sendReport {σ : Type} (report : UsageReport) : Future (σ × List UsageReport) Unit :=
  .act fun state => ((), (state.1, state.2 ++ [report]))

def streamReports (customerId : Text) (stream : ReadStream H) : List UsageReport :=
  (stream.chunks.map fun chunk =>
    { customerId := customerId, cacheReadBytes := chunk.length : UsageReport }) ++
    match stream.failure with
    | none => [{ customerId := customerId, numReadBlobs := 1 }]
    | some _ => []

def metered (inner : Driver H) : Driver H where
  State := inner.State × List UsageReport
  Attempt := Text × inner.Attempt
  Task := inner.Task
  init := (inner.init, [])
  Visible state := inner.Visible state.1
  findMissingBlobs inst digests := (inner.findMissingBlobs inst digests).zoom Lens.fst
  readBlob inst digest window :=
    ((inner.readBlob inst digest window).zoom Lens.fst).andThen fun
      | none => .ready (.ok none)
      | some stream => .act fun state =>
        (.ok (some stream), (state.1, state.2 ++ streamReports inst stream))
  beginWriteBlob inst digest :=
    ((inner.beginWriteBlob inst digest).zoom Lens.fst).map (Except.map fun attempt => (inst, attempt))
  write attempt batch :=
    (sendReport { customerId := attempt.1, cacheWriteBytes := batch.length }).bind fun _ =>
      ((inner.write attempt.2 batch).zoom Lens.fst).map (Prod.map id fun inner => (attempt.1, inner))
  commit attempt :=
    ((inner.commit attempt.2).zoom Lens.fst).bind fun result =>
      (sendReport { customerId := attempt.1, numWriteBlobs := 1 }).map fun _ => result
  runTask task := (inner.runTask task).zoom Lens.fst

/-! ## Chunking -/

structure ChunkingAttempt (A : Type) where
  underlying : A
  buffer : Bytes

def storeChunks (driver : Driver H) : List Bytes → driver.Attempt →
    Future driver.State (Except (StreamingWriteError H) Unit × driver.Attempt)
  | [], attempt => .ready (.ok (), attempt)
  | chunk :: chunks, attempt => (driver.write attempt chunk).bind fun
      | (.ok (), attempt) => storeChunks driver chunks attempt
      | (.error error, attempt) => .ready (.error error, attempt)

/-- Regroups a stream; what is in the buffer when an error comes is lost. -/
def rechunk (chunkSize : Nat) (stream : ReadStream H) : ReadStream H :=
  let filled := fillAll chunkSize [] stream.chunks
  { stream with
    chunks := if stream.failure.isSome || filled.2.isEmpty then filled.1
      else filled.1 ++ [filled.2] }

def chunking (writeChunkSize : Nat) (underlying : Driver H) : Driver H where
  State := underlying.State
  Attempt := ChunkingAttempt underlying.Attempt
  Task := underlying.Task
  init := underlying.init
  Visible := underlying.Visible
  findMissingBlobs := underlying.findMissingBlobs
  readBlob inst digest window :=
    (underlying.readBlob inst digest window).andThen fun
      | none => .ready (.ok none)
      | some stream =>
        -- the loop over a chunk takes nothing from it if the chunks are to be empty
        if window.maxBatchSize = 0 ∧ stream.chunks.flatten ≠ [] then .hang
        else .ready (.ok (some (rechunk window.maxBatchSize stream)))
  beginWriteBlob inst digest :=
    (underlying.beginWriteBlob inst digest).map (Except.map fun attempt =>
      { underlying := attempt, buffer := [] })
  write attempt data :=
    -- with empty chunks the loop writes them for ever
    if writeChunkSize = 0 ∧ data ≠ [] then .hang
    else
      let filled := fill writeChunkSize data.length attempt.buffer data
      (storeChunks underlying filled.1 attempt.underlying).map fun
        | (.ok (), underlying) => (.ok (), { underlying := underlying, buffer := filled.2 })
        | (.error error, underlying) => (.error error, { underlying := underlying, buffer := [] })
  commit attempt :=
    if attempt.buffer.isEmpty then underlying.commit attempt.underlying
    else underlying.writeThen attempt.underlying attempt.buffer underlying.commit
  runTask := underlying.runTask

namespace DarkLaunch

variable (storage1 storage2 : Driver H)

inductive StorageChoice
  | storage1 | storage2
deriving DecidableEq

abbrev Side := storage1.Attempt ⊕ storage2.Attempt

structure Secondary where
  attempt : Side storage1 storage2
  sawError : Bool

/-- A background task with the batches in its channel that it has not read yet. -/
abbrev SecondaryWrite := Secondary storage1 storage2 × List Bytes

/-- The tasks whose write was committed are part of the state; the task of a write that goes on is
kept with its attempt. -/
structure State where
  state1 : storage1.State
  state2 : storage2.State
  pending : List (SecondaryWrite storage1 storage2)

structure Attempt where
  primary : Side storage1 storage2
  secondary : Option (SecondaryWrite storage1 storage2)

variable {storage1 storage2}

def lens1 : Lens (State storage1 storage2) storage1.State where
  get state := state.state1
  set x state := { state with state1 := x }
  get_set _ _ := rfl

def lens2 : Lens (State storage1 storage2) storage2.State where
  get state := state.state2
  set x state := { state with state2 := x }
  get_set _ _ := rfl

def beginSide (inst : Text) (digest : Digest H) : StorageChoice →
    Future (State storage1 storage2) (Except (StreamingWriteError H) (Side storage1 storage2))
  | .storage1 => ((storage1.beginWriteBlob inst digest).zoom lens1).map (Except.map .inl)
  | .storage2 => ((storage2.beginWriteBlob inst digest).zoom lens2).map (Except.map .inr)

def writeSide : Side storage1 storage2 → Bytes → Future (State storage1 storage2)
    (Except (StreamingWriteError H) Unit × Side storage1 storage2)
  | .inl attempt, batch => ((storage1.write attempt batch).zoom lens1).map (Prod.map id .inl)
  | .inr attempt, batch => ((storage2.write attempt batch).zoom lens2).map (Prod.map id .inr)

def commitSide : Side storage1 storage2 →
    Future (State storage1 storage2) (Except (StreamingWriteError H) Unit)
  | .inl attempt => (storage1.commit attempt).zoom lens1
  | .inr attempt => (storage2.commit attempt).zoom lens2

def process (task : Secondary storage1 storage2) (batch : Bytes) :
    Future (State storage1 storage2) (Secondary storage1 storage2) :=
  if task.sawError then .ready task
  else
    (writeSide task.attempt batch).map fun result =>
      { attempt := result.2, sawError := !Sharding.isOk result.1 }

def progress : List Bytes → Secondary storage1 storage2 →
    Future (State storage1 storage2) (SecondaryWrite storage1 storage2)
  | [], task => .ready (task, [])
  | batch :: queue, task =>
    .either (.ready (task, batch :: queue)) ((process task batch).bind (progress queue))

def drain : List Bytes → Secondary storage1 storage2 →
    Future (State storage1 storage2) (Secondary storage1 storage2)
  | [], task => .ready task
  | batch :: queue, task => (process task batch).bind (drain queue)

def runSecondary (task : SecondaryWrite storage1 storage2) :
    Future (State storage1 storage2) Unit :=
  (drain task.2 task.1).bind fun task =>
    if task.sawError then .ready () else (commitSide task.attempt).map fun _ => ()

def write (attempt : Attempt storage1 storage2) (batch : Bytes) :
    Future (State storage1 storage2) (Except (StreamingWriteError H) Unit × Attempt storage1 storage2) :=
  match attempt.secondary with
  | none =>
    (writeSide attempt.primary batch).map fun result =>
      (result.1, { primary := result.2, secondary := none })
  | some (task, queue) =>
    ((writeSide attempt.primary batch).join (progress (queue ++ [batch]) task)).map fun results =>
      (results.1.1, { primary := results.1.2, secondary := some results.2 })

def commit (attempt : Attempt storage1 storage2) :
    Future (State storage1 storage2) (Except (StreamingWriteError H) Unit) :=
  (Future.act fun state : State storage1 storage2 =>
    ((), { state with pending := state.pending ++ attempt.secondary.toList })).bind fun _ =>
      commitSide attempt.primary

def runPending (index : Nat) : Future (State storage1 storage2) Unit :=
  (Future.act fun state : State storage1 storage2 =>
    (state.pending[index]?, { state with pending := state.pending.eraseIdx index })).bind fun
      | none => .ready ()
      | some task => runSecondary task

end DarkLaunch

def darkLaunch (storage2InstanceNames : List Text) (writeToSecondary : Bool)
    (storage1 storage2 : Driver H) : Driver H :=
  let chooseStorage (inst : Text) : DarkLaunch.StorageChoice :=
    if storage2InstanceNames.contains inst then .storage2 else .storage1
  let other (inst : Text) : DarkLaunch.StorageChoice :=
    if storage2InstanceNames.contains inst then .storage1 else .storage2
  { State := DarkLaunch.State storage1 storage2, Attempt := DarkLaunch.Attempt storage1 storage2
    Task := Nat ⊕ (storage1.Task ⊕ storage2.Task)
    init := { state1 := storage1.init, state2 := storage2.init, pending := [] }
    Visible := fun state inst digest content =>
      storage1.Visible state.state1 inst digest content ∨ storage2.Visible state.state2 inst digest content
    findMissingBlobs := fun inst digests =>
      match chooseStorage inst with
      | .storage1 => (storage1.findMissingBlobs inst digests).zoom DarkLaunch.lens1
      | .storage2 => (storage2.findMissingBlobs inst digests).zoom DarkLaunch.lens2
    readBlob := fun inst digest window =>
      match chooseStorage inst with
      | .storage1 => (storage1.readBlob inst digest window).zoom DarkLaunch.lens1
      | .storage2 => (storage2.readBlob inst digest window).zoom DarkLaunch.lens2
    beginWriteBlob := fun inst digest =>
      (DarkLaunch.beginSide inst digest (chooseStorage inst)).andThen fun primary =>
        if writeToSecondary then
          (DarkLaunch.beginSide inst digest (other inst)).andThen fun secondary =>
            .ready (.ok { primary := primary,
                          secondary := some ({ attempt := secondary, sawError := false }, []) })
        else
          .ready (.ok { primary := primary, secondary := none })
    write := DarkLaunch.write, commit := DarkLaunch.commit
    runTask := fun
      | .inl index => DarkLaunch.runPending index
      | .inr (.inl task) => (storage1.runTask task).zoom DarkLaunch.lens1
      | .inr (.inr task) => (storage2.runTask task).zoom DarkLaunch.lens2 }

/-! ## Verification of digests on writes -/

structure VerifierAttempt (H A : Type) where
  underlying : A
  hasher : Bytes
  expectedDigest : Digest H
  /-- A `usize`: the sum stays below 2^64 as long as fewer bytes than that are written. -/
  written : Nat

def writeDigestVerifier (sha256 : Bytes → H) (underlying : Driver H) : Driver H where
  State := underlying.State
  Attempt := VerifierAttempt H underlying.Attempt
  Task := underlying.Task
  init := underlying.init
  Visible := underlying.Visible
  findMissingBlobs := underlying.findMissingBlobs
  readBlob := underlying.readBlob
  beginWriteBlob inst digest :=
    (underlying.beginWriteBlob inst digest).map (Except.map fun attempt =>
      { underlying := attempt, hasher := [], expectedDigest := digest, written := 0 })
  write attempt batch :=
    (underlying.write attempt.underlying batch).map (Prod.map id fun underlying =>
      { attempt with
        underlying := underlying
        hasher := attempt.hasher ++ batch
        written := attempt.written + batch.length })
  commit attempt :=
    let expectedSize := attempt.expectedDigest.sizeBytes
    let computedDigest : Digest H := { hash := sha256 attempt.hasher, sizeBytes := expectedSize }
    if attempt.written ≠ expectedSize then
      .ready (.error (.storageError (.invalidSize expectedSize false)))
    else if computedDigest ≠ attempt.expectedDigest then
      .ready (.error (.storageError (.invalidHash attempt.expectedDigest computedDigest false)))
    else
      underlying.commit attempt.underlying
  runTask := underlying.runTask

end Toolchain.Storage
