import Toolchain.Storage.Combinators
import Toolchain.Storage.ResourceName

/-!
# Api — the services of the storage server that write blobs

The handlers of `ByteStream.Write`, `BatchUpdateBlobs` and `UpdateActionResult` are futures over the two
storages.  Each poll advances one request by a step, and a client that goes away drops its request.
-/

namespace Toolchain.Storage

open Lib

structure Codec (H : Type) where
  sha256 : Bytes → H
  parseHash : Text → Option H

structure ApiDigest where
  hash : Text
  sizeBytes : Int

variable {H : Type} (codec : Codec H)

def Digest.new (hash : Text) (sizeBytes : Nat) : Option (Digest H) :=
  (codec.parseHash hash).map fun hash => { hash := hash, sizeBytes := sizeBytes }

/-- The size of a message is a signed number, which is taken for an unsigned one. -/
def Digest.tryFrom (digest : ApiDigest) : Option (Digest H) :=
  Digest.new codec digest.hash (digest.sizeBytes % 2 ^ 64).toNat

def asI64 (size : Nat) : Int := Int.bmod size (2 ^ 64)

/-! ## Sizes and hashes of messages -/

def parseSha256Hash (text : Text) : Option Sha256Hash :=
  (hexDecode text).bind fun bytes => if h : bytes.length = 32 then some ⟨bytes, h⟩ else none

lemma hexDecode_of_parseSha256Hash {text : Text} {hash : Sha256Hash}
    (h : parseSha256Hash text = some hash) : hexDecode text = some hash.val := by
  obtain ⟨bytes, hbyt, hif⟩ := Option.bind_eq_some_iff.1 h
  split at hif
  · cases hif
    exact hbyt
  · cases hif

/-- An accepted digest has the size of its message, and one that can be allocated, exactly if the
size is not negative. -/
theorem digest_conversion_iff (sha256 : Bytes → Sha256Hash) (digest : ApiDigest)
    (hlow : -2 ^ 63 ≤ digest.sizeBytes) (hhigh : digest.sizeBytes < 2 ^ 63) :
    (∀ converted, Digest.tryFrom ⟨sha256, parseSha256Hash⟩ digest = some converted →
    (converted.sizeBytes : Int) = digest.sizeBytes ∧
    hexDecode digest.hash = some converted.hash.val ∧ converted.sizeBytes ≤ 2 ^ 63 - 1) ↔
    parseSha256Hash digest.hash = none ∨ 0 ≤ digest.sizeBytes := by
  have hcon : Digest.tryFrom ⟨sha256, parseSha256Hash⟩ digest = (parseSha256Hash digest.hash).map
    fun hash =>
        { hash := hash, sizeBytes := (digest.sizeBytes % 2 ^ 64).toNat } := rfl
  rw [hcon]
  cases hhas : parseSha256Hash digest.hash with
  | none => simp
  | some hash =>
    constructor
    · intro h
      obtain ⟨hsiz, -, -⟩ := h _ rfl
      exact .inr (hsiz ▸ Int.natCast_nonneg _)
    · rintro (hnon | hpos)
      · cases hnon
      rintro _ ⟨⟩
      have hmod := Int.emod_eq_of_lt hpos (by omega)
      refine ⟨?_, hexDecode_of_parseSha256Hash hhas, ?_⟩
      · simp only
        omega
      · simp only
        omega

theorem digest_conversion_of_one_byte :
    ((1 : Nat) : Int) = 1 ∧ hexDecode (List.replicate 64 '0') = some zeroHash.val ∧ 1 ≤ 2 ^ 63 - 1 :=
  (digest_conversion_iff (fun _ => zeroHash) { hash := List.replicate 64 '0', sizeBytes := 1 } (by decide)
    (by decide)).2 (.inr (by decide)) { hash := zeroHash, sizeBytes := 1 } rfl

theorem digest_conversion_of_negative :
    (Digest.tryFrom ⟨fun _ => zeroHash, parseSha256Hash⟩
    { hash := List.replicate 64 '0', sizeBytes := -1 }).map Digest.sizeBytes = some (2 ^ 64 - 1) := by
  decide +kernel

/-! ## ByteStream.Write -/

structure WriteRequest where
  resourceName : Text
  writeOffset : Int
  finishWrite : Bool
  data : Bytes

inductive WriteStatus (H : Type)
  | client (status : Text)
  | clientDisconnected
  | resourceName (failure : ParseFailure)
  | digest
  | storage (error : StorageError H)

section Write

variable (driver : Driver H)

def finishWrite (digest : Digest H) (committedSize : Int) (attempt : driver.Attempt) :
    Future driver.State (Except (StreamingWriteError H) Int) :=
  if committedSize ≠ asI64 digest.sizeBytes then
    .ready (.error (.storageError (.invalidArgument "committed size does not match digest size".toList)))
  else
    (driver.commit attempt).andThen fun _ => .ready (.ok committedSize)

def writeMessages (digest : Digest H) : List (Except Text WriteRequest) → Int → driver.Attempt →
    Future driver.State (Except (StreamingWriteError H) Int)
  | [], _, _ =>
    .ready (.error (.storageError (.cancelled "write stream closed without specifying finish_write".toList)))
  | .error status :: _, _, _ =>
    .ready (.error (.storageError (.cancelled ("client stream error: ".toList ++ status))))
  | .ok message :: messages, committedSize, attempt =>
    let next (attempt : driver.Attempt) :=
      -- the sum is an `i64`, which wraps
      let committedSize := Int.bmod (committedSize + message.data.length) (2 ^ 64)
      if message.finishWrite then finishWrite driver digest committedSize attempt
      else writeMessages digest messages committedSize attempt
    if message.writeOffset ≠ committedSize then
      .ready (.error (.storageError (.outOfRange "write_offset (vs committed_size)".toList
          (message.writeOffset % 2 ^ 64).toNat)))
    else if message.data.isEmpty then next attempt
    else driver.writeThen attempt message.data next

def byteStreamWrite (messages : List (Except Text WriteRequest)) :
    Future driver.State (Except (WriteStatus H) Int) :=
  match messages with
  | [] => .ready (.error .clientDisconnected)
  | .error status :: _ => .ready (.error (.client status))
  | .ok message :: rest =>
    match parseWriteResourceName message.resourceName with
    | .error failure => .ready (.error (.resourceName failure))
    | .ok parsed =>
      match Digest.new codec parsed.hash parsed.size with
      | none => .ready (.error .digest)
      | some digest =>
        ((driver.beginWriteBlob parsed.instanceName digest).andThen fun attempt =>
          writeMessages driver digest (.ok message :: rest) 0 attempt).map fun
            | .ok committedSize => .ok committedSize
            | .error .alreadyExists => .ok (asI64 digest.sizeBytes)
            | .error (.storageError error) => .error (.storage error)

/-! ## BatchUpdateBlobs -/

inductive UpdateStatus (H : Type)
  | ok | missingDigest | invalidDigest
  | internal (error : StorageError H)

def updateBlob (inst : Text) (apiDigest : Option ApiDigest) (data : Bytes) :
    Future driver.State (UpdateStatus H) :=
  match apiDigest with
  | none => .ready .missingDigest
  | some apiDigest =>
    match Digest.tryFrom codec apiDigest with
    | none => .ready .invalidDigest
    | some digest =>
      (driver.writeBlob inst digest data).map fun result =>
        match StreamingWriteError.orOk result with
        | .ok () => .ok
        | .error error => .internal error

def batchUpdateBlobs (inst : Text) (requests : List (Option ApiDigest × Bytes)) :
    Future driver.State (List (UpdateStatus H)) :=
  Future.joinAll (requests.map fun request => updateBlob codec driver inst request.1 request.2)

end Write

/-! ## UpdateActionResult -/

structure ActionResult (H : Type) where
  stdoutRaw : Bytes
  stdoutDigest : Option (Digest H)
  stderrRaw : Bytes
  stderrDigest : Option (Digest H)

inductive UpdateActionStatus (H : Type)
  | missingActionDigest | invalidActionDigest | missingActionResult
  | internal (error : StorageError H)

section UpdateActionResult

variable (encode : ActionResult H → Bytes) (cas actionCache : Driver H)

def writeTo {driver : Driver H} (lens : Lens (cas.State × actionCache.State) driver.State)
    (inst : Text) (digest : Digest H) (data : Bytes) :
    Future (cas.State × actionCache.State) (Except (StorageError H) Unit) :=
  ((driver.writeBlob inst digest data).map StreamingWriteError.orOk).zoom lens

def inlineOutput (raw : Bytes) (digest : Option (Digest H)) :
    Option (Digest H) × List (Digest H × Bytes) :=
  if raw.isEmpty then (digest, [])
  else
    let rawDigest := Digest.ofBytes codec.sha256 raw
    (some rawDigest, [(rawDigest, raw)])

/-- Writes blobs to the CAS and one to the action cache, all at once; the first failure drops the
other writes. -/
def writeAll (inst : Text) (writes : List (Digest H × Bytes)) (actionDigest : Digest H)
    (encoded : Bytes) : Future (cas.State × actionCache.State) (Except (StorageError H) (List Unit)) :=
  Future.tryJoinAll ((writes.map fun write => writeTo cas actionCache Lens.fst inst write.1 write.2) ++
      [writeTo cas actionCache Lens.snd inst actionDigest encoded])

/-- Inline output goes to the CAS, and the result with the digests in its place to the action
cache. -/
def updateActionResult (inst : Text) (actionDigest : Option ApiDigest)
    (actionResult : Option (ActionResult H)) :
    Future (cas.State × actionCache.State) (Except (UpdateActionStatus H) (ActionResult H)) :=
  match actionDigest with
  | none => .ready (.error .missingActionDigest)
  | some actionDigest =>
    match Digest.tryFrom codec actionDigest, actionResult with
    | none, _ => .ready (.error .invalidActionDigest)
    | _, none => .ready (.error .missingActionResult)
    | some actionDigest, some actionResult =>
      let stdout := inlineOutput codec actionResult.stdoutRaw actionResult.stdoutDigest
      let stderr := inlineOutput codec actionResult.stderrRaw actionResult.stderrDigest
      let stored : ActionResult H :=
        { stdoutRaw := [], stdoutDigest := stdout.1, stderrRaw := [], stderrDigest := stderr.1 }
      (writeAll cas actionCache inst (stdout.2 ++ stderr.2) actionDigest (encode stored)).map fun
        | .ok _ => .ok stored
        | .error error => .error (.internal error)

end UpdateActionResult

/-! ## The server -/

inductive Request (H : Type)
  | write (messages : List (Except Text WriteRequest))
  | batchUpdateBlobs (inst : Text) (requests : List (Option ApiDigest × Bytes))
  | findMissingBlobs (inst : Text) (digests : List ApiDigest)
  | readBlob (inst : Text) (digest : ApiDigest) (window : Window)
  | updateActionResult (inst : Text) (actionDigest : Option ApiDigest)
    (actionResult : Option (ActionResult H))

structure StorageServer (cas actionCache : Driver H) where
  state : cas.State × actionCache.State
  running : List (Future (cas.State × actionCache.State) Unit)

inductive ServerEvent (cas actionCache : Driver H)
  | request (request : Request H)
  | background (task : cas.Task ⊕ actionCache.Task)
  | poll (index : Nat) (choice : Bool)
  | drop (index : Nat)

namespace StorageServer

variable (cas actionCache : Driver H) (encode : ActionResult H → Bytes)

def handle : Request H → Future (cas.State × actionCache.State) Unit
  | .write messages => ((byteStreamWrite codec cas messages).zoom Lens.fst).map fun _ => ()
  | .batchUpdateBlobs inst requests =>
    ((Storage.batchUpdateBlobs codec cas inst requests).zoom Lens.fst).map fun _ => ()
  | .findMissingBlobs inst digests =>
    match digests.mapM (Digest.tryFrom codec) with
    | none => .ready ()
    | some digests => ((cas.findMissingBlobs inst digests).zoom Lens.fst).map fun _ => ()
  | .readBlob inst digest window =>
    match Digest.tryFrom codec digest with
    | none => .ready ()
    | some digest => ((cas.readBlob inst digest window).zoom Lens.fst).map fun _ => ()
  | .updateActionResult inst actionDigest actionResult =>
    (Storage.updateActionResult codec encode cas actionCache inst actionDigest actionResult).map
      fun _ => ()

def init : StorageServer cas actionCache where
  state := (cas.init, actionCache.init)
  running := []

def step (server : StorageServer cas actionCache) :
    ServerEvent cas actionCache → StorageServer cas actionCache
  | .request request =>
    { server with running := server.running ++ [handle codec cas actionCache encode request] }
  | .background (.inl task) =>
    { server with running := server.running ++ [(cas.runTask task).zoom Lens.fst] }
  | .background (.inr task) =>
    { server with running := server.running ++ [(actionCache.runTask task).zoom Lens.snd] }
  | .poll index choice =>
    match server.running[index]? with
    | none => server
    | some future =>
      let polled := future.poll choice server.state
      { state := polled.2, running := server.running.set index polled.1 }
  | .drop index => { server with running := server.running.eraseIdx index }

end StorageServer

end Toolchain.Storage
