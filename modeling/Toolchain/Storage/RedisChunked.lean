import Toolchain.Lib.Fields
import Toolchain.Lib.Utf8
import Toolchain.Storage.Driver

/-!
# RedisChunked — blobs in the chunks of an upload

An upload gets a UUID; its chunks are stored under keys with the UUID, then their number, and last the
index entry of the digest is pointed to it.  Readers fetch all this with one command each, while the
index changes and Redis evicts.  No two uploads share a key, as UUIDs and hashes have no colon.

Models `driver/redis/chunked.rs` with the retries of `common.rs` there.  The encodings are parameters
with their laws.
-/

namespace Toolchain.Storage

open Lib List

/-! ## Redis -/

structure RedisError where
  message : Text
  (isIoError isClusterError isConnectionRefusal isConnectionDropped isTimeout : Bool)

def RedisError.toStorageError {H : Type} (error : RedisError) : StorageError H :=
  let message := "Redis error: ".toList ++ error.message
  if error.isIoError || error.isClusterError || error.isConnectionRefusal ||
      error.isConnectionDropped || error.isTimeout then
    .unavailable message
  else
    .internal message

abbrev RedisStore := Text → Option Bytes

def RedisStore.set (store : RedisStore) (key : Text) (value : Bytes) : RedisStore :=
  fun other => if other = key then some value else store other

def RedisStore.evict (store : RedisStore) (key : Text) : RedisStore :=
  fun other => if other = key then none else store other

/-- A storage, with the formats it relies on.  The `n`-th upload has the UUID `uuid n`. -/
structure RedisStorage (H : Type) where
  keyPrefix : Text
  uuid : Nat → Text
  uuid_injective : Function.Injective uuid
  colon_not_mem_uuid : ∀ n, ':' ∉ uuid n
  encodeUuid : Text → Bytes
  decodeUuid : Bytes → Except RedisError Text
  decode_encodeUuid : ∀ n, decodeUuid (encodeUuid (uuid n)) = .ok (uuid n)
  hex : H → Text
  hex_injective : Function.Injective hex
  colon_not_mem_hex : ∀ hash, ':' ∉ hex hash
  encodeMetadata : Nat → Bytes
  decodeMetadata : Bytes → Option Nat
  decode_encodeMetadata : ∀ numChunks, decodeMetadata (encodeMetadata numChunks) = some numChunks

/-- How far an attempt is: commit has to write the metadata, or the index, or did both. -/
inductive UploadStage
  | writing | committing | publishing | published
deriving DecidableEq

structure RedisWriteAttempt (H : Type) where
  (inst uuid : Text)
  digest : Digest H
  chunks : List Bytes
  stage : UploadStage

structure RedisState (H : Type) where
  store : RedisStore
  replies : Nat
  attempts : List (RedisWriteAttempt H)

variable {H : Type}

variable {inst inst' uuid uuid' : Text}

namespace RedisStorage

variable (storage stor : RedisStorage H)

def dataMapKeyBase (inst uuid : Text) : Text :=
  storage.keyPrefix ++ inst ++ ":data-".toList ++ uuid

def chunkKey (inst uuid : Text) (chunkNum : Nat) : Text :=
  storage.dataMapKeyBase inst uuid ++ '-' :: decimal chunkNum

def metadataKey (inst uuid : Text) : Text :=
  storage.dataMapKeyBase inst uuid ++ '-' :: "meta".toList

def indexMapKey (inst : Text) (digest : Digest H) : Text :=
  storage.keyPrefix ++ inst ++ ":index-sha256-".toList ++ storage.hex digest.hash ++ '-' :: decimal digest.sizeBytes

lemma dataKey_inj {part part' : Text} (huui : ':' ∉ uuid)
    (huuid' : ':' ∉ uuid') (hpar : ':' ∉ part ∧ '-' ∉ part) (hpart' : ':' ∉ part' ∧ '-' ∉ part')
    (h : stor.dataMapKeyBase inst uuid ++ '-' :: part = stor.dataMapKeyBase inst' uuid' ++ '-' :: part') :
    inst = inst' ∧ uuid = uuid' ∧ part = part' := by
  -- the last colon ends the instance, and the last dash the UUID
  have hcol : (stor.keyPrefix ++ inst) ++ ':' :: ("data-".toList ++ (uuid ++ '-' :: part)) =
      (stor.keyPrefix ++ inst') ++ ':' :: ("data-".toList ++ (uuid' ++ '-' :: part')) := by
    simpa [dataMapKeyBase] using h
  have hlas : ∀ {uuid part : Text}, ':' ∉ uuid → ':' ∉ part → ':' ∉ "data-".toList ++ (uuid ++ '-' :: part) := by
    intro uuid part huui hpar
    simp [huui, hpar]
  obtain ⟨hins, hdat⟩ := eq_and_eq_of_append_sep (hlas huui hpar.1) (hlas huuid' hpart'.1) hcol
  exact ⟨append_cancel_left hins, eq_and_eq_of_append_sep hpar.2 hpart'.2 (append_cancel_left hdat)⟩

lemma decimal_no_sep (number : Nat) : ':' ∉ decimal number ∧ '-' ∉ decimal number :=
  ⟨not_mem_decimal (by decide) number, not_mem_decimal (by decide) number⟩

lemma chunkKey_inj {n n' : Nat} (huui : ':' ∉ uuid)
    (huuid' : ':' ∉ uuid') (h : stor.chunkKey inst uuid n = stor.chunkKey inst' uuid' n') :
    uuid = uuid' ∧ n = n' := by
  obtain ⟨-, hsam, hnum⟩ := stor.dataKey_inj huui huuid' (decimal_no_sep n) (decimal_no_sep n') h
  exact ⟨hsam, decimal_injective hnum⟩

lemma chunkKey_ne_metadataKey {n : Nat} (huui : ':' ∉ uuid)
    (huuid' : ':' ∉ uuid') : stor.chunkKey inst uuid n ≠ stor.metadataKey inst' uuid' := by
  intro h
  have hpar := (stor.dataKey_inj huui huuid' (decimal_no_sep n) (by decide) h).2.2
  have hmem : 'm' ∈ decimal n := by
    rw [hpar]
    decide
  exact not_mem_decimal (by decide) n hmem

lemma colon_not_mem_index (dig : Digest H) :
    ':' ∉ "index-sha256-".toList ++ (stor.hex dig.hash ++ '-' :: decimal dig.sizeBytes) := by
  simp [stor.colon_not_mem_hex dig.hash, (decimal_no_sep dig.sizeBytes).1]

lemma indexKey_inj {dig digest' : Digest H}
    (h : stor.indexMapKey inst dig = stor.indexMapKey inst' digest') :
    inst = inst' ∧ dig = digest' := by
  have hcol : (stor.keyPrefix ++ inst) ++ ':' :: ("index-sha256-".toList ++
      (stor.hex dig.hash ++ '-' :: decimal dig.sizeBytes)) =
      (stor.keyPrefix ++ inst') ++ ':' :: ("index-sha256-".toList ++
      (stor.hex digest'.hash ++ '-' :: decimal digest'.sizeBytes)) := by
    simpa [indexMapKey] using h
  obtain ⟨hins, hres⟩ := eq_and_eq_of_append_sep (stor.colon_not_mem_index dig)
    (stor.colon_not_mem_index digest') hcol
  obtain ⟨hhas, hsiz⟩ := eq_and_eq_of_append_sep (decimal_no_sep dig.sizeBytes).2
    (decimal_no_sep digest'.sizeBytes).2 (append_cancel_left hres)
  refine ⟨append_cancel_left hins, ?_⟩
  cases dig
  cases digest'
  simp only [Digest.mk.injEq]
  exact ⟨stor.hex_injective hhas, decimal_injective hsiz⟩

lemma dataKey_ne_indexKey {part : Text} {digest : Digest H} (huui : ':' ∉ uuid) (hpar : ':' ∉ part) :
    stor.dataMapKeyBase inst uuid ++ '-' :: part ≠ stor.indexMapKey inst' digest := by
  intro h
  have hcol : (stor.keyPrefix ++ inst) ++ ':' :: ("data-".toList ++ (uuid ++ '-' :: part)) =
      (stor.keyPrefix ++ inst') ++ ':' :: ("index-sha256-".toList ++
      (stor.hex digest.hash ++ '-' :: decimal digest.sizeBytes)) := by
    simpa [dataMapKeyBase, indexMapKey] using h
  have hdat : ':' ∉ "data-".toList ++ (uuid ++ '-' :: part) := by simp [huui, hpar]
  have hres := (eq_and_eq_of_append_sep hdat (stor.colon_not_mem_index digest) hcol).2
  simp at hres

end RedisStorage

/-! ## All keys -/

inductive RedisKey (H : Type)
  | index (inst : Text) (digest : Digest H)
  | chunk (inst : Text) (uuid : Uuid) (chunkNum : Nat)
  | metadata (inst : Text) (uuid : Uuid)

def RedisKey.text (storage : RedisStorage H) : RedisKey H → Text
  | .index inst digest => storage.indexMapKey inst digest
  | .chunk inst uuid chunkNum => storage.chunkKey inst uuid.text chunkNum
  | .metadata inst uuid => storage.metadataKey inst uuid.text

open RedisStorage

lemma RedisKey.text_injective (storage : RedisStorage H) : Function.Injective (RedisKey.text storage) := by
  have hcol := Uuid.colon_not_mem
  intro key key' h
  cases key with
  | index inst digest =>
    cases key' with
    | index inst' digest' =>
      obtain ⟨rfl, rfl⟩ := storage.indexKey_inj h
      rfl
    | chunk inst' uuid num =>
      exact absurd h.symm (storage.dataKey_ne_indexKey (hcol uuid) (decimal_no_sep num).1)
    | metadata inst' uuid => exact absurd h.symm (storage.dataKey_ne_indexKey (hcol uuid) (by decide))
  | chunk inst uuid num =>
    have hnum := decimal_no_sep num
    cases key' with
    | index inst' digest' => exact absurd h (storage.dataKey_ne_indexKey (hcol uuid) hnum.1)
    | chunk inst' uuid' chunkNum' =>
      obtain ⟨rfl, huui, hpar⟩ :=
        storage.dataKey_inj (hcol uuid) (hcol uuid') hnum (decimal_no_sep chunkNum') h
      rw [Uuid.ext huui, decimal_injective hpar]
    | metadata inst' uuid' => exact absurd h (storage.chunkKey_ne_metadataKey (hcol uuid) (hcol uuid'))
  | metadata inst uuid =>
    cases key' with
    | index inst' digest' => exact absurd h (storage.dataKey_ne_indexKey (hcol uuid) (by decide))
    | chunk inst' uuid' chunkNum' =>
      exact absurd h.symm (storage.chunkKey_ne_metadataKey (hcol uuid') (hcol uuid))
    | metadata inst' uuid' =>
      obtain ⟨rfl, huui, -⟩ := storage.dataKey_inj (hcol uuid) (hcol uuid') (by decide) (by decide) h
      rw [Uuid.ext huui]

/-- `RedisDirectStorage`: a key has no separator that is not found in instance names, but the hash
has a fixed width. -/
structure RedisDirectStorage (H : Type) where
  keyPrefix : Text
  hex : H → Text
  hex_injective : Function.Injective hex
  length_hex : ∀ hash, (hex hash).length = 64

def RedisDirectStorage.keyForDigest (storage : RedisDirectStorage H) (inst : Text) (digest : Digest H) :
    Text :=
  storage.keyPrefix ++ inst ++ '-' :: storage.hex digest.hash ++ '-' :: decimal digest.sizeBytes

lemma RedisDirectStorage.keyForDigest_injective (stor : RedisDirectStorage H) :
    Function.Injective2 stor.keyForDigest := by
  rintro inst inst' ⟨hash, size⟩ ⟨hash', size'⟩ h
  -- the size follows the last dash, and the hash has the same length in both keys
  obtain ⟨hfro, hsiz⟩ := eq_and_eq_of_append_sep (decimal_no_sep size).2 (decimal_no_sep size').2 h
  obtain ⟨hins, hhex⟩ := append_inj' hfro (by simp [stor.length_hex])
  obtain rfl := stor.hex_injective (cons.inj hhex).2
  obtain rfl := decimal_injective hsiz
  exact ⟨append_cancel_left hins, rfl⟩

theorem redis_keys_never_collide (chunked : RedisStorage H) (direct : RedisDirectStorage H) :
    Function.Injective (RedisKey.text chunked) ∧ Function.Injective2 direct.keyForDigest :=
  ⟨RedisKey.text_injective chunked, direct.keyForDigest_injective⟩

/-! ### SHA-256 hashes and UUIDs -/

/-- Groups of digits with dashes between them. -/
def hyphenate : List Nat → Text → Text
  | [], digits => digits
  | group :: groups, digits => digits.take group ++ '-' :: hyphenate groups (digits.drop group)

/-- The UUID of a number; it has 36 characters below `10 ^ 32`. -/
def numberedUuid (number : Nat) : Text :=
  hyphenate [8, 4, 4, 4] ((decimal number).leftpad 32 '0')

lemma filter_hyphenate {digits : Text} (hdash : '-' ∉ digits) (groups : List Nat) :
    (hyphenate groups digits).filter (· ≠ '-') = digits := by
  induction groups generalizing digits with
  | nil => simpa [hyphenate] using fun c hc => ne_of_mem_of_not_mem hc hdash
  | cons group groups ih =>
    have htake : (digits.take group).filter (· ≠ '-') = digits.take group := by
      simpa using fun c hc => ne_of_mem_of_not_mem (mem_of_mem_take hc) hdash
    rw [hyphenate, filter_append, htake, filter_cons_of_neg (by simp),
      ih fun h => hdash (mem_of_mem_drop h), take_append_drop]

lemma mem_hyphenate {c : Char} {groups : List Nat} {digits : Text} (h : c ∈ hyphenate groups digits) :
    c = '-' ∨ c ∈ digits := by
  induction groups generalizing digits with
  | nil => exact .inr h
  | cons group groups ih =>
    simp only [hyphenate, mem_append, mem_cons] at h
    rcases h with h | h | h
    · exact .inr (mem_of_mem_take h)
    · exact .inl h
    · exact (ih h).imp_right mem_of_mem_drop

lemma not_mem_leftpad {c : Char} (hc : c.isDigit = false) (number : Nat) :
    c ∉ (decimal number).leftpad 32 '0' := by
  simp only [leftpad, mem_append, mem_replicate, not_or, not_and]
  refine ⟨?_, not_mem_decimal hc number⟩
  rintro - rfl
  cases hc

lemma leftpad_decimal_injective : Function.Injective fun number => (decimal number).leftpad 32 '0' := by
  have hvalue (number : Nat) :
      Nat.ofDigitChars 10 ((decimal number).leftpad 32 '0') 0 = number := by
    have hzero (n : Nat) : Nat.ofDigitChars 10 (replicate n '0') 0 = 0 := by
      induction n with
      | zero => rfl
      | succ n ih => simp [replicate_succ, Nat.ofDigitChars_cons, ih]
    rw [leftpad, Nat.ofDigitChars_append, hzero, decimal_eq_toDigits, Nat.ofDigitChars_toDigits]
    all_goals decide
  intro number other h
  rw [← hvalue number, ← hvalue other]
  exact congrArg (Nat.ofDigitChars 10 · 0) h

/-- A number in groups of seven bits, the lowest first; all bytes but the last are marked. -/
def varint : Nat → Nat → Bytes
  | 0, _ => [0]
  | fuel + 1, number =>
    if number < 128 then [.ofNat number] else .ofNat (number % 128 + 128) :: varint fuel (number / 128)

def readVarint : Bytes → Option Nat
  | [] => none
  | byte :: rest =>
    if byte.toNat < 128 then (if rest = [] then some byte.toNat else none)
    else (readVarint rest).map fun number => byte.toNat - 128 + 128 * number

lemma readVarint_varint {fuel number : Nat} (h : number ≤ fuel) :
    readVarint (varint fuel number) = some number := by
  induction fuel generalizing number with
  | zero =>
    obtain rfl := Nat.le_zero.1 h
    rfl
  | succ fuel ih =>
    unfold varint
    split
    · rename_i hsmall
      have hbyte : number % 256 = number := Nat.mod_eq_of_lt (by omega)
      simp [readVarint, hbyte, hsmall]
    · have hbyte : (number % 128 + 128) % 256 = number % 128 + 128 := Nat.mod_eq_of_lt (by omega)
      have hrest := @ih (number / 128) (by omega)
      simp [readVarint, hbyte, hrest, Nat.mod_add_div]

/-- The number of chunks is field 1 of a message, which is left out if it is zero. -/
def readMetadata : Bytes → Option Nat
  | [] => some 0
  | 8 :: rest => readVarint rest
  | _ => none

/-- Hashes of 32 bytes, with the UUID of an upload stored as its text. -/
def sha256Storage : RedisStorage Sha256Hash where
  keyPrefix := "cas-".toList
  uuid := numberedUuid
  uuid_injective number other h := leftpad_decimal_injective (by
    have hdigits := congrArg (filter (· ≠ '-')) h
    rwa [numberedUuid, numberedUuid, filter_hyphenate (not_mem_leftpad (by decide) _),
      filter_hyphenate (not_mem_leftpad (by decide) _)] at hdigits)
  colon_not_mem_uuid number h := (mem_hyphenate h).elim (by decide) (not_mem_leftpad (by decide) number)
  encodeUuid := encode
  decodeUuid value :=
    match decode value with
    | some uuid => .ok uuid
    | none => .error ⟨"Invalid UTF-8".toList, false, false, false, false, false⟩
  decode_encodeUuid := by simp
  hex hash := hexEncode hash.val
  hex_injective _ _ h := Subtype.ext (hexEncode_injective h)
  colon_not_mem_hex hash := not_mem_hexEncode (by decide) hash.val
  encodeMetadata numChunks := if numChunks = 0 then [] else 8 :: varint numChunks numChunks
  decodeMetadata := readMetadata
  decode_encodeMetadata numChunks := by
    by_cases hzero : numChunks = 0
    · rw [if_pos hzero, hzero]
      rfl
    · rw [if_neg hzero]
      exact readVarint_varint le_rfl

def sha256Direct : RedisDirectStorage Sha256Hash where
  keyPrefix := "ac-".toList
  hex hash := hexEncode hash.val
  hex_injective _ _ h := Subtype.ext (hexEncode_injective h)
  length_hex hash := by rw [length_hexEncode, hash.property]

/-- The metadata of an upload in one instance, and the index in an instance whose name contains the
rest of the key. -/
theorem redis_keys_never_collide_sha256 :
    RedisKey.text sha256Storage (.metadata "main".toList .nil) =
      "cas-main:data-00000000-0000-0000-0000-000000000000-meta".toList ∧
    RedisKey.text sha256Storage (.metadata "main".toList .nil) ≠
      RedisKey.text sha256Storage (.chunk "main:data-".toList .nil 0) ∧
    sha256Direct.keyForDigest "a".toList ⟨zeroHash, 1⟩ ≠
      sha256Direct.keyForDigest ("a-".toList ++ hexEncode zeroHash.val) ⟨zeroHash, 1⟩ := by
  obtain ⟨hchunked, hdirect⟩ := redis_keys_never_collide sha256Storage sha256Direct
  refine ⟨by decide, fun h => ?_, fun h => absurd (hdirect h).1 (by decide)⟩
  cases hchunked h

namespace RedisStorage

variable (storage : RedisStorage H) (faults : Nat → Option RedisError)

def reply {α : Type} (result : Except RedisError α) :
    Future (RedisState H) (Except RedisError α) :=
  Future.act fun s => ((faults s.replies).elim result .error, { s with replies := s.replies + 1 })

def getRedisConnection : Future (RedisState H) (Except (StorageError H) Unit) :=
  (reply faults (.ok ())).map (Except.mapError RedisError.toStorageError)

def getBytes (key : Text) : Future (RedisState H) (Except RedisError (Option Bytes)) :=
  Future.act fun s => (.ok (s.store key), s)

def getUuid (key : Text) : Future (RedisState H) (Except RedisError (Option Text)) :=
  Future.act fun s =>
    (match s.store key with
      | none => .ok none
      | some value => (storage.decodeUuid value).map some, s)

def existAll : List Text → Future (RedisState H) (Except RedisError (List Bool))
  | [] => .ready (.ok [])
  | key :: keys =>
    (Future.act fun s => ((s.store key).isSome, s)).bind fun found =>
      (existAll keys).map (Except.map (found :: ·))

def sendOneQuery {α : Type} (command : Future (RedisState H) (Except RedisError α)) :
    Future (RedisState H) (Except RedisError α) :=
  command.bind (reply faults)

/-- `redis_query` and `redis_pipeline`: a command is sent again once if the connection was dropped
or refused. -/
def redisQuery {α : Type} (command : Future (RedisState H) (Except RedisError α)) :
    Future (RedisState H) (Except (StorageError H) α) :=
  (sendOneQuery faults command).bind fun
    | .ok result => .ready (.ok result)
    | .error error =>
      if error.isConnectionDropped || error.isConnectionRefusal then
        (sendOneQuery faults command).map (Except.mapError RedisError.toStorageError)
      else
        .ready (.error error.toStorageError)

def checkDigestDoesNotExist (inst : Text) (digest : Digest H) :
    Future (RedisState H) (Except (StorageError H) (Option (Digest H))) :=
  (getRedisConnection faults).andThen fun _ =>
    (redisQuery faults (storage.getUuid (storage.indexMapKey inst digest))).andThen fun
      | none => .ready (.ok (some digest))
      | some uuid =>
        (redisQuery faults (getBytes (storage.metadataKey inst uuid))).andThen fun
          | none => .ready (.ok (some digest))
          | some data =>
            match storage.decodeMetadata data with
            | none => .ready (.error (.internal "Corrupt metadata chunk".toList))
            | some numChunks =>
              (redisQuery faults (existAll ((List.range numChunks).map (storage.chunkKey inst uuid)))).andThen fun
                  results => .ready (.ok (if results.any not then some digest else none))

def fetchChunk (key : Text) : Future (RedisState H) (Except (StorageError H) Bytes) :=
  (getRedisConnection faults).andThen fun _ =>
    (redisQuery faults (getBytes key)).andThen fun
      | some data => .ready (.ok data)
      | none => .ready (.error (.internal ("Missing data block: ".toList ++ key)))

def readChunks (inst uuid : Text) : Nat → Nat → Future (RedisState H) (ReadStream H)
  | 0, _ => .ready ⟨[], none⟩
  | remaining + 1, chunkNum =>
    (fetchChunk faults (storage.chunkKey inst uuid chunkNum)).bind fun
      | .ok chunk =>
        (readChunks inst uuid remaining (chunkNum + 1)).map fun stream =>
          { stream with chunks := chunk :: stream.chunks }
      | .error error => .ready { chunks := [], failure := some error }

/-- The batch size, the offset and the limit of a read are ignored. -/
def readBlob (inst : Text) (digest : Digest H) :
    Future (RedisState H) (Except (StorageError H) (Option (ReadStream H))) :=
  (storage.checkDigestDoesNotExist faults inst digest).andThen fun
    | some _ => .ready (.ok none)
    | none =>
      (getRedisConnection faults).andThen fun _ =>
        (redisQuery faults (storage.getUuid (storage.indexMapKey inst digest))).andThen fun
          | none => .ready (.ok none)
          | some uuid =>
            (redisQuery faults (getBytes (storage.metadataKey inst uuid))).andThen fun
              | none => .ready (.ok none)
              | some data =>
                match storage.decodeMetadata data with
                | none => .ready (.error (.internal "Corrupt metadata chunk".toList))
                | some numChunks =>
                  (storage.readChunks faults inst uuid numChunks 0).map fun stream => .ok (some stream)

end RedisStorage

/-! ## Writing -/

/-- What becomes of a SET command.  It may have been executed although there is no reply. -/
inductive SetOutcome
  | ok | lost | failed
deriving DecidableEq

def SetOutcome.executed : SetOutcome → Bool
  | .ok => true
  | .lost => true
  | .failed => false

def RedisState.send (s : RedisState H) (index : Nat) (outcome : SetOutcome) (key : Text)
    (value : Bytes) (attempt : RedisWriteAttempt H) : RedisState H :=
  { s with
    store := if outcome.executed then s.store.set key value else s.store
    attempts := s.attempts.set index attempt }

namespace RedisStorage

variable (storage : RedisStorage H)

def beginWriteBlob (inst : Text) (digest : Digest H) (s : RedisState H) : RedisState H :=
  let attempt : RedisWriteAttempt H :=
    { inst := inst, uuid := storage.uuid s.attempts.length, digest := digest, chunks := [],
      stage := .writing }
  { s with attempts := s.attempts ++ [attempt] }

/-- A chunk that was not acknowledged is not counted.  After commit there are no more writes, since
commit takes the attempt. -/
def write (index : Nat) (data : Bytes) (outcome : SetOutcome) (s : RedisState H) : RedisState H :=
  match s.attempts[index]? with
  | none => s
  | some attempt =>
    match attempt.stage with
    | .writing =>
      s.send index outcome (storage.chunkKey attempt.inst attempt.uuid attempt.chunks.length) data
        (if outcome = .ok then { attempt with chunks := attempt.chunks ++ [data] } else attempt)
    | _ => s

def commitMetadata (index : Nat) (outcome : SetOutcome) (s : RedisState H) : RedisState H :=
  match s.attempts[index]? with
  | none => s
  | some attempt =>
    match attempt.stage with
    | .writing | .committing =>
      s.send index outcome (storage.metadataKey attempt.inst attempt.uuid)
        (storage.encodeMetadata attempt.chunks.length)
        { attempt with stage := if outcome = .ok then .publishing else .committing }
    | _ => s

def commitIndex (index : Nat) (outcome : SetOutcome) (s : RedisState H) : RedisState H :=
  match s.attempts[index]? with
  | none => s
  | some attempt =>
    match attempt.stage with
    | .publishing | .published =>
      s.send index outcome (storage.indexMapKey attempt.inst attempt.digest)
        (storage.encodeUuid attempt.uuid)
        { attempt with stage := if outcome.executed then .published else attempt.stage }
    | _ => s

end RedisStorage

structure RedisSystem (H : Type) where
  state : RedisState H
  readers : List ((Text × Digest H) × Future (RedisState H)
    (Except (StorageError H) (Option (ReadStream H))))

inductive RedisEvent (H : Type)
  | beginWriteBlob (inst : Text) (digest : Digest H)
  | write (index : Nat) (data : Bytes) (outcome : SetOutcome)
  | commitMetadata (index : Nat) (outcome : SetOutcome)
  | commitIndex (index : Nat) (outcome : SetOutcome)
  | evict (key : Text)
  | readBlob (inst : Text) (digest : Digest H)
  | poll (reader : Nat) (choice : Bool)

namespace RedisSystem

def init : RedisSystem H where
  state := { store := fun _ => none, replies := 0, attempts := [] }
  readers := []

variable (storage : RedisStorage H) (faults : Nat → Option RedisError)

def step (system : RedisSystem H) : RedisEvent H → RedisSystem H
  | .beginWriteBlob inst digest => { system with state := storage.beginWriteBlob inst digest system.state }
  | .write index data outcome => { system with state := storage.write index data outcome system.state }
  | .commitMetadata index outcome =>
    { system with state := storage.commitMetadata index outcome system.state }
  | .commitIndex index outcome => { system with state := storage.commitIndex index outcome system.state }
  | .evict key => { system with state := { system.state with store := system.state.store.evict key } }
  | .readBlob inst digest =>
    { system with readers := system.readers ++ [((inst, digest), storage.readBlob faults inst digest)] }
  | .poll reader choice =>
    match system.readers[reader]? with
    | none => system
    | some (blob, future) =>
      let polled := future.poll choice system.state
      { state := polled.2, readers := system.readers.set reader (blob, polled.1) }

end RedisSystem

end Toolchain.Storage
