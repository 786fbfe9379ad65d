import Toolchain.Storage.Reads
import Toolchain.Storage.RedisUploads

/-!
# RedisReads — ranged reads of blobs that are kept in chunks

`RedisStorage::read_blob` fetches all chunks, whatever range is asked for, and `ChunkingStorage` above
it only regroups them.  So the whole blob is streamed (`redis_range_iff`).

Models `driver/redis/chunked.rs` and `driver/chunking.rs`.
-/

namespace Toolchain.Storage

open Lib List RedisStorage RedisState RedisStore

variable {H : Type} (storage stor : RedisStorage H)

def redisStorage : Driver H where
  State := RedisState H
  Attempt := Nat
  Task := Empty
  init := { store := fun _ => none, replies := 0, attempts := [] }
  Visible _ _ _ _ := False
  findMissingBlobs inst digests :=
    (Future.joinAll (digests.map (storage.checkDigestDoesNotExist (fun _ => none) inst))).map
      fun results =>
        (results.mapM id).map reduceOption
  readBlob inst digest _ := storage.readBlob (fun _ => none) inst digest
  beginWriteBlob inst digest := .act fun s => (.ok s.attempts.length, storage.beginWriteBlob inst digest s)
  write index data := .act fun s => ((.ok (), index), storage.write index data .ok s)
  commit index :=
    (Future.act fun s => ((), storage.commitMetadata index .ok s)).bind fun _ =>
      .act fun s => (.ok (), storage.commitIndex index .ok s)
  runTask := nofun

/-! ## Uploads -/

structure Stored (store : RedisStore) (inst : Text) (number : Nat) (digest : Digest H)
    (chunks : List Bytes) : Prop where
  index : store (storage.indexMapKey inst digest) = some (storage.encodeUuid (storage.uuid number))
  metadata : store (storage.metadataKey inst (storage.uuid number)) =
    some (storage.encodeMetadata chunks.length)
  chunk : ∀ n chunk, chunks[n]? = some chunk →
    store (storage.chunkKey inst (storage.uuid number) n) = some chunk

variable {s : RedisState H}

section Upload

variable {storage stor} {inst : Text} {digest dig : Digest H} {num : Nat}

structure Collecting (storage : RedisStorage H) (inst : Text) (digest : Digest H)
    (number : Nat) (chunks : List Bytes) (s : RedisState H) : Prop where
  attempt : s.attempts[number]? = some
    { inst := inst, uuid := storage.uuid number, digest := digest, chunks := chunks,
      stage := .writing }
  chunk : ∀ n chunk, chunks[n]? = some chunk →
    s.store (storage.chunkKey inst (storage.uuid number) n) = some chunk

variable {chunks chs : List Bytes}

lemma Collecting.write (h : Collecting stor inst dig num chs s) (data : Bytes) :
    Collecting stor inst dig num (chs ++ [data]) (stor.write num data .ok s) := by
  have hlt := (List.getElem?_eq_some_iff.1 h.attempt).1
  have hcol := stor.colon_not_mem_uuid num
  unfold RedisStorage.write
  rw [h.attempt]
  refine ⟨by simp [send, hlt], ?_⟩
  intro n chunk hn
  simp only [RedisState.send, SetOutcome.executed, if_true, RedisStore.set]
  split
  · rename_i hkey
    -- only the new chunk has this key
    rw [(stor.chunkKey_inj hcol hcol hkey).2, getElem?_concat_length] at hn
    exact hn
  rename_i hkey
  refine h.chunk n chunk ?_
  have hne : n ≠ chs.length := fun hn => hkey (by rw [hn])
  have hlen := (List.getElem?_eq_some_iff.1 hn).1
  rw [length_append, length_singleton] at hlen
  rwa [getElem?_append_left (by omega)] at hn

lemma Collecting.stored (h : Collecting storage inst digest num chunks s) :
    Stored storage (storage.commitIndex num .ok (storage.commitMetadata num .ok s)).store
    inst num digest chunks := by
  have hlt := (List.getElem?_eq_some_iff.1 h.attempt).1
  have hcol := storage.colon_not_mem_uuid num
  unfold commitMetadata
  rw [h.attempt]
  unfold commitIndex
  simp only [send, getElem?_set_self hlt, SetOutcome.executed, if_true]
  refine ⟨?_, ?_, ?_⟩
  · simp [RedisStore.set]
  · have hne : storage.metadataKey inst (storage.uuid num) ≠ storage.indexMapKey inst digest :=
      storage.dataKey_ne_indexKey hcol (by decide)
    simp [RedisStore.set, hne]
  · intro n chunk hn
    have hne : storage.chunkKey inst (storage.uuid num) n ≠ storage.indexMapKey inst digest :=
      storage.dataKey_ne_indexKey hcol (decimal_no_sep n).1
    have hne' : storage.chunkKey inst (storage.uuid num) n ≠
        storage.metadataKey inst (storage.uuid num) := storage.chunkKey_ne_metadataKey hcol hcol
    simp [RedisStore.set, hne, hne', h.chunk n chunk hn]

lemma finish_store (rest : List Bytes) (h : Collecting stor inst dig num chs s) (cs : List Bool) :
    ∃ t, (storeChunks (redisStorage stor) rest num).finish cs s =
    (some (.ok (), num), t) ∧ Collecting stor inst dig num (chs ++ rest) t := by
  induction rest generalizing chs s with
  | nil => exact ⟨s, rfl, by rwa [append_nil]⟩
  | cons data rest ih =>
    obtain ⟨t, hfin, hwri⟩ := ih (h.write data)
    exact ⟨t, hfin, by rwa [append_assoc] at hwri⟩

lemma finish_upload (chunks : List Bytes) (s : RedisState H) (cs : List Bool) :
    ∃ t, ((redisStorage storage).upload inst digest chunks).finish cs s = (some (.ok ()), t) ∧
    Stored storage t.store inst s.attempts.length digest chunks := by
  have hbeg : Collecting storage inst digest s.attempts.length [] (storage.beginWriteBlob inst digest s) :=
    ⟨by simp [beginWriteBlob], fun _ _ => nofun⟩
  obtain ⟨t, hfin, hwri⟩ := finish_store chunks hbeg cs
  obtain ⟨rest, hbin⟩ :=
    Future.exists_finish_bind (storeChunks (redisStorage storage) chunks s.attempts.length)
    (commitIfStored (redisStorage storage)) cs (storage.beginWriteBlob inst digest s)
  rw [hfin] at hbin
  exact ⟨_, hbin, hwri.stored⟩

end Upload

/-! ## Reads -/

def Gives {α : Type} (store : RedisStore) (future : Future (RedisState H) α) (a : α) : Prop :=
  ∀ s, future.Meets
    { inv := fun s => s.store = store, grows := fun _ _ => True, hangs := False,
      refl := fun _ => trivial, trans := fun _ _ => trivial } (fun b _ => b = a) s

section Read

variable {storage stor} {store : RedisStore} {inst : Text} {dig : Digest H} {num : Nat}
  {chs : List Bytes} {α β : Type}

lemma Gives.bind {fut : Future (RedisState H) α} {a : α} {b : β}
    {k : α → Future (RedisState H) β} (h : Gives store fut a) (hk : Gives store (k a) b) :
    Gives store (fut.bind k) b := by
  refine fun s => (h s).bind ?_
  intro a' t _ hinv ha
  obtain rfl : a' = a := ha.value hinv
  exact hk t

lemma gives_ready (a : α) : Gives store (Future.ready a : Future (RedisState H) α) a := fun _ _ _ _ => rfl

lemma gives_reply (result : Except RedisError α) :
    Gives store (RedisStorage.reply (H := H) (fun _ => none) result) result :=
  fun _ _ _ hinv => ⟨hinv, trivial, fun _ _ _ => rfl⟩

lemma gives_query {com : Future (RedisState H) (Except RedisError α)} {a : α}
    (h : Gives store com (.ok a)) :
    Gives store (RedisStorage.redisQuery (fun _ => none) com) (.ok a) :=
  (h.bind (gives_reply _)).bind (gives_ready _)

lemma gives_connection : Gives store (RedisStorage.getRedisConnection (H := H) fun _ => none) (.ok ()) :=
  (gives_reply _).bind (gives_ready _)

lemma gives_bytes (key : Text) : Gives store (getBytes (H := H) key) (.ok (store key)) := by
  rintro s t - rfl
  exact ⟨rfl, trivial, fun _ _ _ => rfl⟩

lemma gives_uuid (h : Stored stor store inst num dig chs) :
    Gives store (stor.getUuid (stor.indexMapKey inst dig)) (.ok (some (stor.uuid num))) := by
  rintro s t - rfl
  refine ⟨rfl, trivial, fun _ _ _ => ?_⟩
  dsimp only
  rw [h.index]
  dsimp only
  rw [stor.decode_encodeUuid]
  rfl

lemma gives_existAll (keys : List Text) (h : ∀ key ∈ keys, (store key).isSome) :
    Gives store (existAll (H := H) keys) (.ok (keys.map fun _ => true)) := by
  induction keys with
  | nil => exact gives_ready _
  | cons key keys ih =>
    have hfou : Gives store (.act fun s : RedisState H => ((s.store key).isSome, s)) true := by
      rintro s t - rfl
      exact ⟨rfl, trivial, fun _ _ _ => h key (.head _)⟩
    exact hfou.bind ((ih fun key hmem => h key (.tail _ hmem)).bind (gives_ready _))

lemma gives_readChunks (h : Stored stor store inst num dig chs) (rest : List Bytes)
    (chunkNum : Nat) (hres : chs.drop chunkNum = rest) :
    Gives store (stor.readChunks (fun _ => none) inst (stor.uuid num) rest.length chunkNum)
    { chunks := rest, failure := none } := by
  induction rest generalizing chunkNum with
  | nil => exact gives_ready _
  | cons chunk rest ih =>
    have hchu : chs[chunkNum]? = some chunk := by
      rw [← head?_drop, hres]
      rfl
    have hnex : chs.drop (chunkNum + 1) = rest := by
      rw [← tail_drop, hres]
      rfl
    have hfet : Gives store (fetchChunk (H := H) (fun _ => none)
        (stor.chunkKey inst (stor.uuid num) chunkNum)) (.ok chunk) := by
      refine gives_connection.bind ((gives_query (gives_bytes _)).bind ?_)
      rw [h.chunk chunkNum chunk hchu]
      exact gives_ready _
    exact hfet.bind ((ih (chunkNum + 1) hnex).bind (gives_ready _))

lemma gives_readBlob (h : Stored stor store inst num dig chs) :
    Gives store (stor.readBlob (fun _ => none) inst dig)
    (.ok (some { chunks := chs, failure := none })) := by
  have hmet : Gives store (getBytes (H := H) (stor.metadataKey inst (stor.uuid num)))
      (.ok (some (stor.encodeMetadata chs.length))) := by
    rw [← h.metadata]
    exact gives_bytes _
  have hche : Gives store (stor.checkDigestDoesNotExist (fun _ => none) inst dig) (.ok none) := by
    refine gives_connection.bind ((gives_query (gives_uuid h)).bind ((gives_query hmet).bind ?_))
    dsimp only
    rw [stor.decode_encodeMetadata]
    refine (gives_query (gives_existAll _ ?_)).bind ?_
    · intro key hkey
      obtain ⟨n, hn, rfl⟩ := mem_map.1 hkey
      rw [h.chunk n _ (getElem?_eq_getElem (mem_range.1 hn))]
      rfl
    · have hall : (((range chs.length).map
          (stor.chunkKey inst (stor.uuid num))).map fun _ => true).any not = false := by
        simp
      dsimp only
      rw [hall]
      exact gives_ready _
  refine hche.bind (gives_connection.bind ((gives_query (gives_uuid h)).bind ((gives_query hmet).bind ?_)))
  dsimp only
  rw [stor.decode_encodeMetadata]
  exact (gives_readChunks h chs 0 rfl).bind (gives_ready _)

end Read

section Ranges

variable (size : Nat) (hsize : 0 < size) (batches bats : List Bytes) (inst : Text) (digest : Digest H)
  (window : Window) (hbatch : 0 < window.maxBatchSize) (s : RedisState H)
  (choices choices' : List Bool)

include hsize hbatch

lemma streams_whole : ∃ t, ((chunking size (redisStorage stor)).upload inst digest bats).finish choices s =
    (some (.ok ()), t) ∧
    ∃ stream, (((chunking size (redisStorage stor)).readBlob inst digest window).finish
    choices' t).1 = some (.ok (some stream)) ∧ stream.consolidate = .ok bats.flatten := by
  obtain ⟨t, hupl, hsto⟩ := finish_upload (rechunked size bats) s choices
  refine ⟨t, by rw [upload_chunking _ hsize]; exact hupl, rechunk window.maxBatchSize
    { chunks := rechunked size bats, failure := none }, ?_, ?_⟩
  · obtain ⟨_, _, hfin, -, -, rfl⟩ := (gives_readBlob hsto t).finish_some rfl id choices'
    have hmap := congrArg (fun future => (Future.finish future choices' t).1)
      (readBlob_chunking (redisStorage stor) size inst digest hbatch)
    refine hmap.trans ((congrArg Prod.fst (Future.finish_map _ _ choices' t)).trans ?_)
    rw [show ((redisStorage stor).readBlob inst digest window).finish choices' t = _ from hfin]
    rfl
  · rw [← (regular_rechunked hsize bats).2, ← (regular_rechunked hbatch (rechunked size bats)).2]
    exact congrArg (fun chunks => Except.ok chunks.flatten)
      (rechunk_chunks (H := H) window.maxBatchSize { chunks := rechunked size bats, failure := none })

/-- What is read of a blob that was uploaded is the range that was asked for, exactly if that leaves
out nothing. -/
theorem redis_range_iff :
    ∃ t, ((chunking size (redisStorage storage)).upload inst digest batches).finish choices s =
      (some (.ok ()), t) ∧
    ∃ stream, (((chunking size (redisStorage storage)).readBlob inst digest window).finish
    choices' t).1 = some (.ok (some stream)) ∧
    (stream.consolidate = .ok (window.slice batches.flatten) ↔ window.Covers batches.flatten.length) := by
  obtain ⟨t, hup, stream, hread, hst⟩ := streams_whole storage size hsize batches inst digest
    window hbatch s choices choices'
  refine ⟨t, hup, stream, hread, ?_⟩
  rw [hst, Except.ok.injEq, Window.covers_iff]
  constructor
  · exact fun hsl => congrArg length hsl.symm
  · exact fun hlen => (Window.slice_of_covers ((window.covers_iff _).2 hlen)).symm

end Ranges

theorem redis_range_whole :
    ∃ t stream, (((chunking 1 (redisStorage sha256Storage)).readBlob [] { hash := zeroHash, sizeBytes := 2 }
    (.full 2)).finish [] t).1 = some (.ok (some stream)) ∧ stream.consolidate = .ok [1, 2] := by
  obtain ⟨t, -, stream, hrea, hiff⟩ := redis_range_iff sha256Storage 1 (by decide) [[1, 2]] []
    { hash := zeroHash, sizeBytes := 2 } (.full 2) (by decide) (redisStorage sha256Storage).init [] []
  exact ⟨t, stream, hrea, hiff.2 (.inr ⟨rfl, by decide⟩)⟩

theorem redis_range_ignored :
    ∃ t, ((chunking 1 (redisStorage sha256Storage)).upload [] { hash := zeroHash, sizeBytes := 2 }
    [[1, 2]]).finish [] (redisStorage sha256Storage).init = (some (.ok ()), t) ∧
    ∃ stream, (((chunking 1 (redisStorage sha256Storage)).readBlob [] { hash := zeroHash, sizeBytes := 2 }
    { maxBatchSize := 2, readOffset := some 1, readLimit := none }).finish [] t).1 =
    some (.ok (some stream)) ∧ stream.consolidate = .ok [1, 2] :=
  streams_whole sha256Storage 1 (by decide) [[1, 2]] [] { hash := zeroHash, sizeBytes := 2 }
    { maxBatchSize := 2, readOffset := some 1, readLimit := none } (by decide)
    (redisStorage sha256Storage).init [] []

end Toolchain.Storage
