import Toolchain.Storage.ShardOutcomes

/-!
# Rechunking — what the chunking driver makes of batches and of streams

`ChunkingStorage` regroups the batches of a write, and the stream of a read, into chunks of one size
(`upload_chunking`).  Nothing is lost unless a stream ends in an error: then what was in the buffer is
(`chunking_regroups`).

Models `storage/src/driver/chunking.rs`.
-/

namespace Toolchain.Storage

open Lib List Future

variable {H : Type}

def rechunked (size : Nat) (batches : List Bytes) : List Bytes :=
  flush (fillAll size [] batches)

/-! ## Writes -/

variable {size : Nat}

section

variable (driver drv : Driver H)

lemma store_append (first second : List Bytes) (att : drv.Attempt) :
    storeChunks drv (first ++ second) att = (storeChunks drv first att).bind fun
        | (.ok (), att) => storeChunks drv second att
        | (.error error, att) => .ready (.error error, att) := by
  induction first generalizing att with
  | nil => rfl
  | cons chunk first ih =>
    simp only [cons_append, storeChunks, bind_assoc]
    congr 1
    funext result
    obtain ⟨_ | _, att⟩ := result
    · rfl
    · exact ih att

def commitIfStored : Except (StreamingWriteError H) Unit × driver.Attempt →
    Future driver.State (Except (StreamingWriteError H) Unit)
  | (.ok (), attempt) => driver.commit attempt
  | (.error error, _) => .ready (.error error)

lemma store_chunking (hsiz : 0 < size) (bats : List Bytes) (att : drv.Attempt) (buf : Bytes) :
    (storeChunks (chunking size drv) bats
    { underlying := att, buffer := buf }).bind (commitIfStored (chunking size drv)) =
    (storeChunks drv (flush (fillAll size buf bats)) att).bind (commitIfStored drv) := by
  induction bats generalizing att buf with
  | nil =>
    change (if isEmpty buf then drv.commit att
        else drv.writeThen att buf drv.commit) =
      (storeChunks drv (if isEmpty buf then [] else [buf]) att).bind _
    by_cases hemp : isEmpty buf
    · rw [if_pos hemp, if_pos hemp]
      rfl
    rw [if_neg hemp, if_neg hemp]
    simp only [Driver.writeThen, storeChunks, bind_assoc]
    congr 1
    funext result
    obtain ⟨_ | _, att⟩ := result
    · rfl
    · rfl
  | cons data bats ih =>
    have hflu : flush (fillAll size buf (data :: bats)) = (fill size data.length buf data).1 ++
        flush (fillAll size (fill size data.length buf data).2 bats) := by
      simp only [fillAll, flush]
      rw [append_assoc]
      exact (apply_ite _ _ _ _).symm
    have hwri : ¬(size = 0 ∧ data ≠ []) := fun h => Nat.ne_of_gt hsiz h.1
    rw [hflu, store_append, bind_assoc]
    simp only [storeChunks]
    rw [bind_assoc]
    simp only [chunking, if_neg hwri, Future.map, Future.bind_assoc]
    congr 1
    funext result
    obtain ⟨_ | _, att⟩ := result
    · rfl
    · exact ih att _

/-- For the driver below, an upload in batches is the upload of the regrouped chunks. -/
lemma upload_chunking (hsiz : 0 < size) (inst : Text) (dig : Digest H) (bats : List Bytes) :
    (chunking size drv).upload inst dig bats = drv.upload inst dig (rechunked size bats) := by
  unfold Driver.upload andThen
  simp only [chunking, Future.map, Future.bind_assoc]
  congr 1
  funext result
  cases result with
  | error error => rfl
  | ok attempt => exact store_chunking drv hsiz bats attempt []

end

/-! ## Streams -/

lemma regular_rechunked (hsiz : 0 < size) (bats : List Bytes) :
    Regular size (rechunked size bats) ∧ (rechunked size bats).flatten = bats.flatten := by
  obtain ⟨hful, hres⟩ := fillAll_full size [] bats hsiz
  refine ⟨regular_flush hsiz hful hres, ?_⟩
  unfold rechunked
  rw [flush_flatten, fillAll_flatten size [] bats hsiz, nil_append]

lemma rechunk_chunks (size : Nat) (strm : ReadStream H) : (rechunk size strm).chunks =
    if strm.failure.isSome then (fillAll size [] strm.chunks).1
    else rechunked size strm.chunks := by
  unfold rechunk rechunked flush
  cases strm.failure.isSome with
  | true | false => rfl

lemma readBlob_chunking (drv : Driver H) (writeSize : Nat) (inst : Text) (dig : Digest H)
    {win : Window} (hbat : 0 < win.maxBatchSize) :
    (chunking writeSize drv).readBlob inst dig win = (drv.readBlob inst dig win).map
    (Except.map (Option.map (rechunk win.maxBatchSize))) := by
  unfold Future.map
  simp only [chunking, andThen]
  congr 1
  funext result
  rcases result with error | _ | stream
  · rfl
  · rfl
  · exact if_neg fun h => Nat.ne_of_gt hbat h.1

/-- The chunks of a write are regular, and together they are the batches; so are those of a read,
except that a stream which fails loses what does not fill a chunk. -/
theorem chunking_regroups (size : Nat) (hsize : 0 < size) :
    (∀ batches : List Bytes, ∃ chunks : List Bytes, chunks.flatten = batches.flatten ∧
      Regular size chunks ∧
      ∀ (driver : Driver H) (inst : Text) (digest : Digest H),
        (chunking size driver).upload inst digest batches = driver.upload inst digest chunks) ∧
    ∀ stream : ReadStream H, ∃ output : ReadStream H, output.failure = stream.failure ∧
      Regular size output.chunks ∧
      output.chunks.flatten = (if stream.failure.isSome then
          stream.chunks.flatten.take (stream.chunks.flatten.length - stream.chunks.flatten.length % size)
        else stream.chunks.flatten) ∧
      ∀ (driver : Driver H) (writeSize : Nat) (inst : Text) (digest : Digest H) (window : Window)
        (choices : List Bool) (s : driver.State), window.maxBatchSize = size →
        ((driver.readBlob inst digest window).finish choices s).1 = some (.ok (some stream)) →
        (((chunking writeSize driver).readBlob inst digest window).finish choices s).1 =
          some (.ok (some output)) := by
  refine ⟨fun batches => ?_, fun stream => ⟨rechunk size stream, rfl, ?_, ?_, ?_⟩⟩
  · obtain ⟨hreg, hfla⟩ := regular_rechunked hsize batches
    exact ⟨_, hfla, hreg, fun driver inst digest => upload_chunking driver hsize inst digest batches⟩
  · rw [rechunk_chunks]
    split
    · exact regular_of_full hsize (fillAll_full size [] stream.chunks hsize).1
    · exact (regular_rechunked hsize stream.chunks).1
  · rw [rechunk_chunks]
    split
    · exact fillAll_full_flatten hsize stream.chunks
    · exact (regular_rechunked hsize stream.chunks).2
  · intro driver writeSize inst digest window choices s hwin hrea
    have hmap := congrArg (fun future => (finish future choices s).1)
      (readBlob_chunking driver writeSize inst digest (hwin ▸ hsize))
    refine hmap.trans ((congrArg Prod.fst (finish_map _ _ choices s)).trans ?_)
    rw [hrea, hwin]
    rfl

theorem chunking_regroups_three_batches :
    ∃ chunks : List Bytes, chunks.flatten = [1, 2, 3] ∧ Regular 2 chunks := by
  obtain ⟨chunks, hfla, hreg, -⟩ :=
    (chunking_regroups (H := Unit) 2 (by decide)).1 [[1], [], [2, 3]]
  exact ⟨chunks, hfla, hreg⟩

def streaming (stream : ReadStream H) : Driver H :=
  scripted { findMissing := .ok fun _ => false, read := .ok (some stream), beginWrite := .ok ()
             write := fun _ => .ok (), commit := .ok () }

theorem chunking_drops_the_rest_of_a_broken_stream :
    (((chunking 2 (streaming { chunks := [[1]], failure := some (.internal []) })).readBlob []
    ⟨(), 2⟩ (.full 2)).finish [] ()).1 =
    some (.ok (some { chunks := [], failure := some (.internal []) })) := rfl

end Toolchain.Storage
