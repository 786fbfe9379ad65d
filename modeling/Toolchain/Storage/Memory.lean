import Mathlib.Algebra.Order.Group.Nat
import Toolchain.Lib.Dict
import Toolchain.Storage.Driver

/-!
# Memory — the storage driver that keeps its blobs in memory

`MemoryStorage` keeps the blobs of all instances in one map, and each method is one step.  The loop of a
read runs up to offset plus limit, but its batches end at the end of the blob only: it reads too much if
the limit falls inside of a batch, and yields empty batches for ever if it is behind the end
(`readBlob_exact_iff`).

Models `storage/src/driver/memory.rs`.
-/

namespace Toolchain.Storage

open Lib List

structure MemoryInner (H : Type) where
  blobs : List (Digest H × Bytes)
  blobsByInstance : List (Text × List (Digest H))

/-! ## Streams -/

structure MemoryStream where
  blob : Bytes
  (offset finalOffset maxBatchSize : Nat)
deriving DecidableEq

inductive MemoryItem
  | chunk (data : Bytes) (rest : MemoryStream)
  | finished | panicked
deriving DecidableEq

namespace MemoryStream

/-- One turn of the loop.  The numbers are of 64 bits, and a slice that ends before it starts is a
panic. -/
def next (self : MemoryStream) : MemoryItem :=
  if self.offset < self.finalOffset then
    let start := self.offset
    let stop := min ((start + self.maxBatchSize) % 2 ^ 64) self.blob.length
    if stop < start then .panicked
    else .chunk ((self.blob.take stop).drop start) { self with offset := stop }
  else
    .finished

def collect : Nat → MemoryStream → Option (List Bytes)
  | 0, _ => none
  | turns + 1, self =>
    match self.next with
    | .finished => some []
    | .panicked => none
    | .chunk data rest => (collect turns rest).map (data :: ·)

def Yields (self : MemoryStream) (content : Bytes) : Prop :=
  ∃ turns chunks, self.collect turns = some chunks ∧ chunks.flatten = content

def ofWindow (window : Window) (blob : Bytes) : MemoryStream :=
  let offset := window.readOffset.getD 0
  { blob := blob, offset := offset
    finalOffset := (offset + min (window.readLimit.getD blob.length) blob.length) % 2 ^ 64
    maxBatchSize := window.maxBatchSize }

end MemoryStream

namespace MemoryInner

variable {H : Type} [DecidableEq H]

def getBlobsForInstance (inner : MemoryInner H) (inst : Text) :
    Except (StorageError H) (List (Digest H)) :=
  match inner.blobsByInstance.lookup inst with
  | some blobs => .ok blobs
  | none => .error (.internal "unknown instance".toList)

def readBlob (inner : MemoryInner H) (inst : Text) (digest : Digest H) (window : Window) :
    Except (StorageError H) (Option MemoryStream) :=
  match inner.getBlobsForInstance inst with
  | .error error => .error error
  | .ok instanceBlobs =>
    match instanceBlobs.contains digest, inner.blobs.lookup digest with
    | true, some blob => .ok (some (.ofWindow window blob))
    | _, _ => .ok none

end MemoryInner

namespace MemoryInner

variable {H : Type} [DecidableEq H] {inner : MemoryInner H} {inst : Text} {digest : Digest H}
  {blob : Bytes}

def Stored (inner : MemoryInner H) (inst : Text) (digest : Digest H) (blob : Bytes) : Prop :=
  (∃ instanceBlobs, inner.blobsByInstance.lookup inst = some instanceBlobs ∧
    digest ∈ instanceBlobs) ∧ inner.blobs.lookup digest = some blob

lemma readBlob_stored (h : inner.Stored inst digest blob) (win : Window) :
    inner.readBlob inst digest win = .ok (some (.ofWindow win blob)) := by
  obtain ⟨⟨blobs, hloo, hmem⟩, hblo⟩ := h
  simp [readBlob, getBlobsForInstance, hloo, hmem, hblo]

end MemoryInner

variable {turns : Nat} {chs : List Bytes}

namespace MemoryStream

variable {self : MemoryStream}

structure Sized (stream : MemoryStream) : Prop where
  offset_le : stream.offset ≤ stream.blob.length
  length_lt : stream.blob.length < 2 ^ 63
  batch_pos : 1 ≤ stream.maxBatchSize
  batch_lt : stream.maxBatchSize < 2 ^ 64

open Nat MemoryStream

lemma next_of_lt (h : self.Sized) (hoff : self.offset < self.finalOffset) : self.next =
      if self.offset + self.maxBatchSize < 2 ^ 64 then
        .chunk ((self.blob.take (min (self.offset + self.maxBatchSize) self.blob.length)).drop self.offset)
          { self with offset := min (self.offset + self.maxBatchSize) self.blob.length }
      else .panicked := by
  obtain ⟨hle, hlen, -, hbat⟩ := h
  rw [next, if_pos hoff]
  dsimp only
  by_cases hfit : self.offset + self.maxBatchSize < 2 ^ 64
  · rw [mod_eq_of_lt hfit, if_neg (by omega), if_pos hfit]
  have hwra : (self.offset + self.maxBatchSize) % 2 ^ 64 = self.offset + self.maxBatchSize - 2 ^ 64 := by
    rw [mod_eq_sub_mod (by omega), mod_eq_of_lt (by omega)]
  rw [hwra, if_pos (by omega), if_neg hfit]

lemma next_of_ge (hoff : self.finalOffset ≤ self.offset) : self.next = .finished := if_neg (by omega)

lemma Sized.advance (h : self.Sized) :
    ({ self with offset := min (self.offset + self.maxBatchSize) self.blob.length } :
      MemoryStream).Sized where
  offset_le := min_le_right _ _
  length_lt := h.length_lt
  batch_pos := h.batch_pos
  batch_lt := h.batch_lt

lemma slice_append (blob : Bytes) {start middle stop : Nat} (hsta : start ≤ middle)
    (hmid : middle ≤ stop) :
    (blob.take middle).drop start ++ (blob.take stop).drop middle = (blob.take stop).drop start := by
  have htak : blob.take middle = (blob.take stop).take middle := by rw [take_take, min_eq_left hmid]
  calc
    (blob.take middle).drop start ++ (blob.take stop).drop middle
        = ((blob.take stop).take middle).drop start ++ (blob.take stop).drop middle := by rw [htak]
    _ = ((blob.take stop).drop start).take (middle - start) ++
      ((blob.take stop).drop start).drop (middle - start) := by
          rw [drop_take, drop_drop, Nat.add_sub_cancel' hsta]
    _ = (blob.take stop).drop start := take_append_drop ..

section

variable (h : self.Sized)

include h

/-- More turns than bytes are enough. -/
lemma collect_of_batches {turns : Nat} (hturns : self.finalOffset - self.offset < turns)
    (hle : self.offset ≤ self.finalOffset) (hfin : self.finalOffset ≤ self.blob.length)
    (hfit : self.offset + self.maxBatchSize < 2 ^ 64 ∨ self.offset = self.finalOffset)
    (hbat : self.maxBatchSize ∣ self.finalOffset - self.offset ∨ self.finalOffset = self.blob.length) :
    ∃ chunks, self.collect turns = some chunks ∧
    chunks.flatten = (self.blob.take self.finalOffset).drop self.offset := by
  induction turns generalizing self with
  | zero => omega
  | succ turns ih =>
    rcases eq_or_lt_of_le hle with hend | hlt
    · refine ⟨[], ?_, ?_⟩
      · simp [collect, next_of_ge hend.ge]
      · simp [hend]
    set stop := min (self.offset + self.maxBatchSize) self.blob.length with hsto
    have hpos := h.batch_pos
    have hlen := h.length_lt
    have hstop : stop ≤ self.finalOffset := by
      rcases hbat with hdvd | hwho
      · have := le_of_dvd (by omega) hdvd
        omega
      · omega
    have hbat' : self.maxBatchSize ∣ self.finalOffset - stop ∨ self.finalOffset = self.blob.length := by
      refine hbat.imp ?_ id
      intro hdvd
      by_cases hsho : self.offset + self.maxBatchSize ≤ self.blob.length
      · have hres : self.finalOffset - stop =
          self.finalOffset - self.offset - self.maxBatchSize := by omega
        rw [hres]
        exact dvd_sub hdvd (dvd_refl _)
      · have hres : self.finalOffset - stop = 0 := by omega
        rw [hres]
        exact Nat.dvd_zero _
    obtain ⟨chunks, hcollect, hchunks⟩ := @ih { self with offset := stop } h.advance
      (by dsimp only; omega) hstop hfin (by dsimp only; omega) hbat'
    refine ⟨(self.blob.take stop).drop self.offset :: chunks, ?_, ?_⟩
    · rw [collect, next_of_lt h hlt, if_pos (by omega)]
      simp [← hsto, hcollect]
    · rw [flatten_cons, hchunks, slice_append self.blob (by omega) hstop]

lemma collect_eq_none (hfin : self.blob.length < self.finalOffset) (turns : Nat) :
    self.collect turns = none := by
  induction turns generalizing self with
  | zero => rfl
  | succ turns ih =>
    have hle := h.offset_le
    rw [collect, next_of_lt h (by omega)]
    split_ifs
    · simpa using ih h.advance hfin
    · rfl

lemma collect_eq_some (hcol : self.collect turns = some chs) :
    ∃ stop, self.offset ≤ stop ∧ self.finalOffset ≤ stop ∧ stop ≤ self.blob.length ∧
    chs.flatten = (self.blob.take stop).drop self.offset ∧
    (self.maxBatchSize ∣ stop - self.offset ∨ stop = self.blob.length) := by
  induction turns generalizing self chs with
  | zero => cases hcol
  | succ turns ih =>
    have hle := h.offset_le
    rcases lt_or_ge self.offset self.finalOffset with hlt | hge
    · rw [collect, next_of_lt h hlt] at hcol
      split_ifs at hcol
      · obtain ⟨rest, hres, rfl⟩ := Option.map_eq_some_iff.1 hcol
        obtain ⟨stop, hoff, hfin, hlen, hfla, hbat⟩ := ih h.advance hres
        dsimp only at hoff hfin hlen hfla hbat
        refine ⟨stop, by omega, hfin, hlen, ?_, ?_⟩
        · rw [flatten_cons, hfla]
          exact slice_append self.blob (by omega) hoff
        · rcases hbat with hdvd | hend
          · by_cases hsho : self.offset + self.maxBatchSize ≤ self.blob.length
            · left
              rw [min_eq_left hsho] at hdvd hoff
              have hwho : stop - self.offset = stop - (self.offset + self.maxBatchSize) +
                self.maxBatchSize := by omega
              rw [hwho]
              exact Nat.dvd_add hdvd (Nat.dvd_refl _)
            · right
              omega
          · exact .inr hend
    · rw [collect, next_of_ge hge] at hcol
      cases hcol
      exact ⟨self.offset, le_refl _, hge, hle, by simp, by simp⟩

lemma yields_iff (hle : self.offset ≤ self.finalOffset)
    (hfit : self.offset = self.finalOffset → self.offset + self.maxBatchSize < 2 ^ 64) :
    self.Yields ((self.blob.take self.finalOffset).drop self.offset) ↔
    self.offset + self.maxBatchSize < 2 ^ 64 ∧ self.finalOffset ≤ self.blob.length ∧
    (self.maxBatchSize ∣ self.finalOffset - self.offset ∨ self.finalOffset = self.blob.length) := by
  constructor
  · rintro ⟨turns, chun, hcol, hfla⟩
    have hfin : self.finalOffset ≤ self.blob.length := by
      by_contra hbeh
      rw [collect_eq_none h (by omega) turns] at hcol
      cases hcol
    refine ⟨?_, hfin, ?_⟩
    · rcases eq_or_lt_of_le hle with hend | hlt
      · exact hfit hend
      · cases turns with
        | zero => cases hcol
        | succ turns =>
          rw [collect, next_of_lt h hlt] at hcol
          split_ifs at hcol with hfit
          exact hfit
    · obtain ⟨stop, hsta, hsto, hend, hrea, hbat⟩ := collect_eq_some h hcol
      have hlen := congrArg length (hrea.symm.trans hfla)
      simp only [length_drop, length_take] at hlen
      have hste : stop = self.finalOffset := by omega
      rwa [hste] at hbat
  · rintro ⟨hfit, hfin, hbat⟩
    exact ⟨_, collect_of_batches h (Nat.lt_succ_self _) hle hfin (.inl hfit) hbat⟩

end

end MemoryStream

/-- The bytes asked for are there, and make up whole batches unless they reach the end of the
blob. -/
def Window.InBatches (window : Window) (length : Nat) : Prop :=
  let offset := window.readOffset.getD 0
  let count := min (window.readLimit.getD length) length
  offset + window.maxBatchSize < 2 ^ 64 ∧ offset + count ≤ length ∧
    (window.maxBatchSize ∣ count ∨ offset + count = length)

lemma Window.slice_eq (win : Window) (blob : Bytes) : win.slice blob = (blob.take (win.readOffset.getD 0 +
    min (win.readLimit.getD blob.length) blob.length)).drop (win.readOffset.getD 0) := by
  rw [Window.slice, drop_take, Nat.add_sub_cancel_left]
  rcases le_total (win.readLimit.getD blob.length) blob.length with hsho | hlon
  · rw [min_eq_left hsho]
  rw [min_eq_right hlon]
  have hlen : (blob.drop (win.readOffset.getD 0)).length ≤ blob.length := by
    rw [length_drop]
    exact Nat.sub_le ..
  rw [take_of_length_le (hlen.trans hlon), take_of_length_le hlen]

namespace MemoryInner

variable {H : Type} [DecidableEq H]

/-- A stream is finite, and yields the bytes up to the limit or the end, exactly if they are there and
make up whole batches or reach the end. -/
theorem readBlob_exact_iff (inner : MemoryInner H) (inst : Text) (digest : Digest H) (blob : Bytes)
    (hstored : inner.Stored inst digest blob) (hlength : blob.length < 2 ^ 63) (window : Window)
    (hbatch : 1 ≤ window.maxBatchSize) (hbatch' : window.maxBatchSize < 2 ^ 64)
    (hoffset : window.readOffset.getD 0 ≤ blob.length)
    (hlimit : ∀ limit ∈ window.readLimit, 1 ≤ limit) :
    ∃ stream, inner.readBlob inst digest window = .ok (some stream) ∧
    (stream.Yields (window.slice blob) ↔ window.InBatches blob.length) := by
  refine ⟨.ofWindow window blob, readBlob_stored hstored window, ?_⟩
  have hlip : 1 ≤ window.readLimit.getD blob.length ∨ blob.length = 0 := by
    cases hrea : window.readLimit with
    | none => exact (Nat.eq_zero_or_pos blob.length).symm
    | some limit => exact .inl (hlimit limit hrea)
  have hfin : (MemoryStream.ofWindow window blob).finalOffset =
      window.readOffset.getD 0 + min (window.readLimit.getD blob.length) blob.length :=
    Nat.mod_eq_of_lt (by omega)
  have hsiz : (MemoryStream.ofWindow window blob).Sized :=
    ⟨hoffset, hlength, hbatch, hbatch'⟩
  have hiff := MemoryStream.yields_iff hsiz (by rw [hfin]; exact Nat.le_add_right ..) (by
    rw [hfin]
    dsimp only [MemoryStream.ofWindow]
    omega)
  rw [hfin] at hiff
  dsimp only [MemoryStream.ofWindow] at hiff
  rw [Nat.add_sub_cancel_left] at hiff
  rwa [window.slice_eq blob]

def fiveBytes : MemoryInner Unit where
  blobs := [(⟨(), 5⟩, [1, 2, 3, 4, 5])]
  blobsByInstance := [("main".toList, [⟨(), 5⟩])]

theorem readBlob_fiveBytes :
    ∃ stream, fiveBytes.readBlob "main".toList ⟨(), 5⟩
    { maxBatchSize := 2, readOffset := some 1, readLimit := some 4 } = .ok (some stream) ∧
    stream.Yields [2, 3, 4, 5] := by
  obtain ⟨stream, hrea, hyie⟩ := readBlob_exact_iff fiveBytes "main".toList
    ⟨(), 5⟩ [1, 2, 3, 4, 5]
    ⟨⟨[⟨(), 5⟩], by decide, by decide⟩, by decide⟩ (by decide)
    { maxBatchSize := 2, readOffset := some 1, readLimit := some 4 } (by decide) (by decide)
    (by decide) (by decide)
  exact ⟨stream, hrea, hyie.2 ⟨by decide, by decide, by decide⟩⟩

/-- Without a limit the stream has no end, and with a limit of three bytes it yields a batch of four. -/
theorem readBlob_endless_or_too_long :
    (∃ stream, fiveBytes.readBlob "main".toList ⟨(), 5⟩
    { maxBatchSize := 4, readOffset := some 1, readLimit := none } = .ok (some stream) ∧
    ∀ turns, stream.collect turns = none) ∧
    ∃ stream, fiveBytes.readBlob "main".toList ⟨(), 5⟩
    { maxBatchSize := 4, readOffset := none, readLimit := some 3 } = .ok (some stream) ∧
    stream.collect 2 = some [[1, 2, 3, 4]] ∧
    Window.slice { maxBatchSize := 4, readOffset := none, readLimit := some 3 } [1, 2, 3, 4, 5] =
      [1, 2, 3] := by
  refine ⟨⟨_, rfl, fun turns => ?_⟩, ⟨_, rfl, by decide, by decide⟩⟩
  exact MemoryStream.collect_eq_none ⟨by decide, by decide, by decide, by decide⟩ (by decide) turns

end MemoryInner

end Toolchain.Storage
