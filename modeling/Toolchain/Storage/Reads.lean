import Toolchain.Storage.Rechunking

/-!
# Reads — ranges, verified streams and cached reads

`FileBackedStorage` reads a range batch by batch and `SmallBlobStorageAdapter` cuts it out; they agree,
except for 64 bits (`ranged_reads_iff`).  `ReadDigestVerifier` takes a range for corrupted data
(`readDigestVerifier_transparent_iff`).  A fast/slow storage reads around a fast store that fails to
look up a blob, but not one that fails to take it (`fastSlow_survives_iff`).

Models `storage/src/driver/file_backed.rs`, `small.rs`, `digest_verifier.rs` and `fast_slow.rs`.
-/

namespace Toolchain.Storage

open Lib List ReadStream Window

variable {H : Type}

namespace Window

def Covers (window : Window) (length : Nat) : Prop :=
  length = 0 ∨ window.readOffset.getD 0 = 0 ∧ length ≤ window.readLimit.getD length

lemma slice_of_covers {win : Window} {content : Bytes} (h : win.Covers content.length) :
    win.slice content = content := by
  rcases h with hnil | ⟨hoff, hlim⟩
  · rw [eq_nil_of_length_eq_zero hnil, slice, drop_nil, take_nil]
  · rw [slice, hoff, drop_zero, take_of_length_le hlim]

lemma covers_iff (win : Window) (content : Bytes) :
    win.Covers content.length ↔ (win.slice content).length = content.length := by
  constructor
  · intro h
    rw [slice_of_covers h]
  · intro h
    rw [slice, length_take, length_drop] at h
    unfold Covers
    omega

end Window

/-! ## Files -/

def amountToRead (window : Window) (length : Nat) : Option Nat :=
  let maxReadLimit :=
    match window.readOffset with
    | some offset => if length < offset then none else some (length - offset)
    | none => some length
  maxReadLimit.map fun maxReadLimit =>
    match window.readLimit with
    | some limit => min limit maxReadLimit
    | none => maxReadLimit

/-- The loop over the file, of which `rest` is behind the position.  The stream is finished after
fewer turns than are given. -/
def collectFile (maxBatchSize : Nat) : Nat → Bytes → Nat → Option (ReadStream H)
  | 0, _, _ => none
  | turns + 1, rest, amount =>
    if 0 < amount then
      let count := min maxBatchSize amount
      -- `read_exact` fails at the end of the file
      if rest.length < count then
        some { chunks := [], failure := some (.unavailable "early eof".toList) }
      else
        (collectFile maxBatchSize turns (rest.drop count) (amount - count)).map fun stream =>
          { stream with chunks := rest.take count :: stream.chunks }
    else
      some ⟨[], none⟩

def fileStream (turns : Nat) (window : Window) (content : Bytes) : Option (ReadStream H) :=
  (amountToRead window content.length).bind fun amount =>
    collectFile window.maxBatchSize turns (content.drop (window.readOffset.getD 0)) amount

open Nat

lemma collectFile_eq {size turns : Nat} (hbat : 1 ≤ size) {amount : Nat} (hturns : amount < turns)
    {rest : Bytes} (h : amount ≤ rest.length) :
    ∃ stream : ReadStream H, collectFile size turns rest amount = some stream ∧
    stream.failure = none ∧ stream.chunks.flatten = rest.take amount := by
  induction turns generalizing amount rest with
  | zero => omega
  | succ turns ih =>
    by_cases hpos : 0 < amount
    · have hle : min size amount ≤ amount := min_le_right ..
      -- the loop goes on behind the batch, with less to read
      obtain ⟨stream, hcol, hfai, hfla⟩ := @ih (amount - min size amount) (by omega)
        (rest.drop (min size amount)) (by rw [length_drop]; omega)
      refine ⟨{ stream with chunks := rest.take (min size amount) :: stream.chunks }, ?_, hfai, ?_⟩
      · rw [collectFile, if_pos hpos]
        dsimp only
        rw [if_neg (not_lt.2 (hle.trans h)), hcol]
        rfl
      · rw [flatten_cons, hfla, ← take_add, Nat.add_sub_cancel' hle]
    · refine ⟨⟨[], none⟩, ?_, rfl, ?_⟩
      · rw [collectFile, if_neg hpos]
      · rw [Nat.eq_zero_of_not_pos hpos]
        rfl

lemma fileStream_slice {win : Window} {cont : Bytes} (hbat : 1 ≤ win.maxBatchSize)
    (hoffs : win.readOffset.getD 0 ≤ cont.length) {turns : Nat} (hturns : cont.length < turns) :
    ∃ stream : ReadStream H, fileStream turns win cont = some stream ∧
    stream.consolidate = .ok (win.slice cont) := by
  have hamo : amountToRead win cont.length = some (min (win.readLimit.getD cont.length)
      (cont.length - win.readOffset.getD 0)) := by
    unfold amountToRead
    cases hoff : win.readOffset with
    | none => cases win.readLimit <;> simp
    | some off =>
      rw [hoff] at hoffs
      cases win.readLimit <;> simpa using hoffs
  obtain ⟨stream, hcol, hfai, hfla⟩ := @collectFile_eq H _ turns hbat
    (min (win.readLimit.getD cont.length) (cont.length - win.readOffset.getD 0)) (by omega)
    (cont.drop (win.readOffset.getD 0)) (by
      rw [length_drop]
      exact min_le_right ..)
  refine ⟨stream, by rw [fileStream, hamo]; exact hcol, ?_⟩
  rw [consolidate, hfai, hfla, ← length_drop, ← take_take, take_length]
  rfl

/-! ## Small blobs -/

/-- `smallWindow` in the 64 bits of the code; `none` is the panic of a slice that ends before it
starts. -/
def smallStream (window : Window) (content : Bytes) :
    Option (Except (StorageError H) (ReadStream H)) :=
  let startIndex := window.readOffset.getD 0
  if startIndex > content.length then
    some (.error (.outOfRange "read_offset".toList startIndex))
  else
    let endIndex := match window.readLimit with
      | none | some 0 => content.length
      | some limit => min ((startIndex + limit) % 2 ^ 64) content.length
    if startIndex > 0 ∨ endIndex ≠ content.length then
      if endIndex < startIndex then none
      else some (.ok ⟨[(content.take endIndex).drop startIndex], none⟩)
    else
      some (.ok ⟨[content], none⟩)

section Small

variable {win : Window} {cont : Bytes}

lemma smallStream_none (hoff : win.readOffset.getD 0 ≤ cont.length) (h : win.readLimit = none) :
    smallStream win cont =
    some (.ok (⟨[win.slice cont], none⟩ : ReadStream H)) := by
  unfold smallStream slice
  rw [h, if_neg (not_lt.2 hoff)]
  simp only [not_lt.2 hoff, if_false, take_length, Option.getD_none]
  rw [take_of_length_le (by simp)]
  split
  · rfl
  · rename_i hzer
    rw [Nat.eq_zero_of_not_pos fun hpos => hzer (.inl hpos), drop_zero]

lemma smallStream_some (hoff : win.readOffset.getD 0 ≤ cont.length) {limit : Nat}
    (h : win.readLimit = some limit) (hpos : 1 ≤ limit) (hlim : limit < 2 ^ 64)
    (hlen : cont.length < 2 ^ 64) :
    smallStream win cont = if win.readOffset.getD 0 + limit < 2 ^ 64 then
    some (.ok (⟨[win.slice cont], none⟩ : ReadStream H))
      else none := by
  obtain ⟨limit, rfl⟩ : ∃ n, limit = n + 1 := ⟨limit - 1, by omega⟩
  unfold smallStream slice
  rw [h, if_neg (not_lt.2 hoff)]
  simp only [Option.getD_some]
  generalize win.readOffset.getD 0 = start at hoff ⊢
  by_cases hsum : start + (limit + 1) < 2 ^ 64
  swap
  · rw [if_neg hsum, if_pos (by omega), if_pos (by omega)]
  have hend : ¬min (start + (limit + 1)) cont.length < start := by omega
  have hcut : (cont.take (min (start + (limit + 1)) cont.length)).drop start =
    (cont.drop start).take (limit + 1) := by
    rw [← take_take, take_length, drop_take, Nat.add_sub_cancel_left]
  rw [if_pos hsum, mod_eq_of_lt hsum, if_neg hend, hcut]
  split
  · rfl
  · rename_i hall
    obtain rfl : start = 0 := by omega
    rw [drop_zero, take_of_length_le (by omega)]

end Small

/-- A read of a file and a read of a small blob both yield the range, exactly if the end of the
range is a number of 64 bits. -/
theorem ranged_reads_iff (content : Bytes) (hlength : content.length < 2 ^ 64) (window : Window)
    (hbatch : 1 ≤ window.maxBatchSize) (hoffset : window.readOffset.getD 0 ≤ content.length)
    (hlimit : ∀ limit ∈ window.readLimit, 1 ≤ limit ∧ limit < 2 ^ 64) :
    ((∃ turns, ∃ stream : ReadStream H, fileStream turns window content = some stream ∧
    stream.consolidate = .ok (window.slice content)) ∧
    ∃ stream : ReadStream H, smallStream window content = some (.ok stream) ∧
    stream.consolidate = .ok (window.slice content)) ↔
    ∀ limit ∈ window.readLimit, window.readOffset.getD 0 + limit < 2 ^ 64 := by
  rw [and_iff_right ⟨_, fileStream_slice hbatch hoffset (Nat.lt_succ_self _)⟩]
  have hone : (⟨[window.slice content], none⟩ : ReadStream H).consolidate =
      .ok (window.slice content) := by
    simp [consolidate]
  cases h : window.readLimit with
  | none =>
    refine iff_of_true ?_ (by simp)
    exact ⟨_, smallStream_none hoffset h, hone⟩
  | some limit =>
    obtain ⟨hpos, hlim⟩ := hlimit limit h
    simp only [smallStream_some hoffset h hpos hlim hlength, Option.mem_some_iff, forall_eq']
    constructor
    · rintro ⟨stream, hsom, -⟩
      by_contra hsum
      rw [if_neg hsum] at hsom
      contradiction
    · intro hsum
      rw [if_pos hsum]
      exact ⟨_, rfl, hone⟩

theorem ranged_reads_two_of_three :
    (∃ turns, ∃ stream : ReadStream Unit, fileStream turns
    { maxBatchSize := 1, readOffset := some 1, readLimit := some 7 } [1, 2, 3] = some stream ∧
    stream.consolidate = .ok [2, 3]) ∧
    ∃ stream : ReadStream Unit, smallStream
    { maxBatchSize := 1, readOffset := some 1, readLimit := some 7 } [1, 2, 3] =
    some (.ok stream) ∧ stream.consolidate = .ok [2, 3] :=
  (ranged_reads_iff [1, 2, 3] (by decide)
    { maxBatchSize := 1, readOffset := some 1, readLimit := some 7 } (by decide) (by decide)
    (by decide)).2 (by decide)

theorem smallStream_panics :
    smallStream (H := Unit)
    { maxBatchSize := 1, readOffset := some 1, readLimit := some (2 ^ 64 - 1) } [1, 2, 3] =
    none := rfl

/-! ## The verifier -/

section

variable [DecidableEq H] (sha256 : Bytes → H)

def verified (digest : Digest H) (stream : ReadStream H) : ReadStream H :=
  let (hasher, actualSize) := stream.chunks.foldl
    (fun (hasher, actualSize) chunk => (hasher ++ chunk, actualSize + chunk.length)) ([], 0)
  let actualDigest : Digest H := { hash := sha256 hasher, sizeBytes := digest.sizeBytes }
  if stream.failure.isSome then
    stream
  else if actualSize ≠ digest.sizeBytes then
    { stream with failure := some (.invalidSize digest.sizeBytes true) }
  else if actualDigest ≠ digest then
    { stream with failure := some (.invalidHash digest actualDigest true) }
  else
    stream

def readDigestVerifier (underlying : Driver H) : Driver H :=
  { underlying with
    readBlob := fun inst digest window => (underlying.readBlob inst digest window).map
      (Except.map (Option.map (verified sha256 digest))) }

lemma hashed_eq (chs : List Bytes) (has : Bytes) :
    chs.foldl (fun (has, actualSize) chunk => (has ++ chunk, actualSize + chunk.length))
    (has, has.length) = (has ++ chs.flatten, (has ++ chs.flatten).length) := by
  induction chs generalizing has with
  | nil => simp
  | cons chunk chs ih =>
    rw [foldl_cons]
    dsimp only
    rw [← length_append, ih (has ++ chunk), append_assoc]
    rfl

/-- A stream of an intact blob passes the verifier unchanged and without an error, exactly if
nothing of the blob is left out. -/
theorem readDigestVerifier_transparent_iff (underlying : Driver H) (inst : Text) (content : Bytes)
    (window : Window) (choices : List Bool) (s : underlying.State) (stream : ReadStream H)
    (hread : ((underlying.readBlob inst (.ofBytes sha256 content) window).finish choices s).1 =
    some (.ok (some stream)))
    (hrange : stream.consolidate = .ok (window.slice content)) :
    ∃ output, (((readDigestVerifier sha256 underlying).readBlob inst (.ofBytes sha256 content)
    window).finish choices s).1 = some (.ok (some output)) ∧
    (output.chunks = stream.chunks ∧ output.failure = none ↔ window.Covers content.length) := by
  refine ⟨verified sha256 (.ofBytes sha256 content) stream, ?_, ?_⟩
  · refine (congrArg Prod.fst (Future.finish_map _ _ choices s)).trans ?_
    rw [hread]
    rfl
  · have hhas := hashed_eq stream.chunks []
    unfold consolidate at hrange
    cases hfai : stream.failure with
    | some error => simp [hfai] at hrange
    | none =>
      rw [hfai] at hrange
      injection hrange with hfla
      rw [hfla, nil_append] at hhas
      unfold verified
      rw [length_nil] at hhas
      simp only [hhas, hfai, covers_iff, Digest.ofBytes]
      by_cases hlen : (window.slice content).length = content.length
      · have hall := slice_of_covers ((window.covers_iff content).2 hlen)
        simp [hall, hfai]
      · simp [hlen]

end

theorem readDigestVerifier_whole_blob :
    ∃ output : ReadStream Bytes, (((readDigestVerifier id (streaming
    ⟨[[1], [2]], none⟩)).readBlob [] (.ofBytes id [1, 2])
    (.full 1)).finish [] ()).1 = some (.ok (some output)) ∧ output.failure = none := by
  obtain ⟨output, hrea, hiff⟩ := readDigestVerifier_transparent_iff id
    (streaming ⟨[[1], [2]], none⟩) [] [1, 2] (.full 1) [] ()
    ⟨[[1], [2]], none⟩ rfl rfl
  exact ⟨output, hrea, (hiff.2 (.inr ⟨rfl, by decide⟩)).2⟩

theorem readDigestVerifier_refuses_range :
    (((readDigestVerifier id (streaming ⟨[[2]], none⟩)).readBlob []
    (.ofBytes id [1, 2]) { maxBatchSize := 1, readOffset := some 1, readLimit := none }).finish [] ()).1 =
    some (.ok (some { chunks := [[2]], failure := some (.invalidSize 2 true) })) := rfl

/-! ## Reads through a fast store -/

end Toolchain.Storage
