import Mathlib.Data.List.Basic

/-!
# Chunks — regrouping a stream into chunks of one size

`fill` moves as much as fits from the data to a buffer, and a full buffer becomes a chunk.  Nothing is
lost or reordered (`fill_flatten`), and only the last chunk of a stream may be shorter (`Regular`).
-/

namespace Toolchain.Lib

open List

universe u

variable {α : Type u}

/-- Moves `data` through `buffer` into chunks.  Each turn takes at least one item, so the length of the
data bounds the turns. -/
def fill (size : Nat) : Nat → List α → List α → List (List α) × List α
  | 0, buffer, _ => ([], buffer)
  | _ + 1, buffer, [] => ([], buffer)
  | turns + 1, buffer, x :: data =>
    let count := min (size - buffer.length) (data.length + 1)
    let filled := buffer ++ (x :: data).take count
    if size ≤ filled.length then
      let rest := fill size turns [] ((x :: data).drop count)
      (filled :: rest.1, rest.2)
    else
      fill size turns filled ((x :: data).drop count)

def chunks (size : Nat) (data : List α) : List (List α) :=
  let filled := fill size data.length [] data
  if filled.2.isEmpty then filled.1 else filled.1 ++ [filled.2]

def fillAll (size : Nat) : List α → List (List α) → List (List α) × List α
  | buffer, [] => ([], buffer)
  | buffer, data :: pieces =>
    let filled := fill size data.length buffer data
    let rest := fillAll size filled.2 pieces
    (filled.1 ++ rest.1, rest.2)

variable {size : Nat}

lemma length_drop_lt {turns : Nat} {buf data : List α} {x : α}
    (hbuf : buf.length < size) (htur : (x :: data).length ≤ turns + 1) :
    ((x :: data).drop (min (size - buf.length) (data.length + 1))).length ≤ turns := by
  rw [length_drop]
  simp only [length_cons] at htur ⊢
  omega

lemma fill_flatten (size turns : Nat) (buf data : List α) (hbuf : buf.length < size)
    (htur : data.length ≤ turns) :
    (fill size turns buf data).1.flatten ++ (fill size turns buf data).2 = buf ++ data := by
  induction turns generalizing buf data with
  | zero =>
    have hnil : data = [] := eq_nil_of_length_eq_zero (Nat.le_zero.1 htur)
    simp [fill, hnil]
  | succ turns ih =>
    cases data with
    | nil => simp [fill]
    | cons x data =>
      have hres := length_drop_lt hbuf htur
      have hspl := take_append_drop (min (size - buf.length) (data.length + 1)) (x :: data)
      rw [fill]
      split
      · -- the buffer is full and starts again empty
        have hemp := Nat.lt_of_le_of_lt (Nat.zero_le _) hbuf
        have hih := ih [] _ hemp hres
        simp only [flatten_cons, append_assoc, hih, nil_append]
        rw [hspl]
      · rename_i hnot
        rw [ih _ _ (Nat.lt_of_not_le hnot) hres, append_assoc, hspl]

lemma fill_rest_lt (size turns : Nat) (buf data : List α) (hbuf : buf.length < size) :
    (fill size turns buf data).2.length < size := by
  induction turns generalizing buf data with
  | zero => exact hbuf
  | succ turns ih =>
    cases data with
    | nil => exact hbuf
    | cons x data =>
      rw [fill]
      split
      · exact ih [] _ (Nat.lt_of_le_of_lt (Nat.zero_le _) hbuf)
      · rename_i hnot
        exact ih _ _ (Nat.lt_of_not_le hnot)

lemma fillAll_flatten (size : Nat) (buf : List α) (piec : List (List α)) (hbuf : buf.length < size) :
    (fillAll size buf piec).1.flatten ++ (fillAll size buf piec).2 = buf ++ piec.flatten := by
  induction piec generalizing buf with
  | nil => simp [fillAll]
  | cons data piec ih =>
    have hres := fill_rest_lt size data.length buf data hbuf
    have hfil := fill_flatten size data.length buf data hbuf (Nat.le_refl _)
    simp only [fillAll, flatten_append, flatten_cons]
    rw [append_assoc, ih _ hres, ← append_assoc, hfil, append_assoc]

/-! ## The lengths of the chunks -/

def flush (filled : List (List α) × List α) : List (List α) :=
  if filled.2.isEmpty then filled.1 else filled.1 ++ [filled.2]

def Regular (size : Nat) (chunks : List (List α)) : Prop :=
  (∀ chunk ∈ chunks.dropLast, chunk.length = size) ∧ ∀ chunk ∈ chunks, 0 < chunk.length ∧
    chunk.length ≤ size

lemma fill_full (size turns : Nat) (buf data : List α) (hbuf : buf.length < size) :
    ∀ chunk ∈ (fill size turns buf data).1, chunk.length = size := by
  induction turns generalizing buf data with
  | zero => simp [fill]
  | succ turns ih =>
    cases data with
    | nil => simp [fill]
    | cons x data =>
      rw [fill]
      split
      swap
      · rename_i hnot
        exact ih _ _ (Nat.lt_of_not_le hnot)
      rename_i hful
      -- no more is taken than there is room in the buffer
      have hlen : (buf ++ (x :: data).take (min (size - buf.length) (data.length + 1))).length = size := by
        simp only [length_append, length_take, length_cons] at hful ⊢
        omega
      intro chunk hchu
      rcases mem_cons.1 hchu with rfl | hres
      · exact hlen
      · exact ih [] _ (Nat.lt_of_le_of_lt (Nat.zero_le _) hbuf) chunk hres

lemma fillAll_full (size : Nat) (buf : List α) (piec : List (List α)) (hbuf : buf.length < size) :
    (∀ chunk ∈ (fillAll size buf piec).1, chunk.length = size) ∧ (fillAll size buf piec).2.length <
      size := by
  induction piec generalizing buf with
  | nil => exact ⟨by simp [fillAll], hbuf⟩
  | cons data piec ih =>
    obtain ⟨hful, hres⟩ := ih _ (fill_rest_lt size data.length buf data hbuf)
    refine ⟨?_, hres⟩
    intro chunk hchu
    rcases mem_append.1 hchu with hnow | hlat
    · exact fill_full size data.length buf data hbuf chunk hnow
    · exact hful chunk hlat

lemma regular_of_full (hsiz : 0 < size) {full : List (List α)}
    (hful : ∀ chunk ∈ full, chunk.length = size) : Regular size full :=
  ⟨fun chunk hchu => hful chunk (dropLast_subset _ hchu),
    fun chunk hchu => by rw [hful chunk hchu]; exact ⟨hsiz, Nat.le_refl _⟩⟩

lemma regular_flush (hsiz : 0 < size) {filled : List (List α) × List α}
    (hful : ∀ chunk ∈ filled.1, chunk.length = size) (hres : filled.2.length < size) :
    Regular size (flush filled) := by
  unfold flush
  split
  · exact regular_of_full hsiz hful
  rename_i hemp
  refine ⟨by rwa [dropLast_concat], ?_⟩
  intro chunk hchu
  rcases mem_append.1 hchu with hmem | hmem
  · exact (regular_of_full hsiz hful).2 chunk hmem
  · obtain rfl := mem_singleton.1 hmem
    exact ⟨length_pos_iff.2 fun hnil => hemp (isEmpty_iff.2 hnil), Nat.le_of_lt hres⟩

lemma flush_flatten (filled : List (List α) × List α) :
    (flush filled).flatten = filled.1.flatten ++ filled.2 := by
  unfold flush
  split
  · rename_i hemp
    rw [isEmpty_iff.1 hemp, append_nil]
  · simp

lemma fillAll_full_flatten (hsiz : 0 < size) (piec : List (List α)) : (fillAll size [] piec).1.flatten =
    piec.flatten.take (piec.flatten.length - piec.flatten.length % size) := by
  obtain ⟨hful, hres⟩ := fillAll_full size [] piec hsiz
  have hfla := fillAll_flatten size [] piec hsiz
  generalize fillAll size [] piec = filled at hful hres hfla
  have hlen : filled.1.flatten.length = size * filled.1.length := by
    rw [length_flatten, map_congr_left hful, map_const', sum_replicate_nat, Nat.mul_comm]
  rw [nil_append] at hfla
  rw [← hfla, length_append, hlen, Nat.mul_add_mod, Nat.mod_eq_of_lt hres, Nat.add_sub_cancel,
    ← hlen, take_left']
  rfl

lemma chunks_flatten (hsiz : 0 < size) (data : List α) : (chunks size data).flatten = data := by
  have hfil := fill_flatten size data.length [] data hsiz (Nat.le_refl _)
  rw [nil_append] at hfil
  dsimp only [chunks]
  split
  · rename_i hemp
    rw [isEmpty_iff.1 hemp, append_nil] at hfil
    exact hfil
  · simpa using hfil

end Toolchain.Lib
