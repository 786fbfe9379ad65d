import Mathlib.Order.Compare
import Mathlib.Data.List.Perm.Basic

/-!
# Padded — comparing lists of different lengths

Two lists are compared at their first difference, and past the end of the shorter one with a padding
that depends on the element: `sign` is the result.  Such a comparison need not be transitive; `knotted`
describes the three lists for which it is not (`coherent_iff`).
-/

namespace Toolchain.Lib

open List

/-- The results of comparing three things, the first with the second, the second with the third and
the first with the third, fit together. -/
def Coherent : Ordering → Ordering → Ordering → Prop
  | .eq, second, third => third = second
  | first, .eq, third => third = first
  | .lt, .lt, third => third = .lt
  | .gt, .gt, third => third = .gt
  | _, _, _ => True

instance (first second third : Ordering) : Decidable (Coherent first second third) := by
  unfold Coherent
  split
  all_goals infer_instance

namespace Coherent

variable {first second third : Ordering}

section

variable (h : Coherent first second third)

include h

lemma then_of_ne (hne : ¬ (first = .eq ∧ second = .eq)) (first' second' third' : Ordering) :
    Coherent (first.then first') (second.then second') (third.then third') := by
  revert first second third first' second' third'
  decide

lemma swap_first : Coherent first.swap third second := by
  revert first second third
  decide

lemma swap_second : Coherent third second.swap first := by
  revert first second third
  decide

end

lemma of_transitive (heq : first = .eq → second = .eq → third = .eq)
    (heq' : first = .eq → third = .eq → second = .eq)
    (heq'' : third = .eq → second = .eq → first = .eq)
    (hlt : first = .lt → second = .lt → third = .lt)
    (hlt' : first = .gt → third = .lt → second = .lt)
    (hlt'' : third = .lt → second = .gt → first = .lt)
    (hgt : first = .gt → second = .gt → third = .gt)
    (hgt' : first = .lt → third = .gt → second = .gt)
    (hgt'' : third = .gt → second = .lt → first = .gt) : Coherent first second third := by
  revert first second third
  decide

end Coherent

variable {α : Type} (cmp : α → α → Ordering) (sign : α → Ordering)

def excess : List α → Ordering
  | [] => .eq
  | x :: xs => (sign x).then (excess xs)

def paddedCompare : List α → List α → Ordering
  | [], ys => (excess sign ys).swap
  | x :: xs, [] => excess sign (x :: xs)
  | x :: xs, y :: ys => (cmp x y).then (paddedCompare xs ys)

/-- The lists agree up to a position where the first is less; but what is left of the first is not less
than padding, nor that of the second greater. -/
def knottedAtEnd : List α → List α → Bool
  | y :: ys, z :: zs =>
    cmp y z == .lt && excess sign (y :: ys) != .lt && excess sign (z :: zs) != .gt ||
      sign y == .eq && sign z == .eq && cmp y z == .eq && knottedAtEnd ys zs
  | _, _ => false

/-- All three agree until the first one has ended, and the others are knotted there. -/
def knotted : List α → List α → List α → Bool
  | [], ys, zs => knottedAtEnd cmp sign ys zs
  | x :: xs, y :: ys, z :: zs => cmp x y == .eq && cmp y z == .eq && knotted xs ys zs
  | _, _, _ => false

def Tangled (x y z : List α) : Prop :=
  knotted cmp sign x y z = true ∨ knotted cmp sign x z y = true ∨ knotted cmp sign y x z = true ∨
    knotted cmp sign y z x = true ∨ knotted cmp sign z x y = true ∨ knotted cmp sign z y x = true

variable {cmp sign}

variable {x y z : List α}

lemma Tangled.swap_first (h : Tangled cmp sign x y z) :
    Tangled cmp sign y x z := by
  unfold Tangled at h ⊢
  tauto

lemma Tangled.swap_second (h : Tangled cmp sign x y z) :
    Tangled cmp sign x z y := by
  unfold Tangled at h ⊢
  tauto

/-! ## The comparison of two lists -/

section

variable [Std.OrientedCmp cmp]

omit [Std.OrientedCmp cmp] in
lemma padded_nil_right (x : List α) : paddedCompare cmp sign x [] = excess sign x := by
  cases x with
  | nil | cons x xs => rfl

lemma padded_swap (x y : List α) : (paddedCompare cmp sign x y).swap = paddedCompare cmp sign y x := by
  induction x generalizing y with
  | nil => rw [paddedCompare, Ordering.swap_swap, padded_nil_right]
  | cons x xs ih =>
    cases y with
    | nil => rfl
    | cons y ys =>
      have hswa : cmp y x = (cmp x y).swap := Std.OrientedCmp.eq_swap
      simp only [paddedCompare, Ordering.swap_then, ih, hswa]

lemma padded_self (x : List α) : paddedCompare cmp sign x x = .eq := by
  induction x with
  | nil => rfl
  | cons x xs ih => simp only [paddedCompare, ih, Std.ReflCmp.compare_self, Ordering.then_eq]

end

/-! ## The comparison of three lists -/

section

variable [Std.TransCmp cmp]

lemma coherent_cmp (x y z : α) : Coherent (cmp x y) (cmp y z) (cmp x z) := by
  cases hxy : cmp x y with
  | eq =>
    rw [Std.TransCmp.congr_left hxy]
    rfl
  | lt =>
    cases hyz : cmp y z with
    | eq => rw [← Std.TransCmp.congr_right hyz, hxy]; rfl
    | lt => exact Std.TransCmp.lt_trans hxy hyz
    | gt => exact trivial
  | gt =>
    cases hyz : cmp y z with
    | eq => rw [← Std.TransCmp.congr_right hyz, hxy]; rfl
    | lt => exact trivial
    | gt => exact Std.TransCmp.gt_trans hxy hyz

omit [Std.TransCmp cmp] in
lemma coherent_or_knotted_of_lt {y z : α} {ys zs : List α} (hyz : cmp y z = .lt) :
    Coherent (paddedCompare cmp sign [] (y :: ys)) (paddedCompare cmp sign (y :: ys) (z :: zs))
    (paddedCompare cmp sign [] (z :: zs)) ∨
    knottedAtEnd cmp sign (y :: ys) (z :: zs) = true ∨
    knottedAtEnd cmp sign (z :: zs) (y :: ys) = true := by
  simp only [paddedCompare, knottedAtEnd, hyz, Ordering.then]
  generalize excess sign (y :: ys) = e
  generalize excess sign (z :: zs) = f
  cases e with
  | lt => exact .inl trivial
  | eq | gt =>
    cases f with
    | gt => exact .inl rfl
    | lt | eq => exact .inr (.inl rfl)

lemma coherent_or_tangled_nil (hsig : ∀ x y, cmp x y = .eq → sign x = sign y) (y z : List α) :
    Coherent (paddedCompare cmp sign [] y) (paddedCompare cmp sign y z) (paddedCompare cmp sign [] z) ∨
    knottedAtEnd cmp sign y z = true ∨ knottedAtEnd cmp sign z y = true := by
  induction y generalizing z with
  | nil =>
    left
    rw [padded_self]
    exact rfl
  | cons y ys ih =>
    cases z with
    | nil =>
      left
      rw [padded_self, padded_nil_right, paddedCompare]
      cases excess sign (y :: ys) with
      | lt | gt => exact trivial
      | eq => exact rfl
    | cons z zs =>
      have hswa : cmp z y = (cmp y z).swap := Std.OrientedCmp.eq_swap
      cases hyz : cmp y z with
      | lt => exact coherent_or_knotted_of_lt hyz
      | gt =>
        rw [hyz] at hswa
        -- the same with the two lists exchanged
        obtain hcoh | hkno | hkno := @coherent_or_knotted_of_lt _ cmp sign z y zs ys hswa
        · left
          have := hcoh.swap_second
          rwa [padded_swap] at this
        · exact .inr (.inr hkno)
        · exact .inr (.inl hkno)
      | eq =>
        rw [hyz] at hswa
        have ih := ih zs
        simp only [paddedCompare, knottedAtEnd, excess, hyz, hswa, Ordering.swap_eq, hsig y z hyz] at ih ⊢
        generalize sign z = s at *
        generalize excess sign ys = e at *
        generalize excess sign zs = f at *
        generalize paddedCompare cmp sign ys zs = t at *
        generalize knottedAtEnd cmp sign ys zs = k at *
        generalize knottedAtEnd cmp sign zs ys = l at *
        clear hyz hswa hsig
        revert s e f t k l
        decide

omit [Std.TransCmp cmp] in
lemma not_coherent_of_knottedAtEnd (h : knottedAtEnd cmp sign y z = true) :
    ¬ Coherent (paddedCompare cmp sign [] y) (paddedCompare cmp sign y z)
      (paddedCompare cmp sign [] z) := by
  induction y generalizing z with
  | nil => exact absurd h Bool.false_ne_true
  | cons y ys ih =>
    cases z with
    | nil => exact absurd h Bool.false_ne_true
    | cons z zs =>
      rw [knottedAtEnd, Bool.or_eq_true] at h
      obtain h | h := h
      · simp only [Bool.and_eq_true, beq_iff_eq, bne_iff_ne] at h
        obtain ⟨⟨hyz, hy⟩, hz⟩ := h
        simp only [paddedCompare, hyz, Ordering.then]
        generalize excess sign (y :: ys) = e at *
        generalize excess sign (z :: zs) = f at *
        clear hyz
        revert e f
        decide
      · simp only [Bool.and_eq_true, beq_iff_eq] at h
        obtain ⟨⟨⟨hy, hz⟩, hyz⟩, hkno⟩ := h
        have hres := ih hkno
        simpa [paddedCompare, excess, hy, hz, hyz] using hres

lemma not_coherent_of_knotted (h : knotted cmp sign x y z = true) :
    ¬ Coherent (paddedCompare cmp sign x y) (paddedCompare cmp sign y z) (paddedCompare cmp sign x z) := by
  induction x generalizing y z with
  | nil => exact not_coherent_of_knottedAtEnd h
  | cons x xs ih =>
    match y, z with
    | [], _ => exact absurd h Bool.false_ne_true
    | _ :: _, [] => exact absurd h Bool.false_ne_true
    | y :: ys, z :: zs =>
      simp only [knotted, Bool.and_eq_true, beq_iff_eq] at h
      obtain ⟨⟨hxy, hyz⟩, hkno⟩ := h
      have hxz : cmp x z = .eq := by rw [Std.TransCmp.congr_left hxy, hyz]
      have hres := ih hkno
      simpa [paddedCompare, hxy, hyz, hxz] using hres

section

variable (hsig : ∀ x y, cmp x y = .eq → sign x = sign y)

include hsig

lemma coherent_or_tangled (x y z : List α) :
    Coherent (paddedCompare cmp sign x y) (paddedCompare cmp sign y z)
    (paddedCompare cmp sign x z) ∨ Tangled cmp sign x y z := by
  -- one of the three has ended: the others are compared at its end
  have hend (y z : List α) : Coherent (paddedCompare cmp sign [] y) (paddedCompare cmp sign y z)
      (paddedCompare cmp sign [] z) ∨ Tangled cmp sign [] y z := by
    obtain h | h | h := coherent_or_tangled_nil hsig y z
    · exact .inl h
    · exact .inr (.inl h)
    · exact .inr (.inr (.inl h))
  induction x generalizing y z with
  | nil => exact hend y z
  | cons x xs ih =>
    match y, z with
    | [], z =>
      refine (hend (x :: xs) z).imp (fun h => ?_) Tangled.swap_first
      have := h.swap_first
      rwa [padded_swap] at this
    | y :: ys, [] =>
      refine (hend (x :: xs) (y :: ys)).imp (fun h => ?_) fun h => h.swap_first.swap_second
      have := h.swap_first.swap_second
      rwa [padded_swap, padded_swap] at this
    | y :: ys, z :: zs =>
      have hhea : Coherent (cmp x y) (cmp y z) (cmp x z) := coherent_cmp x y z
      by_cases heq : cmp x y = .eq ∧ cmp y z = .eq
      · obtain ⟨hxy, hyz⟩ := heq
        have hxz : cmp x z = .eq := by rw [Std.TransCmp.congr_left hxy, hyz]
        have hyx := Std.OrientedCmp.eq_symm hxy
        have hzy := Std.OrientedCmp.eq_symm hyz
        have hzx := Std.OrientedCmp.eq_symm hxz
        simpa [paddedCompare, Tangled, knotted, hxy, hyz, hxz, hyx, hzy, hzx] using ih ys zs
      · exact .inl (hhea.then_of_ne heq _ _ _)

lemma coherent_iff (lists : List α → Prop) :
    (∀ x y z, lists x → lists y → lists z →
      Coherent (paddedCompare cmp sign x y) (paddedCompare cmp sign y z)
    (paddedCompare cmp sign x z)) ↔
    ∀ x y z, lists x → lists y → lists z → knotted cmp sign x y z = false := by
  constructor
  · intro h x y z hx hy hz
    by_contra hkno
    exact not_coherent_of_knotted (eq_true_of_ne_false hkno) (h x y z hx hy hz)
  · intro h x y z hx hy hz
    obtain hcoh | htan := coherent_or_tangled hsig x y z
    · exact hcoh
    · unfold Tangled at htan
      simp [h, hx, hy, hz] at htan

end

end

/-! ## Sorting -/

section

variable {α : Type} {cmp : α → α → Ordering} {xs ys : List α}

lemma exists_split_of_getElem? {i : Nat} {x : α} (h : xs[i]? = some x) :
    ∃ before after, xs = before ++ x :: after ∧ before.length = i := by
  obtain ⟨hi, rfl⟩ := List.getElem?_eq_some_iff.1 h
  refine ⟨xs.take i, xs.drop (i + 1), ?_, ?_⟩
  · rw [← drop_eq_getElem_cons hi, take_append_drop]
  · rw [length_take]
    omega

section

variable (hswa : ∀ x ∈ xs, ∀ y ∈ xs, cmp y x = (cmp x y).swap)
  (hcoh : ∀ x ∈ xs, ∀ y ∈ xs, ∀ z ∈ xs, Coherent (cmp x y) (cmp y z) (cmp x z)) (hper : xs.Perm ys)
  (hxs : xs.Pairwise fun x y => cmp x y ≠ .gt) (hys : ys.Pairwise fun x y => cmp x y ≠ .gt)

include hswa hcoh hper hxs hys

lemma not_lt_of_perm {i : Nat} {x y : α} (hx : xs[i]? = some x) (hy : ys[i]? = some y) :
    cmp x y ≠ .lt := by
  intro hlt
  have hxme : x ∈ xs := mem_of_getElem? hx
  have hmem (z : α) (hz : z ∈ ys) : z ∈ xs := hper.mem_iff.2 hz
  obtain ⟨bef, after, hspl, hlen⟩ := exists_split_of_getElem? hx
  obtain ⟨before', after', hspl', hlen'⟩ := exists_split_of_getElem? hy
  -- what is not greater than `x` is counted: more than `i` in one list, at most `i` in the other
  let small (z : α) : Bool := cmp z x != .gt
  have hsel : small x = true := by
    have := hswa x hxme x hxme
    cases hxx : cmp x x with
    | lt | eq => simp [small, hxx]
    | gt => simp [hxx] at this
  have hman : i + 1 ≤ xs.countP small := by
    have hbef : bef.countP small = bef.length := by
      rw [countP_eq_length]
      intro z hz
      rw [hspl] at hxs
      simpa [small] using (pairwise_append.1 hxs).2.2 z hz x (.head _)
    rw [hspl, countP_append, countP_cons_of_pos hsel, hbef, hlen]
    omega
  have hfew : ys.countP small ≤ i := by
    have hres : (y :: after').countP small = 0 := by
      rw [countP_eq_zero]
      intro z hz
      have hzme : z ∈ ys := hspl' ▸ mem_append_right _ hz
      have hyme : y ∈ ys := hspl' ▸ mem_append_right _ (.head _)
      have hyz : z = y ∨ cmp y z ≠ .gt := by
        rw [hspl'] at hys
        obtain rfl | hz := mem_cons.1 hz
        · exact .inl rfl
        · exact .inr (rel_of_pairwise_cons (pairwise_append.1 hys).2.1 hz)
      have hxz : cmp x z = .lt := by
        obtain rfl | hyz := hyz
        · exact hlt
        have := hcoh x hxme y (hmem y hyme) z (hmem z hzme)
        rw [hlt] at this
        cases hcmp : cmp y z with
        | lt | eq =>
          rw [hcmp] at this
          exact this
        | gt => exact absurd hcmp hyz
      simp [small, hswa x hxme z (hmem z hzme), hxz]
    have hlow := @countP_le_length _ small before'
    rw [hspl', countP_append, hres]
    omega
  have hcou := hper.countP_eq small
  omega

lemma forall₂_eq_of_perm : List.Forall₂ (fun x y => cmp x y = .eq) xs ys := by
  have hmem (z : α) (hz : z ∈ ys) : z ∈ xs := hper.mem_iff.2 hz
  rw [forall₂_iff_get]
  refine ⟨hper.length_eq, fun i hi hj => ?_⟩
  have hx : xs[i]? = some (xs.get ⟨i, hi⟩) := by simp
  have hy : ys[i]? = some (ys.get ⟨i, hj⟩) := by simp
  have hxme := mem_of_getElem? hx
  have hyme := hmem _ (mem_of_getElem? hy)
  have hlt := not_lt_of_perm hswa hcoh hper hxs hys hx hy
  have hgt := not_lt_of_perm (fun x hx y hy => hswa x (hmem x hx) y (hmem y hy))
    (fun x hx y hy z hz => hcoh x (hmem x hx) y (hmem y hy) z (hmem z hz))
    hper.symm hys hxs hy hx
  rw [hswa _ hxme _ hyme] at hgt
  cases hcmp : cmp (xs.get ⟨i, hi⟩) (ys.get ⟨i, hj⟩) with
  | lt => exact absurd hcmp hlt
  | eq => rfl
  | gt => exact absurd (by rw [hcmp]; rfl) hgt

end

end

end Toolchain.Lib
