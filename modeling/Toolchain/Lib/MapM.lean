import Mathlib.Data.List.Forall2

/-!
# MapM — loops that may fail

`mapM` in `Option` is the loop that gives up at the first element without a result.
-/

namespace Toolchain.Lib

open List

variable {α β γ : Type} {f : α → Option β} {l : List α}

lemma forall₂_of_mapM_eq_some {r : List β} (h : l.mapM f = some r) :
    List.Forall₂ (fun a b => f a = some b) l r := by
  induction l generalizing r with
  | nil =>
    obtain rfl : [] = r := by simpa using h
    exact .nil
  | cons a l ih =>
    rcases hfa : f a with _ | b
    · simp [hfa] at h
    rcases hl : l.mapM f with _ | bs
    · simp [hl] at h
    · obtain rfl : b :: bs = r := by simpa [hfa, hl] using h
      exact .cons hfa (ih hl)

lemma mem_of_mapM_eq_some {r : List β} (h : l.mapM f = some r) (b : β) :
    b ∈ r ↔ ∃ a ∈ l, f a = some b := by
  have hfor := forall₂_of_mapM_eq_some h
  clear h
  induction hfor with
  | nil => simp
  | cons hab _ ih => simp [ih, hab, eq_comm]

lemma map_of_mapM_eq_some {g : β → γ} {h : α → γ} (hfg : ∀ a b, f a = some b → g b = h a) {r : List β}
    (hmap : l.mapM f = some r) : r.map g = l.map h := by
  have hfor := forall₂_of_mapM_eq_some hmap
  clear hmap
  induction hfor with
  | nil => rfl
  | cons hab _ ih => rw [map_cons, map_cons, hfg _ _ hab, ih]

lemma mapM_isSome_iff (f : α → Option β) (l : List α) :
    (l.mapM f).isSome = true ↔ ∀ a ∈ l, (f a).isSome = true := by
  induction l with
  | nil => simp
  | cons a l ih =>
    rw [mapM_cons, forall_mem_cons, ← ih]
    cases f a with
    | none => simp
    | some b => cases l.mapM f <;> simp

lemma exists_of_mapM_eq_none (h : l.mapM f = none) : ∃ a ∈ l, f a = none := by
  have hnot := mt (mapM_isSome_iff f l).2
  simpa [h] using hnot

lemma mapM_map_eq_some {read : β → Option γ} {write : α → β} {val : α → γ}
    (h : ∀ a ∈ l, read (write a) = some (val a)) :
    (l.map write).mapM read = some (l.map val) := by
  induction l with
  | nil => rfl
  | cons a l ih => simp [h a (.head _), ih fun b hb => h b (.tail _ hb)]

end Toolchain.Lib
