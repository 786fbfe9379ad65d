import Mathlib.Data.List.Induction

/-!
# Dict — dictionaries that remember the order of their keys

A dictionary is the list of its entries, in the order in which their keys were first assigned.
-/

namespace Toolchain.Lib

open List

namespace Dict

variable {κ ν : Type} [DecidableEq κ]

/-- Sets an entry; an old one with the same key keeps its place. -/
def assign (dict : List (κ × ν)) (entry : κ × ν) : List (κ × ν) :=
  if dict.any fun old => old.1 = entry.1 then
    dict.map fun old => if old.1 = entry.1 then entry else old
  else
    dict ++ [entry]

variable {dict : List (κ × ν)}

lemma assign_of_notMem {ent : κ × ν} (h : ent.1 ∉ dict.map Prod.fst) :
    assign dict ent = dict ++ [ent] := by
  rw [assign, if_neg]
  intro hany
  obtain ⟨old, hold, hkey⟩ := any_eq_true.1 hany
  exact h (mem_map.mpr ⟨old, hold, of_decide_eq_true hkey⟩)

lemma mem_assign_iff {ent oth : κ × ν} :
    oth ∈ assign dict ent ↔ oth = ent ∨ oth ∈ dict ∧ oth.1 ≠ ent.1 := by
  rw [assign]
  split
  · rename_i hany
    obtain ⟨old, hold, hkey⟩ := any_eq_true.1 hany
    rw [mem_map]
    constructor
    · rintro ⟨old', hmem, rfl⟩
      split
      · exact .inl rfl
      · rename_i hne
        exact .inr ⟨hmem, hne⟩
    · rintro (rfl | ⟨hmem, hne⟩)
      · exact ⟨old, hold, if_pos (of_decide_eq_true hkey)⟩
      · exact ⟨oth, hmem, if_neg hne⟩
  · rename_i hany
    rw [mem_append, mem_singleton, or_comm]
    refine or_congr_right (iff_self_and.mpr fun hmem hkey => hany ?_)
    exact any_eq_true.2 ⟨oth, hmem, decide_eq_true hkey⟩

lemma nodup_keys_assign (h : (dict.map Prod.fst).Nodup) (ent : κ × ν) :
    ((assign dict ent).map Prod.fst).Nodup := by
  rw [assign]
  split
  · have hsam : (dict.map fun old => if old.1 = ent.1 then ent else old).map Prod.fst =
      dict.map Prod.fst := by
      rw [map_map]
      refine map_congr_left fun old _ => ?_
      simp only [Function.comp_apply]
      split
      · rename_i hkey
        exact hkey.symm
      · rfl
    rwa [hsam]
  · rename_i hany
    rw [map_append, nodup_append]
    refine ⟨h, by simp, ?_⟩
    rintro key hkey _ hent rfl
    obtain ⟨old, hold, rfl⟩ := mem_map.mp hkey
    exact hany (any_eq_true.2 ⟨old, hold, decide_eq_true (mem_singleton.mp hent)⟩)

variable [BEq κ] [LawfulBEq κ]

lemma lookup_replace (dict : List (κ × ν)) (name : κ) (val : ν) (key : κ) :
    (dict.map fun old => if old.1 = name then (name, val) else old).lookup key =
    if key = name then (dict.lookup key).map fun _ => val else dict.lookup key := by
  induction dict with
  | nil => simp
  | cons old dict ih =>
    obtain ⟨oldKey, oldValue⟩ := old
    by_cases hold : oldKey = name
    · subst hold
      by_cases hkey : key = oldKey
      · simp [hkey]
      · have hne : (key == oldKey) = false := by simpa using hkey
        simpa [lookup_cons, hne, hkey] using ih
    · by_cases hkey : key = oldKey
      · subst hkey
        simp [hold]
      · have hne : (key == oldKey) = false := by simpa using hkey
        simpa [lookup_cons, hne, hold] using ih

lemma lookup_assign (dict : List (κ × ν)) (name : κ) (val : ν) (key : κ) :
    (assign dict (name, val)).lookup key = if key = name then some val else dict.lookup key := by
  rw [assign]
  split
  · rename_i hany
    rw [lookup_replace]
    split
    swap
    · rfl
    rename_i hkey
    -- the key has an entry, which was replaced
    obtain ⟨old, hmem, hold⟩ := any_eq_true.1 hany
    have hsom : (dict.lookup key).isSome = true := by
      rw [lookup_isSome_iff]
      exact ⟨old, hmem, by simpa [hkey] using (of_decide_eq_true hold).symm⟩
    obtain ⟨found, hfou⟩ := Option.isSome_iff_exists.1 hsom
    simp [hfou]
  · rename_i hany
    rw [lookup_append]
    by_cases hkey : key = name
    swap
    · have hne : (key == name) = false := by simpa using hkey
      simp [lookup_cons, hne, hkey]
    have hnon : dict.lookup key = none := by
      rw [lookup_eq_none_iff]
      intro old hmem
      simp only [bne_iff_ne, ne_eq]
      intro hold
      exact hany (any_eq_true.2 ⟨old, hmem, decide_eq_true (hold.symm.trans hkey)⟩)
    rw [hnon, hkey]
    simp

lemma lookup_eq_some_iff_mem (h : (dict.map Prod.fst).Nodup) {key : κ}
    {val : ν} : dict.lookup key = some val ↔ (key, val) ∈ dict := by
  induction dict with
  | nil => simp
  | cons entry dict ih =>
    obtain ⟨name, old⟩ := entry
    rw [map_cons, nodup_cons] at h
    rw [lookup_cons, mem_cons]
    by_cases hkey : key = name
    · subst hkey
      have hfre : (key, val) ∉ dict := fun hmem => h.1 (mem_map.mpr ⟨_, hmem, rfl⟩)
      simp [hfre, eq_comm]
    · have hne : (key == name) = false := by simpa using hkey
      simp [hne, hkey, ih h.2]

/-- Assignments one after another leave, under every key, the last value. -/
lemma foldl_assign {α : Type} (key : α → κ) (value : α → ν) (list : List α) :
    ((list.foldl (fun dict a => assign dict (key a, value a)) []).map Prod.fst).Nodup ∧ ∀ name,
    (list.foldl (fun dict a => assign dict (key a, value a)) []).lookup name =
    (list.reverse.find? (key · = name)).map value := by
  induction list using reverseRecOn with
  | nil => simp
  | append_singleton list a ih =>
    rw [foldl_append, foldl_cons, foldl_nil, reverse_concat]
    refine ⟨nodup_keys_assign ih.1 _, fun name => ?_⟩
    rw [lookup_assign, find?_cons]
    by_cases hnam : name = key a
    · simp [hnam]
    · simpa [hnam, Ne.symm hnam] using ih.2 name

end Dict
end Toolchain.Lib
