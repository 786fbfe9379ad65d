import Mathlib.Data.Char
import Mathlib.Data.List.Lex
import Toolchain.Lib.MapM
import Toolchain.Lib.Text

/-!
# Fields — tuples of strings as one string

A tuple of strings is written with a separator after each field.  If no field contains it, the fields
are read back by splitting, and if it is below every character of a field, the strings are ordered as
the tuples are.
-/

namespace Toolchain.Lib

open List

def terminated (separator : Char) (fields : List Text) : Text :=
  fields.flatMap (· ++ [separator])

variable (separator sep : Char)

@[simp] lemma terminated_nil : terminated sep [] = [] := rfl

@[simp] lemma terminated_cons (field : Text) (fields : List Text) :
    terminated sep (field :: fields) = field ++ sep :: terminated sep fields := by
  simp [terminated]

lemma intercalate_append_sep (fields : List Text) (hfie : fields ≠ []) :
    [sep].intercalate fields ++ [sep] = terminated sep fields := by
  induction fields with
  | nil => exact absurd rfl hfie
  | cons field fields ih =>
    cases fields with
    | nil => simp
    | cons next fields =>
      rw [intercalate_cons_cons, terminated_cons, ← ih (by simp)]
      simp

lemma splitOn_terminated (fiel : List Text) (hfre : ∀ field ∈ fiel, sep ∉ field) :
    (terminated sep fiel).splitOn sep = fiel ++ [[]] := by
  have hter : terminated sep fiel = [sep].intercalate (fiel ++ [[]]) := by
    cases fiel with
    | nil => rfl
    | cons field fiel =>
      rw [intercalate_append sep _ _ (by simp) (by simp), ← intercalate_append_sep sep _ (by simp)]
      simp
  rw [hter]
  apply splitOn_intercalate
  · intro field hfie
    rcases mem_append.1 hfie with hfie | hfie
    · exact hfre field hfie
    · simp_all
  · simp

lemma not_mem_of_mem_splitOn {sep : Char} {text field : Text} (h : field ∈ text.splitOn sep) :
    sep ∉ field := by
  induction text generalizing field with
  | nil => simp_all
  | cons c text ih =>
    rw [splitOn_cons_eq_if_modifyHead] at h
    split at h
    · rcases mem_cons.1 h with rfl | h
      · simp
      · exact ih h
    rename_i hne
    obtain ⟨first, rest, hspl⟩ := exists_cons_of_ne_nil (splitOn_ne_nil sep text)
    rw [hspl] at ih h
    rcases mem_cons.1 h with rfl | h
    · have hfir := ih (.head _)
      have hc : sep ≠ c := fun h => hne (by simp [h])
      simp [hc, hfir]
    · exact ih (.tail _ h)

lemma splitOn_intercalate_eq_iff {fiel : List Text} (hfiel : fiel ≠ []) :
    ([sep].intercalate fiel).splitOn sep = fiel ↔ ∀ field ∈ fiel, sep ∉ field := by
  constructor
  · intro hspl field hfie
    rw [← hspl] at hfie
    exact not_mem_of_mem_splitOn hfie
  · intro hfre
    exact splitOn_intercalate _ hfre hfiel

variable {rest others : Text}

lemma append_sep_isPrefix_iff {separator : Char} {field other : Text}
    (hfie : separator ∉ field) (hoth : separator ∉ other) :
    field ++ separator :: rest <+: other ++ separator :: others ↔ field = other ∧ rest <+: others := by
  induction field generalizing other with
  | nil =>
    cases other with
    | nil => simp [cons_prefix_cons]
    | cons d other =>
      have hne : separator ≠ d := fun h => hoth (by simp [h])
      simp [cons_prefix_cons, hne]
  | cons c field ih =>
    have hfie' : separator ∉ field := fun h => hfie (.tail _ h)
    cases other with
    | nil =>
      have hne : c ≠ separator := fun h => hfie (by simp [h])
      simp [cons_prefix_cons, hne]
    | cons d other =>
      have hoth' : separator ∉ other := fun h => hoth (.tail _ h)
      simp [cons_prefix_cons, ih hfie' hoth', and_assoc]

lemma append_sep_inj {sep : Char} {fld oth : Text} (hfie : sep ∉ fld) (hoth : sep ∉ oth) :
    fld ++ sep :: rest = oth ++ sep :: others ↔ fld = oth ∧ rest = others := by
  refine ⟨fun h => ?_, fun ⟨hfiel, hres⟩ => by rw [hfiel, hres]⟩
  obtain ⟨rfl, -⟩ := (append_sep_isPrefix_iff hfie hoth).1 ⟨[], by rw [append_nil, h]⟩
  exact ⟨rfl, by simpa using h⟩

lemma eq_and_eq_of_append_sep {sep : Char} {first first' last last' : Text} (hlas : sep ∉ last)
    (hlast' : sep ∉ last')
    (h : first ++ sep :: last = first' ++ sep :: last') : first = first' ∧ last = last' := by
  -- read backwards, the last separator comes first
  have hrev := congrArg reverse h
  rw [reverse_append, reverse_append, reverse_cons, reverse_cons, append_assoc, append_assoc] at hrev
  obtain ⟨hlast, hfir⟩ := (append_sep_inj (by simpa) (by simpa)).1 hrev
  exact ⟨reverse_injective hfir, reverse_injective hlast⟩

lemma terminated_isPrefix_iff {sep : Char} {flds others : List Text}
    (hfie : ∀ field ∈ flds, sep ∉ field) (hoth : ∀ field ∈ others, sep ∉ field) :
    terminated sep flds <+: terminated sep others ↔ flds <+: others := by
  induction flds generalizing others with
  | nil => simp
  | cons field flds ih =>
    cases others with
    | nil => simp
    | cons other others =>
      have hfiel := hfie field (.head _)
      have hothe := hoth other (.head _)
      have hres := ih (fun f hf => hfie f (.tail _ hf)) (fun f hf => hoth f (.tail _ hf))
      rw [terminated_cons, terminated_cons, append_sep_isPrefix_iff hfiel hothe, hres, cons_prefix_cons]

lemma append_sep_lt_iff {sep : Char} {fld oth : Text} (hfie : ∀ c ∈ fld, sep < c)
    (hoth : ∀ c ∈ oth, sep < c) :
    fld ++ sep :: rest < oth ++ sep :: others ↔ fld < oth ∨ fld = oth ∧ rest < others := by
  induction fld generalizing oth with
  | nil =>
    cases oth with
    | nil => simp
    | cons d oth =>
      have hlt := hoth d (.head _)
      simp [cons_lt_cons_iff, hlt]
  | cons c fld ih =>
    cases oth with
    | nil =>
      have hlt := hfie c (.head _)
      simp [cons_lt_cons_iff, hlt.not_gt, hlt.ne']
    | cons d oth =>
      have hres := ih (fun e he => hfie e (.tail _ he)) (fun e he => hoth e (.tail _ he))
      rw [cons_append, cons_append, cons_lt_cons_iff, hres, cons_lt_cons_iff, cons.injEq]
      tauto

lemma terminated_lt_iff {sep : Char} {flds others : List Text}
    (hlen : flds.length = others.length) (hfie : ∀ field ∈ flds, ∀ c ∈ field, sep < c)
    (hoth : ∀ field ∈ others, ∀ c ∈ field, sep < c) :
    terminated sep flds < terminated sep others ↔ flds < others := by
  induction flds generalizing others with
  | nil =>
    obtain rfl : others = [] := length_eq_zero_iff.1 hlen.symm
    simp
  | cons field flds ih =>
    cases others with
    | nil => simp at hlen
    | cons other others =>
      have hfiel := hfie field (.head _)
      have hothe := hoth other (.head _)
      have hres := ih (by simpa using hlen) (fun f hf => hfie f (.tail _ hf))
        (fun f hf => hoth f (.tail _ hf))
      rw [terminated_cons, terminated_cons, append_sep_lt_iff hfiel hothe, hres, cons_lt_cons_iff]
end Toolchain.Lib
