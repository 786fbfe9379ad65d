import Mathlib.Algebra.BigOperators.Group.List.Basic
import Mathlib.Algebra.GroupWithZero.Nat

/-!
# Text — strings cut at separators and at byte positions

A string is the list of its characters; `sliceTo` cuts it at a byte position of UTF-8 and fails inside a
character.  A string of components is cut at the length of its first ones (`sliceTo_components`), and
numbers are read as Rust's `parse::<usize>` does.
-/

namespace Toolchain.Lib

open List

abbrev Text := List Char

instance : LawfulBEq Text := inferInstance

def utf8Length (text : Text) : Nat :=
  (text.map Char.utf8Size).sum

/-- The first bytes of a string; there are none if the position is not between characters. -/
def sliceTo : Nat → Text → Option Text
  | 0, _ => some []
  | _ + 1, [] => none
  | position + 1, c :: rest =>
    if c.utf8Size ≤ position + 1 then (sliceTo (position + 1 - c.utf8Size) rest).map (c :: ·) else none

open Nat

@[simp] lemma utf8Length_nil : utf8Length [] = 0 := rfl

@[simp] lemma utf8Length_cons (c : Char) (text : Text) :
    utf8Length (c :: text) = c.utf8Size + utf8Length text := rfl

@[simp] lemma utf8Length_append (text rest : Text) :
    utf8Length (text ++ rest) = utf8Length text + utf8Length rest := by
  simp [utf8Length]

lemma sliceTo_append (text rest : Text) : sliceTo (utf8Length text) (text ++ rest) = some text := by
  induction text with
  | nil => simp [sliceTo]
  | cons c text ih =>
    have hpos := Char.utf8Size_pos c
    rcases hlen : utf8Length (c :: text) with _ | position
    · simp only [utf8Length_cons] at hlen
      omega
    have hle : c.utf8Size ≤ position + 1 := by
      rw [← hlen, utf8Length_cons]
      exact le_add_right _ _
    have hres : position + 1 - c.utf8Size = utf8Length text := by
      rw [← hlen, utf8Length_cons, Nat.add_sub_cancel_left]
    simp [sliceTo, hle, hres, ih]

/-! ## Components -/

variable (sep : Char)

lemma intercalate_append (first rest : List Text) (hfir : first ≠ []) (hres : rest ≠ []) :
    [sep].intercalate (first ++ rest) = [sep].intercalate first ++ sep :: [sep].intercalate rest := by
  induction first with
  | nil => exact absurd rfl hfir
  | cons text first ih =>
    cases first with
    | nil =>
      cases rest with
      | nil => exact absurd rfl hres
      | cons next rest => simp [intercalate_cons_cons]
    | cons next first =>
      simp only [cons_append, intercalate_cons_cons]
      rw [← cons_append, ih (by simp)]
      simp

lemma utf8Length_intercalate (hsep : sep.utf8Size = 1) (comps : List Text) :
    utf8Length ([sep].intercalate comps) = (comps.map utf8Length).sum + comps.length - 1 := by
  induction comps with
  | nil => rfl
  | cons text comps ih =>
    cases comps with
    | nil => simp
    | cons next comps =>
      rw [intercalate_cons_cons, utf8Length_append, utf8Length_append, ih]
      simp only [utf8Length_cons, utf8Length_nil, hsep, map_cons, sum_cons, length_cons]
      omega

lemma sliceTo_components (hsep : sep.utf8Size = 1) (text : Text)
    {count : Nat} (hcou : count < (text.splitOn sep).length) :
    sliceTo ((((text.splitOn sep).take count).map utf8Length).sum +
      ((text.splitOn sep).take count).length - 1) text =
    some ([sep].intercalate ((text.splitOn sep).take count)) := by
  rw [← utf8Length_intercalate sep hsep]
  rcases Nat.eq_zero_or_pos count with rfl | hpos
  · simp [sliceTo]
  have htak : (text.splitOn sep).take count ≠ [] := by
    intro hnil
    rcases take_eq_nil_iff.1 hnil with hzer | hnil
    · omega
    · simp [hnil] at hcou
  have hdro : (text.splitOn sep).drop count ≠ [] := by
    intro hnil
    have := drop_eq_nil_iff.1 hnil
    omega
  have hspl : text = [sep].intercalate ((text.splitOn sep).take count) ++
      sep :: [sep].intercalate ((text.splitOn sep).drop count) := by
    rw [← intercalate_append sep _ _ htak hdro, take_append_drop, intercalate_splitOn]
  have hsli := sliceTo_append ([sep].intercalate ((text.splitOn sep).take count))
    (sep :: [sep].intercalate ((text.splitOn sep).drop count))
  rwa [← hspl] at hsli

lemma intercalate_ne_head (first next : Text) (rest : List Text) :
    [sep].intercalate (first :: next :: rest) ≠ first := by
  intro h
  have hlen := congrArg length h
  rw [intercalate_cons_cons] at hlen
  simp only [length_append, length_cons, length_nil] at hlen
  omega

/-! ## Numbers -/

def decimal (number : Nat) : Text :=
  (toString number).toList

lemma decimal_eq_toDigits (number : Nat) : decimal number = Nat.toDigits 10 number := toList_repr

lemma decimal_injective : Function.Injective decimal := by
  intro number number' h
  rw [decimal_eq_toDigits, decimal_eq_toDigits] at h
  have hval := congrArg (ofDigitChars 10 · 0) h
  simpa [ofDigitChars_toDigits] using hval

lemma not_mem_decimal {c : Char} (hc : c.isDigit = false) (number : Nat) : c ∉ decimal number := by
  rw [decimal_eq_toDigits]
  intro hmem
  have hdig := isDigit_of_mem_toDigits (by decide) (by decide) hmem
  rw [hc] at hdig
  cases hdig

def digitValue (c : Char) : Option Nat :=
  if '0' ≤ c ∧ c ≤ '9' then some (c.toNat - '0'.toNat) else none

def parseDigits (bound : Nat) : Nat → Text → Option Nat
  | number, [] => some number
  | number, c :: rest =>
    match digitValue c with
    | none => none
    | some digit =>
      if number * 10 + digit < bound then parseDigits bound (number * 10 + digit) rest else none

def parseUsize : Text → Option Nat
  | [] => none
  | '+' :: [] => none
  | '+' :: digits => parseDigits (2 ^ 64) 0 digits
  | digits => parseDigits (2 ^ 64) 0 digits

variable {bound : Nat} {text : Text}

lemma parseDigits_lt {num val : Nat} (hnum : num < bound)
    (h : parseDigits bound num text = some val) : val < bound := by
  induction text generalizing num with
  | nil =>
    cases h
    exact hnum
  | cons c rest ih =>
    rw [parseDigits] at h
    split at h
    · cases h
    split at h
    · rename_i hlt
      exact ih hlt h
    · cases h

lemma parseUsize_lt {val : Nat} (h : parseUsize text = some val) : val < 2 ^ 64 := by
  unfold parseUsize at h
  split at h
  · cases h
  · cases h
  · exact parseDigits_lt (by decide) h
  · exact parseDigits_lt (by decide) h

lemma le_ofDigitChars (text : Text) (number : Nat) : number ≤ Nat.ofDigitChars 10 text number := by
  induction text generalizing number with
  | nil => exact Nat.le_refl _
  | cons c rest ih =>
    rw [ofDigitChars_cons]
    exact Nat.le_trans (by omega) (ih _)

lemma parseDigits_eq_some (hdig : ∀ c ∈ text, c.isDigit = true)
    {num : Nat} (hlt : Nat.ofDigitChars 10 text num < bound) :
    parseDigits bound num text = some (Nat.ofDigitChars 10 text num) := by
  induction text generalizing num with
  | nil => rfl
  | cons c rest ih =>
    have hc : '0' ≤ c ∧ c ≤ '9' := by
      have hc := hdig c (.head _)
      simpa [Char.isDigit, Char.le_def] using hc
    rw [ofDigitChars_cons, mul_comm] at hlt
    rw [parseDigits, digitValue, if_pos hc]
    simp only
    rw [if_pos (Nat.lt_of_le_of_lt (le_ofDigitChars rest _) hlt),
      ih (fun d hd => hdig d (mem_cons_of_mem c hd)) hlt, ofDigitChars_cons, mul_comm]

lemma parseUsize_decimal {size : Nat} (h : size < 2 ^ 64) : parseUsize (decimal size) = some size := by
  have hval : ofDigitChars 10 (decimal size) 0 = size := by
    rw [decimal_eq_toDigits]
    exact ofDigitChars_toDigits (by decide) (by decide)
  have hdig : ∀ c ∈ decimal size, c.isDigit = true := by
    intro c hc
    rw [decimal_eq_toDigits] at hc
    exact isDigit_of_mem_toDigits (by decide) (by decide) hc
  have hpar := parseDigits_eq_some hdig (hval.trans_lt h)
  rw [hval] at hpar
  unfold parseUsize
  split
  · rename_i hnil
    rw [decimal_eq_toDigits] at hnil
    exact absurd hnil toDigits_ne_nil
  · rename_i hplu
    exact absurd (hdig '+' (by simp [hplu])) (by decide)
  · rename_i hplu
    exact absurd (hdig '+' (by simp [hplu])) (by decide)
  · exact hpar

/-! ## UUIDs -/

@[ext] structure Uuid where
  text : Text
  length_text : text.length = 36
  mem_text : ∀ c ∈ text, c = '-' ∨ c.isDigit ∨ c ∈ "abcdef".toList

lemma Uuid.nil_canonical :
    let text := "00000000-0000-0000-0000-000000000000".toList
    text.length = 36 ∧ ∀ c ∈ text, c = '-' ∨ c.isDigit ∨ c ∈ "abcdef".toList := by
  refine ⟨rfl, ?_⟩
  simp

def Uuid.nil : Uuid where
  text := "00000000-0000-0000-0000-000000000000".toList
  length_text := Uuid.nil_canonical.1
  mem_text := Uuid.nil_canonical.2

lemma Uuid.colon_not_mem (uuid : Uuid) : ':' ∉ uuid.text := by
  intro hmem
  exact absurd (uuid.mem_text ':' hmem) (by decide)

end Toolchain.Lib
