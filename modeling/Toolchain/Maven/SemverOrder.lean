import Mathlib.Data.Char
import Mathlib.Data.List.Lex
import Mathlib.Data.List.TakeWhile
import Mathlib.Data.Set.Basic
import Toolchain.Lib.Padded
import Toolchain.Maven.Semver

/-!
# Maven.SemverOrder — the order of Maven versions

Parts are linearly ordered up to equality (`MavenSemverPart.order`).  Past the end of a version the
padding is `.0` after a dot and an empty qualifier after a hyphen, which is below zero: `1` is less than
`1-foo`, which is less than `1.00`, which is equal to `1`.  The constructor raises if nothing but null
values stand before the first hyphen.
-/

namespace Toolchain.Maven

open Lib List MavenSemver MavenSemverPart Ordering

variable (unicode uc : CharClasses)

/-! ## Texts in order -/

def textCompare (first second : Text) : Ordering :=
  if first < second then .lt else if first = second then .eq else .gt

variable {first second : Text}

lemma textCompare_eq_lt : textCompare first second = .lt ↔ first < second := compareOfLessAndEq_eq_lt

lemma textCompare_eq_eq : textCompare first second = .eq ↔ first = second :=
  compareOfLessAndEq_eq_eq le_refl not_le

instance : Std.TransCmp textCompare :=
  Std.TransOrd.compareOfLessAndEq_of_antisymm_of_trans_of_total_of_not_le le_antisymm le_trans
    le_total not_le

variable {α : Type} {text : Text} {c : Char}

lemma transCmp_on {β : Type} (cmp : β → β → Ordering) [Std.TransCmp cmp] (f : α → β) :
    Std.TransCmp fun first second => cmp (f first) (f second) where
  eq_swap := Std.OrientedCmp.eq_swap
  isLE_trans := Std.TransCmp.isLE_trans

lemma transCmp_then {cmp next : α → α → Ordering} (h : Std.TransCmp cmp) (hnex : Std.TransCmp next) :
    Std.TransCmp fun first second => (cmp first second).then (next first second) :=
  inferInstanceAs (Std.TransCmp (compareLex cmp next))

/-! ## Parts in order -/

def qualifierRank (text : Text) : Nat :=
  (specialCaseStrings.lookup text).getD 7

def alphabetical (text : Text) : Text :=
  if (specialCaseStrings.lookup text).isSome then [] else text

def compareQualifiers (first second : Text) : Ordering :=
  (compare (qualifierRank first) (qualifierRank second)).then
    (textCompare (alphabetical first) (alphabetical second))

lemma lt_of_lookup_eq_some {rank : Nat} (h : specialCaseStrings.lookup text = some rank) : rank < 7 := by
  obtain ⟨bef, after, hlis, -⟩ := lookup_eq_some_iff.1 h
  have hall : ∀ entry ∈ specialCaseStrings, entry.2 < 7 := by decide
  exact hall (text, rank) (by simp [hlis])

lemma ne_of_lookup {special : Text} {rank : Nat} (hspe : specialCaseStrings.lookup special = some rank)
    (htex : specialCaseStrings.lookup text = none) : special ≠ text := by
  rintro rfl
  simp [hspe] at htex

lemma compareQualifiers_eq (first second : Text) : compareQualifiers first second =
      match specialCaseStrings.lookup first, specialCaseStrings.lookup second with
      | some rank, some otherRank => compare rank otherRank
      | some _, none => .lt
      | none, some _ => .gt
      | none, none => textCompare first second := by
  rw [compareQualifiers, qualifierRank, qualifierRank, alphabetical, alphabetical]
  cases hfir : specialCaseStrings.lookup first with
  | none =>
    cases hsec : specialCaseStrings.lookup second with
    | none => simp
    | some rank =>
      have := lt_of_lookup_eq_some hsec
      simp [compare_gt_iff_gt.2 this]
  | some rank =>
    cases hsec : specialCaseStrings.lookup second with
    | none =>
      have := lt_of_lookup_eq_some hfir
      simp [compare_lt_iff_lt.2 this]
    | some otherRank => simp [textCompare]

lemma alphaLessThan_eq (first second : Text) :
    alphaLessThan first second = (compareQualifiers first second == .lt) := by
  rw [alphaLessThan, compareQualifiers_eq, Bool.eq_iff_iff, beq_iff_eq]
  split
  · rename_i heq
    subst heq
    cases specialCaseStrings.lookup first with
    | none => simp [textCompare]
    | some rank => simp
  · cases specialCaseStrings.lookup first with
    | none =>
      cases specialCaseStrings.lookup second with
      | none => simp [textCompare_eq_lt]
      | some rank => simp
    | some rank =>
      cases specialCaseStrings.lookup second with
      | none => simp
      | some otherRank => simp [compare_lt_iff_lt]

namespace Token

def level : Token → Nat
  | .qualifier _ => 0
  | _ => 1

def value : Token → Nat
  | .number value => value
  | _ => 0

def rank : Token → Nat
  | .qualifier text => qualifierRank text
  | _ => 0

def alphabetical : Token → Text
  | .qualifier text => Maven.alphabetical text
  | _ => []

end Token

variable {val : Nat} {otherText : Text}

namespace MavenSemverPart

def numberSeparator (self : MavenSemverPart) : Text :=
  if (kind unicode self.token).level = 1 then self.separator else []

def qualifierSeparator (self : MavenSemverPart) : Text :=
  if (kind unicode self.token).level = 1 then [] else self.separator

/-- Digits that `int` does not read count as zero here; their comparison raises in the source. -/
def order (self other : MavenSemverPart) : Ordering :=
  (compare (kind unicode self.token).level (kind unicode other.token).level).then <|
    (textCompare (self.numberSeparator unicode) (other.numberSeparator unicode)).then <|
    (textCompare (other.qualifierSeparator unicode) (self.qualifierSeparator unicode)).then <|
    (compare (kind unicode self.token).value (kind unicode other.token).value).then <|
    (compare (kind unicode self.token).rank (kind unicode other.token).rank).then
    (textCompare (kind unicode self.token).alphabetical (kind unicode other.token).alphabetical)

instance transCmp_order : Std.TransCmp (order unicode) := by
  have hlevel := transCmp_on compare fun part : MavenSemverPart => (kind unicode part.token).level
  have hvalue := transCmp_on compare fun part : MavenSemverPart => (kind unicode part.token).value
  have hrank := transCmp_on compare fun part : MavenSemverPart => (kind unicode part.token).rank
  have htext := transCmp_on textCompare fun part : MavenSemverPart =>
    (kind unicode part.token).alphabetical
  have hnumber := transCmp_on textCompare fun part : MavenSemverPart => part.numberSeparator unicode
  have hqualifier := @Std.TransCmp.opposite _ _
    (transCmp_on textCompare fun part : MavenSemverPart => part.qualifierSeparator unicode)
  exact transCmp_then hlevel (transCmp_then hnumber (transCmp_then hqualifier
    (transCmp_then hvalue (transCmp_then hrank htext))))

def sign (self : MavenSemverPart) : Ordering :=
  self.order unicode self.padValue

variable {unicode uc}

variable {self oth : MavenSemverPart}

lemma sep_eq_of_order_eq (h : self.order uc oth = .eq) : self.separator = oth.separator := by
  simp only [order, then_eq_eq, textCompare_eq_eq, compare_eq_iff_eq] at h
  obtain ⟨hlev, hnum, hqua, -⟩ := h
  simp only [numberSeparator, qualifierSeparator, hlev] at hnum hqua
  split at hnum
  · exact hnum
  · rename_i hoth
    rw [if_neg hoth, if_neg hoth] at hqua
    exact hqua.symm

lemma sign_eq_of_order_eq (self oth : MavenSemverPart) (h : self.order unicode oth = .eq) :
    self.sign unicode = oth.sign unicode := by
  have hpad : self.padValue = oth.padValue := by rw [padValue, padValue, sep_eq_of_order_eq h]
  rw [sign, sign, ← hpad]
  exact Std.TransCmp.congr_left h

/-! ## The comparisons of the source -/

def Readable (unicode : CharClasses) (self : MavenSemverPart) : Prop :=
  kind unicode self.token ≠ .malformed

lemma some_decide_eq_beq {p : Prop} [Decidable p] {first second : Ordering}
    (h : p ↔ first = second) : some (decide p) = some (first == second) := by
  rwa [Option.some_inj, Bool.eq_iff_iff, decide_eq_true_eq, beq_iff_eq]

lemma order_number_number {value : Nat} (hsel : kind uc self.token = .number value)
    (hoth : kind uc oth.token = .number val) :
    self.order uc oth = (textCompare self.separator oth.separator).then (compare value val) := by
  simp [order, numberSeparator, qualifierSeparator, hsel, hoth, Token.level, Token.value,
    Token.rank, Token.alphabetical, textCompare]

lemma order_qualifier_qualifier (hsel : kind uc self.token = .qualifier text)
    (hoth : kind uc oth.token = .qualifier otherText) :
    self.order uc oth = (textCompare oth.separator self.separator).then
      (compareQualifiers text otherText) := by
  simp [order, numberSeparator, qualifierSeparator, hsel, hoth, Token.level, Token.value,
    Token.rank, Token.alphabetical, textCompare, compareQualifiers]

lemma order_qualifier_number (hsel : kind uc self.token = .qualifier text)
    (hoth : kind uc oth.token = .number val) : self.order uc oth = .lt := by
  have hlev : compare 0 1 = Ordering.lt := rfl
  simp [order, hsel, hoth, Token.level, hlev]

lemma order_number_qualifier (hsel : kind uc self.token = .number val)
    (hoth : kind uc oth.token = .qualifier otherText) :
    self.order uc oth = .gt := by
  have hlev : compare 1 0 = Ordering.gt := rfl
  simp [order, hsel, hoth, Token.level, hlev]

lemma eq_eq_order (hsel : self.Readable uc) (hoth : oth.Readable uc) :
    self.eq uc oth = some (self.order uc oth == .eq) := by
  by_cases hsep : self.separator = oth.separator
  · rw [eq, if_neg (not_not.2 hsep)]
    cases hkind : kind uc self.token with
    | malformed => exact absurd hkind hsel
    | number value =>
      cases hkin : kind uc oth.token with
      | malformed => exact absurd hkin hoth
      | number val =>
        rw [order_number_number hkind hkin, textCompare_eq_eq.2 hsep]
        exact some_decide_eq_beq compare_eq_iff_eq.symm
      | qualifier otherText =>
        rw [order_number_qualifier hkind hkin]
        rfl
    | qualifier text =>
      cases hkin : kind uc oth.token with
      | malformed => exact absurd hkin hoth
      | number val =>
        rw [order_qualifier_number hkind hkin]
        rfl
      | qualifier otherText =>
        rw [order_qualifier_qualifier hkind hkin, textCompare_eq_eq.2 hsep.symm, compareQualifiers_eq]
        cases hlook : specialCaseStrings.lookup text with
        | none =>
          cases hloo : specialCaseStrings.lookup otherText with
          | none =>
            simp only [hlook, hloo, Ordering.then]
            exact some_decide_eq_beq textCompare_eq_eq.symm
          | some otherRank =>
            have hne := (ne_of_lookup hloo hlook).symm
            simp [hlook, hne]
        | some rank =>
          cases hloo : specialCaseStrings.lookup otherText with
          | none =>
            have hne := ne_of_lookup hlook hloo
            simp [hloo, hne]
          | some otherRank =>
            simp only [hlook, hloo, Ordering.then]
            exact some_decide_eq_beq compare_eq_iff_eq.symm
  · rw [eq, if_pos hsep]
    have hne : self.order uc oth ≠ .eq := mt sep_eq_of_order_eq hsep
    simp [hne]

lemma lt_eq_order (hsel : self.Readable uc) (hoth : oth.Readable uc) :
    self.lt uc oth = some (self.order uc oth == .lt) := by
  rw [lt]
  cases hkind : kind uc self.token with
  | malformed => exact absurd hkind hsel
  | number value =>
    cases hkin : kind uc oth.token with
    | malformed => exact absurd hkin hoth
    | number val =>
      rw [order_number_number hkind hkin]
      by_cases hsep : self.separator = oth.separator
      · rw [textCompare_eq_eq.2 hsep]
        simp only [hsep, if_true]
        exact some_decide_eq_beq compare_lt_iff_lt.symm
      have hne := mt textCompare_eq_eq.1 hsep
      simp only [hsep, if_false]
      apply some_decide_eq_beq
      rw [← textCompare_eq_lt]
      cases htex : textCompare self.separator oth.separator with
      | lt | gt => simp
      | eq => exact absurd htex hne
    | qualifier otherText =>
      rw [order_number_qualifier hkind hkin]
      rfl
  | qualifier text =>
    cases hkin : kind uc oth.token with
    | malformed => exact absurd hkin hoth
    | number val =>
      rw [order_qualifier_number hkind hkin]
      rfl
    | qualifier otherText =>
      rw [order_qualifier_qualifier hkind hkin]
      by_cases hsep : self.separator = oth.separator
      · simp [hsep, textCompare_eq_eq.2 rfl, alphaLessThan_eq]
      have hne := mt textCompare_eq_eq.1 (Ne.symm hsep)
      simp only [hsep, if_false]
      apply some_decide_eq_beq
      rw [← textCompare_eq_lt]
      cases htex : textCompare oth.separator self.separator with
      | lt | gt => simp
      | eq => exact absurd htex hne

lemma readable_padValue (self : MavenSemverPart) : self.padValue.Readable unicode := by
  have hzer : '0'.toNat < 128 := by decide
  have hdig : unicode.isDigit '0' = true := by
    rw [unicode.isDigit_ascii _ hzer]
    decide
  have hdec : unicode.isDecimal '0' = true := by
    rw [unicode.isDecimal_ascii _ hzer]
    decide
  rw [padValue]
  split
  · simp [Readable, kind, isdigit, hdig, hdec]
  · simp [Readable, kind, isdigit]

end MavenSemverPart

variable {first second : MavenSemverPart} {rest : List (MavenSemverPart × MavenSemverPart)}
  {next : Ordering}
  {pts : List MavenSemverPart}

namespace MavenSemver

variable {unicode uc}

def zipParts (first second : List MavenSemverPart) : List (MavenSemverPart × MavenSemverPart) :=
  let padded := padShorterVersion first second
  padded.1.zip padded.2

lemma zipParts_nil_left (pts : List MavenSemverPart) : zipParts [] pts = pts.map fun part =>
    (part.padValue, part) := by
  cases pts with
  | nil => rfl
  | cons part pts =>
    have hzip := zip_map' (f := padValue) (g := id) (l := part :: pts)
    rw [map_id] at hzip
    simpa [zipParts, padShorterVersion, padShorter] using hzip

lemma zipParts_nil_right (pts : List MavenSemverPart) :
    zipParts pts [] = pts.map fun part => (part, part.padValue) := by
  cases pts with
  | nil => rfl
  | cons part pts =>
    have hzip := zip_map' (f := id) (g := padValue) (l := part :: pts)
    rw [map_id] at hzip
    simpa [zipParts, padShorterVersion, padShorter] using hzip

lemma zipParts_cons_cons (first second : MavenSemverPart) (fir seconds : List MavenSemverPart) :
    zipParts (first :: fir) (second :: seconds) = (first, second) :: zipParts fir seconds := by
  simp only [zipParts, padShorterVersion, length_cons, Nat.add_lt_add_iff_right]
  split
  · simp [padShorter]
  · split
    · simp [padShorter]
    · simp

def AllReadable (unicode : CharClasses) (parts : List MavenSemverPart) : Prop :=
  ∀ part ∈ parts, part.Readable unicode

def order (unicode : CharClasses) (first second : List MavenSemverPart) : Ordering :=
  paddedCompare (MavenSemverPart.order unicode) (MavenSemverPart.sign unicode) first second

section

variable (hfir : first.Readable uc) (hsec : second.Readable uc)

include hfir hsec

lemma allEqual_cons (hres : allEqual uc rest = some (next == .eq)) :
    allEqual uc ((first, second) :: rest) = some ((first.order uc second).then next == .eq) := by
  rw [allEqual, eq_eq_order hfir hsec, Option.bind_eq_bind, Option.bind_some]
  cases hord : first.order uc second with
  | lt | gt => rfl
  | eq => simpa using hres

lemma firstLess_cons (hres : firstLess uc rest = some (next == .lt)) :
    firstLess uc ((first, second) :: rest) = some ((first.order uc second).then next == .lt) := by
  rw [firstLess, eq_eq_order hfir hsec, Option.bind_eq_bind, Option.bind_some]
  cases hord : first.order uc second with
  | lt | gt => simp [lt_eq_order hfir hsec, hord]
  | eq => simpa using hres

end

lemma compare_ended_left (h : AllReadable uc pts) :
    allEqual uc (zipParts [] pts) = some (order uc [] pts == .eq) ∧
    firstLess uc (zipParts [] pts) = some (order uc [] pts == .lt) := by
  rw [zipParts_nil_left]
  induction pts with
  | nil => exact ⟨rfl, rfl⟩
  | cons part pts ih =>
    have hpar := h part (.head _)
    obtain ⟨heq, hlt⟩ := ih fun other hoth => h other (.tail _ hoth)
    have hord : order uc [] (part :: pts) = (part.padValue.order uc part).then (order uc [] pts) := by
      have hswa : part.padValue.order uc part = (part.order uc part.padValue).swap :=
        Std.OrientedCmp.eq_swap
      rw [hswa]
      simp [order, paddedCompare, excess, sign, swap_then]
    rw [hord]
    exact ⟨allEqual_cons part.readable_padValue hpar heq, firstLess_cons part.readable_padValue hpar hlt⟩

lemma compare_ended_right (h : AllReadable uc pts) :
    allEqual uc (zipParts pts []) = some (order uc pts [] == .eq) ∧
    firstLess uc (zipParts pts []) = some (order uc pts [] == .lt) := by
  rw [zipParts_nil_right]
  induction pts with
  | nil => exact ⟨rfl, rfl⟩
  | cons part pts ih =>
    have hpar := h part (.head _)
    obtain ⟨heq, hlt⟩ := ih fun other hoth => h other (.tail _ hoth)
    have hord : order uc (part :: pts) [] = (part.order uc part.padValue).then (order uc pts []) := by
      simp [order, padded_nil_right, excess, sign]
    rw [hord]
    exact ⟨allEqual_cons hpar part.readable_padValue heq, firstLess_cons hpar part.readable_padValue hlt⟩

lemma compare_parts {first second : List MavenSemverPart} (hfir : AllReadable uc first)
    (hsec : AllReadable uc second) :
    allEqual uc (zipParts first second) = some (order uc first second == .eq) ∧
    firstLess uc (zipParts first second) = some (order uc first second == .lt) := by
  induction first generalizing second with
  | nil => exact compare_ended_left hsec
  | cons part parts ih =>
    cases second with
    | nil => exact compare_ended_right hfir
    | cons other oth =>
      rw [zipParts_cons_cons]
      obtain ⟨heq, hlt⟩ := ih (fun p hp => hfir p (.tail _ hp)) fun p hp => hsec p (.tail _ hp)
      have hpar := hfir part (.head _)
      have hoth := hsec other (.head _)
      exact ⟨allEqual_cons hpar hoth heq, firstLess_cons hpar hoth hlt⟩

lemma order_swap (first second : List MavenSemverPart) :
    (order uc first second).swap = order uc second first :=
  padded_swap first second

end MavenSemver

/-! ## Versions that can be constructed -/

def Constructible (version : Text) : Prop :=
  ∃ part ∈ (splitWords unicode (substituted unicode version)).takeWhile (· ≠ ['-']), isDropped part = false

instance (version : Text) : Decidable (Constructible unicode version) :=
  inferInstanceAs (Decidable (∃ part ∈ _, isDropped part = false))

variable {part : Text}

section Trimming

/-- Some part before the first hyphen is kept, of parts in reverse. -/
def KeepsFirst (backwards : List Text) : Prop :=
  ∃ part ∈ backwards.reverse.takeWhile (· ≠ ['-']), isDropped part = false

lemma keepsFirst_cons_of_hyphen {before : List Text} (h : ['-'] ∈ before) :
    KeepsFirst (part :: before) ↔ KeepsFirst before := by
  have htak : (before.reverse ++ [part]).takeWhile (· ≠ ['-']) = before.reverse.takeWhile (· ≠ ['-']) := by
    rw [takeWhile_append, if_neg]
    intro hlen
    have hall := takeWhile_eq_self_iff.1 (( takeWhile_prefix (p := (· ≠ ['-'])) ..).eq_of_length hlen)
    simpa using hall _ (mem_reverse.2 h)
  rw [KeepsFirst, KeepsFirst, reverse_cons, htak]

lemma keepsFirst_cons_of_no_hyphen {bef : List Text} (h : ['-'] ∉ bef) :
    KeepsFirst (part :: bef) ↔ KeepsFirst bef ∨ isDropped part = false := by
  have hall : ∀ other ∈ bef.reverse, decide (other ≠ ['-']) = true := by
    intro other hoth
    simp only [decide_eq_true_eq]
    rintro rfl
    exact h (mem_reverse.1 hoth)
  have hbef := takeWhile_eq_self_iff.2 hall
  rw [KeepsFirst, KeepsFirst, reverse_cons, takeWhile_append_of_pos hall, hbef]
  by_cases hpar : part = ['-']
  · subst hpar
    have hdro : isDropped ['-'] = true := by decide
    simp [hdro]
  have htak : [part].takeWhile (· ≠ ['-']) = [part] := by simp [hpar]
  rw [htak]
  constructor
  · rintro ⟨other, hmem, hoth⟩
    obtain hmem | hmem := mem_append.1 hmem
    · exact .inl ⟨other, hmem, hoth⟩
    · exact .inr (mem_singleton.1 hmem ▸ hoth)
  · rintro (⟨other, hmem, hoth⟩ | hkep)
    · exact ⟨other, mem_append_left _ hmem, hoth⟩
    · exact ⟨part, mem_append_right _ (mem_singleton_self _), hkep⟩

lemma trimBackwards_isSome (bac : List Text) : ((trimBackwards true bac).isSome = true ↔ KeepsFirst bac) ∧
    ((trimBackwards false bac).isSome = true ↔ KeepsFirst bac ∨ ['-'] ∉ bac) := by
  induction bac with
  | nil => simp [trimBackwards, KeepsFirst]
  | cons part bef ih =>
    obtain ⟨ihd, ihk⟩ := ih
    have hhyp : isDropped ['-'] = true := by decide
    constructor
    · rw [trimBackwards]
      by_cases hmem : ['-'] ∈ bef
      · rw [keepsFirst_cons_of_hyphen hmem]
        split
        · exact ihd
        · simpa [hmem] using ihk
      rw [keepsFirst_cons_of_no_hyphen hmem]
      split
      · rename_i hdro
        simpa [hdro] using ihd
      · rename_i hkep
        simpa [hmem, hkep] using ihk
    · rw [trimBackwards, Option.isSome_map]
      by_cases hpar : part = ['-']
      · subst hpar
        rw [beq_self_eq_true, ihd]
        by_cases hmem : ['-'] ∈ bef
        · simp [keepsFirst_cons_of_hyphen hmem]
        · simp [keepsFirst_cons_of_no_hyphen hmem, hhyp]
      · rw [beq_false_of_ne hpar, ihk]
        by_cases hmem : ['-'] ∈ bef
        · simp [keepsFirst_cons_of_hyphen hmem, hmem]
        · simp [hmem, Ne.symm hpar]

end Trimming

lemma splitParts_isSome_iff (version : Text) :
    (splitVersionStringParts uc version).isSome = true ↔ Constructible uc version := by
  have h := (trimBackwards_isSome (splitWords uc (substituted uc version)).reverse).1
  rw [KeepsFirst, reverse_reverse] at h
  rw [Constructible, ← h, splitVersionStringParts, trimTrailing]
  cases trimBackwards true (splitWords uc (substituted uc version)).reverse with
  | none | some parts => simp

/-! ## ASCII versions -/

variable {lett : Char} {word : Text} {boun : Char → Char → Bool} {parts : List Text}
  {part : MavenSemverPart}

section

def IsAscii (text : Text) : Prop :=
  ∀ c ∈ text, c.toNat < 128

variable {unicode uc}

lemma isAscii_of_all (h : (text.all fun c => decide (c.toNat < 128)) = true) :
    IsAscii text := by
  intro c hc
  exact of_decide_eq_true (all_eq_true.1 h c hc)

lemma mem_expandAliasFrom (h : c ∈ expandAliasFrom uc lett word text) : c ∈ text ∨ c ∈ word := by
  fun_induction expandAliasFrom uc lett word text with
  | case1 preceding mid suc rest hmat ih =>
    simp only [cons_append, mem_cons, mem_append] at h ⊢
    tauto
  | case2 preceding mid suc rest hmat ih =>
    simp only [mem_cons] at h ih ⊢
    tauto
  | case3 rest => exact .inl h

lemma mem_expandAlias (h : c ∈ expandAlias uc lett word text) : c ∈ text ∨ c ∈ word := by
  unfold expandAlias at h
  split at h
  swap
  · exact .inl h
  split at h
  · simp only [mem_append, mem_cons] at h
    obtain h | rfl | h := h
    · exact .inr h
    · simp
    · have := mem_expandAliasFrom h
      simp only [mem_cons]
      tauto
  · exact mem_expandAliasFrom h

lemma mem_insertBetween {inserted : Char} (h : c ∈ insertBetween boun inserted text) :
    c ∈ text ∨ c = inserted := by
  fun_induction insertBetween boun inserted text with
  | case1 first next rest hbou ih | case2 first next rest hbou ih =>
    simp only [mem_cons] at h ih ⊢
    tauto
  | case3 rest => exact .inl h

lemma isAscii_expandAlias (hwor : IsAscii word) (htex : IsAscii text) :
    IsAscii (expandAlias uc lett word text) :=
  fun c hc => (mem_expandAlias hc).elim (htex c) (hwor c)

lemma isAscii_insertBetween {ins : Char} (hins : ins.toNat < 128) (htex : IsAscii text) :
    IsAscii (insertBetween boun ins text) :=
  fun c hc => (mem_insertBetween hc).elim (htex c) fun h => h ▸ hins

lemma isAscii_substituted {ver : Text} (h : IsAscii ver) : IsAscii (substituted uc ver) := by
  have halp : IsAscii "alpha".toList := isAscii_of_all (by decide)
  have hbet : IsAscii "beta".toList := isAscii_of_all (by decide)
  have hmil : IsAscii "milestone".toList := isAscii_of_all (by decide)
  apply isAscii_insertBetween (by decide)
  apply isAscii_insertBetween (by decide)
  exact isAscii_expandAlias hmil (isAscii_expandAlias hbet (isAscii_expandAlias halp h))

lemma mem_of_mem_splitWords {text part : Text} {c : Char} (hpar : part ∈ splitWords uc text)
    (hc : c ∈ part) : c ∈ text := by
  fun_induction splitWords uc text generalizing part with
  | case1 | case2 first rest hres ih => simp_all
  | case3 first rest word more hres hwor ih =>
    simp only [mem_cons] at hpar ⊢
    obtain rfl | hmor := hpar
    · obtain rfl | hc := mem_cons.1 hc
      · exact .inl rfl
      · exact .inr (ih (by rw [hres]; exact .head _) hc)
    · exact .inr (ih (by rw [hres]; exact .tail _ hmor) hc)
  | case4 first rest hwor sep more hres ih =>
    simp only [mem_cons] at hpar ⊢
    obtain rfl | rfl | hmor := hpar
    · exact absurd hc not_mem_nil
    · obtain rfl | hc := mem_cons.1 hc
      · exact .inl rfl
      · exact .inr (ih (by rw [hres]; simp) hc)
    · exact .inr (ih (by rw [hres]; simp [hmor]) hc)
  | case5 first rest hwor word more hne hres ih =>
    simp only [mem_cons] at hpar ⊢
    obtain rfl | rfl | rfl | hmor := hpar
    · exact absurd hc not_mem_nil
    · exact .inl (mem_singleton.1 hc)
    · exact .inr (ih (by rw [hres]; simp) hc)
    · exact .inr (ih (by rw [hres]; simp [hmor]) hc)

lemma mem_of_trimBackwards {dropping : Bool} {trim : List Text}
    (h : trimBackwards dropping parts = some trim) : ∀ part ∈ trim, part ∈ parts := by
  fun_induction trimBackwards dropping parts generalizing trim with
  | case1 => simp at h
  | case2 => simp_all
  | case3 part bef hdro ih =>
    intro other hoth
    exact .tail _ (ih h other hoth)
  | case4 part bef hkep ih | case5 part bef ih =>
    obtain ⟨rest, hres, rfl⟩ := Option.map_eq_some_iff.1 h
    intro other hoth
    obtain rfl | hoth := mem_cons.1 hoth
    · exact .head _
    · exact .tail _ (ih hres other hoth)

lemma token_mem_of_mem_pairs (h : part ∈ pairs parts) : part.token ∈ parts := by
  fun_induction pairs parts with
  | case1 sep token rest ih =>
    obtain rfl | h := mem_cons.1 h
    · simp
    · simp [ih h]
  | case2 => exact absurd h not_mem_nil

lemma readable_of_isAscii (h : IsAscii part.token) :
    part.Readable unicode := by
  intro hkin
  rw [kind] at hkin
  split at hkin
  swap
  · exact absurd hkin (by simp)
  rename_i hdig
  split at hkin
  · exact absurd hkin (by simp)
  rename_i hdec
  apply hdec
  rw [all_eq_true]
  intro c hc
  have hall := all_eq_true.1 (Bool.and_eq_true_iff.1 hdig).2 c hc
  rwa [unicode.isDigit_ascii c (h c hc), ← unicode.isDecimal_ascii c (h c hc)] at hall

lemma allReadable_of_isAscii {ver : Text} {parts : List MavenSemverPart}
    (hver : IsAscii ver) (h : splitVersionStringParts uc ver = some parts) :
    MavenSemver.AllReadable uc parts := by
  obtain ⟨trim, htri, hpar⟩ := Option.bind_eq_some_iff.1 h
  obtain ⟨bac, hbac, rfl⟩ := Option.map_eq_some_iff.1 htri
  obtain rfl := Option.some.inj hpar
  intro part hpart
  apply readable_of_isAscii
  intro c hc
  obtain htok | htok := mem_cons.1 (token_mem_of_mem_pairs hpart)
  · rw [htok] at hc
    exact absurd hc not_mem_nil
  · have hwor := mem_of_trimBackwards hbac _ (mem_reverse.1 htok)
    exact isAscii_substituted hver c (mem_of_mem_splitWords (mem_reverse.1 hwor) hc)

end

/-! ## The laws of an order -/

def less (first second : Text) : Option Bool := do
  let first ← new unicode first
  let second ← new unicode second
  first.lt unicode second

def equal (first second : Text) : Option Bool := do
  let first ← new unicode first
  let second ← new unicode second
  first.eq unicode second

def InOrder (versions : List Text) : Prop :=
  versions.Pairwise fun first second => less unicode second first = some false

structure LawfulOrder (versions : Set Text) : Prop where
  constructed : ∀ first ∈ versions, (new unicode first).isSome = true
  trichotomy : ∀ first ∈ versions, ∀ second ∈ versions,
    (less unicode first second, equal unicode first second, less unicode second first) ∈
      [(some true, some false, some false), (some false, some true, some false),
        (some false, some false, some true)]
  equal_self : ∀ first ∈ versions, equal unicode first first = some true
  equal_symm : ∀ first ∈ versions, ∀ second ∈ versions,
    equal unicode first second = some true → equal unicode second first = some true
  equal_trans : ∀ first ∈ versions, ∀ second ∈ versions, ∀ third ∈ versions,
    equal unicode first second = some true → equal unicode second third = some true →
      equal unicode first third = some true
  less_trans : ∀ first ∈ versions, ∀ second ∈ versions, ∀ third ∈ versions,
    less unicode first second = some true → less unicode second third = some true →
      less unicode first third = some true
  /-- Versions sorted from any two orders of them are equal one by one. -/
  sorted_unique : ∀ first second : List Text, (∀ version ∈ first, version ∈ versions) →
    first.Perm second → InOrder unicode first → InOrder unicode second →
      List.Forall₂ (fun version other => equal unicode version other = some true) first second

def inAlphabet (c : Char) : Bool :=
  c.isAlphanum || c == '.' || c == '-'

lemma toNat_lt_of_inAlphabet (h : inAlphabet c = true) : c.toNat < 128 := by
  -- every class of the alphabet has a last character, which is an ASCII one
  have hbel {last : Char} (hlas : last.val.toNat < 128) (hle : c.val ≤ last.val) :=
    lt_of_le_of_lt (UInt32.le_iff_toNat_le.1 hle) hlas
  simp only [inAlphabet, Bool.or_eq_true, beq_iff_eq] at h
  obtain (halp | rfl) | rfl := h
  · obtain halph | hdig := Bool.or_eq_true_iff.1 halp
    · obtain hupp | hlow := Bool.or_eq_true_iff.1 halph
      · have hran := of_decide_eq_true hupp
        exact hbel (by decide) hran.2
      · exact hbel (by decide) (of_decide_eq_true (Bool.and_eq_true_iff.1 hlow).2)
    · exact hbel (by decide) (of_decide_eq_true (Bool.and_eq_true_iff.1 hdig).2)
  · decide
  · decide

/-- The parts of three versions are knotted: they agree up to a part where the first has ended. -/
def knottedVersions (first second third : Text) : Bool :=
  match splitVersionStringParts unicode first, splitVersionStringParts unicode second,
    splitVersionStringParts unicode third with
  | some x, some y, some z => knotted (MavenSemverPart.order unicode) (MavenSemverPart.sign unicode) x y z
  | _, _, _ => false

/-- Versions compared by their parts. -/
def versionOrder (first second : Text) : Ordering :=
  order unicode ((splitVersionStringParts unicode first).getD [])
    ((splitVersionStringParts unicode second).getD [])

variable {unicode uc}

lemma new_isSome_iff (version : Text) : (new uc version).isSome = true ↔ Constructible uc version := by
  rw [← splitParts_isSome_iff, new]
  cases splitVersionStringParts uc version with
  | none | some parts => simp

section Compared

variable {first second : Text}

lemma versionOrder_swap (first second : Text) :
    (versionOrder uc first second).swap = versionOrder uc second first :=
  order_swap _ _

lemma versionOrder_eq {x y : List MavenSemverPart} (hx : splitVersionStringParts uc first = some x)
    (hy : splitVersionStringParts uc second = some y) : versionOrder uc first second = order uc x y := by
  rw [versionOrder, hx, hy]
  rfl

variable {versions : Set Text} (hconstructible : ∀ version ∈ versions, Constructible unicode version)

include hconstructible

lemma exists_parts : ∀ version ∈ versions, ∃ x, splitVersionStringParts unicode version = some x :=
  fun version hver => Option.isSome_iff_exists.1
    ((splitParts_isSome_iff unicode version).2 (hconstructible version hver))

variable (hascii : ∀ version ∈ versions, IsAscii version) (hfir : first ∈ versions)
  (hsec : second ∈ versions)

include hascii hfir hsec

lemma less_and_equal : less unicode first second = some (versionOrder unicode first second == .lt) ∧
    equal unicode first second = some (versionOrder unicode first second == .eq) := by
  obtain ⟨x, hx⟩ := exists_parts hconstructible first hfir
  obtain ⟨y, hy⟩ := exists_parts hconstructible second hsec
  have h := compare_parts (allReadable_of_isAscii (hascii first hfir) hx)
    (allReadable_of_isAscii (hascii second hsec) hy)
  rw [less, equal, new, hx, new, hy, versionOrder_eq hx hy]
  exact ⟨h.2, h.1⟩

lemma less_iff : less unicode first second = some true ↔ versionOrder unicode first second = .lt := by
  rw [(less_and_equal hconstructible hascii hfir hsec).1, Option.some_inj, beq_iff_eq]

lemma equal_iff : equal unicode first second = some true ↔ versionOrder unicode first second = .eq := by
  rw [(less_and_equal hconstructible hascii hfir hsec).2, Option.some_inj, beq_iff_eq]

end Compared

lemma LawfulOrder.coherent {vers : Set Text} (h : LawfulOrder uc vers)
    (hasc : ∀ version ∈ vers, IsAscii version) {first second third : Text}
    (hfir : first ∈ vers) (hsec : second ∈ vers) (hthi : third ∈ vers) :
    Coherent (versionOrder uc first second) (versionOrder uc second third)
      (versionOrder uc first third) := by
  have hcon : ∀ version ∈ vers, Constructible uc version :=
    fun version hver => (new_isSome_iff version).1 (h.constructed version hver)
  -- the laws, for any of the three versions, in terms of their order
  have hequ {a b c : Text} (ha : a ∈ vers) (hb : b ∈ vers) (hc : c ∈ vers)
      (hab : versionOrder uc a b = .eq) (hbc : versionOrder uc b c = .eq) : versionOrder uc a c = .eq :=
    (equal_iff hcon hasc ha hc).1 (h.equal_trans a ha b hb c hc ((equal_iff hcon hasc ha hb).2 hab)
      ((equal_iff hcon hasc hb hc).2 hbc))
  have hles {a b c : Text} (ha : a ∈ vers) (hb : b ∈ vers) (hc : c ∈ vers)
      (hab : versionOrder uc a b = .lt) (hbc : versionOrder uc b c = .lt) : versionOrder uc a c = .lt :=
    (less_iff hcon hasc ha hc).1 (h.less_trans a ha b hb c hc ((less_iff hcon hasc ha hb).2 hab)
      ((less_iff hcon hasc hb hc).2 hbc))
  have hxy := @versionOrder_swap uc first second
  have hyz := @versionOrder_swap uc second third
  have hxz := @versionOrder_swap uc first third
  apply Coherent.of_transitive
  · exact hequ hfir hsec hthi
  · intro h1 h2
    exact hequ hsec hfir hthi (by rw [← hxy, h1]; rfl) h2
  · intro h1 h2
    exact hequ hfir hthi hsec h1 (by rw [← hyz, h2]; rfl)
  · exact hles hfir hsec hthi
  · intro h1 h2
    exact hles hsec hfir hthi (by rw [← hxy, h1]; rfl) h2
  · intro h1 h2
    exact hles hfir hthi hsec h1 (by rw [← hyz, h2]; rfl)
  · intro h1 h2
    have := hles hthi hsec hfir (by rw [← hyz, h2]; rfl) (by rw [← hxy, h1]; rfl)
    rw [← hxz] at this
    exact swap_eq_lt.1 this
  · intro h1 h2
    have := hles hthi hfir hsec (by rw [← hxz, h2]; rfl) h1
    rw [← hyz] at this
    exact swap_eq_lt.1 this
  · intro h1 h2
    have := hles hsec hthi hfir h2 (by rw [← hxz, h1]; rfl)
    rw [← hxy] at this
    exact swap_eq_lt.1 this

section Coherence

variable {versions : Set Text} (hconstructible : ∀ version ∈ versions, Constructible unicode version)
  (hascii : ∀ version ∈ versions, IsAscii version)
  (hcoherent : ∀ first ∈ versions, ∀ second ∈ versions, ∀ third ∈ versions,
    Coherent (versionOrder unicode first second) (versionOrder unicode second third)
      (versionOrder unicode first third))

include hconstructible hascii hcoherent

lemma sorted_unique_of_coherent (first second : List Text)
    (hmem : ∀ ver ∈ first, ver ∈ versions) (hperm : first.Perm second)
    (hfir : InOrder unicode first) (hseco : InOrder unicode second) :
    List.Forall₂ (fun ver oth => equal unicode ver oth = some true) first second := by
  have hless {ver oth : Text} (hver : ver ∈ first) (hoth : oth ∈ first)
      (h : less unicode oth ver = some false) : versionOrder unicode ver oth ≠ .gt := by
    rw [(less_and_equal hconstructible hascii (hmem oth hoth) (hmem ver hver)).1, ← versionOrder_swap] at h
    intro hgt
    simp [hgt] at h
  have hsec (ver : Text) (hver : ver ∈ second) := hperm.mem_iff.2 hver
  have hequ := @forall₂_eq_of_perm _ (versionOrder unicode) first second
    (fun ver _ oth _ => (versionOrder_swap _ _).symm)
    (fun ver hver oth hoth last hlast =>
      hcoherent ver (hmem ver hver) oth (hmem oth hoth) last (hmem last hlast))
    hperm (hfir.imp_of_mem fun hver hoth h => hless hver hoth h)
    (hseco.imp_of_mem fun hver hoth h => hless (hsec _ hver) (hsec _ hoth) h)
  rw [forall₂_iff_get] at hequ ⊢
  refine ⟨hequ.1, fun i hi hj => ?_⟩
  exact (equal_iff hconstructible hascii (hmem _ (get_mem first ⟨i, hi⟩))
    (hmem _ (hsec _ (get_mem second ⟨i, hj⟩)))).2 (hequ.2 i hi hj)

lemma lawfulOrder_of_coherent : LawfulOrder unicode versions := by
  have hequ {a b : Text} (ha : a ∈ versions) (hb : b ∈ versions) := equal_iff hconstructible hascii ha hb
  have hles {a b : Text} (ha : a ∈ versions) (hb : b ∈ versions) := less_iff hconstructible hascii ha hb
  refine ⟨fun version hver => (new_isSome_iff version).2 (hconstructible version hver),
    ?_, ?_, ?_, ?_, ?_, sorted_unique_of_coherent hconstructible hascii hcoherent⟩
  · intro first hfir second hsec
    obtain ⟨hless, hequal⟩ := less_and_equal hconstructible hascii hfir hsec
    rw [hless, hequal, (less_and_equal hconstructible hascii hsec hfir).1, ← versionOrder_swap second]
    generalize versionOrder unicode second first = o
    cases o with
    | lt | eq | gt => decide
  · intro first hfir
    exact (hequ hfir hfir).2 (padded_self _)
  · intro first hfir second hsec h
    rw [hequ hsec hfir, ← versionOrder_swap, (hequ hfir hsec).1 h]
    rfl
  · intro first hfir second hsec third hthi h h'
    have hcoh := hcoherent first hfir second hsec third hthi
    rw [(hequ hfir hsec).1 h, (hequ hsec hthi).1 h'] at hcoh
    exact (hequ hfir hthi).2 hcoh
  · intro first hfir second hsec third hthi h h'
    have hcoh := hcoherent first hfir second hsec third hthi
    rw [(hles hfir hsec).1 h, (hles hsec hthi).1 h'] at hcoh
    exact (hles hfir hthi).2 hcoh

end Coherence

/-- Versions are in a lawful order just if all can be constructed and no three are knotted. -/
theorem lawfulOrder_iff (versions : Set Text)
    (halphabet : ∀ version ∈ versions, ∀ c ∈ version, inAlphabet c = true) :
    LawfulOrder unicode versions ↔ (∀ version ∈ versions, Constructible unicode version) ∧
    ∀ first ∈ versions, ∀ second ∈ versions, ∀ third ∈ versions,
    knottedVersions unicode first second third = false := by
  have hasc : ∀ version ∈ versions, IsAscii version := fun version hver c hc =>
    toNat_lt_of_inAlphabet (halphabet version hver c hc)
  have hiff := @coherent_iff _ (MavenSemverPart.order unicode) (MavenSemverPart.sign unicode) _
    sign_eq_of_order_eq
    fun parts => ∃ version ∈ versions, splitVersionStringParts unicode version = some parts
  constructor
  · intro h
    have hcon (version : Text) (hver : version ∈ versions) :
        Constructible unicode version :=
      (new_isSome_iff version).1 (h.constructed version hver)
    refine ⟨hcon, ?_⟩
    intro first hfir second hsec third hthi
    rw [knottedVersions]
    split
    · rename_i x y z hx hy hz
      refine hiff.1 ?_ x y z ⟨first, hfir, hx⟩ ⟨second, hsec, hy⟩ ⟨third, hthi, hz⟩
      rintro x y z ⟨a, ha, hx⟩ ⟨b, hb, hy⟩ ⟨c, hc, hz⟩
      have hcoh := h.coherent hasc ha hb hc
      rwa [versionOrder_eq hx hy, versionOrder_eq hy hz, versionOrder_eq hx hz] at hcoh
    · rfl
  · rintro ⟨hcon, hkno⟩
    apply lawfulOrder_of_coherent hcon hasc
    intro first hfir second hsec third hthi
    obtain ⟨x, hx⟩ := exists_parts hcon first hfir
    obtain ⟨y, hy⟩ := exists_parts hcon second hsec
    obtain ⟨z, hz⟩ := exists_parts hcon third hthi
    rw [versionOrder_eq hx hy, versionOrder_eq hy hz, versionOrder_eq hx hz]
    refine hiff.2 ?_ x y z ⟨first, hfir, hx⟩ ⟨second, hsec, hy⟩ ⟨third, hthi, hz⟩
    rintro x y z ⟨a, ha, hx⟩ ⟨b, hb, hy⟩ ⟨c, hc, hz⟩
    have hnot := hkno a ha b hb c hc
    rw [knottedVersions, hx, hy, hz] at hnot
    exact hnot

theorem lawfulOrder_release_candidates :
    LawfulOrder .ascii {version | version ∈ ["1".toList, "1.0-rc1".toList, "1-foo".toList]} :=
  (lawfulOrder_iff _ (by simp [inAlphabet])).2 (by simp only [Set.mem_ofPred_eq]; decide +kernel)

/-- A version that cannot be constructed; and three of which each is less than the next, but the first
equal to the last. -/
theorem unlawful_versions :
    new .ascii "0".toList = none ∧ less .ascii "1".toList "1-foo".toList = some true ∧
    less .ascii "1-foo".toList "1.00".toList = some true ∧
    equal .ascii "1".toList "1.00".toList = some true := by
  decide +kernel

end Toolchain.Maven
