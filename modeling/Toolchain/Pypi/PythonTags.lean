import Mathlib.Data.List.Induction
import Mathlib.Data.List.TakeWhile
import Mathlib.Tactic.Ring
import Toolchain.Lib.Pep440

/-!
# Pypi.PythonTags — the Python versions of a wheel

Tags such as `py27` and `cp36` are made into a requirement on the Python version.  A version is taken
apart digit by digit, so the minor version 10 becomes two numbers, and versions are compared as strings;
`pythonRequirementFromTag_admits_iff` says when that does no harm.

Models `python_requirement_from_tag` of `lang/python/distributions/distribution_key.py`.  What `\d`
matches outside of ASCII is a parameter.
-/

namespace Toolchain.Pypi

open Lib List

structure DecimalDigits where
  isDecimal : Char → Bool
  decimalValue : Char → Nat
  isDecimal_ascii : ∀ c : Char, c.toNat < 128 → isDecimal c = c.isDigit
  decimalValue_ascii : ∀ c : Char, c.isDigit = true → decimalValue c = c.toNat - '0'.toNat

def DecimalDigits.ascii : DecimalDigits where
  isDecimal c := '0' ≤ c && c ≤ '9'
  decimalValue c := c.toNat - '0'.toNat
  isDecimal_ascii _ _ := rfl
  decimalValue_ascii _ _ := rfl

variable (uc : DecimalDigits)

namespace PythonTags

section Requirement

variable (unicode : DecimalDigits)

def isLower (c : Char) : Bool := 'a' ≤ c ∧ c ≤ 'z'

def matchVersion (part : Text) : Option Text :=
  let version := (part.dropWhile isLower).takeWhile unicode.isDecimal
  if (part.takeWhile isLower).isEmpty ∨ version.isEmpty then none else some version

def dotted (text : Text) : Text := ['.'].intercalate (text.map fun c => [c])

def int (text : Text) : Nat :=
  text.foldl (fun number c => 10 * number + unicode.decimalValue c) 0

def best (better : Text → Text → Bool) (first : Text) (texts : List Text) : Text :=
  texts.foldl (fun chosen text => if better chosen text then text else chosen) first

def maxText : Text → List Text → Text := best fun chosen text => chosen < text

def minText : Text → List Text → Text := best fun chosen text => text < chosen

def pythonRequirementFromTag (tag : Text) : Text :=
  if tag.isEmpty then []
  else
    match (tag.splitOn '.').filterMap fun part => (matchVersion unicode part).map dotted with
    | [] => []
    | [version] =>
      -- `~=` cannot be used with versions of one number
      if version.length = 1 then
        ['>'] ++ version ++ [',', '<'] ++ decimal (int unicode version + 1)
      else
        ['~', '='] ++ version
    | first :: second :: rest =>
      let maxVersion := maxText first (second :: rest)
      -- `py3` is for all of 3, although `3.7` is greater
      let maxVersion :=
        if (first :: second :: rest).contains (maxVersion.take 1) then maxVersion.take 1
        else maxVersion
      if maxVersion.length = 1 then
        ['>', '='] ++ minText first (second :: rest) ++ [',', '<'] ++ decimal (int unicode maxVersion + 1)
      else
        ['>', '='] ++ minText first (second :: rest) ++ [',', '<', '='] ++ maxVersion

end Requirement

/-! ## Tags -/

def digitChar (digit : Fin 10) : Char := Nat.digitChar digit

/-- A tag: letters, a digit of the major version, and perhaps a minor version. -/
structure PythonTag where
  letters : Text
  major : Fin 10
  minor : List (Fin 10)
  two_le_length : 2 ≤ letters.length
  isLower_letters : ∀ c ∈ letters, isLower c = true

namespace PythonTag

def digits (tag : PythonTag) : List (Fin 10) := tag.major :: tag.minor

def text (tag : PythonTag) : Text := tag.letters ++ tag.digits.map digitChar

end PythonTag

def number (digits : List (Fin 10)) : Nat :=
  digits.foldl (fun number digit => 10 * number + digit.val) 0

def PythonTag.interpreter (tag : PythonTag) : Pep440.Release := [tag.major.val, number tag.minor]

def tagsText (tags : List PythonTag) : Text := ['.'].intercalate (tags.map PythonTag.text)

def Highest (tags : List PythonTag) (tag : PythonTag) : Prop :=
  ∀ other ∈ tags, other.major ≤ tag.major

/-- One of several tags is the highest major version alone, or no minor version of it goes beyond the
first digits of such ones. -/
def Covered (tags : List PythonTag) : Prop :=
  (2 ≤ tags.length ∧ ∃ tag ∈ tags, Highest tags tag ∧ tag.minor = []) ∨
    ∀ tag ∈ tags, Highest tags tag → tag.minor ≠ [] → ∃ other ∈ tags, other.major = tag.major ∧
        ∃ first rest, other.minor = first :: rest ∧ number tag.minor ≤ first.val

/-! ## Digits -/

lemma digitChar_lt_iff (digit other : Fin 10) : digitChar digit < digitChar other ↔ digit < other := by
  revert digit other
  decide

lemma digitChar_injective : Function.Injective digitChar := by
  intro digit other
  revert digit other
  decide

variable {digits : List (Fin 10)} (tag : PythonTag) (digit : Fin 10)

lemma digitValue_digitChar : digitValue (digitChar digit) = some digit.val := by
  revert digit
  decide

lemma digitChar_facts : (digitChar digit).isDigit = true ∧ (digitChar digit).toNat < 128 ∧
    (digitChar digit).toNat - '0'.toNat = digit.val ∧ isLower (digitChar digit) = false ∧
    digitChar digit ≠ '.' ∧ digitChar digit ≠ ',' := by
  revert digit
  decide

open PythonTag

lemma int_digitChar (digit : Fin 10) : int uc [digitChar digit] = digit.val := by
  obtain ⟨hdig, -, hval, -⟩ := digitChar_facts digit
  simp only [int, foldl_cons, foldl_nil, uc.decimalValue_ascii _ hdig, hval, Nat.mul_zero, Nat.zero_add]

def version (digits : List (Fin 10)) : Text := dotted (digits.map digitChar)

@[simp] lemma version_singleton : version [digit] = [digitChar digit] := rfl

lemma version_cons_cons (digit next : Fin 10) (digits : List (Fin 10)) :
    version (digit :: next :: digits) = digitChar digit :: '.' :: version (next :: digits) := by
  simp [version, dotted]

lemma version_lt_iff {digits other : List (Fin 10)} (hdig : digits ≠ []) (hoth : other ≠ []) :
    version digits < version other ↔ digits < other := by
  induction digits generalizing other with
  | nil => exact absurd rfl hdig
  | cons digit digits ih =>
    obtain ⟨digit', other, rfl⟩ := exists_cons_of_ne_nil hoth
    have hcha := digitChar_lt_iff digit digit'
    have heq : digitChar digit = digitChar digit' ↔ digit = digit' := digitChar_injective.eq_iff
    cases digits with
    | nil =>
      cases other with
      | nil => simp [cons_lt_cons_iff, hcha]
      | cons next' other => simp [version_cons_cons, cons_lt_cons_iff, hcha, heq]
    | cons next digits =>
      cases other with
      | nil => simp [version_cons_cons, cons_lt_cons_iff, hcha]
      | cons next' other =>
        have hres := ih (cons_ne_nil next digits) (cons_ne_nil next' other)
        have hrig : digit :: next :: digits < digit' :: next' :: other ↔
          digit < digit' ∨ digit = digit' ∧ next :: digits < next' :: other := cons_lt_cons_iff
        rw [hrig, ← hres, version_cons_cons, version_cons_cons, cons_lt_cons_iff, cons_lt_cons_iff,
          hcha, heq]
        simp

/-! ## Numbers -/

lemma number_append_singleton (digits : List (Fin 10)) (digit : Fin 10) :
    number (digits ++ [digit]) = 10 * number digits + digit.val := by
  simp [number]

lemma number_cons (digits : List (Fin 10)) :
    number (digit :: digits) = digit.val * 10 ^ digits.length + number digits := by
  induction digits using reverseRecOn with
  | nil => simp [number]
  | append_singleton digits last ih =>
    rw [← cons_append, number_append_singleton, number_append_singleton, ih, length_append,
      length_singleton, pow_succ]
    ring

lemma first_le_number (first : Fin 10) (rest : List (Fin 10)) : first.val ≤ number (first :: rest) := by
  rw [number_cons]
  exact Nat.le_add_right_of_le (Nat.le_mul_of_pos_right _ (Nat.pow_pos (by decide)))

lemma number_eq_zero_iff (digits : List (Fin 10)) : number digits = 0 ↔ ∀ digit ∈ digits, digit = 0 := by
  induction digits with
  | nil => simp [number]
  | cons digit digits ih =>
    rw [number_cons]
    simp [ih]

lemma number_le_first_iff (first : Fin 10) (rest : List (Fin 10)) :
    number (first :: rest) ≤ first.val ↔ rest = [] ∨ ∀ digit ∈ first :: rest, digit = 0 := by
  constructor
  · intro hle
    cases rest with
    | nil => exact .inl rfl
    | cons next rest =>
      right
      have hpow : first.val * 10 ≤ first.val * 10 ^ (next :: rest).length :=
        Nat.mul_le_mul_left _ (Nat.le_self_pow (Nat.succ_ne_zero _) 10)
      rw [← number_eq_zero_iff]
      rw [number_cons] at hle ⊢
      -- another digit makes the first one count ten times
      have hfir : first.val = 0 := by omega
      rw [hfir] at hle ⊢
      omega
  · rintro (rfl | hzer)
    · simp [number]
    · rw [(number_eq_zero_iff _).mpr hzer]
      exact Nat.zero_le _

lemma eq_zero_of_not_lt {digits oth : List (Fin 10)} (hzer : ∀ digit ∈ digits, digit = 0)
    (h : ¬digits < oth) : ∀ digit ∈ oth, digit = 0 := by
  induction oth generalizing digits with
  | nil => simp
  | cons first oth ih =>
    cases digits with
    | nil => exact absurd (nil_lt_cons first oth) h
    | cons digit digits =>
      rw [cons_lt_cons_iff, not_or] at h
      obtain ⟨hfir, hres⟩ := h
      have hdig := hzer digit (.head _)
      have hle : first = 0 := by
        rw [hdig] at hfir
        exact Fin.ext (Nat.le_zero.mp (Nat.le_of_not_lt hfir))
      intro other' hoth'
      rcases mem_cons.mp hoth' with rfl | hoth'
      · exact hle
      · refine ih (fun d hd => hzer d (.tail _ hd)) ?_ other' hoth'
        exact fun hlt => hres ⟨hdig.trans hle.symm, hlt⟩

/-! ## Bounds -/

open Pep440

lemma not_interpreter_lt {tag : PythonTag} (hdigi : digits ≠ []) (h : ¬tag.digits < digits)
    (hmino : tag.minor ≠ []) :
    ¬key tag.interpreter < key (digits.map Fin.val) := by
  obtain ⟨major, minor, rfl⟩ := exists_cons_of_ne_nil hdigi
  obtain ⟨first, rest, hfir⟩ := exists_cons_of_ne_nil hmino
  rw [digits, cons_lt_cons_iff, not_or] at h
  obtain ⟨hmaj, hres⟩ := h
  rw [interpreter, map_cons, key_cons_lt_key_cons_iff, not_or]
  refine ⟨hmaj, ?_⟩
  rintro ⟨heq, hlt⟩
  have hmin : ¬tag.minor < minor := fun hles => hres ⟨Fin.ext heq, hles⟩
  cases minor with
  | nil => exact not_key_lt_nil _ hlt
  | cons next minor =>
    rw [hfir, cons_lt_cons_iff, not_or] at hmin
    rw [hfir, map_cons, key_cons_lt_key_cons_iff] at hlt
    have hle := first_le_number first rest
    have hnex := Nat.le_of_not_lt hmin.1
    rcases hlt with hlt | ⟨hnum, hlt⟩
    · omega
    -- the numbers agree, so what follows in either is zeros
    have hsam : first = next := Fin.ext (by omega)
    have hnot : ¬rest < minor := fun hles => hmin.2 ⟨hsam, hles⟩
    have hzero : ∀ digit ∈ minor, digit = 0 := by
      rcases (number_le_first_iff first rest).mp (by omega) with rfl | hzer
      · cases minor with
        | nil => simp
        | cons digit minor => exact absurd (nil_lt_cons digit minor) hnot
      · exact eq_zero_of_not_lt (fun digit hdig => hzer digit (mem_cons_of_mem first hdig)) hnot
    have hkey : key (minor.map Fin.val) = [] := by
      refine key_eq_nil ?_
      intro value hval
      obtain ⟨digit, hdig, rfl⟩ := mem_map.mp hval
      rw [hzero digit hdig]
      rfl
    rw [hkey] at hlt
    exact not_lt_nil _ hlt

section

variable {first : Fin 10} {rest : List (Fin 10)} (hmin : tag.minor = first :: rest)

include hmin

lemma startsWith_dropLast_iff :
    startsWith (tag.digits.map Fin.val).dropLast tag.interpreter = true ↔
      number tag.minor ≤ first.val := by
  rw [hmin, number_le_first_iff, digits, interpreter, hmin]
  cases hres : rest with
  | nil => simp [startsWith]
  | cons next rest =>
    have hlea : ((tag.major :: first :: next :: rest).map Fin.val).dropLast =
        tag.major.val :: first.val :: ((next :: rest).map Fin.val).dropLast := rfl
    rw [hlea, startsWith, decide_eq_true_iff]
    simp only [length_cons, take_succ_cons, take_nil, cons_append,
      nil_append, cons.injEq, true_and, reduceCtorEq, false_or]
    constructor
    · rintro ⟨hnum, -⟩
      exact ((number_le_first_iff first (next :: rest)).mp (Nat.le_of_eq hnum)).resolve_left
        (cons_ne_nil _ _)
    · intro hzer
      have hfir : first = 0 := hzer first (.head _)
      refine ⟨((number_eq_zero_iff _).mpr hzer).trans (by rw [hfir]; rfl), ?_⟩
      refine (eq_replicate_iff.mpr ⟨by simp, ?_⟩).symm
      intro value hval
      obtain ⟨digit, hdig, rfl⟩ := mem_map.mp ((dropLast_sublist _).mem hval)
      rw [hzer digit (mem_cons_of_mem first hdig)]
      rfl

lemma contains_compatible_iff :
    ({ operator := .compatible, version := tag.digits.map Fin.val } : Specifier).contains
    tag.interpreter = true ↔ number tag.minor ≤ first.val := by
  have hlow := not_interpreter_lt (cons_ne_nil _ _) (List.lt_irrefl tag.digits)
    (hmin ▸ cons_ne_nil first rest)
  rw [Specifier.contains, decide_eq_true_iff, startsWith_dropLast_iff tag hmin]
  exact and_iff_right hlow

end

/-! ## Reading the requirement -/

lemma parseRelease_version (hne : digits ≠ []) :
    parseRelease (version digits) = some (digits.map Fin.val) := by
  rw [version, dotted, map_map]
  refine parseRelease_intercalate hne ?_ ?_
  · intro digit _ hmem
    exact (digitChar_facts digit).2.2.2.2.1 (mem_singleton.mp hmem).symm
  · intro digit _
    simp [parseNumber, digitValue_digitChar]

lemma comma_notMem_version (digits : List (Fin 10)) : ',' ∉ version digits := by
  induction digits with
  | nil => simp [version, dotted]
  | cons digit digits ih =>
    have hdig := (digitChar_facts digit).2.2.2.2.2.symm
    cases digits with
    | nil => simpa using hdig
    | cons next digits =>
      rw [version_cons_cons]
      simpa [hdig] using ih

lemma parseSpec_less (major : Fin 10) : parseSpecifier ('<' :: decimal (major.val + 1)) =
    some { operator := .less, version := [major.val + 1] } := by
  revert major
  decide

lemma parseSpec_compatible (htwo : 2 ≤ digits.length) : parseSpecifier ('~' :: '=' :: version digits) =
    some { operator := .compatible, version := digits.map Fin.val } := by
  have hne : digits ≠ [] := ne_nil_of_length_pos (by omega)
  rw [parseSpecifier, parseRelease_version hne, Option.bind_some, length_map, if_neg (Nat.not_lt.mpr htwo)]

lemma parseSpec_greaterEqual (hne : digits ≠ []) : parseSpecifier ('>' :: '=' :: version digits) =
    some { operator := .greaterEqual, version := digits.map Fin.val } := by
  simp [parseSpecifier, parseRelease_version hne]

lemma parseSpec_lessEqual (hne : digits ≠ []) : parseSpecifier ('<' :: '=' :: version digits) =
    some { operator := .lessEqual, version := digits.map Fin.val } := by
  simp [parseSpecifier, parseRelease_version hne]

lemma admits_range_iff (hne : digits ≠ []) {upper : Text}
    {spe : Specifier} (hupp : ',' ∉ upper) (hpar : parseSpecifier upper = some spe)
    {tag : PythonTag} (hlow : ¬tag.digits < digits) (hmin : tag.minor ≠ []) :
    admits ('>' :: '=' :: version digits ++ ',' :: upper) tag.interpreter = true ↔
    spe.contains tag.interpreter = true := by
  have hcom : ',' ∉ '>' :: '=' :: version digits := by simpa using comma_notMem_version digits
  rw [admits_pair hcom hupp (parseSpec_greaterEqual hne) hpar, Bool.and_eq_true]
  exact and_iff_right (decide_eq_true (not_interpreter_lt hne hlow hmin))

lemma contains_less_succ {tag : PythonTag} {major : Fin 10} (h : tag.major ≤ major) :
    ({ operator := .less, version := [major.val + 1] } : Specifier).contains tag.interpreter =
    true := by
  refine decide_eq_true ?_
  rw [interpreter, key_cons_lt_key_cons_iff]
  exact .inl (Nat.lt_succ_of_le h)

lemma contains_lessEqual_iff (major first : Fin 10) (rest : List (Fin 10)) :
    ({ operator := .lessEqual, version := (major :: first :: rest).map Fin.val } :
    Specifier).contains tag.interpreter = true ↔
    tag.major < major ∨ tag.major = major ∧ number tag.minor ≤ first.val := by
  rw [Specifier.contains, decide_eq_true_iff]
  rw [interpreter, map_cons, map_cons, key_cons_lt_key_cons_iff, key_cons_lt_key_cons_iff]
  have hnil := not_key_lt_nil (rest.map Fin.val)
  rw [Fin.lt_def, Fin.ext_iff]
  constructor
  · intro h
    by_cases hmaj : tag.major.val < major.val
    · exact .inl hmaj
    right
    by_contra hnot
    apply h
    omega
  · rintro (hlt | ⟨heq, hle⟩) (hgt | ⟨heq', hgt | ⟨-, hlt⟩⟩)
    all_goals first | omega | exact hnil hlt

/-! ## Choosing among the versions -/

variable (uc : DecimalDigits) (tag : PythonTag) (first : Text)

variable (texts : List Text)

lemma maxText_spec : maxText first texts ∈ first :: texts ∧ ∀ text ∈ first :: texts,
    text ≤ maxText first texts := by
  have hmax : maxText first texts = texts.foldl max first := by
    simp only [maxText, best, decide_eq_true_eq]
    congr
    funext chosen text
    split
    · rw [max_eq_right_of_lt ‹_›]
    · rw [max_eq_left (not_lt.1 ‹_›)]
  rw [hmax]
  exact max?_eq_some_iff.1 max?_cons'

lemma minText_spec : minText first texts ∈ first :: texts ∧ ∀ text ∈ first :: texts,
    minText first texts ≤ text := by
  have hmin : minText first texts = texts.foldl min first := by
    simp only [minText, best, decide_eq_true_eq]
    congr
    funext chosen text
    split
    · rw [min_eq_right_of_lt ‹_›]
    · rw [min_eq_left (not_lt.1 ‹_›)]
  rw [hmin]
  exact min?_eq_some_iff.1 min?_cons'

/-! ## The versions of the tags -/

lemma matchVersion_text (tag : PythonTag) :
    matchVersion uc tag.text = some (tag.digits.map digitChar) := by
  have hlet : tag.text.takeWhile isLower = tag.letters := by
    rw [text, takeWhile_append_of_pos tag.isLower_letters, digits, map_cons, takeWhile_cons_of_neg,
      append_nil]
    simp [(digitChar_facts tag.major).2.2.2.1]
  have hdig : tag.text.dropWhile isLower = tag.digits.map digitChar := by
    rw [text, dropWhile_append_of_pos tag.isLower_letters, digits, map_cons, dropWhile_cons_of_neg]
    simp [(digitChar_facts tag.major).2.2.2.1]
  have hdec : (tag.digits.map digitChar).takeWhile uc.isDecimal =
      tag.digits.map digitChar := by
    rw [takeWhile_eq_self_iff]
    intro c hc
    obtain ⟨digit, -, rfl⟩ := mem_map.mp hc
    obtain ⟨hdig, hasc, -⟩ := digitChar_facts digit
    rw [uc.isDecimal_ascii _ hasc, hdig]
  have hne := ne_nil_of_length_pos (Nat.lt_of_lt_of_le (by decide) tag.two_le_length)
  rw [matchVersion, hlet, hdig, hdec, if_neg]
  simp [hne, digits]

variable {tags : List PythonTag}

lemma versions_tagsText (hne : tags ≠ []) :
    ((tagsText tags).splitOn '.').filterMap (fun part => (matchVersion uc part).map dotted) =
    tags.map fun tag => version tag.digits := by
  have hspl : (tagsText tags).splitOn '.' = tags.map text := by
    refine splitOn_intercalate _ ?_ (by simpa using hne)
    intro part hpar
    obtain ⟨tag, -, rfl⟩ := mem_map.mp hpar
    rw [text, mem_append]
    rintro (hmem | hmem)
    · exact absurd (tag.isLower_letters '.' hmem) (by decide)
    · obtain ⟨digit, -, hpoi⟩ := mem_map.mp hmem
      exact (digitChar_facts digit).2.2.2.2.1 hpoi
  rw [hspl, filterMap_map]
  refine filterMap_eq_map_iff_forall_eq_some.mpr ?_
  intro tag _
  simp [matchVersion_text, version]

lemma take_one_version : (version tag.digits).take 1 = [digitChar tag.major] := by
  rw [digits]
  cases tag.minor with
  | nil => rfl
  | cons first rest =>
    rw [version_cons_cons]
    rfl

lemma version_eq_singleton_iff (major : Fin 10) :
    version tag.digits = [digitChar major] ↔ tag.major = major ∧ tag.minor = [] := by
  rw [digits]
  cases tag.minor with
  | nil => simp [digitChar_injective.eq_iff]
  | cons first rest => simp [version_cons_cons]

lemma length_version_eq_one_iff : (version tag.digits).length = 1 ↔ tag.minor = [] := by
  rw [digits]
  cases tag.minor with
  | nil => simp
  | cons first rest => simp [version_cons_cons]

lemma tagsText_ne_nil (hne : tags ≠ []) : (tagsText tags).isEmpty = false := by
  obtain ⟨tag, rest, rfl⟩ := exists_cons_of_ne_nil hne
  have htag : tag.text ≠ [] := by simp [text, digits]
  rw [tagsText, map_cons]
  cases rest with
  | nil => simpa using htag
  | cons next rest =>
    rw [map_cons, intercalate_cons_cons]
    simp

lemma pythonRequirementFromTag_singleton {tag : PythonTag} (hmin : tag.minor ≠ []) :
    pythonRequirementFromTag uc (tagsText [tag]) = '~' :: '=' :: version tag.digits := by
  have hne : [tag] ≠ [] := cons_ne_nil _ _
  have hlen : (version tag.digits).length ≠ 1 := fun h => hmin ((length_version_eq_one_iff tag).mp h)
  rw [pythonRequirementFromTag, tagsText_ne_nil hne, if_neg Bool.false_ne_true, versions_tagsText uc hne]
  simp [hlen]

lemma pythonRequirementFromTag_many (first second : PythonTag) (rest : List PythonTag) :
    ∃ top ∈ first :: second :: rest, ∃ bot ∈ first :: second :: rest,
      (∀ tag ∈ first :: second :: rest, ¬top.digits < tag.digits) ∧
      (∀ tag ∈ first :: second :: rest, ¬tag.digits < bot.digits) ∧
      pythonRequirementFromTag uc (tagsText (first :: second :: rest)) =
        '>' :: '=' :: version bot.digits ++ ',' ::
          if ∃ tag ∈ first :: second :: rest, tag.major = top.major ∧ tag.minor = [] then
            '<' :: decimal (top.major.val + 1)
          else
            '<' :: '=' :: version top.digits := by
  have hne : first :: second :: rest ≠ [] := cons_ne_nil _ _
  have hver : (first :: second :: rest).map (fun tag => version tag.digits) =
      version first.digits :: version second.digits :: rest.map fun tag => version tag.digits := rfl
  have hcom : ∀ tag other : PythonTag, version tag.digits < version other.digits ↔
      tag.digits < other.digits := fun tag other =>
    version_lt_iff (cons_ne_nil _ _) (cons_ne_nil _ _)
  -- the greatest and the least version are those of two of the tags
  obtain ⟨hmax, hnot⟩ :=
    maxText_spec (version first.digits) (version second.digits :: rest.map fun tag => version tag.digits)
  obtain ⟨hmin, hnotm⟩ :=
    minText_spec (version first.digits) (version second.digits :: rest.map fun tag => version tag.digits)
  rw [← hver] at hmax hmin hnot hnotm
  obtain ⟨top, htop, hmaxt⟩ := mem_map.mp hmax
  obtain ⟨bot, hbot, hmint⟩ := mem_map.mp hmin
  rw [← hmaxt] at hnot
  rw [← hmint] at hnotm
  have hcon : ((first :: second :: rest).map fun tag => version tag.digits).contains
    [digitChar top.major] = true ↔
      ∃ tag ∈ first :: second :: rest, tag.major = top.major ∧ tag.minor = [] := by
    rw [contains_iff_mem, mem_map]
    simp [version_eq_singleton_iff]
  refine ⟨top, htop, bot, hbot, ?_, ?_, ?_⟩
  · intro tag htag hlt
    exact (hnot _ (mem_map.mpr ⟨tag, htag, rfl⟩)).not_gt ((hcom top tag).mpr hlt)
  · intro tag htag hlt
    exact (hnotm _ (mem_map.mpr ⟨tag, htag, rfl⟩)).not_gt ((hcom tag bot).mpr hlt)
  · rw [pythonRequirementFromTag, tagsText_ne_nil hne, if_neg Bool.false_ne_true,
      versions_tagsText uc hne, hver]
    simp only
    rw [← hver, ← hmaxt, ← hmint, take_one_version]
    by_cases halo : ∃ tag ∈ first :: second :: rest, tag.major = top.major ∧ tag.minor = []
    · rw [if_pos (hcon.mpr halo), if_pos halo, if_pos length_singleton, int_digitChar]
      simp
    · have hlen : (version top.digits).length ≠ 1 := fun hone =>
        halo ⟨top, htop, rfl, (length_version_eq_one_iff top).mp hone⟩
      rw [if_neg (mt hcon.mp halo), if_neg halo, if_neg hlen]
      simp

/-! ## The interpreters of the tags -/

section

variable {top tag : PythonTag} (h : ¬top.digits < tag.digits)

include h

lemma major_le_of_not_lt : tag.major ≤ top.major := by
  rw [digits, digits, cons_lt_cons_iff, not_or] at h
  exact Fin.not_lt.mp h.1

lemma first_le_of_not_lt (hmaj : tag.major = top.major) {first first' : Fin 10}
    {rest rest' : List (Fin 10)}
    (htop : top.minor = first :: rest) (htag : tag.minor = first' :: rest') : first' ≤ first := by
  rw [digits, digits, cons_lt_cons_iff, not_or] at h
  have hmin : ¬top.minor < tag.minor := fun hlt => h.2 ⟨hmaj.symm, hlt⟩
  rw [htop, htag, cons_lt_cons_iff, not_or] at hmin
  exact Fin.not_lt.mp hmin.1

end

section

variable {tag : PythonTag} {first : Fin 10} {rest : List (Fin 10)} (hmin : tag.minor = first :: rest)

include hmin

lemma admits_singleton_iff :
    admits (pythonRequirementFromTag uc (tagsText [tag])) tag.interpreter = true ↔
      number tag.minor ≤ first.val := by
  have hne : tag.minor ≠ [] := hmin ▸ cons_ne_nil first rest
  have hcom : ',' ∉ '~' :: '=' :: version tag.digits := by simpa using comma_notMem_version tag.digits
  have htwo : 2 ≤ tag.digits.length := by simp [digits, hmin]
  rw [pythonRequirementFromTag_singleton uc hne, admits_singleton hcom (parseSpec_compatible htwo)]
  exact contains_compatible_iff tag hmin

lemma covered_singleton_iff : Covered [tag] ↔ number tag.minor ≤ first.val := by
  constructor
  · rintro (⟨htwo, -⟩ | hcov)
    · simp at htwo
    obtain ⟨other, hoth, -, first', rest', hmin', hle⟩ :=
      hcov tag (.head _) (by simp [Highest]) (hmin ▸ cons_ne_nil first rest)
    rw [mem_singleton.mp hoth, hmin] at hmin'
    cases hmin'
    exact hle
  · intro hle
    right
    intro other hoth _ _
    rw [mem_singleton.mp hoth]
    exact ⟨tag, (.head _), rfl, first, rest, hmin, hle⟩

end

section Greatest

variable {tags : List PythonTag} {top : PythonTag} (htop : top ∈ tags)
  (hmax : ∀ tag ∈ tags, ¬top.digits < tag.digits)

include hmax in
lemma highest_of_not_lt : Highest tags top := fun other hoth => major_le_of_not_lt (hmax other hoth)

include hmax in
lemma covered_of_alone (htwo : 2 ≤ tags.length)
    (halo : ∃ tag ∈ tags, tag.major = top.major ∧ tag.minor = []) : Covered tags := by
  obtain ⟨tag, htag, hmaj, hmin⟩ := halo
  refine .inl ⟨htwo, tag, htag, ?_, hmin⟩
  intro other hoth
  rw [hmaj]
  exact highest_of_not_lt hmax other hoth

include htop hmax in
lemma covered_iff_of_not_alone (halo : ¬∃ tag ∈ tags, tag.major = top.major ∧ tag.minor = [])
    {first : Fin 10} {rest : List (Fin 10)} (hmin : top.minor = first :: rest) :
    Covered tags ↔ ∀ tag ∈ tags, tag.minor ≠ [] →
    tag.major < top.major ∨ tag.major = top.major ∧ number tag.minor ≤ first.val := by
  have hhig := highest_of_not_lt hmax
  constructor
  · rintro (⟨-, tag, htag, hhigh, hnil⟩ | hcov)
    · have hmaj := Fin.le_antisymm (hhig tag htag) (hhigh top htop)
      exact absurd ⟨tag, htag, hmaj, hnil⟩ halo
    intro tag htag hne
    rcases Fin.lt_or_eq_of_le (hhig tag htag) with hlt | heq
    · exact .inl hlt
    have hhigh : Highest tags tag := fun other hoth => heq ▸ hhig other hoth
    obtain ⟨other, hoth, hmaj, first', rest', hmin', hle⟩ := hcov tag htag hhigh hne
    have hfir := first_le_of_not_lt (hmax other hoth) (hmaj.trans heq) hmin hmin'
    exact .inr ⟨heq, hle.trans hfir⟩
  · intro hall
    right
    intro tag htag hhigh hne
    have hmaj := Fin.le_antisymm (hhig tag htag) (hhigh top htop)
    rcases hall tag htag hne with hlt | ⟨-, hle⟩
    · exact absurd hmaj (Fin.ne_of_lt hlt)
    · exact ⟨top, htop, hmaj.symm, first, rest, hmin, hle⟩

end Greatest

/-- The requirement admits the interpreter of every tag with a minor version exactly if the minor
versions of the highest major version are covered. -/
theorem pythonRequirementFromTag_admits_iff (unicode : DecimalDigits) (tags : List PythonTag) :
    (∀ tag ∈ tags, tag.minor ≠ [] →
    admits (pythonRequirementFromTag unicode (tagsText tags)) tag.interpreter = true) ↔
    Covered tags := by
  cases tags with
  | nil => simp [Covered]
  | cons first rest =>
    cases rest with
    | nil =>
      cases hmino : first.minor with
      | nil => simp [Covered, hmino]
      | cons digit digits =>
        rw [covered_singleton_iff hmino, ← admits_singleton_iff unicode hmino]
        simp [hmino]
    | cons second rest =>
      obtain ⟨top, htop, bot, -, hmax, hmin, htex⟩ :=
        pythonRequirementFromTag_many unicode first second rest
      rw [htex]
      have hbot : bot.digits ≠ [] := cons_ne_nil _ _
      by_cases halo : ∃ tag ∈ first :: second :: rest, tag.major = top.major ∧ tag.minor = []
      · -- everything below the next major version is admitted
        rw [if_pos halo]
        have htwo := Nat.le_add_left 2 rest.length
        refine iff_of_true ?_ (covered_of_alone hmax htwo halo)
        intro tag htag hmino
        have hcom : ',' ∉ '<' :: decimal (top.major.val + 1) := by
          simpa using not_mem_decimal rfl (top.major.val + 1)
        exact (admits_range_iff hbot hcom (parseSpec_less top.major)
          (hmin tag htag) hmino).mpr (contains_less_succ (highest_of_not_lt hmax tag htag))
      · -- the greatest version is the upper bound, read digit by digit
        rw [if_neg halo]
        obtain ⟨digit, digits, hmino⟩ := exists_cons_of_ne_nil fun hnil =>
          halo ⟨top, htop, rfl, hnil⟩
        rw [covered_iff_of_not_alone htop hmax halo hmino]
        have hcom : ',' ∉ '<' :: '=' :: version top.digits := by
          simpa using comma_notMem_version top.digits
        refine forall₃_congr fun tag htag hne => ?_
        rw [admits_range_iff hbot hcom (parseSpec_lessEqual (cons_ne_nil _ _ : top.digits ≠ []))
          (hmin tag htag) hne, PythonTag.digits, hmino]
        exact contains_lessEqual_iff tag top.major digit digits

lemma isLower_cp : ∀ c ∈ ['c', 'p'], isLower c = true := all_eq_true.mp rfl

lemma isLower_py : ∀ c ∈ ['p', 'y'], isLower c = true := all_eq_true.mp rfl

def cp310 : PythonTag where
  letters := ['c', 'p']
  major := 3
  minor := [1, 0]
  two_le_length := Nat.le_refl 2
  isLower_letters := isLower_cp

def py36 : PythonTag where
  letters := ['p', 'y']
  major := 3
  minor := [6]
  two_le_length := Nat.le_refl 2
  isLower_letters := isLower_py

/-- The requirement of `cp310` is `~=3.1.0`, that of `py36.cp310` is `>=3.1.0,<=3.6`: Python 3.10
meets neither. -/
theorem pythonRequirementFromTag_refuses_310 :
    pythonRequirementFromTag .ascii (tagsText [cp310]) = "~=3.1.0".toList ∧
    pythonRequirementFromTag .ascii (tagsText [py36, cp310]) = ">=3.1.0,<=3.6".toList ∧
    cp310.interpreter = [3, 10] ∧
    Pep440.admits "~=3.1.0".toList [3, 10] = false ∧
    Pep440.admits ">=3.1.0,<=3.6".toList [3, 10] = false := by
  decide

end PythonTags
end Toolchain.Pypi
