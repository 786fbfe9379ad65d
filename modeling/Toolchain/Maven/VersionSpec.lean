import Toolchain.Lib.MapM
import Toolchain.Maven.SemverOrder

/-!
# Maven.VersionSpec — requirements on Maven versions

A spec is a text of ranges and versions joined by commas, over which one regular expression is
searched.  No element is split, merged or skipped (`scan_specText`); but a bound that `MavenSemver` does
not construct, like the one in `[0,1]`, makes the whole spec raise.

Models `packagerepo/maven/version/maven_semantic_version_spec.py`.
-/

namespace Toolchain.Maven

open Lib List Option MavenSemver

variable (unicode uc : CharClasses)

/-! ## The regular expression -/

inductive SpecMatch
  | range (leftRange : Char) (lowerBound upperBound : Text) (rightRange : Char)
  | hardRequirement (text : Text)
  | softRequirement (text : Text)
  deriving DecidableEq, Repr

/-- The first alternative and the length of its match.  What follows a run of characters is not one of
them, so there is no backtracking. -/
def matchRange : Text → Option (SpecMatch × Nat)
  | [] => none
  | left :: rest =>
    if left ≠ '[' ∧ left ≠ '(' then none
    else
      let lower := rest.takeWhile (· ∉ [',', ']', ')'])
      match rest.drop lower.length with
      | ',' :: rest =>
        let upper := rest.takeWhile (· ∉ [']', ')'])
        match rest.drop upper.length with
        | right :: _ => some (.range left lower upper right, lower.length + upper.length + 3)
        | [] => none
      | _ => none

def matchHardRequirement : Text → Option (SpecMatch × Nat)
  | '[' :: rest =>
    let text := rest.takeWhile (· ∉ [',', ']'])
    match rest.drop text.length with
    | ']' :: _ => some (.hardRequirement text, text.length + 2)
    | _ => none
  | _ => none

def matchSoftRequirement (text : Text) : Option (SpecMatch × Nat) :=
  let requirement := text.takeWhile fun c => unicode.isWord c || c == '.' || c == '-'
  if requirement.isEmpty then none
  else some (.softRequirement requirement, requirement.length)

def matchAt (text : Text) : Option (SpecMatch × Nat) :=
  matchRange text <|> matchHardRequirement text <|> matchSoftRequirement unicode text

def scan : (skip : Nat) → Text → List SpecMatch
  | _, [] => []
  | skip + 1, _ :: rest => scan skip rest
  | 0, c :: rest =>
    match matchAt unicode (c :: rest) with
    | some (found, length) => found :: scan (length - 1) rest
    | none => scan 0 rest

/-! ## The spec -/

structure RangePredicate where
  lowerBound : Option MavenSemver
  leftRange : Option Char
  upperBound : Option MavenSemver
  rightRange : Option Char
  deriving DecidableEq, Repr

def newBound (text : Text) : Option (Option MavenSemver) :=
  if text = [] then some none else (new unicode text).map some

namespace RangePredicate

def new (leftRange : Char) (lowerBound upperBound : Text) (rightRange : Char) :
    Option RangePredicate := do
  let lowerBound ← newBound unicode lowerBound
  let upperBound ← newBound unicode upperBound
  return ⟨lowerBound, some leftRange, upperBound, some rightRange⟩

def aboveLower (self : RangePredicate) (version : MavenSemver) : Option Bool :=
  match self.lowerBound with
  | none => some true
  | some lowerBound => do
      if ← version.lt unicode lowerBound then some false
      else if self.leftRange = some '(' then return !(← version.eq unicode lowerBound)
      else some true

def belowUpper (self : RangePredicate) (version : MavenSemver) : Option Bool :=
  match self.upperBound with
  | none => some true
  | some upperBound => do
      if ← version.gt unicode upperBound then some false
      else if self.rightRange = some ')' then return !(← version.eq unicode upperBound)
      else some true

def call (self : RangePredicate) (version : MavenSemver) : Option Bool := do
  if ← self.aboveLower unicode version then self.belowUpper unicode version else some false

end RangePredicate

def anyOf {α : Type} (f : α → Option Bool) : List α → Option Bool
  | [] => some false
  | x :: xs => do
      if ← f x then some true else anyOf f xs

structure MavenVersionSpec where
  hardRequirements : List MavenSemver
  softRequirement : Option MavenSemver
  onlySoftRequirement : Bool
  rangePredicates : List RangePredicate
  deriving DecidableEq, Repr

namespace MavenVersionSpec

def empty : MavenVersionSpec where
  hardRequirements := []
  softRequirement := none
  onlySoftRequirement := false
  rangePredicates := []

def addMatch (count : Nat) (self : MavenVersionSpec) : SpecMatch → Option MavenVersionSpec
  | .hardRequirement [] =>
    -- an empty requirement is not one, and the other groups are not there
    some { self with rangePredicates := self.rangePredicates ++ [⟨none, none, none, none⟩] }
  | .hardRequirement text => do
      let version ← new unicode text
      return { self with hardRequirements := self.hardRequirements ++ [version] }
  | .softRequirement text => do
      let version ← new unicode text
      return { self with
        softRequirement := some version
        onlySoftRequirement := self.onlySoftRequirement || count == 1 }
  | .range leftRange lowerBound upperBound rightRange => do
      let predicate ← RangePredicate.new unicode leftRange lowerBound upperBound rightRange
      return { self with rangePredicates := self.rangePredicates ++ [predicate] }

def parseSpec (specs : List SpecMatch) : Option MavenVersionSpec :=
  specs.foldlM (addMatch unicode specs.length) empty

def new (versionSpec : Text) : Option MavenVersionSpec :=
  parseSpec unicode (scan unicode 0 versionSpec)

def isValidVersion (self : MavenVersionSpec) (version : MavenSemver) : Option Bool :=
  if self.onlySoftRequirement then
    some true
  else do
    let isSoft ← match self.softRequirement with
      | none => some false
      | some softRequirement => version.eq unicode softRequirement
    if isSoft then some true
    else if ← anyOf (fun requirement => version.eq unicode requirement) self.hardRequirements then
      some true
    else
      anyOf (fun predicate => predicate.call unicode version) self.rangePredicates

end MavenVersionSpec

/-! ## Elements -/

def Bound : Type :=
  { text : Text // text ≠ [] ∧ ∀ c ∈ text, c ∉ [',', '[', ']', '(', ')'] }

inductive End
  | closed | opened
  deriving DecidableEq, Repr

inductive Element
  | range (left : End) (lower upper : Option Bound) (right : End)
  | hard (version : Bound)

def End.left : End → Char
  | .closed => '['
  | .opened => '('

def End.right : End → Char
  | .closed => ']'
  | .opened => ')'

def boundText (bound : Option Bound) : Text :=
  (bound.map Subtype.val).getD []

namespace Element

def text : Element → Text
  | .range left lower upper right =>
    left.left :: (boundText lower ++ ',' :: (boundText upper ++ [right.right]))
  | .hard version => '[' :: (version.1 ++ [']'])

def toMatch : Element → SpecMatch
  | .range left lower upper right => .range left.left (boundText lower) (boundText upper) right.right
  | .hard version => .hardRequirement version.1

def bounds : Element → List Bound
  | .range _ lower upper _ => lower.toList ++ upper.toList
  | .hard version => [version]

end Element

def specText (elements : List Element) : Text :=
  [','].intercalate (elements.map Element.text)

/-! ## Scanning the text of elements -/

lemma Bound.spec (bound : Bound) {c : Char} (hc : c ∈ bound.1) :
    c ≠ ',' ∧ c ≠ '[' ∧ c ≠ ']' ∧ c ≠ '(' ∧ c ≠ ')' := by
  simpa using bound.2.2 c hc

lemma boundText_spec {bound : Option Bound} {c : Char} (hc : c ∈ boundText bound) :
    c ≠ ',' ∧ c ≠ '[' ∧ c ≠ ']' ∧ c ≠ '(' ∧ c ≠ ')' := by
  cases bound with
  | none => exact absurd hc not_mem_nil
  | some bound => exact bound.spec hc

lemma takeWhile_append_stop {text rest : Text} {stop : Char} {p : Char → Bool}
    (htex : ∀ c ∈ text, p c = true) (hsto : p stop = false) :
    (text ++ stop :: rest).takeWhile p = text := by
  rw [takeWhile_append_of_pos htex, takeWhile_cons, hsto]
  simp

open Element RangePredicate

variable (left : End) (els : List Element)

lemma matchRange_range (lower upper : Option Bound) (right : End) (rest : Text) :
    matchRange ((range left lower upper right).text ++ rest) =
    some ((range left lower upper right).toMatch, (range left lower upper right).text.length) := by
  have hlef : ¬ (left.left ≠ '[' ∧ left.left ≠ '(') := by
    cases left with
    | closed | opened => simp [End.left]
  have hlow : (boundText lower ++ ',' :: (boundText upper ++ right.right :: rest)).takeWhile
      (· ∉ [',', ']', ')']) = boundText lower := by
    refine takeWhile_append_stop (fun c hc => ?_) (by simp)
    simp [boundText_spec hc]
  have hupp : (boundText upper ++ right.right :: rest).takeWhile (· ∉ [']', ')']) =
      boundText upper := by
    refine takeWhile_append_stop (fun c hc => ?_) ?_
    · simp [boundText_spec hc]
    · cases right with
      | closed | opened => simp [End.right]
  simp only [text, cons_append, append_assoc, nil_append, matchRange, hlef,
    if_false, hlow, drop_left, hupp, toMatch, length_cons, length_append,
    length_nil]
  simp only [some_inj, Prod.mk.injEq, true_and]
  omega

lemma matchRange_hard (ver : Bound) (rest : Text) : matchRange ((hard ver).text ++ rest) = none := by
  have hrun : (ver.1 ++ ']' :: rest).takeWhile (· ∉ [',', ']', ')']) = ver.1 := by
    refine takeWhile_append_stop (fun c hc => ?_) (by simp)
    simp [ver.spec hc]
  have hlef : ¬ ('[' ≠ '[' ∧ '[' ≠ '(') := by simp
  simp only [text, cons_append, append_assoc, nil_append, matchRange, hlef, if_false, hrun, drop_left]
  rfl

lemma matchHardRequirement_hard (ver : Bound) (rest : Text) :
    matchHardRequirement ((hard ver).text ++ rest) =
    some ((hard ver).toMatch, (hard ver).text.length) := by
  have hrun : (ver.1 ++ ']' :: rest).takeWhile (· ∉ [',', ']']) = ver.1 := by
    refine takeWhile_append_stop (fun c hc => ?_) (by simp)
    simp [ver.spec hc]
  simp only [text, cons_append, append_assoc, nil_append, matchHardRequirement, hrun, drop_left,
    toMatch, length_cons,
    length_append, length_nil]

lemma matchAt_element (el : Element) (rest : Text) :
    matchAt uc (el.text ++ rest) = some (el.toMatch, el.text.length) := by
  cases el with
  | range left lower upper right => rw [matchAt, matchRange_range]; rfl
  | hard version => rw [matchAt, matchRange_hard, matchHardRequirement_hard]; rfl

lemma matchAt_comma (rest : Text) : matchAt uc (',' :: rest) = none := by
  have hwor : uc.isWord ',' = false := by
    rw [uc.isWord_ascii _ (by decide)]
    decide
  simp [matchAt, matchRange, matchHardRequirement, matchSoftRequirement, hwor]

lemma scan_skip (skipped rest : Text) : scan uc skipped.length (skipped ++ rest) = scan uc 0 rest := by
  induction skipped with
  | nil => rfl
  | cons c skipped ih => simpa [scan] using ih

lemma scan_element (el : Element) (rest : Text) :
    scan uc 0 (el.text ++ rest) = el.toMatch :: scan uc 0 rest := by
  have hmat := matchAt_element uc el rest
  obtain ⟨c, tail, htex⟩ : ∃ c tail, el.text = c :: tail := by
    cases el with
    | range left lower upper right | hard version => exact ⟨_, _, rfl⟩
  rw [htex] at hmat ⊢
  rw [cons_append] at hmat ⊢
  rw [scan, hmat]
  simp [scan_skip]

lemma scan_specText : scan uc 0 (specText els) = els.map Element.toMatch := by
  induction els with
  | nil => rfl
  | cons el els ih =>
    cases els with
    | nil =>
      have := scan_element uc el []
      simpa [specText, scan] using this
    | cons next els =>
      have hjoi : specText (el :: next :: els) =
        el.text ++ ',' :: specText (next :: els) := by simp [specText]
      rw [hjoi, scan_element, scan, matchAt_comma, ih]
      rfl

/-! ## The spec of elements -/

variable {α : Type} {xs : List α}

variable (version : Bound) (right : End)

variable (elements : List Element)

section

variable {unicode uc}

def hardVersions (elements : List Element) : List Text :=
  elements.filterMap fun
    | .hard version => some version.1
    | .range _ _ _ _ => none

def ranges (elements : List Element) : List (End × Option Bound × Option Bound × End) :=
  elements.filterMap fun
    | .hard _ => none
    | .range left lower upper right => some (left, lower, upper, right)

@[simp] lemma hardVersions_hard :
    hardVersions (.hard version :: elements) = version.1 :: hardVersions elements :=
  rfl

@[simp] lemma hardVersions_range (lower upper : Option Bound)
    (elements : List Element) :
    hardVersions (.range left lower upper right :: elements) = hardVersions elements :=
  rfl

@[simp] lemma ranges_hard :
    ranges (.hard version :: elements) = ranges elements :=
  rfl

@[simp] lemma ranges_range (lower upper : Option Bound)
    (elements : List Element) :
    ranges (.range left lower upper right :: elements) = (left, lower, upper, right) :: ranges elements :=
  rfl

lemma forall_element_iff {p : Element → Prop} {q : Text → Prop}
    {r : End × Option Bound × Option Bound × End → Prop} (hq : ∀ version, p (.hard version) ↔ q version.1)
    (hr : ∀ left lower upper right, p (.range left lower upper right) ↔ r (left, lower, upper, right)) :
    (∀ el ∈ els, p el) ↔ (∀ text ∈ hardVersions els, q text) ∧ ∀ range ∈ ranges els, r range := by
  induction els with
  | nil => simp [hardVersions, ranges]
  | cons el els ih =>
    rw [forall_mem_cons, ih]
    cases el with
    | hard version => rw [hq, hardVersions_hard, ranges_hard, forall_mem_cons, and_assoc]
    | range left lower upper right =>
      rw [hr, hardVersions_range, ranges_range, forall_mem_cons, and_left_comm]

def newPredicate (unicode : CharClasses) (range : End × Option Bound × Option Bound × End) :
    Option RangePredicate :=
  new unicode range.1.left (boundText range.2.1) (boundText range.2.2.1) range.2.2.2.right

lemma addMatch_hardRequirement {count : Nat} {spec : MavenVersionSpec} {text : Text} (h : text ≠ []) :
    MavenVersionSpec.addMatch uc count spec (.hardRequirement text) = (new uc text).map fun version =>
    { spec with hardRequirements := spec.hardRequirements ++ [version] } := by
  cases text with
  | nil => exact absurd rfl h
  | cons c text =>
    rw [MavenVersionSpec.addMatch]
    · cases new uc (c :: text) with
      | none | some version => rfl
    · simp

lemma foldlM_addMatch (count : Nat) (spec : MavenVersionSpec) :
    (els.map Element.toMatch).foldlM (MavenVersionSpec.addMatch uc count) spec = do
        let vers ← (hardVersions els).mapM (new uc)
        let predicates ← (ranges els).mapM (newPredicate uc)
        return { spec with
          hardRequirements := spec.hardRequirements ++ vers
          rangePredicates := spec.rangePredicates ++ predicates } := by
  induction els generalizing spec with
  | nil => simp [hardVersions, ranges]
  | cons el els ih =>
    cases el with
    | hard version =>
      rw [map_cons, foldlM_cons, toMatch,
        addMatch_hardRequirement version.2.1, hardVersions_hard, ranges_hard, mapM_cons]
      cases new uc version.1 with
      | none => simp
      | some version =>
        cases hmor : (hardVersions els).mapM (new uc) with
        | none | some vers => simp [ih, hmor]
    | range left lower upper right =>
      have hste : MavenVersionSpec.addMatch uc count spec (range left lower upper right).toMatch =
          (newPredicate uc (left, lower, upper, right)).map fun pred =>
            { spec with rangePredicates := spec.rangePredicates ++ [pred] } := by
        show MavenVersionSpec.addMatch uc count spec (.range _ _ _ _) = _
        rw [MavenVersionSpec.addMatch, newPredicate]
        cases new uc left.left (boundText lower) (boundText upper) right.right with
        | none => rfl
        | some pred => rfl
      rw [map_cons, foldlM_cons, hste, hardVersions_range, ranges_range, mapM_cons]
      cases newPredicate uc (left, lower, upper, right) with
      | none => simp
      | some pred =>
        cases hmor : (ranges els).mapM (newPredicate uc) with
        | none | some predicates => simp [ih, hmor]

/-! ## What a spec admits -/

lemma anyOf_eq {β : Type} {ys : List β} {f : β → Option Bool} {p : α → Prop}
    (h : Forall₂ (fun x y => ∃ res, f y = some res ∧ (res = true ↔ p x)) xs ys) :
    ∃ res, anyOf f ys = some res ∧ (res = true ↔ ∃ x ∈ xs, p x) := by
  induction h with
  | nil => exact ⟨false, rfl, by simp⟩
  | cons hfir _ ih =>
    obtain ⟨first, hfir, hiff⟩ := hfir
    obtain ⟨res, hres, hresi⟩ := ih
    cases first with
    | true => exact ⟨true, by simp [anyOf, hfir], by simp [← hiff]⟩
    | false => exact ⟨res, by simp [anyOf, hfir, hres], by simp [← hiff, hresi]⟩

/-- Whether an element admits a version, in terms of `<` and `==`. -/
def Element.Admits (unicode : CharClasses) (version : MavenSemver) : Element → Prop
  | .hard requirement =>
    ∃ bound, new unicode requirement.1 = some bound ∧ version.eq unicode bound = some true
  | .range left lower upper right =>
    (∀ text, lower = some text → ∃ bound, new unicode text.1 = some bound ∧
      version.lt unicode bound = some false ∧
      (left = .opened → version.eq unicode bound = some false)) ∧
    (∀ text, upper = some text → ∃ bound, new unicode text.1 = some bound ∧
      (version.lt unicode bound = some true ∨ right = .closed ∧ version.eq unicode bound = some true))

def Comparable (unicode : CharClasses) (version bound : MavenSemver) : Prop :=
  (version.eq unicode bound).isSome = true

lemma part_lt_isSome_of_eq {first second : MavenSemverPart}
    (h : first.eq uc second = some false) : (first.lt uc second).isSome = true := by
  rw [MavenSemverPart.eq] at h
  rw [MavenSemverPart.lt]
  by_cases hsep : first.separator = second.separator
  · rw [if_neg (not_not.2 hsep)] at h
    cases hkind : kind uc first.token <;> cases hkin : kind uc second.token <;> simp_all
  · cases kind uc first.token <;> cases kind uc second.token <;> simp [hsep]

lemma firstLess_of_allEqual {pts : List (MavenSemverPart × MavenSemverPart)} {equal : Bool}
    (h : allEqual uc pts = some equal) :
    ∃ less, firstLess uc pts = some less ∧ (equal = true → less = false) := by
  induction pts with
  | nil => exact ⟨false, rfl, fun _ => rfl⟩
  | cons pair pts ih =>
    obtain ⟨first, second⟩ := pair
    rw [allEqual] at h
    rw [firstLess]
    cases heq : first.eq uc second with
    | none => simp [heq] at h
    | some res =>
      cases res with
      | true => simpa using ih (by simpa [heq] using h)
      | false =>
        obtain ⟨less, hles⟩ := isSome_iff_exists.1 (part_lt_isSome_of_eq heq)
        obtain rfl : false = equal := by simpa [heq] using h
        exact ⟨less, by simpa using hles, by simp⟩

/-- Versions read from ASCII texts are compared without an exception, by `==` and by `<`. -/
theorem ascii_versions_compare {first second : Text} {ver bound : MavenSemver}
    (hfir : IsAscii first) (hsec : IsAscii second) (hver : new uc first = some ver)
    (hbou : new uc second = some bound) : (ver.eq uc bound).isSome = true ∧
      (ver.lt uc bound).isSome = true := by
  obtain ⟨x, hx, hver⟩ := bind_eq_some_iff.1 hver
  obtain ⟨y, hy, hbou⟩ := bind_eq_some_iff.1 hbou
  obtain rfl := some.inj hver
  obtain rfl := some.inj hbou
  obtain ⟨heq, hlt⟩ := compare_parts (allReadable_of_isAscii hfir hx) (allReadable_of_isAscii hsec hy)
  exact ⟨isSome_iff_exists.2 ⟨_, heq⟩, isSome_iff_exists.2 ⟨_, hlt⟩⟩

theorem ascii_versions_compare_candidate :
    ∃ ver bound, new .ascii "1.0".toList = some ver ∧ new .ascii "1.0-rc1".toList = some bound ∧
    (ver.eq .ascii bound).isSome = true ∧ (ver.lt .ascii bound).isSome = true := by
  have hasc : IsAscii "1.0".toList ∧ IsAscii "1.0-rc1".toList :=
    ⟨isAscii_of_all (by decide), isAscii_of_all (by decide)⟩
  exact ⟨_, _, rfl, rfl, ascii_versions_compare hasc.1 hasc.2 rfl rfl⟩

lemma Comparable.cases {ver bound : MavenSemver} (h : Comparable uc ver bound) :
    ∃ less equal, ver.lt uc bound = some less ∧ ver.eq uc bound = some equal ∧
    ver.gt uc bound = some (!less && !equal) ∧ (equal = true → less = false) := by
  obtain ⟨equal, hequ⟩ := isSome_iff_exists.1 h
  obtain ⟨less, hles, hnot⟩ := firstLess_of_allEqual hequ
  have hlt : ver.lt uc bound = some less := hles
  refine ⟨less, equal, hlt, hequ, ?_, hnot⟩
  cases less with
  | true => simp [gt, hlt]
  | false => simp [gt, hlt, hequ]

variable {version ver : MavenSemver} {pred : RangePredicate}

lemma aboveLower_eq {left : End} (hlef : pred.leftRange = some left.left)
    (hcom : ∀ bound, pred.lowerBound = some bound → Comparable uc ver bound) :
    ∃ result, pred.aboveLower uc ver = some result ∧
    (result = true ↔ ∀ bound, pred.lowerBound = some bound → ver.lt uc bound = some false ∧
    (left = .opened → ver.eq uc bound = some false)) := by
  rw [aboveLower, hlef]
  cases hbou : pred.lowerBound with
  | none => exact ⟨true, rfl, by simp⟩
  | some bound =>
    obtain ⟨less, equal, hles, hequ, -, -⟩ := (hcom bound hbou).cases
    cases less with
    | true => exact ⟨false, by simp [hles], by simp [hles]⟩
    | false =>
      cases left with
      | closed => exact ⟨true, by simp [hles, End.left], by simp [hles]⟩
      | opened => exact ⟨!equal, by simp [hles, hequ, End.left], by simp [hles, hequ]⟩

lemma belowUpper_eq {right : End} (hrig : pred.rightRange = some right.right)
    (hcom : ∀ bound, pred.upperBound = some bound → Comparable uc ver bound) :
    ∃ result, pred.belowUpper uc ver = some result ∧
    (result = true ↔ ∀ bound, pred.upperBound = some bound → ver.lt uc bound = some true ∨
    right = .closed ∧ ver.eq uc bound = some true) := by
  rw [belowUpper, hrig]
  cases hbou : pred.upperBound with
  | none => exact ⟨true, rfl, by simp⟩
  | some bound =>
    obtain ⟨less, equal, hles, hequ, hgre, hnot⟩ := (hcom bound hbou).cases
    cases right with
    | closed =>
      refine ⟨less || equal, ?_, by simp [hles, hequ]⟩
      cases less with
      | true => simp [hgre, End.right]
      | false =>
        cases equal with
        | true => simp [hgre, End.right]
        | false => simp [hgre]
    | opened =>
      refine ⟨less, ?_, by simp [hles]⟩
      cases less with
      | true =>
        obtain rfl : equal = false := by
          cases equal with
          | true => exact absurd (hnot rfl) (by simp)
          | false => rfl
        simp [hgre, hequ]
      | false =>
        cases equal with
        | true => simp [hgre, hequ, End.right]
        | false => simp [hgre]

lemma newBound_some (bound : Bound) :
    newBound uc (boundText (some bound)) = (new uc bound.1).map some := by
  rw [newBound, if_neg]
  · rfl
  · exact bound.2.1

lemma newBound_eq_some {bound : Option Bound} {con : Option MavenSemver}
    (h : newBound uc (boundText bound) = some con) :
    bound = none ∧ con = none ∨ ∃ text version, bound = some text ∧ con = some version ∧
    new uc text.1 = some version := by
  cases bound with
  | none => exact .inl ⟨rfl, (some.inj h).symm⟩
  | some text =>
    rw [newBound_some] at h
    obtain ⟨version, hver, rfl⟩ := map_eq_some_iff.1 h
    exact .inr ⟨text, version, rfl, rfl, hver⟩

lemma newPredicate_eq_some {left right : End} {lower upper : Option Bound}
    (h : newPredicate uc (left, lower, upper, right) = some pred) :
    pred.leftRange = some left.left ∧ pred.rightRange = some right.right ∧
    newBound uc (boundText lower) = some pred.lowerBound ∧
    newBound uc (boundText upper) = some pred.upperBound := by
  obtain ⟨bound, hlow, h⟩ := bind_eq_some_iff.1 h
  obtain ⟨upperBound, hupp, h⟩ := bind_eq_some_iff.1 h
  obtain rfl := some.inj h
  exact ⟨rfl, rfl, hlow, hupp⟩

lemma forall_bound_iff {bound : Option Bound} {con : Option MavenSemver}
    (h : newBound unicode (boundText bound) = some con) (P : MavenSemver → Prop) :
    (∀ version, con = some version → P version) ↔
    ∀ text, bound = some text → ∃ version, new unicode text.1 = some version ∧
    P version := by
  obtain ⟨rfl, rfl⟩ | ⟨text, version, rfl, rfl, hnew⟩ := newBound_eq_some h
  · simp
  · simp [hnew]

lemma call_eq {left right : End} {lower upper : Option Bound}
    (h : newPredicate unicode (left, lower, upper, right) = some pred)
    (hcom : ∀ text ∈ (range left lower upper right).bounds, ∀ bound,
    new unicode text.1 = some bound → Comparable unicode version bound) :
    ∃ result, pred.call unicode version = some result ∧
    (result = true ↔ (range left lower upper right).Admits unicode version) := by
  obtain ⟨hlef, hrig, hlow, hupp⟩ := newPredicate_eq_some h
  have hbou {bound : Option Bound} {con : Option MavenSemver}
    (hnew : newBound unicode (boundText bound) = some con)
      (hmem : ∀ text, bound = some text → text ∈ (range left lower upper right).bounds) :
      ∀ version', con = some version' → Comparable unicode version version' := by
    obtain ⟨rfl, rfl⟩ | ⟨text, _, rfl, rfl, hver⟩ := newBound_eq_some hnew
    · simp
    · rintro _ ⟨⟩
      exact hcom text (hmem text rfl) _ hver
  obtain ⟨above, habov, habo⟩ := aboveLower_eq hlef (hbou hlow fun text htex => by simp [bounds, htex])
  obtain ⟨below, hbelo, hbel⟩ := belowUpper_eq hrig (hbou hupp fun text htex => by simp [bounds, htex])
  rw [forall_bound_iff hlow] at habo
  rw [forall_bound_iff hupp] at hbel
  refine ⟨above && below, ?_, ?_⟩
  · rw [call, habov]
    cases above with
    | true => simpa using hbelo
    | false => rfl
  · rw [Bool.and_eq_true, habo, hbel]
    rfl

/-- A spec has just the given elements: their hard requirements and ranges in order, and no soft
requirement. -/
structure MavenVersionSpec.Represents (spec : MavenVersionSpec) (elements : List Element) :
    Prop where
  hardRequirements : spec.hardRequirements.map MavenSemver.version = hardVersions elements
  rangePredicates : spec.rangePredicates.map (fun predicate =>
      (predicate.leftRange, predicate.lowerBound.map MavenSemver.version,
        predicate.upperBound.map MavenSemver.version, predicate.rightRange)) =
      (ranges elements).map fun range =>
        (some range.1.left, range.2.1.map Subtype.val, range.2.2.1.map Subtype.val, some range.2.2.2.right)
  softRequirement : spec.softRequirement = none
  onlySoftRequirement : spec.onlySoftRequirement = false

lemma version_of_new {text : Text} (h : new uc text = some ver) : ver.version = text := by
  obtain ⟨parts, -, h⟩ := bind_eq_some_iff.1 h
  obtain rfl := some.inj h
  rfl

lemma map_version_of_newBound {bound : Option Bound} {con : Option MavenSemver}
    (h : newBound uc (boundText bound) = some con) :
    con.map MavenSemver.version = bound.map Subtype.val := by
  obtain ⟨rfl, rfl⟩ | ⟨text, version, rfl, rfl, hnew⟩ := newBound_eq_some h
  · rfl
  · exact congrArg some (version_of_new hnew)

def AllConstructible (unicode : CharClasses) (elements : List Element) : Prop :=
  ∀ element ∈ elements, ∀ bound ∈ element.bounds, Constructible unicode bound.1

lemma newBound_isSome_iff (bound : Option Bound) : (newBound uc (boundText bound)).isSome = true ↔
    ∀ text ∈ bound.toList, Constructible uc text.1 := by
  cases bound with
  | none => exact iff_of_true rfl (by simp)
  | some text => simp [newBound_some, new_isSome_iff]

lemma newPredicate_isSome_iff (lower upper : Option Bound) :
    (newPredicate uc (left, lower, upper, right)).isSome = true ↔
    ∀ text ∈ (Element.range left lower upper right).bounds, Constructible uc text.1 := by
  rw [Element.bounds, forall_mem_append, ← newBound_isSome_iff, ← newBound_isSome_iff, newPredicate,
    RangePredicate.new]
  cases newBound uc (boundText lower) with
  | none => simp
  | some bound =>
    cases newBound uc (boundText upper) with
    | none | some upperBound => simp

lemma allConstructible_iff :
    AllConstructible uc els ↔ (∀ text ∈ hardVersions els, (new uc text).isSome = true) ∧
    ∀ range ∈ ranges els, (newPredicate uc range).isSome = true :=
  forall_element_iff els (fun version => by simp [bounds, new_isSome_iff]) fun left lower upper right =>
    (newPredicate_isSome_iff left right lower upper).symm

lemma isValidVersion_eq {elements : List Element} {spec : MavenVersionSpec}
    {vers : List MavenSemver} {pre : List RangePredicate}
    (hver : (hardVersions elements).mapM (new unicode) = some vers)
    (hpre : (ranges elements).mapM (newPredicate unicode) = some pre)
    (hspe : spec = { MavenVersionSpec.empty with hardRequirements := vers, rangePredicates := pre })
    (hcom : ∀ el ∈ elements, ∀ text ∈ el.bounds, ∀ bound,
    new unicode text.1 = some bound → Comparable unicode version bound) :
    spec.isValidVersion unicode version = some true ↔ ∃ el ∈ elements, el.Admits unicode version := by
  obtain ⟨hhar, hran⟩ := (forall_element_iff elements
    (q := fun text => ∀ bound, MavenSemver.new unicode text = some bound →
      Comparable unicode version bound)
    (r := fun range => ∀ text ∈ (Element.range range.1 range.2.1 range.2.2.1 range.2.2.2).bounds, ∀ bound,
      new unicode text.1 = some bound → Comparable unicode version bound)
    (fun _ => by simp [bounds]) fun _ _ _ _ => Iff.rfl).1 hcom
  have hequ := (forall₂_and_left ..).2 ⟨hhar, forall₂_of_mapM_eq_some hver⟩
  obtain ⟨isHard, hish, hhai⟩ := anyOf_eq (f := fun bound => version.eq unicode bound)
    (p := fun text => ∃ bound, MavenSemver.new unicode text = some bound ∧
      version.eq unicode bound = some true)
    (hequ.imp fun text bound ⟨hcom, hnew⟩ => by
      obtain ⟨equal, hequ⟩ := isSome_iff_exists.1 (hcom bound hnew)
      exact ⟨equal, hequ, by simp [hnew, hequ]⟩)
  have hcal := (forall₂_and_left ..).2 ⟨hran, forall₂_of_mapM_eq_some hpre⟩
  obtain ⟨inRange, hinr, hrai⟩ := anyOf_eq (f := fun pred => pred.call unicode version)
    (hcal.imp fun _ _ ⟨hcom, hnew⟩ => call_eq hnew hcom)
  have hval : spec.isValidVersion unicode version = some (isHard || inRange) := by
    subst hspe
    cases isHard with
    | true => simp [MavenVersionSpec.isValidVersion, MavenVersionSpec.empty, hish]
    | false => simp [MavenVersionSpec.isValidVersion, MavenVersionSpec.empty, hish, hinr]
  rw [hval, some_inj, Bool.or_eq_true, hhai, hrai, ← not_iff_not]
  simp only [not_or, not_exists, not_and]
  exact (forall_element_iff elements (fun _ => by simp [Admits]) fun _ _ _ _ => Iff.rfl).symm

/-- A spec is parsed into its elements and admits the union of what they admit, just if all its
bounds can be constructed. -/
theorem new_specText_iff (elements : List Element) :
    (∃ spec, MavenVersionSpec.new unicode (specText elements) = some spec ∧ spec.Represents elements ∧
    ∀ version, (∀ element ∈ elements, ∀ text ∈ element.bounds, ∀ bound,
    MavenSemver.new unicode text.1 = some bound → Comparable unicode version bound) →
    (spec.isValidVersion unicode version = some true ↔ ∃ element ∈ elements,
      element.Admits unicode version)) ↔
    AllConstructible unicode elements := by
  rw [MavenVersionSpec.new, scan_specText, MavenVersionSpec.parseSpec, foldlM_addMatch,
    allConstructible_iff, ← mapM_isSome_iff, ← mapM_isSome_iff]
  cases hver : (hardVersions elements).mapM (new unicode) with
  | none => simp
  | some ver =>
    cases hpre : (ranges elements).mapM (newPredicate unicode) with
    | none => simp
    | some pred =>
      refine iff_of_true ⟨_, rfl, ?_, fun version hcom =>
        isValidVersion_eq hver hpre rfl hcom⟩ ⟨rfl, rfl⟩
      refine
        { hardRequirements := ?_
          rangePredicates := ?_
          softRequirement := rfl
          onlySoftRequirement := rfl }
      · exact (map_of_mapM_eq_some (h := id) (fun _ _ h => version_of_new h) hver).trans (map_id _)
      refine map_of_mapM_eq_some ?_ hpre
      rintro ⟨left, lower, upper, right⟩ pre hnew
      obtain ⟨hlef, hrig, hlow, hupp⟩ := newPredicate_eq_some hnew
      simp [hlef, hrig, map_version_of_newBound hlow, map_version_of_newBound hupp]

end

def zero : Bound :=
  ⟨['0'], by simp, by simp⟩

def one : Bound :=
  ⟨['1'], by simp, by simp⟩

theorem zero_bound_raises :
    MavenVersionSpec.new .ascii (specText [.range .closed (some zero) (some one) .closed]) =
    none := by
  decide +kernel

end Toolchain.Maven
