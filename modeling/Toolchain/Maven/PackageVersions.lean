import Toolchain.Maven.SemverOrder

/-!
# Maven.PackageVersions — Maven versions in sets

`MavenSemver.__hash__` hashes the text of a version, while `==` compares its parts: `1` and `1.0` are
equal with different hashes, so a set takes them for two versions.

Models `MavenSemver` and `PackageVersion` of `satresolver/package.py`.  A set is the list of its
elements; the hash of a string is any function.
-/

namespace Toolchain.Maven

open Lib MavenSemver

variable (unicode uc : CharClasses)

/-! ## What two parts have in common -/

inductive Meaning
  | number (value : Nat)
  | special (rank : Nat)
  | qualifier (text : Text)
  deriving DecidableEq, Repr

def meaning (token : Text) : Option Meaning :=
  match kind unicode token with
  | .number value => some (.number value)
  | .malformed => none
  | .qualifier text =>
    match specialCaseStrings.lookup text with
    | some rank => some (.special rank)
    | none => some (.qualifier text)

/-- Two parts with the same separator and a token of the same meaning. -/
def Alike (first second : MavenSemverPart) : Prop :=
  first.separator = second.separator ∧ meaning unicode first.token = meaning unicode second.token ∧
    (meaning unicode first.token).isSome = true

variable {unicode uc}

lemma part_eq_iff (first second : MavenSemverPart) :
    first.eq uc second = some true ↔ Alike uc first second := by
  rw [Alike, MavenSemverPart.eq, meaning, meaning]
  by_cases hsep : first.separator = second.separator
  swap
  · simp [hsep]
  rw [if_neg (not_not.2 hsep)]
  cases kind uc first.token with
  | number value =>
    cases kind uc second.token with
    | number val => simp [hsep]
    | malformed => simp
    | qualifier otherText =>
      cases hloo : specialCaseStrings.lookup otherText with
      | none | some rank => simp [hloo]
  | malformed =>
    cases kind uc second.token with
    | number val | malformed | qualifier otherText => simp
  | qualifier text =>
    cases kind uc second.token with
    | number val =>
      cases hloo : specialCaseStrings.lookup text with
      | none | some rank => simp [hloo]
    | malformed => simp
    | qualifier otherText =>
      cases hloo : specialCaseStrings.lookup text with
      | none =>
        cases hlook : specialCaseStrings.lookup otherText with
        | none => simp [hsep, hloo, hlook]
        | some otherRank =>
          have hne := (ne_of_lookup hlook hloo).symm
          simp [hloo, hlook, hne]
      | some rank =>
        cases hlook : specialCaseStrings.lookup otherText with
        | none =>
          have hne := ne_of_lookup hloo hlook
          simp [hloo, hlook, hne]
        | some otherRank => simp [hsep, hloo, hlook]

lemma allEqual_iff (pts : List (MavenSemverPart × MavenSemverPart)) :
    allEqual uc pts = some true ↔ ∀ pair ∈ pts, Alike uc pair.1 pair.2 := by
  induction pts with
  | nil => simp [allEqual]
  | cons pair pts ih =>
    obtain ⟨first, second⟩ := pair
    rw [allEqual, List.forall_mem_cons, ← part_eq_iff, ← ih]
    cases first.eq uc second with
    | none => simp
    | some res =>
      cases res with
      | true | false => simp

/-! ## Package versions -/

structure PackageVersion where
  packageName : Text
  version : MavenSemver
  deriving DecidableEq, Repr

namespace PackageVersion

/-- The `__eq__` of the dataclass, which compares the fields. -/
def eq (unicode : CharClasses) (self other : PackageVersion) : Option Bool :=
  if self.packageName ≠ other.packageName then some false
  else self.version.eq unicode other.version

/-- The `__hash__` of the dataclass, from the hashes of the fields. -/
def hash (stringHash : Text → Nat) (tupleHash : Nat → Nat → Nat) (self : PackageVersion) : Nat :=
  tupleHash (stringHash self.packageName) (stringHash self.version.version)

def isIn (unicode : CharClasses) (stringHash : Text → Nat) (tupleHash : Nat → Nat → Nat)
    (self : PackageVersion) (elements : List PackageVersion) : Bool :=
  elements.any fun element =>
    element.hash stringHash tupleHash == self.hash stringHash tupleHash &&
      (element.eq unicode self == some true)

def intersection (unicode : CharClasses) (stringHash : Text → Nat) (tupleHash : Nat → Nat → Nat)
    (first second : List PackageVersion) : List PackageVersion :=
  first.filter fun element => element.isIn unicode stringHash tupleHash second

end PackageVersion

/-- If they are equal, they have the same hash, and a package at one of them is found in a set with the
other. -/
def Interchangeable (unicode : CharClasses) (first second : Text) : Prop :=
  ∀ x y, MavenSemver.new unicode first = some x → MavenSemver.new unicode second = some y →
    x.eq unicode y = some true →
      ∀ (stringHash : Text → Nat) (tupleHash : Nat → Nat → Nat) (packageName : Text),
        stringHash x.version = stringHash y.version ∧
        PackageVersion.intersection unicode stringHash tupleHash [⟨packageName, y⟩]
          [⟨packageName, x⟩] = [⟨packageName, y⟩]

lemma new_eq_some_iff {ver : Text} {x : MavenSemver} : new uc ver = some x ↔
    x.version = ver ∧ splitVersionStringParts uc ver = some x.versionParts := by
  rw [new]
  cases splitVersionStringParts uc ver with
  | none => simp
  | some parts =>
    obtain ⟨text, textParts⟩ := x
    simp [eq_comm]

/-- Two versions are interchangeable just if they are the same text or their parts, with the
padding, are not all alike. -/
theorem interchangeable_iff (first second : Text) :
    Interchangeable unicode first second ↔ first = second ∨
      ¬ ∃ x y, splitVersionStringParts unicode first = some x ∧
    splitVersionStringParts unicode second = some y ∧
    ∀ pair ∈ MavenSemver.zipParts x y, Alike unicode pair.1 pair.2 := by
  constructor
  · intro h
    by_contra hnot
    obtain ⟨hne, x, y, hx, hy, hali⟩ : first ≠ second ∧
      ∃ x y, splitVersionStringParts unicode first = some x ∧
        splitVersionStringParts unicode second = some y ∧
        ∀ pair ∈ zipParts x y, Alike unicode pair.1 pair.2 := by
      simpa only [not_or, not_not] using hnot
    -- a hash that tells the two texts apart
    have hhas := (h ⟨first, x⟩ ⟨second, y⟩ (new_eq_some_iff.2 ⟨rfl, hx⟩)
      (new_eq_some_iff.2 ⟨rfl, hy⟩) ((allEqual_iff _).2 hali)
      (fun text => if text = first then 0 else 1) (fun _ _ => 0) []).1
    simp [hne.symm] at hhas
  · rintro (rfl | hnot) x y hx hy heq stringHash tuple packageName
    · obtain rfl := Option.some.inj (hx.symm.trans hy)
      simp [PackageVersion.intersection, PackageVersion.isIn, PackageVersion.eq, heq]
    · have hx := (new_eq_some_iff.1 hx).2
      have hy := (new_eq_some_iff.1 hy).2
      exact absurd ⟨_, _, hx, hy, (allEqual_iff _).1 heq⟩ hnot

/-- Equal versions with different hashes that the intersection of two sets keeps apart. -/
theorem one_not_interchangeable :
    equal .ascii "1".toList "1.0".toList = some true ∧ ¬ Interchangeable .ascii "1".toList "1.0".toList := by
  have hone : MavenSemver.new .ascii "1".toList = some ⟨"1".toList, [⟨[], "1".toList⟩]⟩ := by
    decide +kernel
  have hdec : MavenSemver.new .ascii "1.0".toList = some ⟨"1.0".toList, [⟨[], "1".toList⟩]⟩ := by
    decide +kernel
  refine ⟨by decide +kernel, fun h => ?_⟩
  have hhas := (h _ _ hone hdec (by decide +kernel) List.length (fun _ hash => hash) []).1
  exact absurd hhas (by decide)

end Toolchain.Maven
