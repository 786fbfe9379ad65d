import Toolchain.Lib.Text

/-!
# Maven.Semver — Maven versions

The text of a version is cut into parts, a separator and a token each, after aliases are expanded and a
hyphen is put between letters and digits; tokens that mean nothing are trimmed before the end and before
hyphens.

Models `packagerepo/maven/version/maven_semantic_version.py`.  The character classes of Unicode are a
parameter.
-/

namespace Toolchain.Maven

open Lib

/-! ## Characters -/

/-- The character classes of Unicode that a version depends on, of which only the documented
behaviour on ASCII characters is used. -/
structure CharClasses where
  isWord : Char → Bool
  /-- What `\d` matches, the decimal digits of all scripts. -/
  isDecimal : Char → Bool
  /-- `str.isdigit`, which holds of superscripts and the like too. -/
  isDigit : Char → Bool
  decimalValue : Char → Nat
  isWord_ascii : ∀ c : Char, c.toNat < 128 → isWord c = (c.isAlphanum || c == '_')
  isDigit_ascii : ∀ c : Char, c.toNat < 128 → isDigit c = c.isDigit
  isDecimal_ascii : ∀ c : Char, c.toNat < 128 → isDecimal c = c.isDigit

def CharClasses.ascii : CharClasses where
  isWord c := c.isAlphanum || c == '_'
  isDecimal c := c.isDigit
  isDigit c := c.isDigit
  decimalValue c := c.toNat - '0'.toNat
  isWord_ascii _ _ := rfl
  isDigit_ascii _ _ := rfl
  isDecimal_ascii _ _ := rfl

def isLetter (c : Char) : Bool :=
  c.isAlpha

variable (unicode : CharClasses)

/-! ## Parts -/

structure MavenSemverPart where
  (separator token : Text)
  deriving DecidableEq, Repr

inductive Token
  | number (value : Nat)
  /-- Digits that `int` does not read. -/
  | malformed
  | qualifier (text : Text)
  deriving DecidableEq, Repr

def isdigit (token : Text) : Bool :=
  !token.isEmpty && token.all unicode.isDigit

def int (token : Text) : Nat :=
  token.foldl (fun value c => 10 * value + unicode.decimalValue c) 0

def kind (token : Text) : Token :=
  if isdigit unicode token then
    if token.all unicode.isDecimal then .number (int unicode token) else .malformed
  else
    .qualifier token

def specialCaseStrings : List (Text × Nat) :=
  [("alpha".toList, 0), ("beta".toList, 1), ("milestone".toList, 2), ("rc".toList, 3),
    ("cr".toList, 3), ("snapshot".toList, 4), ("".toList, 5), ("final".toList, 5), ("ga".toList, 5),
    ("sp".toList, 6)]

namespace MavenSemverPart

/-- `__eq__`; `none` where `int` raises a `ValueError`. -/
def eq (self other : MavenSemverPart) : Option Bool :=
  if self.separator ≠ other.separator then
    some false
  else
    match kind unicode self.token, kind unicode other.token with
    | .number value, .number otherValue => some (decide (value = otherValue))
    | .qualifier text, .qualifier otherText =>
      match specialCaseStrings.lookup text, specialCaseStrings.lookup otherText with
      | some rank, some otherRank => some (decide (rank = otherRank))
      | _, _ => some (decide (text = otherText))
    | .malformed, .number _ => none
    | .malformed, .malformed => none
    | .number _, .malformed => none
    | _, _ => some false

def alphaLessThan (text other : Text) : Bool :=
  if text = other then
    false
  else
    match specialCaseStrings.lookup text, specialCaseStrings.lookup other with
    | some rank, some otherRank => decide (rank < otherRank)
    | some _, none => true
    | none, some _ => false
    | none, none => decide (text < other)

/-- `__lt__`.  Its last branch, a `TypeError`, is never taken. -/
def lt (self other : MavenSemverPart) : Option Bool :=
  match kind unicode self.token, kind unicode other.token with
  | .qualifier text, .qualifier otherText =>
    -- the order of the separators is reversed for qualifiers
    if self.separator = other.separator then some (alphaLessThan text otherText)
    else some (decide (other.separator < self.separator))
  | .qualifier _, _ => some true
  | _, .qualifier _ => some false
  | .number value, .number otherValue =>
    if self.separator = other.separator then some (decide (value < otherValue))
    else some (decide (self.separator < other.separator))
  | _, _ =>
    if self.separator = other.separator then none
    else some (decide (self.separator < other.separator))

def padValue (self : MavenSemverPart) : MavenSemverPart :=
  if self.separator = ['.'] then ⟨['.'], ['0']⟩ else ⟨['-'], []⟩

end MavenSemverPart

/-! ## Cutting a version into parts -/

/-- The substitution for one alias past the start: no letter, the alias and a digit. -/
def expandAliasFrom (letter : Char) (word : Text) : Text → Text
  | preceding :: c :: succeeding :: rest =>
    if !isLetter preceding && c == letter && unicode.isDecimal succeeding then
      preceding :: word ++ succeeding :: expandAliasFrom letter word rest
    else
      preceding :: expandAliasFrom letter word (c :: succeeding :: rest)
  | rest => rest

def expandAlias (letter : Char) (word : Text) (version : Text) : Text :=
  match version with
  | c :: succeeding :: rest =>
    if c == letter && unicode.isDecimal succeeding then
      word ++ succeeding :: expandAliasFrom unicode letter word rest
    else
      expandAliasFrom unicode letter word version
  | _ => version

def insertBetween (boundary : Char → Char → Bool) (inserted : Char) : Text → Text
  | c :: next :: rest =>
    if boundary c next then
      c :: inserted :: insertBetween boundary inserted (next :: rest)
    else
      c :: insertBetween boundary inserted (next :: rest)
  | rest => rest

def substituted (version : Text) : Text :=
  let version := expandAlias unicode 'a' "alpha".toList version
  let version := expandAlias unicode 'b' "beta".toList version
  let version := expandAlias unicode 'm' "milestone".toList version
  let version := insertBetween
    (fun c next => unicode.isDecimal c && isLetter next || isLetter c && unicode.isDecimal next)
    '-' version
  insertBetween (fun c next => !unicode.isWord c && !unicode.isWord next) '0' version

/-- `re.split(r"(\W+)", version)`: words and the separators between them, starting with a word. -/
def splitWords : Text → List Text
  | [] => [[]]
  | c :: rest =>
    match splitWords rest with
    | [] => [[c]]
    | word :: more =>
      if unicode.isWord c then
        (c :: word) :: more
      else
        match word, more with
        | [], separator :: more => [] :: (c :: separator) :: more
        | word, more => [] :: [c] :: word :: more

def isDropped (part : Text) : Bool :=
  ["0".toList, "".toList, "final".toList, "ga".toList, ['-'], ['.']].contains part

/-- `trim_trailing` from the end.  It drops parts until it meets one to keep, and again before each
hyphen; at the start it raises an `IndexError`. -/
def trimBackwards : (dropping : Bool) → List Text → Option (List Text)
  | true, [] => none
  | false, [] => some []
  | true, part :: before =>
    if isDropped part then trimBackwards true before
    else (trimBackwards false before).map (part :: ·)
  | false, part :: before => (trimBackwards (part == ['-']) before).map (part :: ·)

def trimTrailing (parts : List Text) : Option (List Text) :=
  (trimBackwards true parts.reverse).map List.reverse

def pairs : List Text → List MavenSemverPart
  | separator :: token :: rest => ⟨separator, token⟩ :: pairs rest
  | _ => []

def splitVersionStringParts (version : Text) : Option (List MavenSemverPart) := do
  let parts ← trimTrailing (splitWords unicode (substituted unicode version))
  return pairs ([] :: parts)

/-! ## Versions -/

structure MavenSemver where
  version : Text
  versionParts : List MavenSemverPart
  deriving DecidableEq, Repr

namespace MavenSemver

def new (version : Text) : Option MavenSemver := do
  let versionParts ← splitVersionStringParts unicode version
  return ⟨version, versionParts⟩

def padShorter (shorter longer : List MavenSemverPart) : List MavenSemverPart :=
  shorter ++ (longer.drop shorter.length).map MavenSemverPart.padValue

def padShorterVersion (first second : List MavenSemverPart) :
    List MavenSemverPart × List MavenSemverPart :=
  if first.length < second.length then (padShorter first second, second)
  else if second.length < first.length then (first, padShorter second first)
  else (first, second)

def allEqual : List (MavenSemverPart × MavenSemverPart) → Option Bool
  | [] => some true
  | (selfPart, otherPart) :: rest => do
      if ← selfPart.eq unicode otherPart then allEqual rest else some false

def firstLess : List (MavenSemverPart × MavenSemverPart) → Option Bool
  | [] => some false
  | (selfPart, otherPart) :: rest => do
      if ← selfPart.eq unicode otherPart then firstLess rest else selfPart.lt unicode otherPart

def zipped (self other : MavenSemver) : List (MavenSemverPart × MavenSemverPart) :=
  let padded := padShorterVersion self.versionParts other.versionParts
  padded.1.zip padded.2

def eq (self other : MavenSemver) : Option Bool :=
  allEqual unicode (self.zipped other)

def lt (self other : MavenSemver) : Option Bool :=
  firstLess unicode (self.zipped other)

def gt (self other : MavenSemver) : Option Bool := do
  if ← self.lt unicode other then some false else return !(← self.eq unicode other)

end MavenSemver

end Toolchain.Maven
