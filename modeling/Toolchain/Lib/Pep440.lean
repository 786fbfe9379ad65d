import Toolchain.Lib.Fields

/-!
# Pep440 — specifiers of released versions

A released version is a list of numbers, in which zeros at the end do not count.  A specifier compares a
version with one of its own, and a set of them admits the versions that all of them contain.
-/

namespace Toolchain.Lib

open List

namespace Pep440

abbrev Release := List Nat

/-- What versions are compared by: the numbers without the zeros at the end. -/
def key : Release → List Nat
  | [] => []
  | number :: release => if number = 0 ∧ key release = [] then [] else number :: key release

inductive Operator
  | compatible | greaterEqual | lessEqual | greater | less
  deriving DecidableEq, Repr

structure Specifier where
  operator : Operator
  version : Release
  deriving DecidableEq, Repr

def startsWith (lead version : Release) : Bool :=
  version.take lead.length ++ List.replicate (lead.length - version.length) 0 = lead

def Specifier.contains (self : Specifier) (version : Release) : Bool :=
  match self.operator with
  | .compatible => ¬key version < key self.version ∧ startsWith self.version.dropLast version
  | .greaterEqual => ¬key version < key self.version
  | .lessEqual => ¬key self.version < key version
  | .greater => key self.version < key version
  | .less => key version < key self.version

/-! ## Reading -/

def parseNumber : Text → Option Nat
  | [] => none
  | c :: text => (c :: text).foldlM (fun number c => (digitValue c).map (10 * number + ·)) 0

def parseRelease (text : Text) : Option Release :=
  (text.splitOn '.').mapM parseNumber

def parseSpecifier : Text → Option Specifier
  | '~' :: '=' :: version =>
    (parseRelease version).bind fun release =>
      if release.length < 2 then none else some { operator := .compatible, version := release }
  | '>' :: '=' :: version =>
    (parseRelease version).map fun release => { operator := .greaterEqual, version := release }
  | '<' :: '=' :: version =>
    (parseRelease version).map fun release => { operator := .lessEqual, version := release }
  | '>' :: version => (parseRelease version).map fun release =>
    { operator := .greater, version := release }
  | '<' :: version => (parseRelease version).map fun release => { operator := .less, version := release }
  | _ => none

def parseSpecifierSet (text : Text) : Option (List Specifier) :=
  ((text.splitOn ',').filter fun specifier => !specifier.isEmpty).mapM parseSpecifier

def admits (text : Text) (version : Release) : Bool :=
  match parseSpecifierSet text with
  | none => false
  | some specifiers => specifiers.all fun specifier => specifier.contains version

/-! ## Order -/

lemma key_cons_lt_key_cons_iff (a b : Nat) (release other : Release) :
    key (a :: release) < key (b :: other) ↔ a < b ∨ a = b ∧ key release < key other := by
  rw [key, key]
  split_ifs with ha hb hb
  · simp [ha, hb]
  · have hles : 0 < b ∨ 0 = b ∧ [] < key other := by
      rcases Nat.eq_zero_or_pos b with rfl | hpos
      · obtain ⟨first, rest, hkey⟩ := exists_cons_of_ne_nil fun hnil => hb ⟨rfl, hnil⟩
        rw [hkey]
        exact .inr ⟨rfl, nil_lt_cons first rest⟩
      · exact .inl hpos
    simpa [ha] using hles
  · simp [hb]
  · exact cons_lt_cons_iff

lemma not_key_lt_nil (release : Release) : ¬key release < key [] := not_lt_nil _

lemma key_eq_nil {release : Release} (h : ∀ number ∈ release, number = 0) : key release = [] := by
  induction release with
  | nil => rfl
  | cons number release ih =>
    rw [key, if_pos]
    exact ⟨h number (.head _), ih fun other hoth => h other (.tail _ hoth)⟩

/-! ## Reading what was written -/

lemma parseRelease_intercalate {α : Type} {comps : List α} (hne : comps ≠ [])
    {text : α → Text} {num : α → Nat} (hfre : ∀ a ∈ comps, '.' ∉ text a)
    (hnum : ∀ a ∈ comps, parseNumber (text a) = some (num a)) :
    parseRelease (['.'].intercalate (comps.map text)) = some (comps.map num) := by
  have hspl : (['.'].intercalate (comps.map text)).splitOn '.' = comps.map text := by
    refine splitOn_intercalate _ ?_ (by simpa using hne)
    intro field hfie
    obtain ⟨a, ha, rfl⟩ := mem_map.mp hfie
    exact hfre a ha
  rw [parseRelease, hspl]
  exact mapM_map_eq_some hnum

lemma ne_nil_of_parseSpec {text : Text} {spe : Specifier} (h : parseSpecifier text = some spe) :
    text ≠ [] := by
  rintro rfl
  cases h

lemma admits_eq {texts : List Text} (hne : texts ≠ []) {specs : List Specifier}
    (hfre : ∀ text ∈ texts, ',' ∉ text) (hpar : texts.mapM parseSpecifier = some specs)
    (hful : ∀ text ∈ texts, text ≠ []) (version : Release) :
    admits ([','].intercalate texts) version = specs.all fun spe => spe.contains version := by
  have hspl := splitOn_intercalate _ hfre hne
  have hfil : (texts.filter fun spe => !spe.isEmpty) = texts := by
    rw [filter_eq_self]
    intro text htex
    simpa using hful text htex
  rw [admits, parseSpecifierSet, hspl, hfil, hpar]

lemma admits_singleton {text : Text} {spe : Specifier} (hfre : ',' ∉ text)
    (h : parseSpecifier text = some spe) (version : Release) :
    admits text version = spe.contains version := by
  have hall := @admits_eq [text] (cons_ne_nil _ _) [spe] (by simpa using hfre)
    (by simp [h]) (by simpa using ne_nil_of_parseSpec h) version
  simpa [intercalate] using hall

lemma admits_pair {first second : Text} {spe spec' : Specifier}
    (hfir : ',' ∉ first) (hsec : ',' ∉ second) (h : parseSpecifier first = some spe)
    (h' : parseSpecifier second = some spec') (ver : Release) :
    admits (first ++ ',' :: second) ver = (spe.contains ver && spec'.contains ver) := by
  have hall := @admits_eq [first, second] (cons_ne_nil _ _) [spe, spec'] (by simp [hfir, hsec])
    (by simp [h, h'])
    (by simp [ne_nil_of_parseSpec h, ne_nil_of_parseSpec h']) ver
  simpa [intercalate] using hall

end Pep440
end Toolchain.Lib
