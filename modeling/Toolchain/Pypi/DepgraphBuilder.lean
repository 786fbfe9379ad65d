import Toolchain.Lib.Hex
import Toolchain.Pypi.Depgraph

/-!
# Pypi.DepgraphBuilder — writing the requirements of a distribution

A row holds a hash of 32 bytes and the requirements of a distribution, joined by tabs.  The parser
accepts white space inside a requirement; a tab there is read back as its end.

Models `satresolver/pypi/depgraph_builder.py`, on a table that is put to at once.  The parser of
`pkg_resources` is a parameter.
-/

namespace Toolchain.Pypi

open Lib List

def isspace (c : Char) : Bool :=
  (9 ≤ c.toNat && c.toNat ≤ 13) || (28 ≤ c.toNat && c.toNat ≤ 32) || (8192 ≤ c.toNat && c.toNat ≤ 8202) ||
      [133, 160, 5760, 8232, 8233, 8239, 8287, 12288].contains c.toNat

def strip (text : Text) : Text :=
  ((text.dropWhile isspace).reverse.dropWhile isspace).reverse

def isAsciiSpace (c : Char) : Bool :=
  (9 ≤ c.toNat && c.toNat ≤ 13) || c = ' '

/-- `bytes.fromhex`, which skips ASCII white space between the bytes. -/
def fromhex : Text → Option Bytes
  | [] => some []
  | [c] => if isAsciiSpace c then some [] else none
  | c :: d :: text =>
    if isAsciiSpace c then
      fromhex (d :: text)
    else
      match hexValue c, hexValue d, fromhex text with
      | some high, some low, some bytes => some (UInt8.ofNat (16 * high + low) :: bytes)
      | _, _, _ => none

/-- How `parse_requirement` ends: it returns, raises `InvalidRequirementsError`, or something else. -/
inductive ParseResult
  | accepted | invalid | raised
  deriving DecidableEq, Repr

namespace DepgraphBuilder

section Builder

variable (parseRequirement : Text → ParseResult)

def parseRequirements : List Text → Option (List Text)
  | [] => some []
  | requirement :: requirements =>
    let requirement := strip requirement
    if requirement = [] ∨ requirement.head? = some '#' then
      parseRequirements requirements
    else
      match parseRequirement requirement with
      | .accepted => (parseRequirements requirements).map (requirement :: ·)
      | .invalid => parseRequirements requirements
      | .raised => none

def put (table : Table) (key value : Bytes) : Table :=
  (key, value) :: table.filter fun row => row.1 ≠ key

def processRow (table : Table) (key : DistributionKey) (sha256Hexdigest : Text)
    (requires requiresDist : List Text) : Option Table :=
  match parseRequirements parseRequirement (if requires = [] then requiresDist else requires),
      fromhex sha256Hexdigest with
  | some requirements, some sha256 =>
    some (put table key.toOrderedBytes ({ requires := requirements, sha256 := sha256 } : ResolutionData).toBytes)
  | _, _ => none

def decodedFor (table : Table) (key : DistributionKey) : Option ResolutionData :=
  (table.lookup key.toOrderedBytes).bind ResolutionData.fromBytes

def candidates (requirements : List Text) : List Text :=
  (requirements.map strip).filter fun requirement => ¬(requirement = [] ∨ requirement.head? = some '#')

end Builder

/-! ## The parsed requirements -/

section

variable {parseRequirement : Text → ParseResult}

@[simp] lemma candidates_cons (req : Text) (requirements : List Text) :
    candidates (req :: requirements) = if strip req = [] ∨ (strip req).head? = some '#' then
        candidates requirements
      else
        strip req :: candidates requirements := by
  simp only [candidates, map_cons, filter_cons, decide_eq_true_eq, ite_not]

lemma parseRequirements_eq (reqs : List Text) : parseRequirements parseRequirement reqs =
      if ∃ req ∈ candidates reqs, parseRequirement req = .raised then
        none
      else
        some ((candidates reqs).filter fun req =>
          parseRequirement req = .accepted) := by
  induction reqs with
  | nil => simp [parseRequirements, candidates]
  | cons req reqs ih =>
    simp only [parseRequirements, candidates_cons]
    by_cases hski : strip req = [] ∨ (strip req).head? = some '#'
    · simp [hski, ih]
    cases hpar : parseRequirement (strip req) with
    | accepted =>
      by_cases hrai : ∃ r ∈ candidates reqs, parseRequirement r = .raised <;> simp [hski, hpar, ih, hrai]
    | invalid => simp [hski, hpar, ih]
    | raised => simp [hski, hpar]

lemma ne_nil_of_mem_candidates {reqs : List Text} {req : Text} (h : req ∈ candidates reqs) : req ≠ [] := by
  simp only [candidates, mem_filter] at h
  intro hnil
  simp [hnil] at h

end

/-! ## Reading back -/

lemma decodedFor_put (table : Table) (key : DistributionKey) (value : Bytes) :
    decodedFor (put table key.toOrderedBytes value) key = ResolutionData.fromBytes value := by
  simp [decodedFor, put]

lemma fromBytes_toBytes {requires : List Text} {sha256 : Bytes} (hsha : sha256.length = 32)
    (hne : ∀ req ∈ requires, req ≠ []) :
    ResolutionData.fromBytes ({ requires := requires, sha256 := sha256 } : ResolutionData).toBytes = some
        { requires :=
            if requires = [] then [] else (['\t'].intercalate requires).splitOn '\t'
          sha256 := sha256 } := by
  rw [ResolutionData.fromBytes, ResolutionData.toBytes]
  by_cases hnil : requires = []
  · simp [hnil, hsha]
  have hjoi : ['\t'].intercalate requires ≠ [] := by
    intro hjoi
    obtain ⟨first, rest, rfl⟩ := exists_cons_of_ne_nil hnil
    apply hne first (.head _)
    cases rest with
    | nil => simpa using hjoi
    | cons next rest => simp [intercalate_cons_cons] at hjoi
  have hlen : (sha256 ++ encode (['\t'].intercalate requires)).length ≠ 32 := by
    rw [length_append, hsha]
    intro h
    have hzer : (encode (['\t'].intercalate requires)).length = 0 := by omega
    exact hjoi ((encode_eq_nil_iff _).1 (length_eq_zero_iff.1 hzer))
  rw [if_neg hlen, if_neg hnil, ← hsha, drop_left, take_left, decode_encode]
  rfl

/-- The stored requirements are read back unchanged exactly if the parser raises nothing
unexpected and accepts no requirement with a tab in it. -/
theorem processRow_reads_back_iff (parseRequirement : Text → ParseResult) (table : Table)
    (key : DistributionKey) {sha256Hexdigest : Text} (requires requiresDist : List Text)
    {sha256 : Bytes} (hhex : fromhex sha256Hexdigest = some sha256) (hsha : sha256.length = 32) :
    (∃ written, processRow parseRequirement table key sha256Hexdigest requires requiresDist =
      some written ∧
    decodedFor written key = some
          { requires := (candidates (if requires = [] then requiresDist else requires)).filter
              fun requirement => parseRequirement requirement = .accepted
            sha256 := sha256 }) ↔
    ∀ requirement ∈ candidates (if requires = [] then requiresDist else requires),
    parseRequirement requirement ≠ .raised ∧
      (parseRequirement requirement = .accepted → '\t' ∉ requirement) := by
  generalize hgiv : (if requires = [] then requiresDist else requires) = given
  rw [processRow, hgiv, hhex, parseRequirements_eq]
  by_cases hrai : ∃ requirement ∈ candidates given, parseRequirement requirement = .raised
  · -- nothing is written
    rw [if_pos hrai]
    constructor
    · rintro ⟨written, hwri, _⟩
      simp at hwri
    · intro h
      obtain ⟨requirement, hmem, hpar⟩ := hrai
      exact absurd hpar (h requirement hmem).1
  · rw [if_neg hrai]
    set accepted := (candidates given).filter fun requirement =>
      parseRequirement requirement = .accepted with hacc
    have hne : ∀ requirement ∈ accepted, requirement ≠ [] := by
      intro requirement hmem
      exact ne_nil_of_mem_candidates (mem_of_mem_filter hmem)
    have hrea : (if accepted = [] then [] else (['\t'].intercalate accepted).splitOn '\t') =
        accepted ↔ ∀ requirement ∈ accepted, '\t' ∉ requirement := by
      by_cases hnil : accepted = []
      · simp [hnil]
      · rw [if_neg hnil, splitOn_intercalate_eq_iff '\t' hnil]
    have hfre : (∀ requirement ∈ accepted, '\t' ∉ requirement) ↔
        ∀ requirement ∈ candidates given, parseRequirement requirement ≠ .raised ∧
          (parseRequirement requirement = .accepted → '\t' ∉ requirement) := by
      simp only [hacc, mem_filter, decide_eq_true_eq, and_imp]
      constructor
      · intro h requirement hmem
        exact ⟨fun hpar => hrai ⟨requirement, hmem, hpar⟩, h requirement hmem⟩
      · intro h requirement hmem
        exact (h requirement hmem).2
    rw [← hfre, ← hrea]
    simp [decodedFor_put, fromBytes_toBytes hsha hne]

def lenientParser (requirement : Text) : ParseResult :=
  if (requirement.filter fun c => !isspace c) = "six>=1.0".toList then .accepted else .invalid

theorem reads_back_spaces :
    ∃ written, processRow lenientParser [] (Depgraph.wheelOf "a".toList) (replicate 64 '0')
    ["  six >= 1.0 ".toList] [] = some written ∧
    decodedFor written (Depgraph.wheelOf "a".toList) =
    some { requires := ["six >= 1.0".toList], sha256 := replicate 32 0 } := by
  have hrea := (processRow_reads_back_iff lenientParser [] (Depgraph.wheelOf "a".toList)
    ["  six >= 1.0 ".toList] [] (by decide : fromhex (replicate 64 '0') =
      some (replicate 32 0)) (by decide)).2 (by decide)
  exact hrea

theorem reads_back_tab_as_two :
    ((candidates ["six\t>=1.0".toList]).filter fun requirement =>
    lenientParser requirement = .accepted) = ["six\t>=1.0".toList] ∧
    (processRow lenientParser [] (Depgraph.wheelOf "a".toList) (replicate 64 '0')
    ["six\t>=1.0".toList] []).bind (decodedFor · (Depgraph.wheelOf "a".toList)) =
    some { requires := ["six".toList, ">=1.0".toList], sha256 := replicate 32 0 } := by
  refine ⟨by decide, ?_⟩
  have hwri : processRow lenientParser [] (Depgraph.wheelOf "a".toList) (replicate 64 '0')
      ["six\t>=1.0".toList] [] = some (put [] (Depgraph.wheelOf "a".toList).toOrderedBytes
      ({ requires := ["six\t>=1.0".toList], sha256 := replicate 32 0 } : ResolutionData).toBytes) := by
    decide
  rw [hwri, Option.bind_some, decodedFor_put, fromBytes_toBytes (by decide) (by decide)]
  decide

end DepgraphBuilder

end Toolchain.Pypi
