import Toolchain.Lib.Dict
import Toolchain.Lib.Text

/-!
# BuildSense.ArtifactResults — which artifacts are shown as a success

Console outputs of one group share an entry, which has the result of the last.  A test that ended with an
error, or that has several kinds of results, does not count as a failure.

Models `console.py` and `pytest_junit_xml.py` of `buildsense/ingestion/run_processors`.
-/

namespace Toolchain.BuildSense

open Lib List

/-- An output of a work unit; `isEmpty` if nothing is left of it but `[]`. -/
structure ConsoleArtifact where
  (goal significantName workunitId name : Text)
  isEmpty : Bool
  exitCode : Option Int

def groupArtifactsForGoals : List Text :=
  ["test", "lint", "fmt", "check", "update-build-files", "package"].map String.toList

namespace ConsoleArtifact

variable (self : ConsoleArtifact)

def isKept : Bool :=
  self.name ∈ ["stdout".toList, "stderr".toList] && !self.isEmpty

def group : Text :=
  if self.goal ∈ groupArtifactsForGoals then self.significantName else self.workunitId

/-- Whether the result is `SUCCESS`, if there is one. -/
def getResult : Option Bool :=
  self.exitCode.map (· = 0)

end ConsoleArtifact

/-- The groups, each with the artifact that its result is taken from. -/
def consoleMetadata (artifacts : List ConsoleArtifact) : List (Text × ConsoleArtifact) :=
  (artifacts.filter (·.isKept)).foldl
    (fun metadata artifact => Dict.assign metadata (artifact.group, artifact)) []

inductive ResultTag
  | skipped | failure | error | other
  deriving DecidableEq

/-- A test case, with its children and what a skipped one says of its kind. -/
structure TestCase where
  children : List (ResultTag × Text)
  hasNames : Bool

namespace TestCase

variable (self : TestCase)

def outcome : Text :=
  if !self.hasNames then "error".toList else
  match self.children with
  | [] => "pass".toList
  | (tag, skipType) :: rest =>
    if rest.any (·.1 ≠ tag) then "unknown".toList else
    match tag with
    | .skipped => if "pytest.".toList.isPrefixOf skipType then skipType.drop 7 else "skip".toList
    | .failure => "fail".toList
    | .error => "error".toList
    | .other => "unknown".toList

def Failed : Prop :=
  ∃ child ∈ self.children, child.1 = .failure ∨ child.1 = .error

/-- A test with a name and a class whose results are failures only, or which was skipped as
`pytest.fail`. -/
def CountsAsFailure : Prop :=
  self.hasNames = true ∧
    (self.children ≠ [] ∧ (∀ child ∈ self.children, child.1 = .failure) ∨
      ∃ rest, self.children = (.skipped, "pytest.fail".toList) :: rest ∧
        ∀ child ∈ rest, child.1 = .skipped)

lemma drop_eq_fail_iff (skipType : Text) :
    (if "pytest.".toList.isPrefixOf skipType then skipType.drop 7 else "skip".toList) = "fail".toList ↔
      skipType = "pytest.fail".toList := by
  split
  · rename_i hprefix
    obtain ⟨rest, rfl⟩ := isPrefixOf_iff_prefix.1 hprefix
    rw [show ("pytest.".toList ++ rest).drop 7 = rest from drop_left' rfl,
      show "pytest.fail".toList = "pytest.".toList ++ "fail".toList from rfl, append_cancel_left_eq]
  · rename_i hprefix
    refine ⟨fun h => absurd h (by decide), ?_⟩
    rintro rfl
    exact absurd rfl hprefix

lemma outcome_eq_fail_iff : self.outcome = "fail".toList ↔ self.CountsAsFailure := by
  unfold outcome CountsAsFailure
  cases hnames : self.hasNames with
  | false => simp
  | true =>
    rcases self.children with _ | ⟨⟨tag, skipType⟩, rest⟩
    · simp
    simp only [Bool.not_true, Bool.false_eq_true, if_false, true_and]
    by_cases hkinds : rest.any (·.1 ≠ tag) = true
    · -- several kinds of results
      obtain ⟨child, hchild, hkind⟩ : ∃ child ∈ rest, child.1 ≠ tag := by simpa using hkinds
      rw [if_pos hkinds]
      refine ⟨fun h => absurd h (by decide), ?_⟩
      rintro (⟨-, hall⟩ | ⟨_, heq, hall⟩)
      · exact absurd ((hall child (.tail _ hchild)).trans (hall _ (.head _)).symm) hkind
      · obtain ⟨⟨rfl, -⟩, rfl⟩ : (tag = .skipped ∧ skipType = _) ∧ rest = _ := by simpa using heq
        exact absurd (hall child hchild) hkind
    · have hall : ∀ child ∈ rest, child.1 = tag := by simpa using hkinds
      rw [if_neg hkinds]
      cases tag with
      | skipped =>
        simp only [drop_eq_fail_iff, cons.injEq, Prod.mk.injEq, true_and, forall_mem_cons, reduceCtorEq,
          false_and, and_false, false_or]
        exact ⟨fun h => ⟨rest, ⟨h, rfl⟩, hall⟩, fun ⟨_, h, _⟩ => h.1⟩
      | failure => simpa using hall
      | error | other => simp

end TestCase

/-- Whether the outcome of all tests is `SUCCESS`. -/
def getOutcome (tests : List TestCase) : Bool :=
  tests.all (·.outcome ≠ "fail".toList)

/-- No entry that is a success hides a failure exactly if every group whose last unit succeeded has only
units that did, and some test counts as a failure by its children and names if any test has failed. -/
theorem success_hides_nothing_iff (artifacts : List ConsoleArtifact) (tests : List TestCase) :
    ((∀ group last, (group, last) ∈ consoleMetadata artifacts → last.getResult = some true →
    ∀ artifact ∈ artifacts.filter (·.isKept), artifact.group = group → ∀ code ∈ artifact.exitCode,
      code = 0) ∧
    (getOutcome tests → ∀ test ∈ tests, ¬test.Failed)) ↔
    (∀ group last, (artifacts.filter (·.isKept)).reverse.find? (·.group = group) = some last →
    last.exitCode = some 0 → ∀ artifact ∈ artifacts.filter (·.isKept), artifact.group = group →
    ∀ code ∈ artifact.exitCode, code = 0) ∧
    ((∃ test ∈ tests, test.Failed) → ∃ test ∈ tests, test.CountsAsFailure) := by
  obtain ⟨hnod, hlas⟩ := Dict.foldl_assign (·.group) (fun a => a) (artifacts.filter (·.isKept))
  refine and_congr ?_ ?_
  · simp only [consoleMetadata, ← Dict.lookup_eq_some_iff_mem hnod, hlas, ConsoleArtifact.getResult]
    simp
  · have hout : getOutcome tests ↔ ¬∃ test ∈ tests, test.CountsAsFailure := by
      simp [getOutcome, ← TestCase.outcome_eq_fail_iff]
    have hnon : (∀ test ∈ tests, ¬test.Failed) ↔ ¬∃ test ∈ tests, test.Failed := by simp
    rw [hout, hnon, not_imp_not]

theorem success_hides_failed_unit :
    let unit (code : Int) : ConsoleArtifact :=
      ⟨"lint".toList, "black".toList, "1".toList, "stdout".toList, false, some code⟩
    (consoleMetadata [unit 1, unit 0]).map (·.2.getResult) = [some true] := by
  decide

end Toolchain.BuildSense
