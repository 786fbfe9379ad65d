import Toolchain.Lib.Dict
import Toolchain.SatResolver.Steps

/-!
# SatResolver.MavenConfig — resolving with the scopes of Maven dependencies

Asked for the root, `dependencies_for_scopes` compares with `RootConstraint` instead of `ROOT`; so the
root is looked up in tables without an entry for it, and the resolver starts without requirements
(`MavenResolver.run_eq`).

Models `satresolver/maven/maven_graph.py` and `maven_config.py`.  Soft requirements are left out: only
`best_version_for_package` reads them, any call of which raises a `TypeError`.
-/

namespace Toolchain.SatResolver

open Lib.Dict PartialSolution

inductive Scope
  | compile | provided | runtime | test | system
  deriving DecidableEq, Repr

structure MavenDependency (P V : Type) where
  scope : Scope
  packageName : P
  isValidVersion : V → Bool

structure MavenGraph (P V : Type) where
  allVersions : P → Finset V
  dependencyData : P → V → Option (List (MavenDependency P V))

structure MavenConfig (P V : Type) where
  dependencies : List (P × Finset V)
  /-- A set in the source, which is iterated in any order. -/
  scopes : List Scope
  graph : MavenGraph P V
  useLatest : Finset P
  locked : P → Option V
  downgrades : Finset P

namespace MavenGraph

variable {P V : Type} [DecidableEq P] [DecidableEq V]

def dependencyVersions (self : MavenGraph P V) (dependency : MavenDependency P V) : Finset V :=
  (self.allVersions dependency.packageName).filter fun version => dependency.isValidVersion version

/-- The rows of a version up to the first one that no version meets, where fetching raises. -/
def fetchedRows (self : MavenGraph P V) (packageName : P) (version : V) :
    List (MavenDependency P V) :=
  ((self.dependencyData packageName version).getD []).takeWhile fun dependency =>
    decide (self.dependencyVersions dependency ≠ ∅)

def fetchDependenciesFor (self : MavenGraph P V) (packageName : P) (version : V) :
    Option (List (P × Finset V)) :=
  match self.dependencyData packageName version with
  | none => none
  | some rows =>
    if rows.all fun dependency => decide (self.dependencyVersions dependency ≠ ∅) then
      some (rows.foldl (fun dict dependency =>
          assign dict (dependency.packageName, self.dependencyVersions dependency)) [])
    else
      none

def scopedDependencies (self : MavenGraph P V) (scope : Scope) :
    PackageVersion P V → Option (List (P × Finset V))
  | .root => none
  | .version packageName version =>
    match (self.fetchedRows packageName version).filter fun row => row.scope = scope with
    | [] => none
    | rows =>
      some (rows.foldl (fun dict dependency =>
          assign dict (dependency.packageName, self.dependencyVersions dependency)) [])

/-- The root is not the class `RootConstraint` that it is compared with, so it takes the way of
every version. -/
def dependenciesForScopes (self : MavenGraph P V) (scopes : List Scope)
    (packageVersion : PackageVersion P V) : List (P × Finset V) :=
  scopes.foldl (fun dict scope =>
      match self.scopedDependencies scope packageVersion with
      | none => dict
      | some dependencies => dependencies.foldl assign dict) []

end MavenGraph

namespace MavenConfig

variable {P V : Type} [DecidableEq P] [DecidableEq V]

def effectiveScopes (self : MavenConfig P V) : List Scope :=
  if self.scopes = [] then [.compile] else self.scopes

/-- The configuration as the resolver sees it through `dependencies_for`.  A version that cannot be
fetched is known to be invalid, and never chosen. -/
def toConfig (self : MavenConfig P V) : Config P V :=
  { dependencies := self.graph.dependenciesForScopes self.effectiveScopes .root
    graph :=
      { allVersions := self.graph.allVersions
        fetchDependenciesFor := fun packageName version =>
          (self.graph.fetchDependenciesFor packageName version).map fun _ =>
            self.graph.dependenciesForScopes self.effectiveScopes (.version packageName version) }
    useLatest := self.useLatest, locked := self.locked, downgrades := self.downgrades
    overrides := fun _ => none }

/-- Every root dependency, and every dependency of a selected version in one of the scopes, is met
by a selected version. -/
def Met (self : MavenConfig P V) (result : List (P ×ₗ V)) : Prop :=
  (∀ dependency ∈ self.dependencies, ∃ version ∈ dependency.2, toLex (dependency.1, version) ∈ result) ∧
    ∀ packageName version, toLex (packageName, version) ∈ result →
      ∀ rows, self.graph.dependencyData packageName version = some rows →
        ∀ row ∈ rows, row.scope ∈ self.effectiveScopes →
          ∃ selected ∈ self.graph.dependencyVersions row, toLex (row.packageName, selected) ∈ result

end MavenConfig

namespace MavenResolver

variable {P V : Type} [LinearOrder P] [LinearOrder V]

open Resolver

/-- A step of the resolver, which raises where it would have chosen a version: only then are the
incompatibilities of a version listed. -/
def step (config : MavenConfig P V) (self : Resolver P V) : Resolver P V :=
  let next := self.step config.toConfig
  if next.haveListedIncompatibilities = self.haveListedIncompatibilities then next else self.crash

def run (config : MavenConfig P V) (steps : Nat) : Resolver P V :=
  (step config)^[steps] (setupRoot config.toConfig)

/-! ## A run -/

lemma dependenciesForScopes_root (gr : MavenGraph P V) (scop : List Scope) :
    gr.dependenciesForScopes scop .root = [] := by
  induction scop with
  | nil => rfl
  | cons scope scop ih => exact ih

def unrequired (control : Control P V) : Resolver P V :=
  { incompatibilities := fun _ => []
    solution := (empty : PartialSolution P V).decide (.root true)
    haveListedIncompatibilities := [.root], haveUsedLatest := [], haveUsedLocked := [], control :=
      control }

variable (cfg : MavenConfig P V)

lemma setupRoot_eq : setupRoot cfg.toConfig = unrequired (.propagate [.derived .root]) := by
  have hdep : cfg.toConfig.dependencies = [] := dependenciesForScopes_root cfg.graph cfg.effectiveScopes
  simp [setupRoot, listIncompatibilities, incompatibilitiesFor, Config.dependencyIncompatibilities,
    Config.dependenciesFor, hdep, unrequired]

lemma unsat_unrequired : ((empty : PartialSolution P V).decide (.root true)).unsatisfied = some [] := by
  simp [PartialSolution.unsatisfied, PartialSolution.decide, PartialSolution.empty,
    append, register, Assignment.subject, Term.subject, narrow,
    isDecided, Term.isPositive]

def place : Nat → Control P V
  | 0 => .propagate [.derived .root]
  | 1 => .scan .root 0 []
  | 2 => .propagate []
  | 3 => .choose
  | _ + 4 => .done

lemma step_unrequired (sts : Nat) : step cfg (unrequired (place sts)) = unrequired (place (sts + 1)) := by
  match sts with
  | 0 => rfl
  | 1 => rfl
  | 2 => rfl
  | 3 =>
    have hcho : (unrequired (place 3) : Resolver P V).step cfg.toConfig = unrequired (place 4) := by
      have huns : (unrequired (place 3) : Resolver P V).solution.unsatisfied = some [] := unsat_unrequired
      simp only [Resolver.step, unrequired, place, choosePackageVersion] at huns ⊢
      rw [huns]
    rw [step, hcho]
    rfl
  | _ + 4 => rfl

lemma run_eq (sts : Nat) : run cfg sts = unrequired (place sts) := by
  induction sts with
  | zero => exact setupRoot_eq cfg
  | succ sts ih => rw [run, Function.iterate_succ_apply', ← run, ih, step_unrequired]

lemma result_unrequired (con : Control P V) : (unrequired con).result = [] := by
  have hdec : (unrequired con).solution.decisions.filterMap constraint? = [] := rfl
  rw [result, hdec]
  simp

/-- A run returns, and what it returns meets the dependencies exactly if the root has none. -/
theorem met_iff (config : MavenConfig P V) :
    (∃ steps, (run config steps).control = .done) ∧ ∀ steps, (run config steps).control = .done →
    (config.Met (run config steps).result ↔ config.dependencies = []) := by
  constructor
  · exact ⟨4, by rw [run_eq]; rfl⟩
  · intro steps _
    rw [run_eq, result_unrequired]
    constructor
    · intro hmet
      apply List.eq_nil_iff_forall_not_mem.2
      intro dependency hdep
      obtain ⟨version, _, hsel⟩ := hmet.1 dependency hdep
      simp at hsel
    · intro hnon
      constructor
      · simp [hnon]
      · simp

def requiringOne : MavenConfig Nat Nat :=
  { dependencies := [(0, {1})], scopes := [.compile]
    graph := { allVersions := fun _ => {1}, dependencyData := fun _ _ => some [] }, useLatest := ∅
    locked := fun _ => none, downgrades := ∅ }

theorem requiringOne_unmet :
    (run requiringOne 4).control = .done ∧ ¬requiringOne.Met (run requiringOne 4).result := by
  rw [run_eq]
  refine ⟨rfl, ?_⟩
  intro hmet
  obtain ⟨version, _, hsel⟩ := hmet.1 (0, {1}) (by simp [requiringOne])
  rw [result_unrequired] at hsel
  simp at hsel

end MavenResolver

end Toolchain.SatResolver
