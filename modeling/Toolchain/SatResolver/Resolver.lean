import Mathlib.Data.Finset.Sort
import Mathlib.Data.List.MinMax
import Mathlib.Data.Prod.Lex
import Toolchain.SatResolver.PartialSolution

/-!
# SatResolver.Resolver — the version solver as a machine

`Resolver.run` of `satresolver/core.py` on the graph and the configuration of `graph.py` and
`config.py`.  Its nested loops become a machine, whose `Control` is the place in the program: the head
of the loop over changed subjects (`propagate`), the loop over the incompatibilities of a subject
(`scan`), conflict resolution (`resolve`), the choice of a version (`choose`), and three ends.  The
graph, which caches what it has fetched, is a table.
-/

namespace Toolchain.SatResolver

structure Graph (P V : Type) where
  allVersions : P → Finset V
  fetchDependenciesFor : P → V → Option (List (P × Finset V))

inductive PackageVersion (P V : Type)
  | root
  | version (packageName : P) (version : V)
  deriving DecidableEq, Repr

instance PackageVersion.decidableMem {P V : Type} [DecidableEq P] [DecidableEq V]
    (self : PackageVersion P V) (versions : List (PackageVersion P V)) : Decidable (self ∈ versions) :=
  inferInstance

structure Config (P V : Type) where
  dependencies : List (P × Finset V)
  graph : Graph P V
  useLatest : Finset P
  locked : P → Option V
  downgrades : Finset P
  overrides : P → Option (Finset V)

namespace Config

variable {P V : Type}

def allVersions (self : Config P V) (packageName : P) : Finset V :=
  self.graph.allVersions packageName

def dependenciesFor (self : Config P V) : PackageVersion P V → List (P × Finset V)
  | .root => self.dependencies
  | .version packageName version => (self.graph.fetchDependenciesFor packageName version).getD []

def isKnownInvalid (self : Config P V) (packageName : P) (version : V) : Bool :=
  (self.graph.fetchDependenciesFor packageName version).isNone

def require (self : Config P V) (packageName : P) (versions : Finset V) : Term P V :=
  .version
    { packageName := packageName, versions := versions, isPositive := true
      allVersions := self.allVersions packageName }

def exclude (self : Config P V) (packageName : P) (versions : Finset V) : Term P V :=
  .version
    { packageName := packageName, versions := versions, isPositive := false
      allVersions := self.allVersions packageName }

def dependeeTerm (self : Config P V) : PackageVersion P V → Term P V
  | .root => .root true
  | .version packageName version => self.require packageName {version}

def pinned (self : Config P V) (dependency : P × Finset V) : Finset V :=
  (self.overrides dependency.1).getD dependency.2

def dependencyIncompatibility (self : Config P V) (packageVersion : PackageVersion P V)
    (dependency : P × Finset V) : Incompatibility P V :=
  .external [self.dependeeTerm packageVersion, self.exclude dependency.1 (self.pinned dependency)]
    (if (self.overrides dependency.1).isSome then .override else .dependency)

def dependencyIncompatibilities (self : Config P V) (packageVersion : PackageVersion P V) :
    List (Incompatibility P V) :=
  (self.dependenciesFor packageVersion).map (self.dependencyIncompatibility packageVersion)

end Config

/-! ## The state of the solver -/

inductive Outcome (P : Type)
  | conflict | nothing
  | derived (subject : Subject P)
  deriving DecidableEq, Repr

inductive Control (P V : Type)
  | propagate (changed : List (Outcome P))
  | scan (current : Subject P) (next : Nat) (changed : List (Outcome P))
  | resolve (conflict current : Incompatibility P V) (scanned : Subject P) (next : Nat)
    (changed : List (Outcome P))
  | choose | done
  | failed (incompatibility : Incompatibility P V)
  | crashed
  deriving DecidableEq

structure Resolver (P V : Type) where
  incompatibilities : Subject P → List (Incompatibility P V)
  solution : PartialSolution P V
  haveListedIncompatibilities : List (PackageVersion P V)
  (haveUsedLatest haveUsedLocked : List P)
  control : Control P V

variable {P V : Type} [LinearOrder P] [LinearOrder V]

namespace Config

def validVersionsForPackage (self : Config P V) (constraint : VersionConstraint P V) : Finset V :=
  ((self.allVersions constraint.packageName).filter fun version =>
    !self.isKnownInvalid constraint.packageName version) ∩ constraint.versions

/-- The versions counted for a package that is to be locked or at its latest version are one. -/
def numValidVersions (self : Config P V) (extra : P → Bool) (constraint : VersionConstraint P V) :
    Nat :=
  if extra constraint.packageName then 1 else (self.validVersionsForPackage constraint).card

def bestPackage (self : Config P V) (extra : P → Bool)
    (unsatisfied : List (VersionConstraint P V)) : Option (VersionConstraint P V) :=
  unsatisfied.argmin fun constraint =>
    toLex (self.numValidVersions extra constraint, constraint.packageName)

def bestVersionForPackage (self : Config P V) (packageName : P) (validVersions : Finset V)
    (nonempty : validVersions.Nonempty) : V :=
  match (self.locked packageName).filter fun version => version ∈ validVersions with
  | some version => version
  | none =>
    if packageName ∈ self.downgrades then validVersions.min' nonempty else validVersions.max' nonempty

end Config

namespace Resolver

def addIncompatibility (self : Resolver P V) (incompatibility : Incompatibility P V) :
    Resolver P V :=
  { self with
    incompatibilities := incompatibility.terms.foldl (fun table term =>
        Function.update table term.subject (table term.subject ++ [incompatibility]))
      self.incompatibilities }

def incompatibilitiesFor (config : Config P V) (self : Resolver P V)
    (packageVersion : PackageVersion P V) : List (Incompatibility P V) :=
  if packageVersion ∈ self.haveListedIncompatibilities then
    []
  else
    config.dependencyIncompatibilities packageVersion

def listIncompatibilities (config : Config P V) (self : Resolver P V)
    (packageVersion : PackageVersion P V) : Resolver P V :=
  { (self.incompatibilitiesFor config packageVersion).foldl addIncompatibility self with
    haveListedIncompatibilities := packageVersion :: self.haveListedIncompatibilities }

def setupRoot (config : Config P V) : Resolver P V :=
  let fresh : Resolver P V :=
    { incompatibilities := fun _ => [], solution := .empty, haveListedIncompatibilities := []
      haveUsedLatest := [], haveUsedLocked := [], control := .propagate [.derived .root] }
  let listed := fresh.listIncompatibilities config .root
  { listed with solution := listed.solution.decide (.root true) }

/-! ## Unit propagation -/

/-- What a solution says about the terms of an incompatibility, one of which may be left over. -/
inductive Verdict (P V : Type)
  | conflict | inconclusive
  | unit (term : Term P V)

def verdict (solution : PartialSolution P V) (unsatisfied : Option (Term P V)) :
    List (Term P V) → Verdict P V
  | [] =>
    match unsatisfied with
    | none => .conflict
    | some term => .unit term
  | term :: rest =>
    if solution.satisfies term then
      verdict solution unsatisfied rest
    else if solution.isIncompatible term then
      .inconclusive
    else
      match unsatisfied with
      | some _ => .inconclusive
      | none => verdict solution (some term) rest

def propagateIncompatibility (solution : PartialSolution P V)
    (incompatibility : Incompatibility P V) : Outcome P × PartialSolution P V :=
  match verdict solution none incompatibility.terms with
  | .conflict => (.conflict, solution)
  | .inconclusive => (.nothing, solution)
  | .unit term => (.derived term.subject, solution.derive term.inverse incompatibility)

/-! ## Conflict resolution -/

/-- The term satisfied last, with its satisfier and the others, the latest first.  The source raises
`TypeError` if there is no satisfier. -/
def mostRecentlySatisfied (solution : PartialSolution P V) (incompatibility : Incompatibility P V) :
    Option ((Term P V × Assignment P V) × List (Term P V × Assignment P V)) :=
  let satisfied := incompatibility.terms.mapM fun term =>
    (solution.satisfier term).map fun satisfier => (term, satisfier)
  match satisfied with
  | none => none
  | some pairs =>
    match (pairs.insertionSort fun x y => x.2.index ≤ y.2.index).reverse with
    | [] => none
    | last :: earlier => some (last, earlier)

def previousDecisionLevel (solution : PartialSolution P V) (last : Term P V × Assignment P V)
    (earlier : List (Term P V × Assignment P V)) : Option Nat :=
  let previous := (earlier.head?.map fun pair => pair.2.decisionLevel).getD 1
  match last.2.term.difference last.1 with
  | none => some previous
  | some difference =>
    (solution.satisfier difference.inverse).map fun partialSatisfier =>
      max previous partialSatisfier.decisionLevel

/-- Intersects a term with the one of its subject; the source raises `ValueError` if they exclude
each other. -/
def mergeTerm : List (Term P V) → Term P V → Option (List (Term P V))
  | [], term => some [term]
  | old :: rest, term =>
    if old.subject = term.subject then
      (old.intersect term).map fun new => new :: rest
    else
      (mergeTerm rest term).map fun merged => old :: merged

def mergeTerms (terms : List (Term P V)) : Option (List (Term P V)) :=
  terms.foldlM mergeTerm []

/-- The other terms of an incompatibility and of the cause of the last satisfier, and what the
satisfier leaves open of the term it satisfied. -/
def newTerms (incompatibility : Incompatibility P V) (mostRecentTerm satisfierTerm : Term P V)
    (cause : Incompatibility P V) : List (Term P V) :=
  (incompatibility.terms.filter fun term => term ≠ mostRecentTerm) ++
    (cause.terms.filter fun term => term.subject ≠ satisfierTerm.subject) ++
      (satisfierTerm.difference mostRecentTerm).toList.map Term.inverse

def createIncompatibilityFromConflict (incompatibility : Incompatibility P V)
    (mostRecentTerm satisfierTerm : Term P V) (cause : Incompatibility P V) :
    Option (Incompatibility P V) :=
  (mergeTerms (newTerms incompatibility mostRecentTerm satisfierTerm cause)).map fun terms =>
    .derived terms incompatibility cause

inductive Resolution (P V : Type)
  | backtrack (decisionLevel : Nat)
  | replace (incompatibility : Incompatibility P V)

def resolution (solution : PartialSolution P V) (current : Incompatibility P V) :
    Option (Resolution P V) :=
  match mostRecentlySatisfied solution current with
  | none => none
  | some (last, earlier) =>
    match previousDecisionLevel solution last earlier with
    | none => none
    | some previous =>
      match last.2.cause with
      | none => some (.backtrack previous)
      | some cause =>
        if previous < last.2.decisionLevel then
          some (.backtrack previous)
        else
          (createIncompatibilityFromConflict current last.1 last.2.term cause).map .replace

def backjump (self : Resolver P V) (decisionLevel : Nat) (conflict current : Incompatibility P V)
    (scanned : Subject P) (next : Nat) (changed : List (Outcome P)) : Resolver P V :=
  let learned := if current ≠ conflict then self.addIncompatibility current else self
  let propagated := propagateIncompatibility (self.solution.backtrack decisionLevel) current
  { learned with solution := propagated.2, control := .scan scanned (next + 1) (changed ++ [propagated.1]) }

/-! ## Decisions -/

def isConflict (solution : PartialSolution P V) (incompatibility : Incompatibility P V) : Bool :=
  incompatibility.terms.all solution.satisfies || match incompatibility.terms with
    | [] => true
    | first :: rest => rest.all fun term => term.subject = first.subject

def crash (self : Resolver P V) : Resolver P V :=
  { self with control := .crashed }

def addAbout (self : Resolver P V) (packageName : P) (incompatibility : Incompatibility P V) :
    Resolver P V :=
  { self.addIncompatibility incompatibility with control := .propagate [.derived (.package packageName)] }

/-- Lists the incompatibilities of a version, and decides for it unless one is a conflict. -/
def decideVersion (config : Config P V) (self : Resolver P V) (packageName : P) (version : V) :
    Resolver P V :=
  let packageVersion := PackageVersion.version packageName version
  let listed := self.listIncompatibilities config packageVersion
  let conflict := (self.incompatibilitiesFor config packageVersion).any (isConflict self.solution)
  { listed with
    solution :=
      if conflict then self.solution else self.solution.decide (config.require packageName {version})
    control := .propagate [.derived (.package packageName)] }

def shouldUseLatest (config : Config P V) (self : Resolver P V) (packageName : P) : Bool :=
  packageName ∈ config.useLatest && packageName ∉ self.haveUsedLatest

def shouldUseLocked (config : Config P V) (self : Resolver P V) (packageName : P) : Bool :=
  (config.locked packageName).isSome && packageName ∉ self.haveUsedLocked

def choosePackage (config : Config P V) (self : Resolver P V) (constraint : VersionConstraint P V) :
    Resolver P V :=
  let packageName := constraint.packageName
  if self.shouldUseLatest config packageName then
    if nonempty : (config.allVersions packageName).Nonempty then
      let latest := (config.allVersions packageName).max' nonempty
      { self with haveUsedLatest := packageName :: self.haveUsedLatest }.addAbout packageName
        (.external [config.require packageName {latest}] .useLatest)
    else
      self.crash
  else
    match (config.locked packageName).filter fun _ => self.shouldUseLocked config packageName with
    | some version =>
      { self with haveUsedLocked := packageName :: self.haveUsedLocked }.addAbout packageName
        (.external [config.require packageName {version}] .useLocked)
    | none =>
      let validVersions := config.validVersionsForPackage constraint
      if nonempty : validVersions.Nonempty then
        self.decideVersion config packageName
          (config.bestVersionForPackage packageName validVersions nonempty)
      else
        self.addAbout packageName (.external [config.require packageName constraint.versions]
            (if (config.allVersions packageName).Nonempty then .noVersions else .packageNotFound))

def constraint? : Term P V → Option (VersionConstraint P V)
  | .version constraint => some constraint
  | .root _ => none

def choosePackageVersion (config : Config P V) (self : Resolver P V) : Resolver P V :=
  match self.solution.unsatisfied with
  | none => self.crash
  | some [] => { self with control := .done }
  | some (term :: terms) =>
    match (term :: terms).mapM constraint? with
    | none => self.crash
    | some constraints =>
      let extra := fun packageName =>
        self.shouldUseLocked config packageName || self.shouldUseLatest config packageName
      match config.bestPackage extra constraints with
      | none => self.crash
      | some constraint => self.choosePackage config constraint

/-! ## The machine -/

def step (config : Config P V) (self : Resolver P V) : Resolver P V :=
  match self.control with
  | .propagate [] => { self with control := .choose }
  | .propagate (.derived subject :: changed) => { self with control := .scan subject 0 changed }
  -- `None` and an incompatibility are keys without incompatibilities
  | .propagate (_ :: changed) => { self with control := .propagate changed }
  | .scan subject next changed =>
    match (self.incompatibilities subject)[next]? with
    | none => { self with control := .propagate changed }
    | some incompatibility =>
      match propagateIncompatibility self.solution incompatibility with
      | (.conflict, _) => { self with control := .resolve incompatibility incompatibility subject next changed }
      | (.nothing, _) => { self with control := .scan subject (next + 1) changed }
      | (.derived derived, solution) =>
        { self with solution := solution, control := .scan subject (next + 1) (changed ++ [.derived derived]) }
  | .resolve conflict current scanned next changed =>
    if current.isFailure then
      -- the message names the first term, which raises `IndexError` if there is none
      if current.terms = [] then self.crash else { self with control := .failed current }
    else
      match resolution self.solution current with
      | none => self.crash
      | some (.backtrack decisionLevel) => self.backjump decisionLevel conflict current scanned next
        changed
      | some (.replace incompatibility) =>
        { self with control := .resolve conflict incompatibility scanned next changed }
  | .choose => self.choosePackageVersion config
  | .done => self
  | .failed _ => self
  | .crashed => self

def run (config : Config P V) (steps : Nat) : Resolver P V :=
  (step config)^[steps] (setupRoot config)

def result (self : Resolver P V) : List (P ×ₗ V) :=
  ((self.solution.decisions.filterMap constraint?).foldr
    (fun (constraint : VersionConstraint P V) (versions : Finset (P ×ₗ V)) =>
      constraint.versions.image (fun version => toLex (constraint.packageName, version)) ∪ versions)
    ∅).sort (· ≤ ·)

end Resolver

/-! ## Small graphs

The packages and versions of a small graph are numbers below a bound. -/

scoped instance neZero_one : @NeZero Nat Zero.ofOfNat0 1 := ⟨Nat.one_ne_zero⟩

scoped instance neZero_two : @NeZero Nat Zero.ofOfNat0 2 := ⟨Nat.succ_ne_zero 1⟩

scoped instance neZero_three : @NeZero Nat Zero.ofOfNat0 3 := ⟨Nat.succ_ne_zero 2⟩

scoped instance neZero_four : @NeZero Nat Zero.ofOfNat0 4 := ⟨Nat.succ_ne_zero 3⟩

end Toolchain.SatResolver
