import Toolchain.Pypi.Depgraph
import Toolchain.Pypi.Markers

/-!
# Pypi.PythonGraph — from requirements to sets of distributions

`dependencies_from_requirements` looks up the compatible distributions of every required project and
keeps those a requirement admits; a later requirement for the same project overwrites the entry
(`dependenciesFromRequirements_eq`).

Models `satresolver/pypi/python_graph.py`.  The platforms a platform supports are a field; what a
requirement admits, and the parser, are functions.
-/

namespace Toolchain.Pypi

open Lib List Option

structure MarkerLeaf where
  (variableName op value : Text)
  deriving DecidableEq, Repr

structure Requirement where
  projectName : Text
  marker : Option (List (Marker MarkerLeaf))
  contains : Text → Bool

inductive PythonPackageVersion
  | interpreter (version : Text)
  | platform (platform : Text)
  | distribution (dist : PythonPackageDistribution)
  deriving DecidableEq, Repr

/-- The attribute `version`, which a platform does not have. -/
def PythonPackageVersion.version : PythonPackageVersion → Option Text
  | .interpreter version => some version
  | .platform _ => none
  | .distribution dist => some dist.key.version

structure PythonGraph where
  depgraph : Table
  requiresPython : Text
  (validAbis platforms allPythonInterpreters allPlatformTags : List Text)

inductive DependencyError
  | versionNotFound (projectName : Text) (availableVersions : List Text)
  | raised
  deriving DecidableEq, Repr

namespace PythonGraph

section Graph

-- `str.lower`, and `pkg_resources.Requirement.parse` with the versions a requirement admits
variable (lower : Text → Text) (parse : Text → Option (Text → Bool)) (self : PythonGraph)

def platformMatch (platform : Text) : Bool :=
  platform = "any".toList || platform = [] || self.platforms.contains platform

/-- Whether the interpreter meets a requirement on it; one that cannot be parsed is not met. -/
def pythonIn (requirement : Text) : Bool :=
  (parse ("python".toList ++ requirement)).any fun contains => contains self.requiresPython

def validPythonRequirement (requiresPython : Text) : Bool :=
  requiresPython = [] || self.pythonIn parse requiresPython

def fetchDistributionsFromLeveldb (packageName : Text) : Option (List PythonPackageDistribution) :=
  (Depgraph.getDistributions lower self.depgraph (Depgraph.anyOf packageName)).map (List.filter fun dist =>
      self.validAbis.contains dist.key.abi && self.platformMatch dist.key.platform &&
        self.validPythonRequirement parse dist.key.requiresPython)

def allVersions (packageName : Text) : Option (List PythonPackageVersion) :=
  if packageName = "PythonInterpreter".toList then
    some (self.allPythonInterpreters.map .interpreter)
  else if packageName = "Platform".toList then
    some (self.allPlatformTags.map .platform)
  else
    (self.fetchDistributionsFromLeveldb lower parse packageName).map (List.map .distribution)

def checkMarker (marker : MarkerLeaf) : Bool :=
  if marker.variableName = "extra".toList then
    false
  else if marker.variableName = "python_version".toList then
    self.pythonIn parse (marker.op ++ marker.value)
  else if marker.variableName = "sys_platform".toList ∨ marker.variableName = "platform_system".toList then
    self.platformMatch marker.value
  else
    -- the implementation of Python and unknown variables
    true

def shouldInclude (req : Requirement) : Bool :=
  match req.marker with
  | none => true
  | some markers => checkMarkersExpression (self.checkMarker parse) markers = some true

def admits (req : Requirement) (dist : PythonPackageVersion) : Bool :=
  dist.version.any req.contains

def dependenciesFrom (dependencies : Text → Option (List PythonPackageVersion)) :
    List Requirement → Except DependencyError (Text → Option (List PythonPackageVersion))
  | [] => .ok dependencies
  | req :: requirements =>
    if self.shouldInclude parse req then
      match self.allVersions lower parse req.projectName with
      | none => .error .raised
      | some packageVersions =>
        match packageVersions.mapM PythonPackageVersion.version with
        | none => .error .raised
        | some versions =>
          if packageVersions.filter (admits req) = [] then
            .error (.versionNotFound req.projectName versions)
          else
            dependenciesFrom (Function.update dependencies req.projectName
              (some (packageVersions.filter (admits req))))
              requirements
    else
      dependenciesFrom dependencies requirements

def dependenciesFromRequirements (requirements : List Requirement) :
    Except DependencyError (Text → Option (List PythonPackageVersion)) :=
  self.dependenciesFrom lower parse (fun _ => none) requirements

/-! ## The last requirement counts -/

def isIncludedFor (projectName : Text) (req : Requirement) : Bool :=
  self.shouldInclude parse req && req.projectName = projectName

def lastIncluded (requirements : List Requirement) (projectName : Text) : Option Requirement :=
  (requirements.filter (self.isIncludedFor parse projectName)).getLast?

/-- Every included requirement is met by the distributions of its project, which are all that meet
all of them. -/
def EveryRequirementCounts (requirements : List Requirement)
    (dependencies : Text → Option (List PythonPackageVersion)) : Prop :=
  ∀ req ∈ requirements, self.shouldInclude parse req = true →
    ∃ valid versions, dependencies req.projectName = some valid ∧
      self.allVersions lower parse req.projectName = some versions ∧
        (∀ dist ∈ valid, admits req dist = true) ∧ ∀ dist ∈ versions,
            (∀ other ∈ requirements, self.isIncludedFor parse req.projectName other = true →
              admits other dist = true) → dist ∈ valid

end Graph

section Requirements

variable {lower : Text → Text} {parse : Text → Option (Text → Bool)} {self : PythonGraph}

lemma lastIncluded_cons (req : Requirement) (reqs : List Requirement) (proj : Text) :
    self.lastIncluded parse (req :: reqs) proj = (self.lastIncluded parse reqs proj).or
    (if self.isIncludedFor parse proj req then some req else none) := by
  rw [lastIncluded, filter_cons]
  split
  · rw [getLast?_cons, lastIncluded]
    cases (reqs.filter (self.isIncludedFor parse proj)).getLast? with
    | none | some last => rfl
  · simp [lastIncluded]

variable {reqs : List Requirement}

lemma dependenciesFrom_eq {start dependencies : Text → Option (List PythonPackageVersion)}
    (h : self.dependenciesFrom lower parse start reqs = .ok dependencies)
    (proj : Text) :
    (self.lastIncluded parse reqs proj = none ∧ dependencies proj = start proj) ∨
    ∃ last vers, self.lastIncluded parse reqs proj = some last ∧ self.allVersions lower parse proj =
      some vers ∧
    dependencies proj = some (vers.filter (admits last)) := by
  induction reqs generalizing start with
  | nil =>
    obtain rfl : start = dependencies := by simpa [dependenciesFrom] using h
    exact .inl ⟨rfl, rfl⟩
  | cons req reqs ih =>
    rw [dependenciesFrom] at h
    rw [lastIncluded_cons]
    split at h
    · rename_i hinc
      split at h
      · cases h
      rename_i ver hver
      split at h
      · cases h
      split at h
      · cases h
      -- the entry is set here, and a later requirement may overwrite it
      rcases ih h with ⟨hnon, hent⟩ | ⟨last, vers, hlas, hall, hent⟩
      swap
      · right
        exact ⟨last, vers, by simp [hlas], hall, hent⟩
      by_cases hnam : proj = req.projectName
      · subst hnam
        right
        exact ⟨req, ver, by simp [hnon, isIncludedFor, hinc], hver, by simpa using hent⟩
      · left
        refine ⟨by simp [hnon, isIncludedFor, Ne.symm hnam], ?_⟩
        rw [hent, Function.update_of_ne hnam]
    · rename_i hexc
      have hreq : self.isIncludedFor parse proj req = false := by simp [isIncludedFor, hexc]
      simpa [hreq] using ih h

lemma lastIncluded_isSome {req : Requirement} (hmem : req ∈ reqs)
    (hinc : self.shouldInclude parse req = true) :
    ∃ last, self.lastIncluded parse reqs req.projectName = some last := by
  have hne : reqs.filter (self.isIncludedFor parse req.projectName) ≠ [] := by
    apply ne_nil_of_mem
    exact mem_filter.2 ⟨hmem, by simp [isIncludedFor, hinc]⟩
  exact ⟨_, getLast?_eq_some_getLast hne⟩

/-- Every requirement counts in the returned map exactly if whatever the last included requirement
for a project admits is admitted by the others for it. -/
theorem everyRequirementCounts_iff {requirements : List Requirement}
    {dependencies : Text → Option (List PythonPackageVersion)}
    (h : self.dependenciesFromRequirements lower parse requirements = .ok dependencies) :
    self.EveryRequirementCounts lower parse requirements dependencies ↔
    ∀ req ∈ requirements, self.shouldInclude parse req = true →
    ∀ last, self.lastIncluded parse requirements req.projectName = some last →
    ∀ versions, self.allVersions lower parse req.projectName = some versions →
    ∀ dist ∈ versions, admits last dist = true → admits req dist = true := by
  constructor
  · intro hcou req hmem hinc last hlas versions hver dist hdis hadm
    obtain ⟨valid, _, hval, _, hmee, _⟩ := hcou req hmem hinc
    apply hmee dist
    rcases dependenciesFrom_eq h req.projectName with ⟨hnon, _⟩ | ⟨last', versions', hlast', hall, hent⟩
    · rw [hnon] at hlas
      cases hlas
    obtain rfl := some_inj.1 (hlast'.symm.trans hlas)
    obtain rfl := some_inj.1 (hall.symm.trans hver)
    rw [hent, some_inj] at hval
    rw [← hval]
    exact mem_filter.2 ⟨hdis, hadm⟩
  · intro hagr req hmem hinc
    rcases dependenciesFrom_eq h req.projectName with ⟨hnon, _⟩ | ⟨last, versions, hlas, hall, hent⟩
    · obtain ⟨last, hlas⟩ := lastIncluded_isSome hmem hinc
      rw [hnon] at hlas
      cases hlas
    refine ⟨_, versions, hent, hall, ?_, ?_⟩
    · intro dist hdis
      obtain ⟨hdis, hadm⟩ := mem_filter.1 hdis
      exact hagr req hmem hinc last hlas versions hall dist hdis hadm
    · intro dist hdis hall'
      obtain ⟨hmem', hincluded'⟩ := mem_filter.1 (mem_of_getLast? hlas)
      exact mem_filter.2 ⟨hdis, hall' last hmem' hincluded'⟩

end Requirements

/-! ## Two requirements for one project -/

def sixWheel (version : String) : PythonPackageDistribution :=
  { key := { Depgraph.wheelOf "six".toList with version := version.toList, requiresPython := [] }
    value := { requires := [], sha256 := List.replicate 32 0 } }

def sixGraph : PythonGraph :=
  { depgraph := [sixWheel "1", sixWheel "2"].map fun dist => (dist.key.toOrderedBytes, dist.value.toBytes)
    requiresPython := "3.8".toList, validAbis := ["none".toList, []], platforms := []
    allPythonInterpreters := [], allPlatformTags := [] }

/-- `six==1`. -/
def sixExactly : Requirement :=
  { projectName := "six".toList, marker := none, contains := fun version => version = "1".toList }

/-- `six>=1`. -/
def sixAtLeast : Requirement :=
  { projectName := "six".toList, marker := none
    contains := fun version => version = "1".toList || version = "2".toList }

theorem everyRequirementCounts_narrowing :
    ∃ dependencies, sixGraph.dependenciesFromRequirements id (fun _ => none) [sixAtLeast, sixExactly] =
    .ok dependencies ∧
    sixGraph.EveryRequirementCounts id (fun _ => none) [sixAtLeast, sixExactly] dependencies := by
  have hisO :
      (sixGraph.dependenciesFromRequirements id (fun _ => none) [sixAtLeast, sixExactly]).isOk = true := by
    decide +kernel
  cases h : sixGraph.dependenciesFromRequirements id (fun _ => none) [sixAtLeast, sixExactly] with
  | error error => simp [h, Except.isOk, Except.toBool] at hisO
  | ok dependencies =>
    refine ⟨dependencies, rfl, (everyRequirementCounts_iff h).2 ?_⟩
    intro req hreq _ last hlas ver _ dist _ hadm
    have hnam : req.projectName = "six".toList := by
      rcases mem_pair.1 hreq with rfl | rfl <;> rfl
    rw [hnam] at hlas
    obtain rfl : sixExactly = last := some_inj.1 hlas
    rcases mem_pair.1 hreq with rfl | rfl
    · cases dist with
      | interpreter version | distribution dist =>
        simp_all [admits, sixExactly, sixAtLeast, PythonPackageVersion.version]
      | platform platform => simp_all [admits, PythonPackageVersion.version]
    · exact hadm

theorem earlier_requirement_overwritten :
    ∃ dependencies, sixGraph.dependenciesFromRequirements id (fun _ => none) [sixExactly, sixAtLeast] =
    .ok dependencies ∧
    ¬sixGraph.EveryRequirementCounts id (fun _ => none) [sixExactly, sixAtLeast]
    dependencies := by
  have hent : (sixGraph.dependenciesFromRequirements id (fun _ => none)
      [sixExactly, sixAtLeast]).toOption.bind (· "six".toList) =
      some [.distribution (sixWheel "1"), .distribution (sixWheel "2")] := by
    decide +kernel
  cases h : sixGraph.dependenciesFromRequirements id (fun _ => none) [sixExactly, sixAtLeast] with
  | error error => simp [h, Except.toOption] at hent
  | ok dependencies =>
    refine ⟨dependencies, rfl, ?_⟩
    intro hcou
    obtain ⟨valid, _, hval, _, hmee, _⟩ := hcou sixExactly (by simp) rfl
    have hvalid' : dependencies "six".toList = some valid := hval
    rw [h, Except.toOption, bind_some, hvalid', some_inj] at hent
    have hmeets' := hmee (.distribution (sixWheel "2")) (by simp [hent])
    exact absurd hmeets' (by decide)

end PythonGraph

end Toolchain.Pypi
