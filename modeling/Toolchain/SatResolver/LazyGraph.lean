import Toolchain.SatResolver.Footprint

/-!
# SatResolver.LazyGraph — versions found to be invalid while the solver runs

`PythonGraph` finds versions invalid when their dependencies are first asked for. 
`_valid_versions_for_package` asks for all versions of a constraint only as long as the package is no
key of a `defaultdict`, which reading makes it.  So when backtracking makes the constraint wider, an
invalid version may be decided for.  The machine of `SatResolver.Resolver` is run at every step under
what is known.
-/

namespace Toolchain.SatResolver

open List Function

namespace Config

variable {P V : Type} [DecidableEq P] {self : Config P V}

/-- `_valid_versions_for_package` fetches the versions of the constraint, unless the package is a key
already, and makes it one. -/
def query (self : Config P V) (knownInvalidVersions : P → Option (Finset V))
    (constraint : VersionConstraint P V) : P → Option (Finset V) :=
  match knownInvalidVersions constraint.packageName with
  | some _ => knownInvalidVersions
  | none =>
    update knownInvalidVersions constraint.packageName (some (constraint.versions.filter fun version =>
        self.isKnownInvalid constraint.packageName version))

variable {known : P → Option (Finset V)} {constr : VersionConstraint P V}

lemma query_of_ne (known : P → Option (Finset V)) {p : P}
    (h : p ≠ constr.packageName) : self.query known constr p = known p := by
  cases hkno : known constr.packageName with
  | some vers => simp [query, hkno]
  | none => simp [query, hkno, update_of_ne h]

lemma foldl_query_of_some {p : P} {versions : Finset V}
    (h : known p = some versions) (constraints : List (VersionConstraint P V)) :
    constraints.foldl self.query known p = some versions := by
  induction constraints generalizing known with
  | nil => exact h
  | cons con rest ih =>
    apply ih
    by_cases hnam : p = con.packageName
    · subst hnam
      simp [query, h]
    · rw [query_of_ne known hnam, h]

lemma foldl_query_of_none {con : List (VersionConstraint P V)} (hmem : constr ∈ con)
    (huni : ∀ other ∈ con, other.packageName = constr.packageName →
    other = constr) (h : known constr.packageName = none) :
    con.foldl self.query known constr.packageName = some (constr.versions.filter fun version =>
    self.isKnownInvalid constr.packageName version) := by
  induction con generalizing known with
  | nil => cases hmem
  | cons first rest ih =>
    rw [foldl_cons]
    by_cases hsam : first.packageName = constr.packageName
    · obtain rfl := huni first mem_cons_self hsam
      exact foldl_query_of_some (by simp [query, h]) rest
    have hres : constr ∈ rest := by
      rcases mem_cons.1 hmem with rfl | hmem
      · exact absurd rfl hsam
      · exact hmem
    refine ih hres (fun other hoth => huni other (.tail _ hoth)) ?_
    rw [query_of_ne known (Ne.symm hsam), h]

variable [DecidableEq V]

def knowing (self : Config P V) (knownInvalidVersions : P → Option (Finset V)) : Config P V :=
  { self with
    graph :=
      { self.graph with
        fetchDependenciesFor := fun packageName version =>
          if version ∈ (knownInvalidVersions packageName).getD ∅ then
            none
          else
            some (self.dependenciesFor (.version packageName version)) } }

/-- `incompatibilities_for` fetches the version it lists. -/
def fetchListed (self : Config P V) (knownInvalidVersions : P → Option (Finset V)) :
    List (PackageVersion P V) → P → Option (Finset V)
  | .version packageName version :: _ =>
    if self.isKnownInvalid packageName version then
      update knownInvalidVersions packageName
        (some (insert version ((knownInvalidVersions packageName).getD ∅)))
    else
      knownInvalidVersions
  | _ => knownInvalidVersions

end Config

/-- The solver and the table of its graph; `none` for a package that is no key. -/
structure LazyResolver (P V : Type) where
  resolver : Resolver P V
  knownInvalidVersions : P → Option (Finset V)

namespace LazyResolver

open Resolver

variable {P V : Type} [LinearOrder P] [LinearOrder V] {cfg : Config P V} {self : LazyResolver P V}

def constraints (self : LazyResolver P V) : List (VersionConstraint P V) :=
  match self.resolver.control with
  | .choose => (self.resolver.solution.unsatisfied.getD []).filterMap constraint?
  | _ => []

def queried (config : Config P V) (self : LazyResolver P V) : P → Option (Finset V) :=
  self.constraints.foldl config.query self.knownInvalidVersions

def step (config : Config P V) (self : LazyResolver P V) : LazyResolver P V :=
  let resolver := self.resolver.step (config.knowing (self.queried config))
  { resolver := resolver
    knownInvalidVersions :=
      match self.resolver.control with
      | .choose => config.fetchListed (self.queried config) resolver.haveListedIncompatibilities
      | _ => self.knownInvalidVersions }

def run (config : Config P V) (steps : Nat) : LazyResolver P V :=
  (step config)^[steps] { resolver := setupRoot config, knownInvalidVersions := fun _ => none }

/-- A choice is to be made, and an undecided package whose versions have been looked at before may
have an invalid one that is not known. -/
def overlooks (config : Config P V) (self : LazyResolver P V) : Bool :=
  self.constraints.any fun constraint =>
    match self.knownInvalidVersions constraint.packageName with
    | none => false
    | some known =>
      decide (∃ version ∈ config.allVersions constraint.packageName ∩ constraint.versions,
        config.isKnownInvalid constraint.packageName version = true ∧ version ∉ known)

/-! ## Decisions -/

omit [LinearOrder V] in
lemma mem_constraints {con : VersionConstraint P V} (h : Offered self.resolver con) :
    con ∈ self.constraints := by
  rcases h.unsatisfied with ⟨terms, hter, hmem⟩
  unfold constraints
  rw [h.choosing, hter]
  exact mem_filterMap.2 ⟨_, hmem, rfl⟩

lemma constraints_unique (hcoh : self.resolver.solution.Coherent cfg.allVersions)
    {constraint oth : VersionConstraint P V} (hmem : constraint ∈ self.constraints)
    (hoth : oth ∈ self.constraints) (hnam : oth.packageName = constraint.packageName) :
    oth = constraint := by
  have hter : ∀ c ∈ self.constraints, self.resolver.solution.terms (.package c.packageName) =
    some (.version c) := by
    intro c hc
    unfold constraints at hc
    split at hc
    swap
    · cases hc
    rcases mem_filterMap.1 hc with ⟨t, ht, hsom⟩
    rcases huns : self.resolver.solution.unsatisfied with _ | terms
    · rw [huns] at ht
      cases ht
    rw [huns] at ht
    cases t with
    | version x =>
      obtain rfl : x = c := by simpa [constraint?] using hsom
      exact ((mem_unsat_iff hcoh huns).1 ht).1
    | root b => cases hsom
  have hsam := hter oth hoth
  rw [hnam, hter constraint hmem] at hsam
  cases hsam
  rfl

/-! ## Runs -/

lemma run_succ (config : Config P V) (sts : Nat) : run config (sts + 1) = (run config sts).step config :=
  iterate_succ_apply' _ _ _

lemma step_spec (cfg : Config P V) (self : LazyResolver P V) :
    Step (cfg.knowing (self.queried cfg)) self.resolver (self.step cfg).resolver :=
  Resolver.step_spec _ _

lemma tracked_run (cfg : Config P V) (sts : Nat) :
    Tracked cfg (Term.Over cfg.allVersions) (run cfg sts).resolver := by
  induction sts with
  | zero => exact tracked_root (stable_over cfg)
  | succ sts ih =>
    rw [run_succ]
    have hkno : Tracked (cfg.knowing ((run cfg sts).queried cfg))
        (Term.Over cfg.allVersions) (run cfg sts).resolver := ih.of_allVersions_eq rfl
    exact (tracked_step (stable_over (cfg.knowing _)) hkno (step_spec cfg _)).of_allVersions_eq rfl

lemma isKnownInvalid_eq_false_of_decides {con : VersionConstraint P V} {ver : V}
    (hcoh : self.resolver.solution.Coherent cfg.allVersions)
    (hdec : Decides (cfg.knowing (self.queried cfg)) self.resolver con ver)
    (hove : self.overlooks cfg = false) :
    cfg.isKnownInvalid con.packageName ver = false := by
  have hmem := mem_constraints hdec.offered
  have hval := hdec.valid
  simp only [Config.validVersionsForPackage, Finset.mem_inter, Finset.mem_filter] at hval
  rcases hval with ⟨⟨hava, hunk⟩, hall⟩
  have hnot : ver ∉ (self.queried cfg con.packageName).getD ∅ := by
    simpa [Config.isKnownInvalid, Config.knowing] using hunk
  cases hinv : cfg.isKnownInvalid con.packageName ver with
  | false => rfl
  | true =>
    exfalso
    apply hnot
    unfold queried
    rcases hkno : self.knownInvalidVersions con.packageName with _ | known
    · -- the package is queried for the first time
      rw [Config.foldl_query_of_none hmem (fun other hoth => constraints_unique hcoh hmem hoth) hkno]
      exact Finset.mem_filter.2 ⟨hall, hinv⟩
    · rw [Config.foldl_query_of_some hkno]
      by_contra hmis
      have hfal := any_eq_false.1 hove con hmem
      simp only [hkno, decide_eq_true_eq] at hfal
      exact hfal ⟨ver, Finset.mem_inter.2 ⟨hava, hall⟩, hinv, hmis⟩

/-- As long as no choice overlooks an invalid version, none is selected. -/
theorem run_selects_valid (config : Config P V) (steps : Nat)
    (hoverlooks : ∀ k < steps, (run config k).overlooks config = false) :
    ∀ p v, toLex (p, v) ∈ (run config steps).resolver.result → config.isKnownInvalid p v = false := by
  have hdec : ∀ con, Term.version con ∈ (run config steps).resolver.solution.decisions →
      ∀ v ∈ con.versions, config.isKnownInvalid con.packageName v = false := by
    induction steps with
    | zero =>
      intro con hmem
      have hroo := decisions_run config (Q := fun t => t = .root true) rfl 0
        (fun k hk => absurd hk (Nat.not_lt_zero k)) _ hmem
      cases hroo
    | succ steps ih =>
      intro con hmem v hv
      rw [run_succ] at hmem
      rcases mem_decisions_of_step (step_spec config _) hmem with
        hmem | ⟨offered, version, hdeci, heq⟩
      · exact ih (fun k hk => hoverlooks k (Nat.lt_succ_of_lt hk)) con hmem v hv
      cases heq
      rw [Finset.mem_singleton.1 hv]
      have hcoh := (tracked_run config steps).coherent
      have hnow := hoverlooks steps (Nat.lt_succ_self steps)
      have hval := isKnownInvalid_eq_false_of_decides hcoh hdeci hnow
      exact hval
  intro p v hmem
  rcases (mem_result _ p v).1 hmem with ⟨con, hde, rfl, hv⟩
  exact hdec con hde v hv

def unfetchable : Config (Fin 1) (Fin 3) where
  dependencies := [(0, {1, 2})]
  graph :=
    { allVersions := fun _ => {1, 2}, fetchDependenciesFor := fun _ v => if v = 2 then none else some [] }
  useLatest := ∅
  locked := fun _ => none
  downgrades := ∅
  overrides := fun _ => none

theorem run_selects_valid_unfetchable :
    (run unfetchable 13).resolver.control = .done ∧ unfetchable.isKnownInvalid 0 2 = true ∧
    toLex (0, 2) ∉ (run unfetchable 13).resolver.result := by
  refine ⟨by decide +kernel, by decide, ?_⟩
  intro hmem
  have hval := run_selects_valid unfetchable 13 (by decide +kernel) 0 2 hmem
  exact absurd hval (by decide)

/-- Version 2 of package 0 needs version 1 of packages 1 and 2, which exclude it.  Version 1 of package
0 allows version 2 of package 1, which cannot be fetched. -/
def widened : Config (Fin 3) (Fin 3) where
  dependencies := [(0, {1, 2})]
  graph :=
    { allVersions := fun p => if p = 2 then {1} else {1, 2}
      fetchDependenciesFor := fun p v =>
        match p, v with
        | 0, 1 => some [(1, {1, 2})]
        | 0, 2 => some [(1, {1}), (2, {1})]
        | 1, 1 => some []
        | 2, 1 => some [(0, {1})]
        | _, _ => none }
  useLatest := ∅
  locked := fun _ => none
  downgrades := ∅
  overrides := fun _ => none

/-- Package 1 is looked at while only its version 1 is allowed.  After the conflict both versions are,
and the one that cannot be fetched is selected. -/
theorem selects_invalid_version :
    (run widened 61).resolver.control = .done ∧ widened.isKnownInvalid 1 2 = true ∧
    toLex (1, 2) ∈ (run widened 61).resolver.result := by
  refine ⟨by decide +kernel, by decide, (mem_result _ 1 2).2 ⟨⟨1, {2}, true, {1, 2}⟩, ?_, rfl, ?_⟩⟩
  · decide +kernel
  · decide

end LazyResolver
end Toolchain.SatResolver
