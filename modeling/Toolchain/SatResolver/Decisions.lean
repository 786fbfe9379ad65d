import Toolchain.SatResolver.Validity

/-!
# SatResolver.Decisions — which decisions a run makes

`Decides` says all that holds where a version is decided for, and a step makes no other decision
(`mem_decisions_of_step`), also where versions depend on their own package.  Such a dependency is a
conflict when the version is listed, but it is listed once: the next choice may fall on it again and
decides for it.
-/

namespace Toolchain.SatResolver

open List PartialSolution Config

namespace Resolver

variable {P V : Type} [LinearOrder P] [LinearOrder V] {cfg : Config P V} {self : Resolver P V}
  {t : Term P V}

/-! ## Where decisions are made -/

structure Decides (config : Config P V) (resolver : Resolver P V)
    (constraint : VersionConstraint P V) (version : V) : Prop where
  offered : Offered resolver constraint
  latest : resolver.shouldUseLatest config constraint.packageName = false
  locked : resolver.shouldUseLocked config constraint.packageName = false
  valid : version ∈ config.validVersionsForPackage constraint
  noConflict : (resolver.incompatibilitiesFor config (.version constraint.packageName version)).any
    (isConflict resolver.solution) = false

lemma decisions_propagate (sol : PartialSolution P V) (inc : Incompatibility P V) :
    (propagateIncompatibility sol inc).2.decisions = sol.decisions := by
  rcases propagate_cases sol inc with heq | ⟨_, _, _, _, heq⟩
  · rw [heq]
  · rw [heq]
    rfl

omit [LinearOrder V] in
lemma mem_decisions_of_backtrack [DecidableEq V] {sol : PartialSolution P V} {lvl : Nat}
    (h : t ∈ (sol.backtrack lvl).decisions) : t ∈ sol.decisions :=
  (mem_filter.1 h).1

lemma mem_decisions_of_step {old new : Resolver P V} (hste : Step cfg old new)
    (h : t ∈ new.solution.decisions) :
    t ∈ old.solution.decisions ∨ ∃ con version, Decides cfg old con version ∧
    t = cfg.require con.packageName {version} := by
  cases hste with
  | backjump hcont hfai hres =>
    simp only [backjump] at h
    rw [decisions_propagate] at h
    exact .inl (mem_decisions_of_backtrack h)
  | @decide con version hoff hlat hloc hval =>
    unfold decideVersion at h
    simp only at h
    split at h
    · exact .inl h
    rename_i hcon
    rcases mem_append.1 h with h | h
    · exact .inl (mem_filter.1 h).1
    obtain rfl := mem_singleton.1 h
    exact .inr ⟨con, version,
      { offered := hoff, latest := hlat, locked := hloc, valid := hval
        noConflict := by simpa using hcon }, rfl⟩
  | _ => exact .inl h

lemma decisions_run (cfg : Config P V) {Q : Term P V → Prop} (hroo : Q (.root true)) (sts : Nat)
    (hdec : ∀ k < sts, ∀ con version, Decides cfg (run cfg k) con version →
      Q (cfg.require con.packageName {version})) :
    ∀ u ∈ (run cfg sts).solution.decisions, Q u := by
  induction sts with
  | zero =>
    intro u hu
    rw [run, Function.iterate_zero, id_eq, solution_root] at hu
    obtain rfl : u = .root true := by simpa [PartialSolution.decide, PartialSolution.append, empty]
      using hu
    exact hroo
  | succ sts ih =>
    intro u hu
    rw [run, Function.iterate_succ_apply'] at hu
    rcases mem_decisions_of_step (step_spec cfg _) hu with hu | ⟨con, version, hdeci, rfl⟩
    · exact ih (fun k hk => hdec k (Nat.lt_succ_of_lt hk)) u hu
    · exact hdec sts (Nat.lt_succ_self sts) con version hdeci

/-! ## Versions that exclude themselves -/

/-- The version depends on its own package, at other versions only. -/
def SelfExcluding (config : Config P V) (p : P) (v : V) : Prop :=
  ∃ dependency ∈ config.dependenciesFor (.version p v), dependency.1 = p ∧ v ∉ config.pinned dependency

instance (config : Config P V) (p : P) (v : V) : Decidable (SelfExcluding config p v) :=
  inferInstanceAs (Decidable (∃ dependency ∈ config.dependenciesFor (.version p v),
    dependency.1 = p ∧ v ∉ config.pinned dependency))

def RespectsSelfDependencies (config : Config P V) (versions : List (P ×ₗ V)) : Prop :=
  ∀ p v, toLex (p, v) ∈ versions → ∀ dependency ∈ config.dependenciesFor (.version p v),
    dependency.1 = p → v ∈ config.pinned dependency

/-- A choice is to be made, and a version that excludes itself and has been listed before is still
among those an undecided package may have. -/
def offersListed (config : Config P V) (self : Resolver P V) : Bool :=
  match self.control with
  | .choose =>
    ((self.solution.unsatisfied.getD []).filterMap constraint?).any fun constraint =>
      decide (∃ v ∈ config.validVersionsForPackage constraint,
        .version constraint.packageName v ∈ self.haveListedIncompatibilities ∧
          SelfExcluding config constraint.packageName v)
  | _ => false

lemma Decides.not_selfExcluding {con : VersionConstraint P V} {version : V}
    (h : Decides cfg self con version) (hoff : self.offersListed cfg = false) :
    ¬SelfExcluding cfg con.packageName version := by
  rintro ⟨dependency, hdep, hsel, hexc⟩
  by_cases hlis : .version con.packageName version ∈ self.haveListedIncompatibilities
  · rcases h.offered.unsatisfied with ⟨terms, hter, hmem⟩
    have hfal : ¬∃ v ∈ cfg.validVersionsForPackage con,
      .version con.packageName v ∈ self.haveListedIncompatibilities ∧
        SelfExcluding cfg con.packageName v := by
      unfold offersListed at hoff
      simp only [h.offered.choosing, hter, Option.getD_some, any_eq_false] at hoff
      have hcons : con ∈ terms.filterMap constraint? := mem_filterMap.2 ⟨_, hmem, rfl⟩
      simpa using hoff con hcons
    exact hfal ⟨version, h.valid, hlis, dependency, hdep, hsel, hexc⟩
  · -- listed for the first time, the version is not decided for
    have hcon := h.noConflict
    rw [incompatibilitiesFor, if_neg hlis, any_eq_false] at hcon
    apply hcon _ (mem_map_of_mem hdep)
    simp [isConflict, dependencyIncompatibility, Incompatibility.terms, dependeeTerm, require,
      exclude, Term.subject,
      hsel]

lemma mem_result (self : Resolver P V) (p : P) (v : V) : toLex (p, v) ∈ self.result ↔
    ∃ constraint, Term.version constraint ∈ self.solution.decisions ∧
    constraint.packageName = p ∧ v ∈ constraint.versions := by
  unfold result
  rw [Finset.mem_sort, mem_foldr_versions]
  constructor
  · rintro ⟨constraint, hmem, hp, hv⟩
    rcases mem_filterMap.1 hmem with ⟨term, hter, hsom⟩
    cases term with
    | version c =>
      obtain rfl : c = constraint := by simpa [constraint?] using hsom
      exact ⟨c, hter, hp, hv⟩
    | root b => simp [constraint?] at hsom
  · rintro ⟨constraint, hmem, hp, hv⟩
    exact ⟨constraint, mem_filterMap.2 ⟨_, hmem, rfl⟩, hp, hv⟩

lemma result_run (cfg : Config P V) {Q : P → V → Prop} (sts : Nat)
    (hdec : ∀ k < sts, ∀ con version, Decides cfg (run cfg k) con version →
    Q con.packageName version) {p : P} {v : V} (h : toLex (p, v) ∈ (run cfg sts).result) :
    Q p v := by
  have hall := decisions_run cfg (Q := fun t => ∀ c, t = .version c → ∀ w ∈ c.versions,
    Q c.packageName w) (by simp) sts
    (by
      intro k hk con version hdeci c hc w hw
      cases hc
      rw [Finset.mem_singleton.1 hw]
      exact hdec k hk con version hdeci)
  rcases (mem_result _ p v).1 h with ⟨con, hmem, rfl, hv⟩
  exact hall _ hmem con rfl v hv

/-- As long as no choice offers a version that excludes itself a second time, none is selected. -/
theorem run_respects_selfDependencies (config : Config P V) (steps : Nat)
    (hoffers : ∀ k < steps, (run config k).offersListed config = false) :
    RespectsSelfDependencies config (run config steps).result := by
  intro p v hmem dependency hdep hsel
  have hnot :=
    result_run config (Q := fun p v => ¬SelfExcluding config p v) steps
      (fun k hk _ _ hdec => hdec.not_selfExcluding (hoffers k hk)) hmem
  by_contra hv
  exact hnot ⟨dependency, hdep, hsel, hv⟩

def excluded : Config (Fin 1) (Fin 3) where
  dependencies := [(0, {1, 2})]
  graph :=
    { allVersions := fun _ => {0, 1, 2}
      fetchDependenciesFor := fun _ v => if v = 2 then some [(0, {0})] else some [] }
  useLatest := ∅
  locked := fun _ => none
  downgrades := ∅
  overrides := fun _ => none

theorem run_respects_selfDependencies_excluded :
    (run excluded 27).control = .done ∧ (run excluded 27).result = [toLex (0, 1)] ∧
    RespectsSelfDependencies excluded (run excluded 27).result :=
  ⟨by decide +kernel, by decide +kernel, run_respects_selfDependencies excluded 27 (by decide +kernel)⟩

def reselected : Config (Fin 1) (Fin 2) where
  dependencies := [(0, {0, 1})]
  graph :=
    { allVersions := fun _ => {0, 1}
      fetchDependenciesFor := fun _ v => if v = 1 then some [(0, {0})] else some [] }
  useLatest := ∅
  locked := fun _ => none
  downgrades := ∅
  overrides := fun _ => none

/-- Version 1 is selected although it requires version 0 of its own package: its dependency leaves two
terms open. -/
theorem selects_version_excluding_itself :
    (run reselected 26).control = .done ∧ (run reselected 26).result = [toLex (0, 1)] ∧
      SelfExcluding reselected 0 1 ∧
    ¬RespectsSelfDependencies reselected (run reselected 26).result := by
  have hres : (run reselected 26).result = [toLex (0, 1)] := by decide +kernel
  refine ⟨by decide +kernel, hres, by decide, ?_⟩
  intro h
  have hmem := h 0 1 (by rw [hres]; exact mem_singleton_self _) (0, {0}) (by decide) rfl
  exact absurd hmem (by decide)

end Resolver
end Toolchain.SatResolver
