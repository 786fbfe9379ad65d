import Toolchain.SatResolver.Rules

/-!
# SatResolver.Steps — all a step of the solver can do

`Step config old new` has one constructor for every way the machine goes on, with what was tested on the
way (`step_spec`).  No proof about runs unfolds `step`.
-/

namespace Toolchain.SatResolver
namespace Resolver

variable {P V : Type} [LinearOrder P] [LinearOrder V] {cfg : Config P V} {self : Resolver P V}

structure Offered (resolver : Resolver P V) (constraint : VersionConstraint P V) : Prop where
  choosing : resolver.control = .choose
  unsatisfied : ∃ terms, resolver.solution.unsatisfied = some terms ∧ Term.version constraint ∈ terms

inductive Step (config : Config P V) (old : Resolver P V) : Resolver P V → Prop
  | settle (hcontrol : old.control = .propagate []) : Step config old { old with control := .choose }
  | skip {outcome : Outcome P} {changed : List (Outcome P)}
    (hcontrol : old.control = .propagate (outcome :: changed))
      (houtcome : ∀ subject, outcome ≠ .derived subject) :
      Step config old { old with control := .propagate changed }
  | enter {subject : Subject P} {changed : List (Outcome P)}
      (hcontrol : old.control = .propagate (.derived subject :: changed)) :
      Step config old { old with control := .scan subject 0 changed }
  | leave {subject : Subject P} {next : Nat} {changed : List (Outcome P)}
      (hcontrol : old.control = .scan subject next changed)
      (hend : (old.incompatibilities subject)[next]? = none) :
      Step config old { old with control := .propagate changed }
  | conflict {subject : Subject P} {next : Nat} {changed : List (Outcome P)}
      {incompatibility : Incompatibility P V} (hcontrol : old.control = .scan subject next changed)
      (hnext : (old.incompatibilities subject)[next]? = some incompatibility)
      (hverdict : verdict old.solution none incompatibility.terms = .conflict) :
      Step config old
        { old with control := .resolve incompatibility incompatibility subject next changed }
  | pass {subject : Subject P} {next : Nat} {changed : List (Outcome P)}
      {incompatibility : Incompatibility P V} (hcontrol : old.control = .scan subject next changed)
      (hnext : (old.incompatibilities subject)[next]? = some incompatibility)
      (hverdict : verdict old.solution none incompatibility.terms = .inconclusive) :
      Step config old { old with control := .scan subject (next + 1) changed }
  | derive {subject : Subject P} {next : Nat} {changed : List (Outcome P)}
      {incompatibility : Incompatibility P V} {t : Term P V}
      (hcontrol : old.control = .scan subject next changed)
      (hnext : (old.incompatibilities subject)[next]? = some incompatibility)
      (hverdict : verdict old.solution none incompatibility.terms = .unit t) :
      Step config old
        { old with
          solution := old.solution.derive t.inverse incompatibility
          control := .scan subject (next + 1) (changed ++ [.derived t.subject]) }
  | fail {conflict current : Incompatibility P V} {scanned : Subject P} {next : Nat}
    {changed : List (Outcome P)}
      (hcontrol : old.control = .resolve conflict current scanned next changed)
      (hfailure : current.isFailure = true) (hterms : current.terms ≠ []) :
      Step config old { old with control := .failed current }
  | stuck {conflict current : Incompatibility P V} {scanned : Subject P} {next : Nat}
    {changed : List (Outcome P)}
      (hcontrol : old.control = .resolve conflict current scanned next changed)
      (hfailure : current.isFailure = false ∨ current.terms = [])
      (hresolution : resolution old.solution current = none) :
      Step config old old.crash
  | backjump {conflict current : Incompatibility P V} {scanned : Subject P} {next : Nat}
      {changed : List (Outcome P)} {level : Nat}
      (hcontrol : old.control = .resolve conflict current scanned next changed)
      (hfailure : current.isFailure = false)
      (hresolution : resolution old.solution current = some (.backtrack level)) :
      Step config old (old.backjump level conflict current scanned next changed)
  | replace {conflict current new : Incompatibility P V} {scanned : Subject P} {next : Nat}
    {changed : List (Outcome P)}
      (hcontrol : old.control = .resolve conflict current scanned next changed)
      (hfailure : current.isFailure = false)
      (hresolution : resolution old.solution current = some (.replace new)) :
      Step config old { old with control := .resolve conflict new scanned next changed }
  | lost (hcontrol : old.control = .choose) (hlost : ∀ terms, old.solution.unsatisfied = some terms →
        (∃ t ∈ terms, constraint? t = none) ∨ ∃ constraint, Term.version constraint ∈ terms ∧
            old.shouldUseLatest config constraint.packageName = true ∧
              ¬(config.allVersions constraint.packageName).Nonempty) :
      Step config old old.crash
  | finish (hcontrol : old.control = .choose) (hunsatisfied : old.solution.unsatisfied = some []) :
      Step config old { old with control := .done }
  | useLatest {constraint : VersionConstraint P V} (hoffered : Offered old constraint)
      (hlatest : old.shouldUseLatest config constraint.packageName = true)
      (nonempty : (config.allVersions constraint.packageName).Nonempty) :
      Step config old ({ old with haveUsedLatest := constraint.packageName :: old.haveUsedLatest }.addAbout
          constraint.packageName
          (.external [config.require constraint.packageName
            {(config.allVersions constraint.packageName).max' nonempty}] .useLatest))
  | useLocked {constraint : VersionConstraint P V} {version : V} (hoffered : Offered old constraint)
      (hlatest : old.shouldUseLatest config constraint.packageName = false)
      (hlocked : old.shouldUseLocked config constraint.packageName = true)
      (hversion : config.locked constraint.packageName = some version) :
      Step config old ({ old with haveUsedLocked := constraint.packageName :: old.haveUsedLocked }.addAbout
          constraint.packageName
          (.external [config.require constraint.packageName {version}] .useLocked))
  | noVersions {constraint : VersionConstraint P V} (cause : Cause) (hoffered : Offered old constraint)
      (hnone : ¬(config.validVersionsForPackage constraint).Nonempty) :
      Step config old (old.addAbout constraint.packageName
          (.external [config.require constraint.packageName constraint.versions] cause))
  | decide {constraint : VersionConstraint P V} {version : V} (hoffered : Offered old constraint)
      (hlatest : old.shouldUseLatest config constraint.packageName = false)
      (hlocked : old.shouldUseLocked config constraint.packageName = false)
      (hvalid : version ∈ config.validVersionsForPackage constraint) :
      Step config old (old.decideVersion config constraint.packageName version)
  | halt (hcontrol : old.control = .done ∨ (∃ x, old.control = .failed x) ∨ old.control = .crashed) :
      Step config old old

omit [LinearOrder V] in
lemma shouldUseLocked_eq {p : P} {loc : Option V}
    (h : (cfg.locked p).filter (fun _ => self.shouldUseLocked cfg p) = loc) :
    (loc = none ∧ self.shouldUseLocked cfg p = false) ∨
    ∃ version, loc = some version ∧ cfg.locked p = some version ∧ self.shouldUseLocked cfg p = true := by
  subst h
  rcases hloc : cfg.locked p with _ | version
  · exact .inl ⟨rfl, by simp [shouldUseLocked, hloc]⟩
  · cases hsho : self.shouldUseLocked cfg p with
    | false => exact .inl ⟨by simp, rfl⟩
    | true => exact .inr ⟨version, by simp, rfl, rfl⟩

lemma step_choosePackage (cfg : Config P V) {con : VersionConstraint P V} (hoff : Offered self con) :
    (∃ terms, self.solution.unsatisfied = some terms ∧ Term.version con ∈ terms ∧
    self.shouldUseLatest cfg con.packageName = true ∧
    ¬(cfg.allVersions con.packageName).Nonempty ∧ self.choosePackage cfg con = self.crash) ∨
    Step cfg self (self.choosePackage cfg con) := by
  unfold choosePackage
  simp only
  cases hlat : self.shouldUseLatest cfg con.packageName with
  | true =>
    rw [if_pos rfl]
    split
    · rename_i non
      exact .inr (.useLatest hoff hlat non)
    · rename_i hemp
      rcases hoff.unsatisfied with ⟨terms, hter, hmem⟩
      exact .inl ⟨terms, hter, hmem, rfl, hemp, rfl⟩
  | false =>
    right
    rw [if_neg Bool.false_ne_true]
    split
    · rename_i version hfil
      rcases shouldUseLocked_eq hfil with ⟨hnon, _⟩ | ⟨_, hsom, hver, hloc⟩
      · cases hnon
      · cases hsom
        exact .useLocked hoff hlat hloc hver
    · rename_i hfil
      rcases shouldUseLocked_eq hfil with ⟨_, hloc⟩ | ⟨_, hsom, _⟩
      · split
        · rename_i non
          exact .decide hoff hlat hloc (Config.bestVersionForPackage_mem _ non)
        · rename_i hnon
          exact .noVersions _ hoff hnon
      · cases hsom

lemma step_choose (hcon : self.control = .choose) : Step cfg self (self.choosePackageVersion cfg) := by
  unfold choosePackageVersion
  rcases hter : self.solution.unsatisfied with _ | _ | ⟨first, rest⟩
  · exact .lost hcon fun terms h => by rw [hter] at h; cases h
  · exact .finish hcon hter
  simp only
  rcases hcons : (first :: rest).mapM constraint? with _ | constraints
  · refine .lost hcon fun terms h => ?_
    obtain rfl : first :: rest = terms := by
      rw [hter] at h
      exact Option.some.inj h
    exact .inl (Lib.exists_of_mapM_eq_none hcons)
  · simp only
    split
    · rename_i hbes
      -- there is a best package among any number but none
      have hnil := List.argmin_eq_none.1 hbes
      subst hnil
      have hfor := Lib.forall₂_of_mapM_eq_some hcons
      cases hfor
    · rename_i constraint hbes
      have hmem := mem_of_mapM_constraint hcons (List.argmin_mem hbes)
      have hoff : Offered self constraint := { choosing := hcon, unsatisfied := ⟨_, hter, hmem⟩ }
      rcases step_choosePackage cfg hoff with
        ⟨terms, hsom, hmem, hlat, hemp, heq⟩ | hste
      · rw [heq]
        refine .lost hcon fun terms' h => .inr ⟨constraint, ?_, hlat, hemp⟩
        rw [hsom] at h
        cases h
        exact hmem
      · exact hste

lemma resolution_of_nil (solution : PartialSolution P V) {current : Incompatibility P V}
    (hnil : current.terms = []) : resolution solution current = none := by
  simp [resolution, mostRecentlySatisfied, hnil]

lemma step_spec (cfg : Config P V) (self : Resolver P V) : Step cfg self (self.step cfg) := by
  unfold step
  cases hcon : self.control with
  | propagate chan =>
    rcases chan with _ | ⟨_ | _ | subject, chan⟩
    · exact .settle hcon
    · exact .skip hcon (by simp)
    · exact .skip hcon (by simp)
    · exact .enter hcon
  | scan subject next chan =>
    simp only
    rcases hnex : (self.incompatibilities subject)[next]? with _ | inc
    · exact .leave hcon hnex
    simp only [propagateIncompatibility]
    cases hver : verdict self.solution none inc.terms with
    | conflict => exact .conflict hcon hnex hver
    | inconclusive => exact .pass hcon hnex hver
    | unit t => exact .derive hcon hnex hver
  | resolve conflict cur sca next chan =>
    simp only
    split
    · rename_i hfai
      split
      · rename_i hnil
        exact .stuck hcon (.inr hnil) (resolution_of_nil _ hnil)
      · rename_i hter
        exact .fail hcon hfai hter
    rename_i hfai
    have hfai : cur.isFailure = false := by simpa using hfai
    rcases hres : resolution self.solution cur with _ | level | new
    · exact .stuck hcon (.inl hfai) hres
    · exact .backjump hcon hfai hres
    · exact .replace hcon hfai hres
  | choose => exact step_choose hcon
  | done => exact .halt (.inl hcon)
  | failed x => exact .halt (.inr (.inl ⟨x, hcon⟩))
  | crashed => exact .halt (.inr (.inr hcon))

lemma run_induction (cfg : Config P V) {I : Resolver P V → Prop} (hroo : I (setupRoot cfg))
    (hste : ∀ old new, I old → Step cfg old new → I new) (sts : Nat) :
    I (run cfg sts) := by
  induction sts with
  | zero => exact hroo
  | succ sts ih =>
    rw [run, Function.iterate_succ_apply']
    exact hste _ _ ih (step_spec cfg _)

end Resolver
end Toolchain.SatResolver
