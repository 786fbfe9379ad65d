import Toolchain.SatResolver.Steps

/-!
# SatResolver.Invariant — properties of all incompatibilities of a run

`Upholds config Q` says that the partial solution is coherent and that every incompatibility of a
state satisfies `Q`.  If `Q` holds of what the graph and the preferences give rise to (`Grounded`)
and of what conflict resolution derives, then every step keeps it (`upholds_step`).
-/

namespace Toolchain.SatResolver.Resolver

open Lib List Config Assignment PartialSolution VersionConstraint

variable {P V : Type} [LinearOrder P] [LinearOrder V] {config : Config P V} {self new : Resolver P V}
  {Q : Incompatibility P V → Prop} {constraint : VersionConstraint P V} {version : V}

/-! ## What a step does to the solution -/

lemma solution_list (packageVersion : PackageVersion P V) :
    (self.listIncompatibilities config packageVersion).solution = self.solution :=
  (extends_foldl_add self (self.incompatibilitiesFor config packageVersion)).solution_eq

lemma solution_root (config : Config P V) :
    (setupRoot config).solution = (empty : PartialSolution P V).decide (.root true) := by
  unfold setupRoot
  simp only [solution_list]

lemma control_root (config : Config P V) :
    (setupRoot config).control = .propagate [.derived .root] :=
  (extends_foldl_add _ _).control_eq

lemma decide_assigned (solution : PartialSolution P V) (t : Term P V) :
    (solution.decide t).assignments = solution.assignments ++
      [{ term := t, decisionLevel := (solution.decide t).decisionLevel
         index := solution.assignments.length, cause := none }] := rfl

lemma coherent_decide_version {solution : PartialSolution P V}
    (h : solution.Coherent config.allVersions) (hundecided : Undecided solution constraint)
    (hvalid : version ∈ config.validVersionsForPackage constraint) :
    (solution.decide (config.require constraint.packageName {version})).Coherent
      config.allVersions := by
  have hmem : version ∈ config.allVersions constraint.packageName ∧
      version ∈ constraint.versions := by
    unfold validVersionsForPackage at hvalid
    rcases Finset.mem_inter.1 hvalid with ⟨hall, hversion⟩
    exact ⟨(Finset.mem_filter.1 hall).1, hversion⟩
  have haccum := hundecided.terms_eq
  rw [h.terms_eq] at haccum
  have hover : constraint.allVersions = config.allVersions constraint.packageName :=
    (accum_over h.grown haccum).1
  refine h.decide (config.require_over _ _) ⟨rfl, version, hmem.1, rfl⟩ hundecided.undecided ?_
  -- the version is among those the assignments of the package allow
  change ∃ new, narrow (solution.terms (.package constraint.packageName)) _ = some new
  rw [hundecided.terms_eq]
  have hinter : constraint.allowedVersions ∩ (allowedVersions
        { packageName := constraint.packageName, versions := {version}, isPositive := true
          allVersions := config.allVersions constraint.packageName }) ≠ ∅ := by
    refine Finset.nonempty_iff_ne_empty.1 ⟨version, ?_⟩
    simp [allowedVersions, hundecided.positive, hover, hmem.1, hmem.2]
  simp [narrow, require, Term.intersect, intersect, hundecided.positive, hinter]

lemma Offered.undecided {all : P → Finset V} (h : Offered self constraint)
    (hcoherent : self.solution.Coherent all) : Undecided self.solution constraint := by
  rcases h.unsatisfied with ⟨terms, hterms, hmem⟩
  exact undecided_of_mem hcoherent hterms hmem

/-! ## The invariant -/

/-- The partial solution is coherent, and every incompatibility of the state satisfies `Q`.  The one
being resolved is the conflict that was found, or has been derived from it. -/
structure Upholds (config : Config P V) (Q : Incompatibility P V → Prop) (resolver : Resolver P V) :
    Prop where
  coherent : resolver.solution.Coherent config.allVersions
  stored : ∀ subject, ∀ x ∈ resolver.incompatibilities subject, Q x
  causes : ∀ a ∈ resolver.solution.assignments, ∀ cause, a.cause = some cause →
    Q cause ∧ ∃ t ∈ cause.terms, a.term = t.inverse
  resolving : ∀ conflict current scanned next changed,
    resolver.control = .resolve conflict current scanned next changed → Q current ∧
      (current = conflict ∨ (∃ terms first second, current = .derived terms first second) ∧
        current.WellFormed config.allVersions)
  failed : ∀ x, resolver.control = .failed x → Q x ∧ x.isFailure = true

/-- Some incompatibility with the property has a term about the package. -/
def Mentions (Q : Incompatibility P V → Prop) (p : P) : Prop :=
  ∃ x, Q x ∧ ∃ t ∈ x.terms, t.subject = .package p

/-- Why the solver forbids versions of a package: by a preference, or since no version is left. -/
def Motivated (config : Config P V) (constraint : VersionConstraint P V) (versions : Finset V) : Prop :=
  (∃ v, versions = {v} ∧
      (constraint.packageName ∈ config.useLatest ∨ config.locked constraint.packageName = some v)) ∨
    versions = constraint.versions ∧ ¬(config.validVersionsForPackage constraint).Nonempty

/-- `Q` holds of the incompatibilities that the graph and the preferences give rise to. -/
structure Grounded (config : Config P V) (Q : Incompatibility P V → Prop) : Prop where
  isOver : ∀ x, Q x → ∀ t ∈ x.terms, t.Over config.allVersions
  root : ∀ dependency ∈ config.dependenciesFor .root,
    Q (config.dependencyIncompatibility .root dependency)
  version : ∀ p v, Mentions Q p → v ∈ config.allVersions p →
    ∀ dependency ∈ config.dependenciesFor (.version p v),
      Q (config.dependencyIncompatibility (.version p v) dependency)
  require : ∀ constraint versions cause, Mentions Q constraint.packageName →
    Motivated config constraint versions →
      Q (.external [config.require constraint.packageName versions] cause)

section

variable (h : Upholds config Q self)

include h

lemma Upholds.setControl {control : Control P V}
    (hresolve : ∀ conflict current scanned next changed,
      control ≠ .resolve conflict current scanned next changed)
    (hfailed : ∀ x, control ≠ .failed x) : Upholds config Q { self with control := control } :=
  { h with
    resolving := fun _ _ _ _ _ hcontrol => absurd hcontrol (hresolve _ _ _ _ _)
    failed := fun _ hcontrol => absurd hcontrol (hfailed _) }

lemma Upholds.extend {added : List (Incompatibility P V)} (hext : Extends self new added)
    (hadded : ∀ x ∈ added, Q x) : Upholds config Q new where
  coherent := hext.solution_eq ▸ h.coherent
  stored subject x hx := by
    rcases hext.only subject x hx with hx | hx
    · exact h.stored subject x hx
    · exact hadded x hx
  causes := hext.solution_eq ▸ h.causes
  resolving := hext.control_eq ▸ h.resolving
  failed := hext.control_eq ▸ h.failed

lemma Upholds.of_allVersions_eq {other : Config P V} (hall : other.allVersions = config.allVersions) :
    Upholds other Q self where
  coherent := hall ▸ h.coherent
  stored := h.stored
  causes := h.causes
  resolving := hall ▸ h.resolving
  failed := h.failed

/-- What has been derived about a package that is offered comes from an incompatibility. -/
lemma Upholds.mentions (hoffered : Offered self constraint) : Mentions Q constraint.packageName := by
  have hundecided := hoffered.undecided h.coherent
  have hterms := hundecided.terms_eq
  rw [h.coherent.terms_eq] at hterms
  rcases exists_mem_of_accum hterms with ⟨a, ha, hsubject⟩
  rcases hcause : a.cause with _ | cause
  · have hdecided := (h.coherent.isDecided_iff (.package constraint.packageName)).2
      ⟨a, ha, by simp [isDecision, hcause], hsubject⟩
    rw [hundecided.undecided] at hdecided
    cases hdecided
  · rcases h.causes a ha cause hcause with ⟨hQ, t, ht, hterm⟩
    exact ⟨cause, hQ, t, ht, by rw [← hsubject, subject, hterm, Term.subject_inverse]⟩

lemma Upholds.backtrack {level : Nat} (hlevel : 1 ≤ level) :
    Upholds config Q { self with solution := self.solution.backtrack level } :=
  { h with
    coherent := h.coherent.backtrack hlevel
    causes := fun a ha => h.causes a ((h.coherent.mem_upTo level a).1 ha).1 }

lemma Upholds.addAbout {inc : Incompatibility P V} (hinc : Q inc) (p : P) :
    Upholds config Q (self.addAbout p inc) := by
  have hadded := h.extend (extends_add self inc) (by simpa using hinc)
  exact hadded.setControl (by simp) (by simp)

end

section

variable (hground : Grounded config Q)

include hground

lemma Upholds.propagate (h : Upholds config Q self) {inc : Incompatibility P V} (hinc : Q inc) :
    Upholds config Q { self with solution := (propagateIncompatibility self.solution inc).2 } :=
  { h with
    coherent := propagate_coherent h.coherent (hground.isOver inc hinc)
    causes := by
      intro a ha cause hcause
      rcases mem_propagate ha with ha | ⟨t, ht, hterm, hderived⟩
      · exact h.causes a ha cause hcause
      · rw [hderived] at hcause
        cases hcause
        exact ⟨hinc, t, ht, hterm⟩ }

lemma upholds_root : Upholds config Q (setupRoot config) := by
  have hsolution := solution_root config
  have hcontrol := control_root config
  refine
    { coherent := hsolution ▸ coherent_root, stored := ?_, causes := ?_
      resolving := by simp [hcontrol], failed := by simp [hcontrol] }
  · intro subject x hx
    rcases (extends_foldl_add _ _).only subject x hx with hx | hx
    · cases hx
    · rcases mem_map.1 hx with ⟨dependency, hdependency, rfl⟩
      exact hground.root dependency hdependency
  · intro a ha cause hcause
    rw [hsolution] at ha
    obtain rfl := mem_singleton.1 ha
    cases hcause

lemma Upholds.decideVersion (h : Upholds config Q self) (hoffered : Offered self constraint)
    (hvalid : version ∈ config.validVersionsForPackage constraint) :
    Upholds config Q (self.decideVersion config constraint.packageName version) := by
  have havailable := (Finset.mem_filter.1 (Finset.mem_inter.1 hvalid).1).1
  have hlisted := h.extend (extends_foldl_add self
    (self.incompatibilitiesFor config (.version constraint.packageName version))) (by
      intro x hx
      unfold incompatibilitiesFor at hx
      split at hx
      · cases hx
      · rcases mem_map.1 hx with ⟨dependency, hdependency, rfl⟩
        exact hground.version _ _ (h.mentions hoffered) havailable dependency hdependency)
  unfold Resolver.decideVersion
  simp only
  split
  · exact
      { hlisted with
        coherent := h.coherent, causes := h.causes, resolving := by simp, failed := by simp }
  refine
    { hlisted with
      coherent := coherent_decide_version h.coherent (hoffered.undecided h.coherent) hvalid
      causes := ?_, resolving := by simp, failed := by simp }
  intro a ha cause hcause
  rcases mem_append.1 (decide_assigned self.solution _ ▸ ha) with ha | ha
  · exact h.causes a ha cause hcause
  · rw [mem_singleton.1 ha] at hcause
    cases hcause

variable {conflict current derived : Incompatibility P V} {scanned : Subject P} {next : Nat}
  {changed : List (Outcome P)}

lemma Upholds.backjump (h : Upholds config Q self) {level : Nat} (hlevel : 1 ≤ level)
    (hcurrent : Q current) :
    Upholds config Q (self.backjump level conflict current scanned next changed) := by
  have hpropagated := (h.backtrack hlevel).propagate hground hcurrent
  unfold Resolver.backjump
  simp only
  split
  · have hlearned := hpropagated.extend (extends_add _ current) (by simpa using hcurrent)
    exact hlearned.setControl (by simp) (by simp)
  · exact hpropagated.setControl (by simp) (by simp)

lemma Upholds.replace_wf (h : Upholds config Q self)
    (hcontrol : self.control = .resolve conflict current scanned next changed)
    (hresolution : resolution self.solution current = some (.replace derived)) :
    derived.WellFormed config.allVersions := by
  rcases resolution_replace hresolution with ⟨last, _, cause, hlast, hcause, hderived⟩
  have hmem := mem_of_satisfier_eq_some ((recent_eq_some hlast).2.1 last (by simp))
  rcases h.causes last.2 hmem cause hcause with ⟨hQ, t, ht, hterm⟩
  rw [hterm] at hderived
  exact fromConflict_wf (hground.isOver _ (h.resolving _ _ _ _ _ hcontrol).1) (hground.isOver _ hQ)
    (hground.isOver _ hQ t ht).inverse hderived

/-- A step keeps a property that holds of what it derives, if it derives something. -/
lemma upholds_step {old : Resolver P V} (h : Upholds config Q old)
    (hderives : ∀ conflict current derived scanned next changed,
      old.control = .resolve conflict current scanned next changed →
        resolution old.solution current = some (.replace derived) → Q derived)
    (hstep : Step config old new) : Upholds config Q new := by
  cases hstep with
  | conflict hcontrol hnext hverdict =>
    refine { h with resolving := ?_, failed := by simp }
    intro _ _ _ _ _ heq
    cases heq
    exact ⟨h.stored _ _ (mem_of_getElem? hnext), .inl rfl⟩
  | derive hcontrol hnext hverdict =>
    have hpropagated := h.propagate hground (h.stored _ _ (mem_of_getElem? hnext))
    simp only [propagateIncompatibility, hverdict] at hpropagated
    exact hpropagated.setControl (by simp) (by simp)
  | fail hcontrol hfailure hterms =>
    refine { h with resolving := by simp, failed := ?_ }
    intro _ heq
    cases heq
    exact ⟨(h.resolving _ _ _ _ _ hcontrol).1, hfailure⟩
  | backjump hcontrol hfailure hresolution =>
    exact h.backjump hground (one_le_of_resolution h.coherent hresolution)
      (h.resolving _ _ _ _ _ hcontrol).1
  | replace hcontrol hfailure hresolution =>
    have hwellFormed := h.replace_wf hground hcontrol hresolution
    rcases resolution_replace hresolution with ⟨_, _, _, _, _, hderived⟩
    refine { h with resolving := ?_, failed := by simp }
    intro _ _ _ _ _ heq
    cases heq
    rcases Option.map_eq_some_iff.1 hderived with ⟨terms, _, rfl⟩
    exact ⟨hderives _ _ _ _ _ _ hcontrol hresolution, .inr ⟨⟨_, _, _, rfl⟩, hwellFormed⟩⟩
  | useLatest hoffered hlatest nonempty =>
    have hwish := of_decide_eq_true (Bool.and_eq_true_iff.1 hlatest).1
    exact { h.addAbout (hground.require _ _ _ (h.mentions hoffered) (.inl ⟨_, rfl, .inl hwish⟩)) _ with }
  | useLocked hoffered hlatest hlocked hversion =>
    exact { h.addAbout
      (hground.require _ _ _ (h.mentions hoffered) (.inl ⟨_, rfl, .inr hversion⟩)) _ with }
  | noVersions cause hoffered hnone =>
    exact h.addAbout (hground.require _ _ _ (h.mentions hoffered) (.inr ⟨rfl, hnone⟩)) _
  | decide hoffered hlatest hlocked hvalid => exact h.decideVersion hground hoffered hvalid
  | halt hcontrol => exact h
  | _ => exact h.setControl (by simp) (by simp)

end

/-! ## Properties of all terms -/

section

variable {Q : Term P V → Prop}

/-- The terms of listed dependencies have the property, and those made of terms that have it. -/
structure Stable (config : Config P V) (Q : Term P V → Prop) : Prop where
  isOver : ∀ t, Q t → t.Over config.allVersions
  intersect : ∀ a b c, Q a → Q b → a.subject = b.subject → a.intersect b = some c → Q c
  difference : ∀ a b d, Q a → a.inverse.difference b = some d → Q d.inverse
  root : ∀ dependency ∈ config.dependenciesFor .root,
    ∀ t ∈ (config.dependencyIncompatibility .root dependency).terms, Q t
  version : ∀ p v, (∃ t, Q t ∧ t.subject = .package p) → v ∈ config.allVersions p →
    ∀ dependency ∈ config.dependenciesFor (.version p v),
      ∀ t ∈ (config.dependencyIncompatibility (.version p v) dependency).terms, Q t
  require : ∀ p versions, (∃ t, Q t ∧ t.subject = .package p) → Q (config.require p versions)

/-- Every term of the incompatibilities of a state has the property. -/
abbrev Tracked (config : Config P V) (Q : Term P V → Prop) (resolver : Resolver P V) : Prop :=
  Upholds config (fun x => ∀ t ∈ x.terms, Q t) resolver

section

variable (hsta : Stable config Q)

include hsta

omit [LinearOrder P] in
lemma Stable.grounded : Grounded config fun x => ∀ t ∈ x.terms, Q t where
  isOver x hx t ht := hsta.isOver t (hx t ht)
  root := hsta.root
  version p v hp := by
    rcases hp with ⟨x, hx, t, ht, hsub⟩
    exact hsta.version p v ⟨t, hx t ht, hsub⟩
  require con vers cause hp _ := by
    rcases hp with ⟨x, hx, t, ht, hsub⟩
    simpa [Incompatibility.terms] using hsta.require con.packageName vers ⟨t, hx t ht, hsub⟩

lemma tracked_root : Tracked config Q (setupRoot config) := upholds_root hsta.grounded

lemma Tracked.replace (h : Tracked config Q self) {conf cur new : Incompatibility P V}
    {sca : Subject P} {next : Nat}
    {chan : List (Outcome P)}
    (hcon : self.control = .resolve conf cur sca next chan)
    (hres : resolution self.solution cur = some (.replace new)) : ∀ t ∈ new.terms, Q t := by
  rcases resolution_replace hres with ⟨last, ear, cause, hlas, hcau, hnew⟩
  have hmem := PartialSolution.mem_of_satisfier_eq_some ((recent_eq_some hlas).2.1 last (by simp))
  have hcur := (h.resolving _ _ _ _ _ hcon).1
  rcases h.causes last.2 hmem cause hcau with ⟨hcat, u, hu, hterm⟩
  rw [hterm] at hnew
  rcases Option.map_eq_some_iff.1 hnew with ⟨terms, hter, rfl⟩
  refine foldlM_mergeTerm_forall hsta.intersect (by simp) ?_ hter
  intro t ht
  rcases mem_newTerms.1 ht with ⟨ht, _⟩ | ⟨ht, _⟩ | ⟨d, hd, rfl⟩
  · exact hcur t ht
  · exact hcat t ht
  · exact hsta.difference u _ d (hcat u hu) hd

lemma tracked_step {old new : Resolver P V} (h : Tracked config Q old) (hste : Step config old new) :
    Tracked config Q new :=
  upholds_step hsta.grounded h (fun _ _ _ _ _ _ => h.replace hsta) hste

lemma tracked_run (sts : Nat) : Tracked config Q (run config sts) :=
  run_induction config (tracked_root hsta) (fun _ _ => tracked_step hsta) sts

end

omit [LinearOrder P] in
lemma stable_over (cfg : Config P V) : Stable cfg (Term.Over cfg.allVersions) where
  isOver _ ht := ht
  intersect _ _ _ ha hb hsub h := (ha.intersect hb hsub h).1
  difference _ _ _ ha hd := (ha.inverse.difference hd).1.inverse
  root dependency _ := Config.dep_over .root dependency
  version _ _ _ _ dependency _ := Config.dep_over _ dependency
  require p vers _ := cfg.require_over p vers

end

end Toolchain.SatResolver.Resolver
