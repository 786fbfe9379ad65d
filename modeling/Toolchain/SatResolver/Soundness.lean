import Toolchain.SatResolver.Validity

/-!
# SatResolver.Soundness — what an incompatibility says, and when it is true

An incompatibility is true if no solution satisfies all its terms.  Those from the graph are; conflict
resolution rests on `difference`, which forgets that a negative term also holds of an absent package
(`losesAbsence`), so that a false one may follow (`stores_false_incompatibility`).  In runs without such a
step all are true.
-/

namespace Toolchain.SatResolver

open Lib List Config Incompatibility VersionConstraint Term

/-! ## The meaning of terms -/

/-- A positive term holds if the package is present at one of its versions, a negative one if the
package is absent or at another version. -/
def Term.Holds {P V : Type} (selection : P → Option V) : Term P V → Prop
  | .version constraint =>
    if constraint.isPositive then
      ∃ v ∈ constraint.versions, selection constraint.packageName = some v
    else
      ∀ v ∈ constraint.versions, selection constraint.packageName ≠ some v
  | .root isPositive => isPositive = true

/-- A selection of versions the graph has fetched that meets all dependencies. -/
structure Solution {P V : Type} (config : Config P V) (selection : P → Option V) : Prop where
  available : ∀ p v, selection p = some v → v ∈ config.allVersions p
  valid : ∀ p v, selection p = some v → config.isKnownInvalid p v = false
  root : ∀ dependency ∈ config.dependenciesFor .root, ∃ w ∈ config.pinned dependency,
    selection dependency.1 = some w
  met : ∀ p v, selection p = some v → ∀ dependency ∈ config.dependenciesFor (.version p v),
    ∃ w ∈ config.pinned dependency, selection dependency.1 = some w

def Incompatibility.IsTrue {P V : Type} (config : Config P V)
    (incompatibility : Incompatibility P V) : Prop :=
  ∀ selection, Solution config selection → ¬∀ t ∈ incompatibility.terms, t.Holds selection

section Meaning

variable {P V : Type} {config cfg : Config P V} {selection sel : P → Option V} {a b c t : Term P V}

variable {x : VersionConstraint P V}

namespace Term

lemma holds_inverse (selection : P → Option V) (t : Term P V) :
    t.inverse.Holds selection ↔ ¬t.Holds selection := by
  cases t with
  | version x =>
    cases hpos : x.isPositive with
    | true | false => simp [inverse, VersionConstraint.inverse, Holds, hpos]
  | root b => simp [inverse, Holds]

lemma holds_version_of_none (hsel : sel x.packageName = none) :
    (version x).Holds sel ↔ x.isPositive = false := by
  cases hpos : x.isPositive with
  | true | false => simp [Holds, hpos, hsel]

variable [DecidableEq V]

lemma holds_version_iff {v : V} (hsel : sel x.packageName = some v) (hava : v ∈ x.allVersions) :
    (version x).Holds sel ↔ v ∈ x.allowedVersions := by
  cases hpos : x.isPositive with
  | true => simp [Holds, allowedVersions, hpos, hsel, hava]
  | false =>
    simp only [Holds, allowedVersions, hpos, Bool.false_eq_true, if_false,
      hsel, Finset.mem_sdiff, hava, true_and, ne_eq, Option.some.injEq]
    exact ⟨fun h hv => h v hv rfl, fun h w hw hvw => h (hvw ▸ hw)⟩

section

variable (hava : ∀ p v, selection p = some v → v ∈ cfg.allVersions p) (ha : a.Over cfg.allVersions)
  (hb : b.Over cfg.allVersions) (hsub : a.subject = b.subject)

include hava ha hb hsub

lemma holds_inter (h : a.intersect b = some c) :
    c.Holds selection ↔ a.Holds selection ∧ b.Holds selection := by
  cases a with
  | version x =>
    cases b with
    | version y =>
      rcases hxy : x.intersect y with _ | z
      · simp [intersect, hxy] at h
      obtain rfl : version z = c := by simpa [intersect, hxy] using h
      have hnam : x.packageName = y.packageName := by simpa [subject] using hsub
      rcases inter_eq_some (ha.allVersions_eq hb hsub) hxy with
        ⟨hz, hzal, hsig, hall, _⟩
      rcases hsel : selection x.packageName with _ | v
      · rw [holds_version_of_none (hz ▸ hsel), hsig, Bool.or_eq_false_iff,
          holds_version_of_none hsel, holds_version_of_none (hnam ▸ hsel)]
      have hv := hava _ _ hsel
      have hx : v ∈ x.allVersions := by rw [show x.allVersions = _ from ha]; exact hv
      have hy : v ∈ y.allVersions := by rw [← ha.allVersions_eq hb hsub]; exact hx
      rw [holds_version_iff (hz ▸ hsel) (hzal ▸ hx), hall, Finset.mem_inter,
        holds_version_iff hsel hx, holds_version_iff (hnam ▸ hsel) hy]
    | root _ => simp [intersect] at h
  | root x =>
    cases b with
    | version y => simp [intersect] at h
    | root y =>
      by_cases hxy : x = y
      · obtain rfl : root x = c := by simpa [intersect, hxy] using h
        rw [← hxy, and_self_iff]
      · simp [intersect, hxy] at h

lemma holds_or_holds_difference (hsig : b.isPositive = true → a.isPositive = true)
    (hhol : a.Holds selection) :
    b.Holds selection ∨ ∃ d, a.difference b = some d ∧ d.Holds selection := by
  cases a with
  | version x =>
    cases b with
    | version y =>
      have hnam : x.packageName = y.packageName := by simpa [subject] using hsub
      rcases hsel : selection x.packageName with _ | v
      · -- an absent package satisfies both terms if it satisfies the first
        left
        rw [holds_version_of_none hsel] at hhol
        rw [holds_version_of_none (hnam ▸ hsel)]
        cases hy : y.isPositive with
        | true =>
          have hx : x.isPositive = true := hsig hy
          rw [hhol] at hx
          cases hx
        | false => rfl
      · have hx : v ∈ x.allVersions := by
          rw [show x.allVersions = _ from ha]
          exact hava _ _ hsel
        have hy : v ∈ y.allVersions := by rw [← ha.allVersions_eq hb hsub]; exact hx
        rw [holds_version_iff hsel hx] at hhol
        rw [holds_version_iff (hnam ▸ hsel) hy]
        by_cases hv : v ∈ y.allowedVersions
        · exact .inl hv
        right
        have hmem := Finset.mem_sdiff.2 ⟨hhol, hv⟩
        have hne := Finset.ne_empty_of_mem hmem
        refine ⟨version { x with
          versions := x.allowedVersions \ y.allowedVersions, isPositive := true }, ?_, ?_⟩
        · simp [difference, VersionConstraint.difference, hne]
        · exact ⟨v, hmem, hsel⟩
    | root _ => simp [subject] at hsub
  | root x =>
    cases b with
    | version y => simp [subject] at hsub
    | root y =>
      by_cases hxy : x = y
      · exact .inl (hxy ▸ hhol)
      · exact .inr ⟨root x, by simp [difference, hxy], hhol⟩

end

end Term

/-! ## Incompatibilities of the graph -/

structure Incompatibility.Proved (config : Config P V) (incompatibility : Incompatibility P V) :
    Prop where
  isTrue : incompatibility.IsTrue config
  root : ∀ isPositive, root isPositive ∈ incompatibility.terms → isPositive = true

lemma not_solution_of_failure {inc : Incompatibility P V} (h : inc.Proved cfg)
    (hfai : inc.isFailure = true) :
    ¬∃ selection, Solution cfg selection := by
  rintro ⟨selection, hsol⟩
  apply h.isTrue selection hsol
  intro t ht
  unfold isFailure at hfai
  rcases hter : inc.terms with _ | ⟨first, _ | ⟨second, rest⟩⟩
  · rw [hter] at ht
    cases ht
  · cases first with
    | version x => simp [hter] at hfai
    | root posi =>
      rw [hter] at ht
      rw [mem_singleton.1 ht]
      exact h.root posi (by simp [hter])
  · cases first <;> simp [hter] at hfai

lemma dep_proved {ver : PackageVersion P V} {dep : P × Finset V}
    (hdep : dep ∈ config.dependenciesFor ver) :
    (config.dependencyIncompatibility ver dep).Proved config := by
  refine { isTrue := ?_, root := ?_ }
  · intro selection hsol hhol
    have hdepe : (config.dependeeTerm ver).Holds selection :=
      hhol _ (by simp [dependencyIncompatibility, terms])
    have hexc : (config.exclude dep.1 (config.pinned dep)).Holds selection :=
      hhol _ (by simp [dependencyIncompatibility, terms])
    have hmet : ∃ w ∈ config.pinned dep, selection dep.1 = some w := by
      cases ver with
      | root => exact hsol.root dep hdep
      | version p v =>
        have hsel : selection p = some v := by
          simpa [dependeeTerm, require, Term.Holds] using hdepe
        exact hsol.met p v hsel dep hdep
    rcases hmet with ⟨w, hw, hsel⟩
    simp only [exclude, Term.Holds, Bool.false_eq_true, if_false] at hexc
    exact hexc w hw hsel
  · intro posi hmem
    cases ver with
    | root =>
      simpa [dependencyIncompatibility, terms, dependeeTerm, exclude] using hmem
    | version p v =>
      simp [dependencyIncompatibility, terms, dependeeTerm, require, exclude] at hmem

lemma noVersions_proved [LinearOrder V] {con : VersionConstraint P V}
    (hnon : ¬(config.validVersionsForPackage con).Nonempty) (cause : Cause) :
    (external [config.require con.packageName con.versions] cause).Proved config := by
  refine { isTrue := ?_, root := ?_ }
  · intro sel hsol hhol
    have hreq := hhol _ (.head _)
    rcases (by simpa [require, Term.Holds] using hreq :
      ∃ v ∈ con.versions, sel con.packageName = some v) with ⟨v, hv, hsel⟩
    apply hnon
    refine ⟨v, Finset.mem_inter.2 ⟨Finset.mem_filter.2 ⟨?_, ?_⟩, hv⟩⟩
    · exact hsol.available _ _ hsel
    · simp [hsol.valid _ _ hsel]
  · intro posi hmem
    simp [terms, require] at hmem

end Meaning

variable {P V : Type} [LinearOrder P] [LinearOrder V] {config cfg : Config P V}
  {t : Term P V}

variable {ts merged : List (Term P V)}

namespace Resolver

section

variable {Q : Term P V → Prop}
  (hinter : ∀ {a b c : Term P V}, a.Over cfg.allVersions → b.Over cfg.allVersions → a.subject = b.subject →
    a.intersect b = some c → Q c → Q a ∧ Q b)

include hinter

lemma forall_of_mergeTerm (hter : ∀ u ∈ ts, u.Over cfg.allVersions)
    (ht : t.Over cfg.allVersions) (h : mergeTerm ts t = some merged)
    (hmerged : ∀ u ∈ merged, Q u) : (∀ u ∈ ts, Q u) ∧ Q t := by
  induction ts generalizing merged with
  | nil =>
    obtain rfl : [t] = merged := by simpa [mergeTerm] using h
    exact ⟨by simp, hmerged t (by simp)⟩
  | cons old rest ih =>
    rcases forall_mem_cons.1 hter with ⟨hold, hrest⟩
    rcases mergeTerm_cons h with ⟨hsub, new, hnew, rfl⟩ | ⟨_, new, hnew, rfl⟩
    · rcases forall_mem_cons.1 hmerged with ⟨hfirst, hlater⟩
      rcases hinter hold ht hsub hnew hfirst with ⟨holdQ, htQ⟩
      exact ⟨forall_mem_cons.2 ⟨holdQ, hlater⟩, htQ⟩
    · rcases forall_mem_cons.1 hmerged with ⟨hfirst, hlater⟩
      rcases ih hrest hnew hlater with ⟨hrestQ, htQ⟩
      exact ⟨forall_mem_cons.2 ⟨hfirst, hrestQ⟩, htQ⟩

lemma forall_of_foldlM_mergeTerm {acc : List (Term P V)} (hacc : ∀ u ∈ acc, u.Over cfg.allVersions)
    (hter : ∀ u ∈ ts, u.Over cfg.allVersions)
    (h : ts.foldlM mergeTerm acc = some merged) (hmerged : ∀ u ∈ merged, Q u) :
    (∀ u ∈ acc, Q u) ∧ ∀ u ∈ ts, Q u := by
  induction ts generalizing acc with
  | nil =>
    obtain rfl : acc = merged := by simpa using h
    exact ⟨hmerged, by simp⟩
  | cons t rest ih =>
    rw [foldlM_cons] at h
    rcases Option.bind_eq_some_iff.1 h with ⟨next, hnext, h⟩
    have ht := hter t (by simp)
    rcases ih (mergeTerm_subjects hacc ht hnext).1 (fun u hu => hter u (.tail _ hu)) h with
      ⟨hnextQ, hrestQ⟩
    rcases forall_of_mergeTerm hinter hacc ht hnext hnextQ with ⟨haccQ, htQ⟩
    exact ⟨haccQ, forall_mem_cons.2 ⟨htQ, hrestQ⟩⟩

end

omit [LinearOrder P] in
lemma root_of_inter {a b c : Term P V} (ha : ∀ isPositive, a = .root isPositive →
    isPositive = true) (h : a.intersect b = some c) :
    ∀ isPositive, c = .root isPositive → isPositive = true := by
  rintro isPositive rfl
  cases a with
  | version x => cases b <;> simp [Term.intersect] at h
  | root x =>
    cases b with
    | version y => simp [Term.intersect] at h
    | root y =>
      obtain rfl : x = isPositive := by by_cases hxy : x = y <;> simp_all [Term.intersect]
      exact ha x rfl

/-- A term of an incompatibility and the term of its satisfier, derived from `cause`.  Where the first
requires a package, the second does. -/
structure Resolvable (config : Config P V) (inc cause : Incompatibility P V)
    (term satisfierTerm : Term P V) : Prop where
  wellFormed : inc.WellFormed config.allVersions
  mem : term ∈ inc.terms
  cause_wellFormed : cause.WellFormed config.allVersions
  derived : ∃ u ∈ cause.terms, satisfierTerm = u.inverse
  subject_eq : satisfierTerm.subject = term.subject
  ne_root : satisfierTerm.subject ≠ .root
  keepsAbsence : term.isPositive = true → satisfierTerm.isPositive = true

variable {term satisfierTerm : Term P V} {inc cause derived : Incompatibility P V}

lemma fromConflict_proved (hres : Resolvable config inc cause term satisfierTerm)
    (hpro : inc.Proved config) (hcap : cause.Proved config)
    (h : createIncompatibilityFromConflict inc term satisfierTerm cause = some derived) :
    derived.Proved config := by
  rcases hres with ⟨hwel, hmem, hcau, ⟨u, hu, rfl⟩, hsub, hroo, hsig⟩
  have hove := (hcau.isOver u hu).inverse
  rcases Option.map_eq_some_iff.1 h with ⟨terms, hter, rfl⟩
  refine { isTrue := ?_, root := ?_ }
  · intro selection hsol hhol
    have hall := (forall_of_foldlM_mergeTerm
      (fun ha hb hsub h => (holds_inter hsol.available ha hb hsub h).1) (by simp)
      (newTerms_over hwel.isOver hcau.isOver hove) hter hhol).2
    -- the other terms of the cause hold, so that what was derived from it holds
    have hsat : u.inverse.Holds selection := by
      rw [holds_inverse]
      intro huho
      apply hcap.isTrue selection hsol
      intro x hx
      by_cases hxu : x.subject = u.subject
      · rwa [inj_on_of_nodup_map hcau.subjects hx hu hxu]
      · exact hall x (mem_newTerms.2 (.inr (.inl ⟨hx, by simpa using hxu⟩)))
    rcases holds_or_holds_difference hsol.available hove (hwel.isOver _ hmem) hsub hsig hsat with
      hrec | ⟨d, hd, hdho⟩
    · -- then all terms of the incompatibility hold
      apply hpro.isTrue selection hsol
      intro x hx
      by_cases hxm : x = term
      · rwa [hxm]
      · exact hall x (mem_newTerms.2 (.inl ⟨hx, hxm⟩))
    · have hinv := hall _ (mem_newTerms.2 (.inr (.inr ⟨d, hd, rfl⟩)))
      exact (holds_inverse selection d).1 hinv hdho
  · intro b hb
    refine foldlM_mergeTerm_forall (fun _ _ _ ha _ _ => root_of_inter ha) (by simp) ?_ hter
      _ hb b rfl
    rintro _ hb b rfl
    rcases mem_newTerms.1 hb with ⟨hb, _⟩ | ⟨hb, _⟩ | ⟨d, hd, hb⟩
    · exact hpro.root b hb
    · exact hcap.root b hb
    · have hdsu := (hove.difference hd).2
      rw [← subject_inverse d, hb] at hdsu
      exact absurd hdsu.symm hroo

omit [LinearOrder P] in
lemma isPositive_of_inter {a b c : Term P V} (ha : a.Over cfg.allVersions) (hb : b.Over cfg.allVersions)
    (hsub : a.subject = b.subject) (h : a.intersect b = some c) :
    c.isPositive = (a.isPositive || b.isPositive) := by
  cases a with
  | version x =>
    cases b with
    | version y =>
      rcases Option.map_eq_some_iff.1 h with ⟨z, hz, rfl⟩
      exact (inter_eq_some (ha.allVersions_eq hb hsub) hz).2.2.1
    | root y => cases h
  | root x =>
    cases b with
    | version y => cases h
    | root y =>
      by_cases hxy : x = y
      · obtain rfl : Term.root x = c := by simpa [Term.intersect, hxy] using h
        simp [Term.isPositive, hxy]
      · simp [Term.intersect, hxy] at h

/-- A term that requires a package is left: the one of the cause if the satisfier requires its
package, the one of the incompatibility otherwise. -/
lemma fromConflict_requires (hres : Resolvable config inc cause term satisfierTerm)
    (hinc : ∃ t ∈ inc.terms, t.isPositive = true) (hcause : ∃ t ∈ cause.terms, t.isPositive = true)
    (h : createIncompatibilityFromConflict inc term satisfierTerm cause = some derived) :
    ∃ t ∈ derived.terms, t.isPositive = true := by
  rcases hres with ⟨hwel, hmem, hcau, ⟨u, hu, rfl⟩, hsub, -, hsig⟩
  rcases Option.map_eq_some_iff.1 h with ⟨terms, hter, rfl⟩
  by_contra hnone
  have hnegative : ∀ t ∈ terms, t.isPositive = false := by simpa [Incompatibility.terms] using hnone
  have hall := (forall_of_foldlM_mergeTerm (Q := fun t => t.isPositive = false)
    (fun ha hb hsub h hc => Bool.or_eq_false_iff.1 (isPositive_of_inter ha hb hsub h ▸ hc)) (by simp)
    (newTerms_over hwel.isOver hcau.isOver (hcau.isOver u hu).inverse) hter hnegative).2
  cases hpos : u.isPositive with
  | false =>
    rcases hcause with ⟨t, ht, htpos⟩
    by_cases htu : t.subject = u.subject
    · rw [inj_on_of_nodup_map hcau.subjects ht hu htu, hpos] at htpos
      cases htpos
    · rw [hall t (mem_newTerms.2 (.inr (.inl ⟨ht, by simpa using htu⟩)))] at htpos
      cases htpos
  | true =>
    have hinverse : u.inverse.isPositive = false := by
      cases u <;> simpa [Term.inverse, VersionConstraint.inverse, Term.isPositive] using hpos
    rcases hinc with ⟨t, ht, htpos⟩
    by_cases htt : t = term
    · rw [hsig (htt ▸ htpos)] at hinverse
      cases hinverse
    · rw [hall t (mem_newTerms.2 (.inl ⟨ht, htt⟩))] at htpos
      cases htpos

/-! ## Runs -/

variable {self : Resolver P V} {Q : Incompatibility P V → Prop}

/-- What is true of the incompatibilities of the graph and of the wishes, and is kept by conflict
resolution unless it loses an absence. -/
structure Inferred (config : Config P V) (Q : Incompatibility P V → Prop) : Prop where
  dependency : ∀ ver, ∀ dep ∈ config.dependenciesFor ver, Q (config.dependencyIncompatibility ver dep)
  wished : ∀ p v cause, p ∈ config.useLatest ∨ config.locked p = some v →
    Q (.external [config.require p {v}] cause)
  unavailable : ∀ con cause, ¬(config.validVersionsForPackage con).Nonempty →
    Q (.external [config.require con.packageName con.versions] cause)
  resolved : ∀ {inc cause derived term satisfierTerm}, Resolvable config inc cause term satisfierTerm →
    Q inc → Q cause → createIncompatibilityFromConflict inc term satisfierTerm cause = some derived →
    Q derived

lemma inferred_proved (hlatest : cfg.useLatest = ∅) (hlocked : ∀ p, cfg.locked p = none) :
    Inferred cfg (Incompatibility.Proved cfg) where
  dependency _ _ := dep_proved
  wished p v cause hwish := by simp [hlatest, hlocked] at hwish
  unavailable _ cause hnone := noVersions_proved hnone cause
  resolved := fromConflict_proved

lemma inferred_requires (cfg : Config P V) :
    Inferred cfg fun inc => ∃ t ∈ inc.terms, t.isPositive = true where
  dependency ver dep _ := ⟨cfg.dependeeTerm ver, .head _, by cases ver <;> rfl⟩
  wished _ _ _ _ := ⟨_, .head _, rfl⟩
  unavailable _ _ _ := ⟨_, .head _, rfl⟩
  resolved := fromConflict_requires

/-- The next step resolves a term that requires a package with a satisfier that only excludes
versions of it. -/
def losesAbsence (self : Resolver P V) : Bool :=
  match self.control with
  | .resolve _ current _ _ _ =>
    match mostRecentlySatisfied self.solution current, resolution self.solution current with
    | some (last, _), some (.replace _) => last.1.isPositive && !last.2.term.isPositive
    | _, _ => false
  | _ => false

lemma subject_ne_root (h : self.solution.Coherent cfg.allVersions) {a : Assignment P V}
    (ha : a ∈ self.solution.assignments) (hder : a.isDecision = false) :
    a.subject ≠ .root := by
  rcases append_of_mem ha with ⟨bef, after, hspl⟩
  have hgro := h.grown
  rw [hspl] at hgro
  rcases bef with _ | ⟨first, bef⟩
  · have hdec := (hgro.rel.first rfl).2
    rw [hder] at hdec
    cases hdec
  · rcases (Grown.rel (l := []) hgro).first rfl with ⟨hroo, hdec⟩
    rw [← hroo]
    exact (hgro.rel.undecided first (by simp) hdec).symm

open PartialSolution

/-- What has been inferred holds together with what conflict resolution needs of it. -/
abbrev Infers (config : Config P V) (Q : Incompatibility P V → Prop) (resolver : Resolver P V) : Prop :=
  Upholds config (fun x => x.WellFormed config.allVersions ∧ Q x) resolver

lemma Inferred.grounded (hinf : Inferred config Q) (hsel : config.NoSelfDependency) :
    Grounded config fun x => x.WellFormed config.allVersions ∧ Q x where
  isOver _ h := h.1.isOver
  root dep hdep := ⟨dependency_wellFormed hsel hdep, hinf.dependency .root dep hdep⟩
  version p v _ _ dep hdep := ⟨dependency_wellFormed hsel hdep, hinf.dependency (.version p v) dep hdep⟩
  require con vers cause hp hmot := by
    refine ⟨(grounded_wellFormed hsel).require con vers cause ?_ hmot, ?_⟩
    · rcases hp with ⟨x, hx, hmem⟩
      exact ⟨x, hx.1, hmem⟩
    rcases hmot with ⟨v, rfl, hwish⟩ | ⟨rfl, hnone⟩
    · exact hinf.wished _ v cause hwish
    · exact hinf.unavailable con cause hnone

lemma Infers.replace (hinf : Inferred config Q) (h : Infers config Q self)
    {conf cur new : Incompatibility P V} {sca : Subject P} {next : Nat} {chan : List (Outcome P)}
    (hcont : self.control = .resolve conf cur sca next chan)
    (hres : resolution self.solution cur = some (.replace new)) (hkee : self.losesAbsence = false) :
      Q new := by
  rcases (h.resolving _ _ _ _ _ hcont).1 with ⟨hcur, hinc⟩
  rcases resolution_replace hres with ⟨last, ear, cause, hlas, hcau, hnew⟩
  rcases recent_eq_some hlas with ⟨hper, hsati, _⟩
  have hsat := hsati last (by simp)
  have hmem := mem_of_satisfier_eq_some hsat
  have hsub := (satisfier_eq_some hsat).1
  rcases h.causes last.2 hmem cause hcau with ⟨⟨hwel, hcaus⟩, hder⟩
  have hroo := subject_ne_root h.coherent hmem (by simp [Assignment.isDecision, hcau])
  have hsig : last.1.isPositive = true → last.2.term.isPositive = true := by
    unfold losesAbsence at hkee
    simp only [hcont, hlas, hres] at hkee
    intro hpos
    simpa [hpos] using hkee
  exact hinf.resolved ⟨hcur, hper.mem_iff.1 (by simp), hwel, hder, hsub, hroo, hsig⟩ hinc hcaus hnew

lemma infers_run (hinf : Inferred cfg Q) (hsel : cfg.NoSelfDependency) (sts : Nat)
    (hkee : ∀ k < sts, (run cfg k).losesAbsence = false) : Infers cfg Q (run cfg sts) := by
  have hgro := hinf.grounded hsel
  induction sts with
  | zero => exact upholds_root hgro
  | succ sts ih =>
    have h := ih fun k hk => hkee k (Nat.lt_succ_of_lt hk)
    rw [run, Function.iterate_succ_apply']
    refine upholds_step hgro h (fun _ _ _ _ _ _ hcon hres => ⟨?_, ?_⟩) (step_spec cfg _)
    · exact h.replace_wf hgro hcon hres
    · exact Infers.replace hinf h hcon hres (hkee sts (Nat.lt_succ_self sts))

/-- As long as no step loses the absence of a package, every incompatibility stored or being
resolved is true, and a failure means that there is no solution. -/
theorem incompatibilities_true (config : Config P V) (hself : config.NoSelfDependency)
    (hlatest : config.useLatest = ∅) (hlocked : ∀ p, config.locked p = none) (steps : Nat)
    (hkeeps : ∀ k < steps, (run config k).losesAbsence = false) :
    (∀ subject, ∀ x ∈ (run config steps).incompatibilities subject, x.IsTrue config) ∧
    (∀ conflict current scanned next changed,
    (run config steps).control = .resolve conflict current scanned next changed → current.IsTrue config) ∧
    ∀ x, (run config steps).control = .failed x → ¬∃ selection, Solution config selection := by
  have h := infers_run (inferred_proved hlatest hlocked) hself steps hkeeps
  refine ⟨fun subject x hx => (h.stored subject x hx).2.isTrue, ?_, ?_⟩
  · intro conflict current scanned next changed hcon
    exact (h.resolving _ _ _ _ _ hcon).1.2.isTrue
  · intro x hcon
    rcases h.failed x hcon with ⟨⟨-, hpro⟩, hfai⟩
    exact not_solution_of_failure hpro hfai

omit [LinearOrder P] [LinearOrder V] in
lemma exists_of_isFailed {con : Control P V} (h : (match con with
      | .failed _ => true
      | _ => false) = true) : ∃ x, con = .failed x := by
  cases con <;> simp at h ⊢

def unsolvable : Config (Fin 3) (Fin 3) where
  dependencies := [(0, {0})]
  graph :=
    { allVersions := fun _ => {0}
      fetchDependenciesFor := fun p _ => if p = 0 then some [(1, {1})] else some [] }
  useLatest := ∅
  locked := fun _ => none
  downgrades := ∅
  overrides := fun _ => none

theorem incompatibilities_true_unsolvable :
    (∃ x, (run unsolvable 21).control = .failed x) ∧ ¬∃ selection, Solution unsolvable selection := by
  have hfai : ∃ x, (run unsolvable 21).control = .failed x :=
    exists_of_isFailed (by decide +kernel)
  refine ⟨hfai, ?_⟩
  rcases hfai with ⟨x, hx⟩
  exact (incompatibilities_true unsolvable (by unfold Config.NoSelfDependency; decide) rfl
    (fun _ => rfl) 21 (by decide +kernel)).2.2 x hx

/-- Version 1 of package 1 is a solution.  With version 2 decided, package 0 is excluded, and with it
version 2 of package 2; so version 1 is left, and from its dependency on package 0 the solver concludes
that package 0 is required, as if package 2 could not be absent. -/
def misjudged : Config (Fin 3) (Fin 3) where
  dependencies := [(1, {1, 2})]
  graph :=
    { allVersions := fun p => if p = 0 then {1} else {1, 2}
      fetchDependenciesFor := fun p v =>
        match p, v with
        | 0, 1 => some [(1, {1}), (2, {1})]
        | 1, 1 => some []
        | 1, 2 => some [(2, {1, 2})]
        | 2, 1 => some [(0, {1}), (1, {2})]
        | 2, 2 => some [(0, {1})]
        | _, _ => none }
  useLatest := ∅
  locked := fun _ => none
  downgrades := ∅
  overrides := fun _ => none

/-- Version 1 of package 1 alone is a solution, and it has no version of package 0; yet the fact is
stored that version 1 of package 0 must not be excluded.  The run ends in an exception. -/
theorem stores_false_incompatibility :
    misjudged.NoSelfDependency ∧ misjudged.useLatest = ∅ ∧ (∀ p, misjudged.locked p = none) ∧
    Solution misjudged (fun p => if p = 1 then some 1 else none) ∧
    (∃ x ∈ (run misjudged 68).incompatibilities (.package 0),
      x.terms = [misjudged.exclude 0 {1}] ∧ ¬x.IsTrue misjudged) ∧
    (run misjudged 69).control = .crashed := by
  have hsolution : Solution misjudged (fun p => if p = 1 then some 1 else none) :=
    { available := by decide
      valid := by decide
      root := by decide
      met := by decide }
  have hstored : ∃ x ∈ (run misjudged 68).incompatibilities (.package 0),
      x.terms = [misjudged.exclude 0 {1}] := by
    decide +kernel
  rcases hstored with ⟨x, hx, hterms⟩
  refine ⟨by unfold Config.NoSelfDependency; decide, rfl, fun _ => rfl, hsolution,
    ⟨x, hx, hterms, fun htrue => htrue _ hsolution fun t ht => ?_⟩, by decide +kernel⟩
  rw [hterms, mem_singleton] at ht
  simp [ht, Term.Holds, exclude]

end Resolver

end Toolchain.SatResolver
