import Toolchain.SatResolver.Decisions
import Toolchain.SatResolver.Justification
import Toolchain.SatResolver.Soundness

/-!
# SatResolver.Reachability — which packages are selected

A package is needed if the root or a selected version of a needed package depends on it.  As long as
only true incompatibilities are learned, a run returns no others: the versions of the needed packages
are a solution by themselves, so every derivation holds of it.
-/

namespace Toolchain.SatResolver

open Lib

namespace Term

variable {P V : Type} [DecidableEq V] {cfg : Config P V} {selection : P → Option V}
  {a t : Term P V}

lemma isPositive_of_satisfies (h : a.satisfies t = true) (hpos : t.isPositive = true) :
    a.isPositive = true := by
  cases a with
  | version x =>
    cases t with
    | version y =>
      simp only [satisfies, VersionConstraint.satisfies_iff] at h
      exact h.1 hpos
    | root _ => simp [satisfies] at h
  | root x =>
    cases t with
    | version y => simp [satisfies] at h
    | root y =>
      simp only [satisfies, beq_iff_eq] at h
      exact h ▸ hpos

end Term

section Assignments

variable {P V : Type} [DecidableEq P] [DecidableEq V] {cfg : Config P V}
  {selection : P → Option V} {asgs : List (Assignment P V)} {t : Term P V}

section

variable (hava : ∀ p v, selection p = some v → v ∈ cfg.allVersions p)
  (hgro : Grown (Assigned cfg.allVersions) asgs)
  (hhol : ∀ a ∈ asgs, a.term.Holds selection)

include hava hgro hhol

lemma holds_accum {subj : Subject P} (h : accumulated asgs subj = some t) : t.Holds selection := by
  induction asgs using List.reverseRecOn generalizing t with
  | nil => cases h
  | append_singleton bef a ih =>
    rcases Grown.concat_iff.1 hgro with ⟨hbef, ha⟩
    have hold := fun old => @ih old hbef fun b hb => hhol b (by simp [hb])
    have haho := hhol a (by simp)
    rw [accum_concat] at h
    by_cases hsub : a.subject = subj
    swap
    · rw [if_neg hsub] at h
      exact hold t h
    rw [if_pos hsub] at h
    rcases hacc : accumulated bef subj with _ | old
    · rw [hacc] at h
      cases h
      exact haho
    · rw [hacc] at h
      rcases accum_over hbef hacc with ⟨hove, hols⟩
      rw [Term.holds_inter hava hove ha.isOver (hols.trans hsub.symm) h]
      exact ⟨hold old hacc, haho⟩

lemma SatisfiedBy.holds (ht : t.Over cfg.allVersions) (h : SatisfiedBy asgs t) : t.Holds selection := by
  rcases h with ⟨cur, hcur, hsat⟩
  rcases accum_over hgro hcur with ⟨hove, hsub⟩
  rcases Term.holds_or_holds_difference hava hove ht hsub (Term.isPositive_of_satisfies hsat)
    (holds_accum hava hgro hhol hcur) with hhol | ⟨d, hd, _⟩
  · exact hhol
  · rw [Term.difference_eq_none_of_satisfies hsat] at hd
    cases hd

end

end Assignments

namespace Resolver

variable {P V : Type} [LinearOrder P] [LinearOrder V] {cfg : Config P V}

inductive Needed (config : Config P V) (versions : List (P ×ₗ V)) : P → Prop
  | root {dependency : P × Finset V} (hdependency : dependency ∈ config.dependenciesFor .root) :
      Needed config versions dependency.1
  | version {p : P} {v : V} {dependency : P × Finset V} (hneeded : Needed config versions p)
      (hselected : toLex (p, v) ∈ versions)
      (hdependency : dependency ∈ config.dependenciesFor (.version p v)) :
      Needed config versions dependency.1

def SelectsNeeded (config : Config P V) (versions : List (P ×ₗ V)) (selection : P → Option V) :
    Prop :=
  ∀ p v, selection p = some v ↔ toLex (p, v) ∈ versions ∧ Needed config versions p

omit [LinearOrder P] [LinearOrder V] in
lemma exists_selectsNeeded (cfg : Config P V) {vers : List (P ×ₗ V)}
    (honc : ∀ p v w, toLex (p, v) ∈ vers → toLex (p, w) ∈ vers → v = w) :
    ∃ selection, SelectsNeeded cfg vers selection := by
  have hone : ∀ p, ∃ selected : Option V, ∀ v, selected = some v ↔ toLex (p, v) ∈ vers ∧
    Needed cfg vers p := by
    intro p
    by_cases h : ∃ v, toLex (p, v) ∈ vers ∧ Needed cfg vers p
    · rcases h with ⟨v, hv, hnee⟩
      refine ⟨some v, fun w => ⟨fun hw => ?_, fun hw => ?_⟩⟩
      · cases hw
        exact ⟨hv, hnee⟩
      · rw [honc p v w hv hw.1]
    · refine ⟨none, fun w => ⟨fun hw => ?_, fun hw => absurd ⟨w, hw⟩ h⟩⟩
      cases hw
  choose selection hsel using hone
  exact ⟨selection, hsel⟩

omit [LinearOrder P] [LinearOrder V] in
lemma SelectsNeeded.solution {vers : List (P ×ₗ V)} {sel : P → Option V}
    (h : SelectsNeeded cfg vers sel) (hval : Valid cfg vers)
    (hava : ∀ p v, toLex (p, v) ∈ vers → v ∈ cfg.allVersions p ∧ cfg.isKnownInvalid p v = false) :
    Solution cfg sel where
  available p v hv := (hava p v ((h p v).1 hv).1).1
  valid p v hv := (hava p v ((h p v).1 hv).1).2
  root dependency hdep := by
    rcases hval.root dependency hdep with ⟨w, hw, hmem⟩
    exact ⟨w, hw, (h _ w).2 ⟨hmem, .root hdep⟩⟩
  met p v hv dependency hdep := by
    rcases (h p v).1 hv with ⟨hmem, hnee⟩
    rcases hval.met p v hmem dependency hdep with ⟨w, hw, hmew⟩
    exact ⟨w, hw, (h _ w).2 ⟨hmew, .version hnee hmem hdep⟩⟩

lemma holds_of_justified {self : Resolver P V} (hcon : Consistent cfg self)
    (htru : Infers cfg (Incompatibility.Proved cfg) self) {selection : P → Option V}
    (hsel : SelectsNeeded cfg self.result selection) (hsol : Solution cfg selection)
    {bef : List (Assignment P V)} {a : Assignment P V} (ha : a ∈ self.solution.assignments)
    (hgro : Grown (Assigned cfg.allVersions) (bef ++ [a])) (hjus : Justified bef a)
    (hbef : ∀ b ∈ bef, b.term.Holds selection) : a.term.Holds selection := by
  rcases Grown.concat_iff.1 hgro with ⟨hgrb, hasg⟩
  cases hcau : a.cause with
  | some cause =>
    rcases hjus.derivation cause hcau with ⟨t, ht, hter, hoth⟩
    have hwel := (hcon.causes a ha cause hcau).1
    rw [hter, Term.holds_inverse]
    intro htho
    -- all terms of a true incompatibility would hold
    apply (htru.causes a ha cause hcau).1.2.isTrue selection hsol
    intro u hu
    by_cases hut : u = t
    · rw [hut]
      exact htho
    · exact (hoth u hu hut).holds hsol.available hgrb hbef (hwel.isOver u hu)
  | none =>
    have hdec : a.isDecision = true := by simp [Assignment.isDecision, hcau]
    rcases hcon.decided a ha hdec with ⟨ver, _, hter⟩
    cases ver with
    | root =>
      rw [hter]
      exact rfl
    | version p v =>
      have hsub : a.subject = .package p := by
        rw [Assignment.subject, hter]
        rfl
      have hne : bef ≠ [] := by
        intro hnil
        have hroo := (hasg.first hnil).1
        rw [hsub] at hroo
        cases hroo
      -- the package was required before, so that it is needed, at the version decided for
      rcases hjus.decision hdec hne with ⟨t, ht, hpos⟩
      have htho := holds_accum hsol.available hgrb hbef ht
      have htsu := (accum_over hgrb ht).2
      have hmem := (mem_result_iff hcon p v).2 ⟨a, ha, hdec, hter⟩
      cases t with
      | root b =>
        rw [hsub] at htsu
        cases htsu
      | version x =>
        have hnam : x.packageName = p := by
          rw [hsub] at htsu
          simpa [Term.subject] using htsu
        have hxpo : x.isPositive = true := hpos
        simp only [Term.Holds, hxpo, if_true, hnam] at htho
        rcases htho with ⟨w, _, hw⟩
        have hnee := ((hsel p w).1 hw).2
        rw [hter]
        exact ⟨v, by simp, (hsel p v).2 ⟨hmem, hnee⟩⟩

/-- As long as no step loses the case of an absent package, a run returns needed packages only. -/
theorem run_result_needed (config : Config P V) (hself : config.NoSelfDependency)
    (hlatest : config.useLatest = ∅) (hlocked : ∀ p, config.locked p = none) (steps : Nat)
    (hkeeps : ∀ k < steps, (run config k).losesAbsence = false)
    (hdone : (run config steps).control = .done) :
    ∀ p v, toLex (p, v) ∈ (run config steps).result → Needed config (run config steps).result p := by
  have hcon := consistent_run hself steps
  have htru := infers_run (inferred_proved hlatest hlocked) hself steps hkeeps
  have hjus := (supported_run hself steps).justified
  have hval := run_result_valid config hself steps hdone
  have hava : ∀ p v, toLex (p, v) ∈ (run config steps).result →
      v ∈ config.allVersions p ∧ config.isKnownInvalid p v = false := by
    intro p v hmem
    refine result_run config
      (Q := fun p v => v ∈ config.allVersions p ∧ config.isKnownInvalid p v = false) steps ?_ hmem
    intro k _ con version hdec
    have hver := hdec.valid
    simp only [Config.validVersionsForPackage, Finset.mem_inter, Finset.mem_filter] at hver
    exact ⟨hver.1.1, by simpa using hver.1.2⟩
  rcases exists_selectsNeeded config fun p v w => eq_of_mem_result hcon with
    ⟨selection, hsel⟩
  have hsol := hsel.solution hval hava
  have hhol : ∀ a ∈ (run config steps).solution.assignments, a.term.Holds selection := by
    apply forall_mem_of_before
    intro bef a after hspl hbef
    have hgro := hcon.coherent.grown
    rw [hspl] at hgro hjus
    have ha : a ∈ (run config steps).solution.assignments := by simp [hspl]
    refine holds_of_justified hcon htru hsel hsol ha ?_ hjus.rel hbef
    rw [List.append_cons] at hgro
    exact hgro.of_append
  intro p v hmem
  rcases (mem_result_iff hcon p v).1 hmem with ⟨a, ha, _, hter⟩
  have haho := hhol a ha
  rw [hter] at haho
  rcases haho with ⟨w, _, hw⟩
  exact ((hsel p w).1 hw).2

def abandoning : Config (Fin 2) (Fin 3) where
  dependencies := [(0, {1, 2})]
  graph :=
    { allVersions := fun p => if p = 0 then {1, 2} else {0}
      fetchDependenciesFor := fun p v => if p = 0 ∧ v = 2 then some [(1, {1})] else some [] }
  useLatest := ∅
  locked := fun _ => none
  downgrades := ∅
  overrides := fun _ => none

theorem run_result_needed_abandoning :
    (run abandoning 31).result = [toLex (0, 1)] ∧ Needed abandoning (run abandoning 31).result 0 := by
  have hres : (run abandoning 31).result = [toLex (0, 1)] := by decide +kernel
  refine ⟨hres, ?_⟩
  exact run_result_needed abandoning (by unfold Config.NoSelfDependency; decide) rfl (fun _ => rfl) 31
    (by decide +kernel) (by decide +kernel) 0 1 (by rw [hres]; decide)

def entangled : Config (Fin 3) (Fin 4) where
  dependencies := [(0, {1, 2})]
  graph :=
    { allVersions := fun p => if p = 1 then {1, 2, 3} else {1, 2}
      fetchDependenciesFor := fun p v =>
        match p, v with
        | 0, 1 => some []
        | 0, 2 => some [(2, {1, 2}), (1, {3})]
        | 1, 1 => some [(0, {1}), (2, {1, 2})]
        | 1, 2 => some [(2, {1, 2})]
        | 1, 3 => some []
        | 2, 1 => some [(1, {1})]
        | 2, 2 => some [(1, {1}), (0, {1})]
        | _, _ => none }
  useLatest := ∅
  locked := fun _ => none
  downgrades := ∅
  overrides := fun _ => none

theorem selects_unneeded_packages :
    entangled.NoSelfDependency ∧ entangled.useLatest = ∅ ∧ (∀ p, entangled.locked p = none) ∧
    (run entangled 101).control = .done ∧ (toLex (1, 1) ∈ (run entangled 101).result ∧
    ¬Needed entangled (run entangled 101).result 1) ∧
    toLex (2, 2) ∈ (run entangled 101).result ∧ ¬Needed entangled (run entangled 101).result 2 := by
  have hdec : (run entangled 101).solution.decisions =
      [.root true, entangled.require 0 {1}, entangled.require 1 {1}, entangled.require 2 {2}] := by
    decide +kernel
  have hres : ∀ p v, toLex (p, v) ∈ (run entangled 101).result ↔
      (p = 0 ∧ v = 1) ∨ (p = 1 ∧ v = 1) ∨ (p = 2 ∧ v = 2) := by
    intro p v
    rw [mem_result, hdec]
    simp [Config.require, eq_comm]
  have honl : ∀ p, Needed entangled (run entangled 101).result p → p = 0 := by
    intro p hnee
    induction hnee with
    | root hdep => rw [List.mem_singleton.1 hdep]
    | @version p v dependency hnee hsel hdep ih =>
      -- version 1 of package 0 depends on nothing
      subst ih
      obtain rfl : v = 1 := by simpa using (hres 0 v).1 hsel
      cases hdep
  refine ⟨by unfold Config.NoSelfDependency; decide, rfl, fun _ => rfl, by decide +kernel,
    ⟨(hres 1 1).2 (by simp), fun hnee => ?_⟩, (hres 2 2).2 (by simp), fun hnee => ?_⟩
  · exact absurd (honl 1 hnee) (by decide)
  · exact absurd (honl 2 hnee) (by decide)

end Resolver
end Toolchain.SatResolver
