import Toolchain.SatResolver.Justification

/-!
# SatResolver.Backjump — where conflict resolution goes back to

Conflict resolution goes back to the level at which all terms but one of the incompatibility were
satisfied.  The remaining term is open there, and unit propagation derives its inverse at once.
-/

namespace Toolchain.SatResolver

open Lib List VersionConstraint Option

namespace Term

variable {P V : Type} [DecidableEq V] {all : P → Finset V} {a b c t : Term P V}

lemma not_satisfies_inverse (ha : a.Over all) (hb : b.Over all)
    (hsub : a.subject = b.subject) (h : a.intersect b = some c) (hsat : c.satisfies t = true) :
    c.satisfies t.inverse ≠ true := by
  intro hinv
  cases t with
  | version w =>
    cases c with
    | version z =>
      simp only [inverse, satisfies, satisfies_iff] at hsat hinv
      have hpos : z.isPositive = true := by
        cases hw : w.isPositive with
        | true => exact hsat.1 hw
        | false => exact hinv.1 (by simp [VersionConstraint.inverse, hw])
      have hnon : z.allowedVersions.Nonempty := by
        cases a with
        | version x =>
          cases b with
          | version y =>
            rcases map_eq_some_iff.1 h with ⟨z', hz, heq⟩
            cases heq
            exact (inter_eq_some (ha.allVersions_eq hb hsub) hz).2.2.2.2 hpos
          | root _ => simp [intersect] at h
        | root x => cases b <;> simp [intersect] at h
      rcases hnon with ⟨v, hv⟩
      have hexc := hinv.2 hv
      rw [allowed_inverse] at hexc
      exact (Finset.mem_sdiff.1 hexc).2 (hsat.2 hv)
    | root _ => simp [satisfies] at hsat
  | root w =>
    cases c with
    | version z => simp [satisfies] at hsat
    | root z =>
      simp only [inverse, satisfies, beq_iff_eq] at hsat hinv
      rw [hsat] at hinv
      simp at hinv

end Term

section Assignments

variable {P V : Type} [DecidableEq P] [DecidableEq V] {all : P → Finset V}
  {asgs rest : List (Assignment P V)} {subj : Subject P} {t : Term P V}

lemma accum_append_eq_or_inter (hgro : Grown (Assigned all) (asgs ++ rest))
    (h : accumulated asgs subj = some t) :
    accumulated (asgs ++ rest) subj = some t ∨
    ∃ x y new : Term P V, x.Over all ∧ y.Over all ∧ x.subject = y.subject ∧ x.intersect y = some new ∧
    accumulated (asgs ++ rest) subj = some new := by
  induction rest using reverseRecOn with
  | nil => exact .inl (by simpa using h)
  | append_singleton rest a ih =>
    rw [← append_assoc] at hgro ⊢
    rcases Grown.concat_iff.1 hgro with ⟨hbef, ha⟩
    rw [accum_concat]
    by_cases hsub : a.subject = subj
    · rw [if_pos hsub]
      rcases accum_append_satisfies hbef h with ⟨old, hold, _⟩
      rcases ha.narrows with ⟨new, hnew⟩
      rw [hsub, hold] at hnew
      rcases accum_over hbef hold with ⟨hove, hols⟩
      rw [hold]
      exact .inr ⟨old, a.term, new, hove, ha.isOver, hols.trans hsub.symm, hnew, hnew⟩
    · rw [if_neg hsub]
      exact ih hbef

lemma inter_ne_none_of_satBy (hgro : Grown (Assigned all) (asgs ++ rest))
    (ht : t.Over all) (hlat : SatisfiedBy (asgs ++ rest) t)
    (hear : ¬SatisfiedBy asgs t) {old : Term P V}
    (hold : accumulated asgs t.subject = some old) : old.intersect t ≠ none := by
  intro hnon
  rcases accum_over hgro.of_append hold with ⟨hove, hsub⟩
  have hsat : old.satisfies t = false := by
    cases hsat : old.satisfies t with
    | true => exact absurd ⟨old, hold, hsat⟩ hear
    | false => rfl
  have hinv := Term.satisfies_inverse hove ht hsub hsat hnon
  rcases accum_append_satisfies hgro hold with ⟨new, hnew, hmon⟩
  have hnei := hmon _ hinv
  rcases hlat with ⟨new', hnew', hnes⟩
  obtain rfl : new = new' := by
    rw [hnew] at hnew'
    exact some.inj hnew'
  rcases accum_append_eq_or_inter hgro hold with
    hsam | ⟨x, y, z, hx, hy, hxy, hz, hacc⟩
  · -- nothing has been said about the subject since
    rw [hnew] at hsam
    cases hsam
    rw [hsat] at hnes
    cases hnes
  · rw [hnew] at hacc
    cases hacc
    exact Term.not_satisfies_inverse hx hy hxy hz hnes hnei

end Assignments

namespace Resolver

open PartialSolution (upTo exists_eq_upTo_append)

variable {P V : Type} [LinearOrder P] [LinearOrder V] {all : P → Finset V}
  {sol : PartialSolution P V} {inc : Incompatibility P V} {t : Term P V}

/-! ## Backjumps -/

omit [LinearOrder P] in
lemma verdict_some_of_satisfied {ts : List (Term P V)} (h : ∀ u ∈ ts, sol.satisfies u = true) :
    verdict sol (some t) ts = .unit t := by
  induction ts with
  | nil => rfl
  | cons first rest ih =>
    rcases forall_mem_cons.1 h with ⟨hfir, hres⟩
    rw [verdict, if_pos hfir]
    exact ih hres

omit [LinearOrder P] in
lemma verdict_eq_unit {ts : List (Term P V)} (hnod : ts.Nodup) (ht : t ∈ ts)
    (hoth : ∀ u ∈ ts, u ≠ t → sol.satisfies u = true)
    (hsat : sol.satisfies t = false) (hcom : sol.isIncompatible t = false) :
    verdict sol none ts = .unit t := by
  induction ts with
  | nil => cases ht
  | cons first rest ih =>
    rcases nodup_cons.1 hnod with ⟨hfir, hrest⟩
    rcases forall_mem_cons.1 hoth with ⟨hfis, hres⟩
    by_cases heq : first = t
    · subst heq
      have hsati : ∀ u ∈ rest, sol.satisfies u = true := by
        intro u hu
        refine hres u hu fun heq => hfir ?_
        rwa [← heq]
      simp only [verdict, hsat, hcom, Bool.false_eq_true, if_false]
      exact verdict_some_of_satisfied hsati
    · rw [verdict, if_pos (hfis heq)]
      rcases mem_cons.1 ht with ht | ht
      · exact absurd ht.symm heq
      · exact ih hrest ht hres

lemma level_le_of_previousDecisionLevel (h : sol.Coherent all)
    {last : Term P V × Assignment P V} {earlier : List (Term P V × Assignment P V)} {level : Nat}
    (hlas : mostRecentlySatisfied sol inc = some (last, earlier))
    (hpre : previousDecisionLevel sol last earlier = some level)
    {x : Term P V × Assignment P V} (hx : x ∈ earlier) : x.2.decisionLevel ≤ level := by
  rcases recent_eq_some hlas with ⟨_, hsat, hord⟩
  have hmem : ∀ y ∈ earlier, y.2 ∈ sol.assignments := fun y hy =>
    PartialSolution.mem_of_satisfier_eq_some (hsat y (.tail _ hy))
  rcases earlier with _ | ⟨second, others⟩
  · cases hx
  have hle : x.2.decisionLevel ≤ second.2.decisionLevel := by
    refine h.level_le_of_index_le (hmem x hx) (hmem second (by simp)) ?_
    rcases mem_cons.1 hx with rfl | hx
    · exact le_rfl
    · exact (pairwise_cons.1 (pairwise_cons.1 hord).2).1 x hx
  refine hle.trans ?_
  unfold previousDecisionLevel at hpre
  simp only [head?_cons, map_some, getD_some] at hpre
  split at hpre
  · cases hpre
    exact le_rfl
  · rcases map_eq_some_iff.1 hpre with ⟨partialSatisfier, _, rfl⟩
    exact le_max_left _ _

lemma verdict_backtrack (h : sol.Coherent all) (hwel : inc.WellFormed all)
    (hfai : inc.isFailure = false) {lvl : Nat}
    (hres : resolution sol inc = some (.backtrack lvl)) :
    ∃ t ∈ inc.terms, verdict (sol.backtrack lvl) none inc.terms = .unit t := by
  rcases resolution_eq_backtrack hres with ⟨last, ear, hlas, hpre, hbac⟩
  have hlt := level_lt_of_resolution h hwel hfai hlas hpre hbac
  have hone := one_le_of_resolution h hres
  rcases recent_eq_some hlas with ⟨hper, hsati, _⟩
  have hlasa := hsati last (by simp)
  have hlam : last.1 ∈ inc.terms := hper.mem_iff.1 (by simp)
  have hback := h.backtrack hone
  have hnot : ¬SatisfiedBy (upTo lvl sol.assignments) last.1 := by
    intro hsat
    exact absurd ((h.satisfiedAt_iff hlasa lvl).1 hsat) (Nat.not_le.2 hlt)
  refine ⟨last.1, hlam, verdict_eq_unit hwel.subjects.of_map hlam ?_ ?_ ?_⟩
  · intro u hu hne
    rcases mem_map.1 (hper.mem_iff.2 hu) with ⟨x, hx, rfl⟩
    rcases mem_cons.1 hx with rfl | hx
    · exact absurd rfl hne
    · have hxsa := hsati x (.tail _ hx)
      have hxle := level_le_of_previousDecisionLevel h hlas hpre hx
      exact hback.satisfies_iff_satBy.2 ((h.satisfiedAt_iff hxsa lvl).2 hxle)
  · cases hsat : (sol.backtrack lvl).satisfies last.1 with
    | true => exact absurd (hback.satisfies_iff_satBy.1 hsat) hnot
    | false => rfl
  · cases hexc : (sol.backtrack lvl).isIncompatible last.1 with
    | false => rfl
    | true =>
      exfalso
      rcases PartialSolution.isIncompatible_iff.1 hexc with ⟨old, hold, hnon⟩
      rw [hback.terms_eq] at hold
      rcases exists_eq_upTo_append lvl sol.assignments with ⟨rem, hspl, _⟩
      have hgro := h.grown
      rw [hspl] at hgro
      have hlat : SatisfiedBy (upTo lvl sol.assignments ++ rem) last.1 := by
        rw [← hspl]
        have hsat := (h.satBy_take_iff hlasa (last.2.index + 1)).2 (Nat.lt_succ_self _)
        have hall := h.satBy_take_mono (le_max_left _ sol.assignments.length) hsat
        rwa [take_of_length_le (le_max_right _ _)] at hall
      exact inter_ne_none_of_satBy hgro (hwel.isOver _ hlam) hlat hnot hold hnon

end Resolver
end Toolchain.SatResolver
