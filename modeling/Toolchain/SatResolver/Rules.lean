import Toolchain.Lib.MapM
import Toolchain.SatResolver.Coherence
import Toolchain.SatResolver.Resolver

/-!
# SatResolver.Rules — what each part of the solver can do

One statement for every function of the solver, from which the invariants of a run follow: unit
propagation derives the inverse of one open term or nothing, and conflict resolution goes back to a
lower level (`resolution_backtrack`) with one term for each subject
(`fromConflict_wf`).
-/

namespace Toolchain.SatResolver

open Lib List Function Term VersionConstraint Incompatibility Option PartialSolution

structure Incompatibility.WellFormed {P V : Type} (all : P → Finset V)
    (incompatibility : Incompatibility P V) : Prop where
  isOver : ∀ t ∈ incompatibility.terms, t.Over all
  subjects : (incompatibility.terms.map subject).Nodup

namespace Config

section Terms

variable {P V : Type} (config cfg : Config P V)

def NoSelfDependency : Prop :=
  ∀ p v, ∀ dependency ∈ config.dependenciesFor (.version p v), dependency.1 ≠ p

lemma require_over (p : P) (vers : Finset V) : (cfg.require p vers).Over cfg.allVersions := rfl

lemma exclude_over (p : P) (vers : Finset V) : (cfg.exclude p vers).Over cfg.allVersions := rfl

lemma satisfies_require_iff [DecidableEq V] (c : VersionConstraint P V) (p : P) (versions : Finset V) :
    (version c).satisfies (cfg.require p versions) = true ↔
    c.isPositive = true ∧ c.allowedVersions ⊆ cfg.allVersions p ∩ versions := by
  simp [require, Term.satisfies, VersionConstraint.satisfies_iff, VersionConstraint.allowedVersions]

variable {config cfg}

lemma dep_over (ver : PackageVersion P V) (dep : P × Finset V) :
    ∀ t ∈ (cfg.dependencyIncompatibility ver dep).terms, t.Over cfg.allVersions := by
  intro t ht
  have ht : t = cfg.dependeeTerm ver ∨ t = cfg.exclude dep.1 (cfg.pinned dep) := by
    simpa [dependencyIncompatibility, Incompatibility.terms] using ht
  rcases ht with rfl | rfl
  · cases ver with
    | root => trivial
    | version p v => rfl
  · exact cfg.exclude_over _ _

lemma dependency_wellFormed (hsel : cfg.NoSelfDependency) {ver : PackageVersion P V} {dep : P × Finset V}
    (hdep : dep ∈ cfg.dependenciesFor ver) :
    (cfg.dependencyIncompatibility ver dep).WellFormed cfg.allVersions := by
  refine { isOver := dep_over ver dep, subjects := ?_ }
  cases ver with
  | root => simp [dependencyIncompatibility, Incompatibility.terms, dependeeTerm, exclude, Term.subject]
  | version p v =>
    have hne : p ≠ dep.1 := (hsel p v dep hdep).symm
    simp [dependencyIncompatibility, Incompatibility.terms, dependeeTerm, require, exclude,
      Term.subject, hne]

end Terms

variable {P V : Type} [LinearOrder P] [LinearOrder V] {cfg : Config P V}

lemma bestVersionForPackage_mem (p : P) {validVersions : Finset V} (non : validVersions.Nonempty) :
    cfg.bestVersionForPackage p validVersions non ∈ validVersions := by
  unfold bestVersionForPackage
  rcases hloc : (cfg.locked p).filter fun v => v ∈ validVersions with _ | v
  · by_cases hdow : p ∈ cfg.downgrades
    · simpa [hdow] using validVersions.min'_mem non
    · simpa [hdow] using validVersions.max'_mem non
  · simpa using (filter_eq_some_iff.1 hloc).2

end Config

namespace Resolver

variable {P V : Type} [LinearOrder P] [LinearOrder V] {all : P → Finset V}
  {solution sol : PartialSolution P V} {incompatibility incomp : Incompatibility P V} {t : Term P V}

/-! ## Unit propagation -/

variable {terms ts : List (Term P V)} {earlier : List (Term P V × Assignment P V)}
  {mostRecentTerm satisfierTerm : Term P V} {last : Term P V × Assignment P V} {Q : Term P V → Prop}
  {level lvl : Nat}

section

omit [LinearOrder P]

/-- What the terms have to be for a verdict. -/
def Verdict.Sound (solution : PartialSolution P V) (terms : List (Term P V)) : Verdict P V → Prop
  | .conflict => ∀ t ∈ terms, solution.satisfies t = true
  | .unit t => t ∈ terms ∧ solution.satisfies t = false ∧ solution.isIncompatible t = false ∧
      ∀ u ∈ terms, u ≠ t → solution.satisfies u = true
  | .inconclusive => True

lemma verdict_some (sol : PartialSolution P V) (t : Term P V) (ts : List (Term P V)) :
    verdict sol (some t) ts = .inconclusive ∨
    verdict sol (some t) ts = .unit t ∧ ∀ u ∈ ts, sol.satisfies u = true := by
  induction ts with
  | nil => exact .inr ⟨rfl, nofun⟩
  | cons first rest ih =>
    unfold verdict
    by_cases hsat : sol.satisfies first = true <;> simp [hsat, ih]

lemma verdict_sound (sol : PartialSolution P V) (ts : List (Term P V)) :
    (verdict sol none ts).Sound sol ts := by
  induction ts with
  | nil => exact nofun
  | cons first rest ih =>
    unfold verdict
    by_cases hsat : sol.satisfies first = true
    · rw [if_pos hsat]
      cases hrest : verdict sol none rest with
      | inconclusive => trivial
      | conflict =>
        rw [hrest] at ih
        exact forall_mem_cons.2 ⟨hsat, ih⟩
      | unit t =>
        rw [hrest] at ih
        exact ⟨.tail _ ih.1, ih.2.1, ih.2.2.1, forall_mem_cons.2 ⟨fun _ => hsat, ih.2.2.2⟩⟩
    rw [if_neg hsat]
    split
    · trivial
    · rename_i hinc
      rcases verdict_some sol first rest with hres | ⟨hres, hall⟩ <;> rw [hres]
      · trivial
      · exact ⟨.head _, by simpa using hsat, by simpa using hinc,
          forall_mem_cons.2 ⟨fun hne => absurd rfl hne, fun u hu _ => hall u hu⟩⟩

lemma verdict_unit (h : verdict sol none ts = .unit t) : t ∈ ts ∧ sol.satisfies t = false ∧
    sol.isIncompatible t = false ∧ ∀ u ∈ ts, u ≠ t → sol.satisfies u = true := by
  have hsound := verdict_sound sol ts
  rwa [h] at hsound

lemma verdict_conflict (h : verdict sol none ts = .conflict) : ∀ u ∈ ts, sol.satisfies u = true := by
  have hsound := verdict_sound sol ts
  rwa [h] at hsound

lemma verdict_eq_conflict (h : ∀ u ∈ ts, sol.satisfies u = true) : verdict sol none ts = .conflict := by
  induction ts with
  | nil => rfl
  | cons first rest ih =>
    rcases forall_mem_cons.1 h with ⟨hfir, hres⟩
    rw [verdict, if_pos hfir]
    exact ih hres

end

lemma propagate_cases (sol : PartialSolution P V) (incompatibility : Incompatibility P V) :
    (propagateIncompatibility sol incompatibility).2 = sol ∨ ∃ t ∈ incompatibility.terms,
    sol.satisfies t = false ∧ sol.isIncompatible t = false ∧
    (propagateIncompatibility sol incompatibility).2 = sol.derive t.inverse incompatibility := by
  unfold propagateIncompatibility
  cases hver : verdict sol none incompatibility.terms with
  | conflict | inconclusive => exact .inl rfl
  | unit t =>
    rcases verdict_unit hver with ⟨hmem, hsat, hinc, -⟩
    exact .inr ⟨t, hmem, hsat, hinc, rfl⟩

lemma propagate_coherent (h : sol.Coherent all) (hove : ∀ t ∈ incomp.terms, t.Over all) :
    (propagateIncompatibility sol incomp).2.Coherent all := by
  rcases propagate_cases sol incomp with heq | ⟨t, ht, hsat, hinc, heq⟩
  · rwa [heq]
  · rw [heq]
    exact h.derive (hove t ht) hsat hinc incomp

lemma propagate_level (sol : PartialSolution P V) (inco : Incompatibility P V) :
    (propagateIncompatibility sol inco).2.decisionLevel =
    sol.decisionLevel := by
  rcases propagate_cases sol inco with heq | ⟨t, _, _, _, heq⟩
  · rw [heq]
  · rw [heq]
    rfl

lemma mem_propagate {a : Assignment P V}
    (ha : a ∈ (propagateIncompatibility solution incompatibility).2.assignments) :
    a ∈ solution.assignments ∨ ∃ t ∈ incompatibility.terms, a.term = t.inverse ∧
      a.cause = some incompatibility := by
  rcases propagate_cases solution incompatibility with heq | ⟨t, ht, _, _, heq⟩
  · rw [heq] at ha
    exact .inl ha
  rw [heq] at ha
  rcases mem_append.1 ha with ha | ha
  · exact .inl ha
  · obtain rfl := mem_singleton.1 ha
    exact .inr ⟨t, ht, rfl, rfl⟩

lemma satisfiedAt_propagate (h : solution.Coherent all)
    (hove : ∀ u ∈ incompatibility.terms, u.Over all) (ht : solution.SatisfiedAt lvl t) :
    (propagateIncompatibility solution incompatibility).2.SatisfiedAt lvl t := by
  have hcoh := propagate_coherent h hove
  rcases propagate_cases solution incompatibility with heq | ⟨u, _, _, _, heq⟩
  · rwa [heq]
  · rw [heq] at hcoh ⊢
    exact ht.append hcoh rfl

/-! ## Conflict resolution -/

lemma satisfiers_eq_some {pairs : List (Term P V × Assignment P V)} (h : (ts.mapM fun term =>
    (sol.satisfier term).map fun sat => (term, sat)) = some pairs) :
    pairs.map Prod.fst = ts ∧ ∀ x ∈ pairs, sol.satisfier x.1 = some x.2 := by
  have hfor := forall₂_of_mapM_eq_some h
  clear h
  induction hfor with
  | nil => simp
  | cons hx _ ih =>
    rcases map_eq_some_iff.1 hx with ⟨sat, hsat, rfl⟩
    refine ⟨by simp [ih.1], fun x hmem => ?_⟩
    rcases mem_cons.1 hmem with rfl | hmem
    · exact hsat
    · exact ih.2 x hmem

lemma recent_eq_some (h : mostRecentlySatisfied sol incomp = some (last, earlier)) :
    ((last :: earlier).map Prod.fst).Perm incomp.terms ∧
      (∀ x ∈ last :: earlier, sol.satisfier x.1 = some x.2) ∧
    (last :: earlier).Pairwise fun x y => y.2.index ≤ x.2.index := by
  let before := fun x y : Term P V × Assignment P V => x.2.index ≤ y.2.index
  have htot : Std.Total before := ⟨fun x y => Nat.le_total _ _⟩
  have htra : IsTrans _ before := ⟨fun x y z => Nat.le_trans⟩
  unfold mostRecentlySatisfied at h
  rcases hpai : (incomp.terms.mapM fun term =>
    (sol.satisfier term).map fun sat => (term, sat)) with _ | pairs
  · simp [hpai] at h
  rcases satisfiers_eq_some hpai with ⟨hfst, hsat⟩
  have hrev : (pairs.insertionSort before).reverse = last :: earlier := by
    rcases hsor : (pairs.insertionSort before).reverse with _ | ⟨x, xs⟩
    · simp [hpai, before, hsor] at h
    · simpa [hpai, before, hsor] using h
  have hper : (last :: earlier).Perm pairs := by
    rw [← hrev]
    exact (reverse_perm _).trans (perm_insertionSort before pairs)
  have hord : (last :: earlier).Pairwise fun x y => before y x := by
    rw [← hrev, pairwise_reverse]
    exact pairwise_insertionSort before pairs
  exact ⟨hfst ▸ hper.map Prod.fst, fun x hx => hsat x (hper.mem_iff.1 hx), hord⟩

lemma index_lt_of_recent (h : sol.Coherent all) (hwel : incomp.WellFormed all)
    {last x : Term P V × Assignment P V}
    (hlast : mostRecentlySatisfied sol incomp = some (last, earlier))
    (hx : x ∈ earlier) : x.2.index < last.2.index := by
  rcases recent_eq_some hlast with ⟨hper, hsat, hord⟩
  have hxsa := hsat x (.tail _ hx)
  have hlas := hsat last (by simp)
  refine lt_of_le_of_ne ((pairwise_cons.1 hord).1 x hx) fun heq => ?_
  have hsam := eq_of_index_eq h.grown (mem_of_satisfier_eq_some hxsa) (mem_of_satisfier_eq_some hlas) heq
  have hsub : x.1.subject = last.1.subject := by
    rw [← (satisfier_eq_some hxsa).1, hsam, (satisfier_eq_some hlas).1]
  have hnod := (hper.map subject).nodup_iff.2 hwel.subjects
  rw [map_cons, map_cons, nodup_cons] at hnod
  exact hnod.1 (hsub ▸ mem_map_of_mem (mem_map_of_mem hx))

lemma one_le_of_previousDecisionLevel (h : sol.Coherent all) {previous : Nat}
    (hear : ∀ x ∈ earlier, x.2 ∈ sol.assignments)
    (hpre : previousDecisionLevel sol last earlier = some previous) : 1 ≤ previous := by
  have hhea : 1 ≤ (earlier.head?.map fun x => x.2.decisionLevel).getD 1 := by
    cases earlier with
    | nil => exact le_refl 1
    | cons x xs => exact one_le_level h.grown (hear x (by simp))
  rcases hdif : last.2.term.difference last.1 with _ | difference
  · simp only [previousDecisionLevel, hdif, some.injEq] at hpre
    exact hpre ▸ hhea
  · simp only [previousDecisionLevel, hdif] at hpre
    rcases map_eq_some_iff.1 hpre with ⟨partialSatisfier, _, rfl⟩
    exact le_trans hhea (le_max_left _ _)

lemma two_le_level_of_decision (h : sol.Coherent all) {a : Assignment P V}
    (ha : a ∈ sol.assignments) (hdec : a.isDecision = true) (hroo : a.subject ≠ .root) :
    2 ≤ a.decisionLevel := by
  have hgro := h.grown
  rcases append_of_mem ha with ⟨bef, after, hspl⟩
  rw [hspl] at hgro
  rcases bef with _ | ⟨first, bef⟩
  · exact absurd (hgro.rel.first rfl).1 hroo
  have hfir : first ∈ sol.assignments := by simp [hspl]
  have hind : first.index < a.index := by
    have hzer := (Grown.rel (l := []) hgro).index
    rw [hzer, hgro.rel.index]
    simp
  calc 2 ≤ first.decisionLevel + 1 := Nat.succ_le_succ (one_le_level h.grown hfir)
    _ ≤ a.decisionLevel := level_lt_of_decision h.grown ha hfir hind hdec

lemma resolution_eq_backtrack (hres : resolution sol incomp = some (.backtrack level)) :
    ∃ last ear, mostRecentlySatisfied sol incomp = some (last, ear) ∧
      previousDecisionLevel sol last ear = some level ∧
    (last.2.isDecision = true ∨ level < last.2.decisionLevel) := by
  unfold resolution at hres
  rcases hlas : mostRecentlySatisfied sol incomp with _ | ⟨last, ear⟩
  · simp [hlas] at hres
  rcases hpre : previousDecisionLevel sol last ear with _ | prev
  · simp [hlas, hpre] at hres
  rcases hcau : last.2.cause with _ | cause
  · obtain rfl : prev = level := by simpa [hlas, hpre, hcau] using hres
    exact ⟨last, ear, rfl, hpre, .inl (by simp [Assignment.isDecision, hcau])⟩
  by_cases hlt : prev < last.2.decisionLevel
  · obtain rfl : prev = level := by simpa [hlas, hpre, hcau, hlt] using hres
    exact ⟨last, ear, rfl, hpre, .inr hlt⟩
  · simp [hlas, hpre, hcau, hlt] at hres

lemma one_le_of_resolution (h : sol.Coherent all)
    (hres : resolution sol incomp = some (.backtrack level)) : 1 ≤ level := by
  rcases resolution_eq_backtrack hres with ⟨last, ear, hlas, hpre, _⟩
  refine one_le_of_previousDecisionLevel h (fun x hx => ?_) hpre
  exact mem_of_satisfier_eq_some ((recent_eq_some hlas).2.1 x (.tail _ hx))

section

variable (h : sol.Coherent all) (hwel : incomp.WellFormed all) (hfai : incomp.isFailure = false)

include h hwel hfai

lemma level_lt_of_resolution (hlas : mostRecentlySatisfied sol incomp = some (last, earlier))
    (hpre : previousDecisionLevel sol last earlier = some level)
    (hbac : last.2.isDecision = true ∨ level < last.2.decisionLevel) :
    level < last.2.decisionLevel := by
  rcases recent_eq_some hlas with ⟨hper, hsat, _⟩
  have hmem : ∀ x ∈ last :: earlier, x.2 ∈ sol.assignments := fun x hx =>
    mem_of_satisfier_eq_some (hsat x hx)
  rcases hbac with hdec | hlt
  swap
  · exact hlt
  -- the last satisfier is a decision: the rest was satisfied at a lower level
  have hterm : last.1 ∈ incomp.terms := hper.mem_iff.1 (by simp)
  have hdif := h.difference_of_decision (hwel.isOver _ hterm) (hsat last (by simp)) hdec
  cases earlier with
  | nil =>
    obtain rfl : 1 = level := by simpa [previousDecisionLevel, hdif] using hpre
    refine two_le_level_of_decision h (hmem last (by simp)) hdec ?_
    -- a single term about the root is a failure
    rw [(satisfier_eq_some (hsat last (by simp))).1]
    intro hroo
    have hter : incomp.terms = [last.1] := by simpa using hper.symm.eq_singleton
    cases hla1 : last.1 with
    | version c => simp [hla1, subject] at hroo
    | root b => simp [isFailure, hter, hla1] at hfai
  | cons x xs =>
    obtain rfl : x.2.decisionLevel = level := by simpa [previousDecisionLevel, hdif] using hpre
    exact level_lt_of_decision h.grown (hmem last (by simp)) (hmem x (by simp))
      (index_lt_of_recent h hwel hlas (by simp)) hdec

lemma resolution_backtrack (hres : resolution sol incomp = some (.backtrack lvl)) :
    1 ≤ lvl ∧ lvl < sol.decisionLevel := by
  rcases resolution_eq_backtrack hres with ⟨last, ear, hlas, hpre, hbac⟩
  have hmem := mem_of_satisfier_eq_some ((recent_eq_some hlas).2.1 last (by simp))
  exact ⟨one_le_of_resolution h hres, lt_of_lt_of_le
    (level_lt_of_resolution h hwel hfai hlas hpre hbac) (h.level_le hmem)⟩

end

lemma resolution_replace {new : Incompatibility P V} (hres : resolution sol incomp = some (.replace new)) :
    ∃ last ear cause, mostRecentlySatisfied sol incomp = some (last, ear) ∧ last.2.cause = some cause ∧
    createIncompatibilityFromConflict incomp last.1 last.2.term cause = some new := by
  unfold resolution at hres
  rcases hlas : mostRecentlySatisfied sol incomp with _ | ⟨last, ear⟩
  · simp [hlas] at hres
  rcases hpre : previousDecisionLevel sol last ear with _ | prev
  · simp [hlas, hpre] at hres
  rcases hcau : last.2.cause with _ | cause
  · simp [hlas, hpre, hcau] at hres
  by_cases hlt : prev < last.2.decisionLevel
  · simp [hlas, hpre, hcau, hlt] at hres
  · refine ⟨last, ear, cause, rfl, hcau, ?_⟩
    simpa [hlas, hpre, hcau, hlt] using hres

/-! ## Merged terms -/

lemma mergeTerm_cons {old : Term P V} {rest merged : List (Term P V)}
    (h : mergeTerm (old :: rest) t = some merged) :
    (old.subject = t.subject ∧ ∃ new, old.intersect t = some new ∧ new :: rest = merged) ∨
    old.subject ≠ t.subject ∧ ∃ new, mergeTerm rest t = some new ∧ old :: new = merged := by
  unfold mergeTerm at h
  split at h
  · exact .inl ⟨‹_›, map_eq_some_iff.1 h⟩
  · exact .inr ⟨‹_›, map_eq_some_iff.1 h⟩

lemma mergeTerm_forall (hint : ∀ a b c, Q a → Q b → a.subject = b.subject → a.intersect b = some c → Q c)
    {ts merged : List (Term P V)} (hter : ∀ u ∈ ts, Q u) (ht : Q t)
    (h : mergeTerm ts t = some merged) : ∀ u ∈ merged, Q u := by
  induction ts generalizing merged with
  | nil =>
    obtain rfl : [t] = merged := by simpa [mergeTerm] using h
    simpa using ht
  | cons old rest ih =>
    rcases forall_mem_cons.1 hter with ⟨hold, hres⟩
    rcases mergeTerm_cons h with ⟨hsub, new, hnew, rfl⟩ | ⟨_, new, hnew, rfl⟩
    · exact forall_mem_cons.2 ⟨hint old t new hold ht hsub hnew, hres⟩
    · exact forall_mem_cons.2 ⟨hold, ih hres hnew⟩

lemma mergeTerm_subjects {ts merged : List (Term P V)} (hter : ∀ u ∈ ts, u.Over all)
    (ht : t.Over all) (h : mergeTerm ts t = some merged) :
    (∀ u ∈ merged, u.Over all) ∧ merged.map subject = if t.subject ∈ ts.map subject then ts.map subject
    else ts.map subject ++ [t.subject] := by
  refine ⟨mergeTerm_forall (fun _ _ _ ha hb hsub hint => (ha.intersect hb hsub hint).1) hter ht h, ?_⟩
  induction ts generalizing merged with
  | nil =>
    obtain rfl : [t] = merged := by simpa [mergeTerm] using h
    simp
  | cons old rest ih =>
    rcases forall_mem_cons.1 hter with ⟨hold, hres⟩
    rcases mergeTerm_cons h with ⟨hsub, new, hnew, rfl⟩ | ⟨hsub, new, hnew, rfl⟩
    · simp [(hold.intersect ht hsub hnew).2, hsub]
    · rw [map_cons, ih hres hnew, map_cons]
      by_cases hmem : t.subject ∈ rest.map subject
      · rw [if_pos hmem, if_pos (.tail _ hmem)]
      · rw [if_neg hmem, if_neg, cons_append]
        simp only [mem_cons, not_or]
        exact ⟨Ne.symm hsub, hmem⟩

lemma foldlM_mergeTerm_forall
    (hint : ∀ a b c, Q a → Q b → a.subject = b.subject → a.intersect b = some c → Q c)
    {ts acc merged : List (Term P V)} (hacc : ∀ u ∈ acc, Q u) (hter : ∀ u ∈ ts, Q u)
    (h : ts.foldlM mergeTerm acc = some merged) : ∀ u ∈ merged, Q u := by
  induction ts generalizing acc with
  | nil =>
    obtain rfl : acc = merged := by simpa using h
    exact hacc
  | cons t rest ih =>
    rw [foldlM_cons] at h
    rcases bind_eq_some_iff.1 h with ⟨next, hnex, h⟩
    exact ih (mergeTerm_forall hint hacc (hter t (by simp)) hnex) (fun u hu => hter u (.tail _ hu)) h

lemma mergeTerm_isSome (hsom : ∀ a b, Q a → Q b → a.subject = b.subject → ∃ c, a.intersect b = some c)
    (hter : ∀ u ∈ ts, Q u) (ht : Q t) :
    ∃ merged, mergeTerm ts t = some merged := by
  induction ts with
  | nil => exact ⟨[t], rfl⟩
  | cons old rest ih =>
    rcases forall_mem_cons.1 hter with ⟨hold, hres⟩
    unfold mergeTerm
    by_cases hsub : old.subject = t.subject
    · rcases hsom old t hold ht hsub with ⟨new, hnew⟩
      exact ⟨new :: rest, by rw [if_pos hsub, hnew]; rfl⟩
    · rcases ih hres with ⟨merged, hmer⟩
      exact ⟨old :: merged, by rw [if_neg hsub, hmer]; rfl⟩

lemma foldlM_mergeTerm_isSome
    (hint : ∀ a b c, Q a → Q b → a.subject = b.subject → a.intersect b = some c → Q c)
    (hsom : ∀ a b, Q a → Q b → a.subject = b.subject → ∃ c, a.intersect b = some c)
    {ts acc : List (Term P V)} (hacc : ∀ u ∈ acc, Q u) (hter : ∀ u ∈ ts, Q u) :
    ∃ merged, ts.foldlM mergeTerm acc = some merged := by
  induction ts generalizing acc with
  | nil => exact ⟨acc, rfl⟩
  | cons t rest ih =>
    rcases forall_mem_cons.1 hter with ⟨ht, hres⟩
    rcases mergeTerm_isSome hsom hacc ht with ⟨next, hnex⟩
    rcases ih (mergeTerm_forall hint hacc ht hnex) hres with ⟨merged, hmer⟩
    refine ⟨merged, ?_⟩
    rwa [foldlM_cons, hnex]

lemma foldlM_mergeTerm_wf {ts acc merged : List (Term P V)}
    (hacc : ∀ u ∈ acc, u.Over all) (hnod : (acc.map subject).Nodup)
    (hter : ∀ u ∈ ts, u.Over all) (h : ts.foldlM mergeTerm acc = some merged) :
    (∀ u ∈ merged, u.Over all) ∧ (merged.map subject).Nodup := by
  induction ts generalizing acc with
  | nil =>
    obtain rfl : acc = merged := by simpa using h
    exact ⟨hacc, hnod⟩
  | cons t rest ih =>
    rw [foldlM_cons] at h
    rcases bind_eq_some_iff.1 h with ⟨next, hnex, h⟩
    rcases mergeTerm_subjects hacc (hter t (by simp)) hnex with ⟨hove, hsub⟩
    refine ih hove ?_ (fun u hu => hter u (.tail _ hu)) h
    rw [hsub]
    split
    · exact hnod
    rename_i hmem
    exact nodup_append.2 ⟨hnod, by simp, by
      intro x hx y hy heq
      rw [mem_singleton] at hy
      exact hmem (hy ▸ heq ▸ hx)⟩

lemma mem_newTerms {cause : Incompatibility P V} :
    t ∈ newTerms incomp mostRecentTerm satisfierTerm cause ↔ (t ∈ incomp.terms ∧ t ≠ mostRecentTerm) ∨
    (t ∈ cause.terms ∧ t.subject ≠ satisfierTerm.subject) ∨
    ∃ d, satisfierTerm.difference mostRecentTerm = some d ∧ d.inverse = t := by
  simp [newTerms]

lemma newTerms_over {cause : Incompatibility P V}
    (hove : ∀ t ∈ incomp.terms, t.Over all) (hcau : ∀ t ∈ cause.terms, t.Over all)
    (hsat : satisfierTerm.Over all) :
    ∀ u ∈ newTerms incomp mostRecentTerm satisfierTerm cause, u.Over all := by
  intro u hu
  rcases mem_newTerms.1 hu with ⟨hu, _⟩ | ⟨hu, _⟩ | ⟨d, hd, rfl⟩
  · exact hove u hu
  · exact hcau u hu
  · exact (hsat.difference hd).1.inverse

lemma fromConflict_wf {cause new : Incompatibility P V} (hove : ∀ t ∈ incomp.terms, t.Over all)
    (hcau : ∀ t ∈ cause.terms, t.Over all) (hsat : satisfierTerm.Over all)
    (h : createIncompatibilityFromConflict incomp mostRecentTerm satisfierTerm cause =
    some new) : new.WellFormed all := by
  rcases map_eq_some_iff.1 h with ⟨ts, hter, rfl⟩
  have hmer := foldlM_mergeTerm_wf (by simp) (by simp) (newTerms_over hove hcau hsat) hter
  exact { isOver := hmer.1, subjects := hmer.2 }

/-! ## The table of incompatibilities -/

variable {self : Resolver P V}

section Table

variable (incompatibility incomp) (tbl : Subject P → List (Incompatibility P V))

section

omit [LinearOrder V]

lemma foldl_table_grows (ts : List (Term P V)) (subject : Subject P) :
    tbl subject <+: ts.foldl (fun tbl term =>
    update tbl term.subject (tbl term.subject ++ [incomp]))
    tbl subject := by
  induction ts generalizing tbl with
  | nil => exact prefix_refl _
  | cons term rest ih =>
    refine .trans ?_ (ih _)
    by_cases hsub : subject = term.subject
    · subst hsub
      simp
    · simp [update_of_ne hsub]

lemma mem_foldl_table {subj : Subject P} {x : Incompatibility P V}
    (hx : x ∈ ts.foldl (fun tbl term => update tbl term.subject (tbl term.subject ++ [incompatibility]))
    tbl subj) : x ∈ tbl subj ∨ x = incompatibility := by
  induction ts generalizing tbl with
  | nil => exact .inl hx
  | cons term rest ih =>
    rcases ih _ hx with hx | hx
    · by_cases hsub : subj = term.subject
      · subst hsub
        simpa using hx
      · exact .inl (by simpa [update_of_ne hsub] using hx)
    · exact .inr hx

lemma mem_foldl_table_self (ht : t ∈ ts) : incomp ∈ ts.foldl (fun tbl term =>
    update tbl term.subject (tbl term.subject ++ [incomp]))
    tbl t.subject := by
  induction ts generalizing tbl with
  | nil => cases ht
  | cons term rest ih =>
    rcases mem_cons.1 ht with rfl | ht
    · exact (foldl_table_grows incomp _ rest t.subject).subset (by simp)
    · exact ih _ ht

end

end Table

structure Extends (old new : Resolver P V) (added : List (Incompatibility P V)) : Prop where
  grows : ∀ subject, old.incompatibilities subject <+: new.incompatibilities subject
  only : ∀ subject, ∀ x ∈ new.incompatibilities subject, x ∈ old.incompatibilities subject ∨ x ∈ added
  complete : ∀ x ∈ added, ∀ t ∈ x.terms, x ∈ new.incompatibilities t.subject
  solution_eq : new.solution = old.solution
  listed_eq : new.haveListedIncompatibilities = old.haveListedIncompatibilities
  control_eq : new.control = old.control

variable {terms ts : List (Term P V)} (self : Resolver P V)

section

omit [LinearOrder V]

lemma extends_add (inco : Incompatibility P V) : Extends self (self.addIncompatibility inco) [inco] where
  grows subject := foldl_table_grows inco self.incompatibilities _ subject
  only subject x hx := by simpa using mem_foldl_table inco self.incompatibilities hx
  complete x hx t ht := by
    obtain rfl := mem_singleton.1 hx
    exact mem_foldl_table_self x self.incompatibilities ht
  solution_eq := rfl
  listed_eq := rfl
  control_eq := rfl

lemma extends_foldl_add (incompatibilities : List (Incompatibility P V)) :
    Extends self (incompatibilities.foldl addIncompatibility self) incompatibilities := by
  induction incompatibilities generalizing self with
  | nil =>
    exact
      { grows := fun _ => prefix_refl _, only := fun _ _ hx => .inl hx, complete := fun _ hx => by cases hx
        solution_eq := rfl, listed_eq := rfl, control_eq := rfl }
  | cons first rest ih =>
    have hfir := extends_add self first
    have hres := ih (self.addIncompatibility first)
    refine
      { grows := fun subject => (hfir.grows subject).trans (hres.grows subject), only := ?_, complete := ?_
        solution_eq := hres.solution_eq.trans hfir.solution_eq
        listed_eq := hres.listed_eq.trans hfir.listed_eq
        control_eq := hres.control_eq.trans hfir.control_eq }
    · intro subject x hx
      rcases hres.only subject x hx with hx | hx
      · rcases hfir.only subject x hx with hx | hx
        · exact .inl hx
        · exact .inr (by simp_all)
      · exact .inr (.tail _ hx)
    · intro x hx t ht
      rcases mem_cons.1 hx with rfl | hx
      · exact (hres.grows _).subset (hfir.complete x (by simp) t ht)
      · exact hres.complete x hx t ht

lemma haveUsed_foldl_add (incs : List (Incompatibility P V)) :
    (incs.foldl addIncompatibility self).haveUsedLatest = self.haveUsedLatest ∧
    (incs.foldl addIncompatibility self).haveUsedLocked = self.haveUsedLocked := by
  induction incs generalizing self with
  | nil => exact ⟨rfl, rfl⟩
  | cons first rest ih => exact ih (self.addIncompatibility first)

end

/-! ## Choosing a package -/

structure Undecided (solution : PartialSolution P V) (constraint : VersionConstraint P V) :
    Prop where
  terms_eq : solution.terms (.package constraint.packageName) = some (.version constraint)
  positive : constraint.isPositive = true
  undecided : solution.isDecided (.package constraint.packageName) = false

lemma exists_mem_of_accum {asgs : List (Assignment P V)} {subject : Subject P}
    (h : accumulated asgs subject = some t) : ∃ a ∈ asgs, a.subject = subject := by
  by_contra hnon
  have hemp : (asgs.filter fun a => a.subject = subject) = [] := by
    rw [filter_eq_nil_iff]
    intro a ha hsub
    exact hnon ⟨a, ha, by simpa using hsub⟩
  simp [accumulated, hemp] at h

section

variable (h : sol.Coherent all) (hter : sol.unsatisfied = some ts)

include h hter

lemma mem_unsat_iff :
    t ∈ ts ↔ sol.terms t.subject = some t ∧ t.isPositive = true ∧ sol.isDecided t.subject = false := by
  unfold unsatisfied at hter
  rcases map_eq_some_iff.1 hter with ⟨found, hfou, rfl⟩
  rw [mem_filter, mem_of_mapM_eq_some hfou]
  constructor
  · rintro ⟨⟨subject, _, hsub⟩, hope⟩
    have hacc := hsub
    rw [h.terms_eq] at hacc
    rw [(accum_over h.grown hacc).2] at hope ⊢
    exact ⟨hsub, by simpa using hope⟩
  · rintro ⟨hsub, hope⟩
    have hacc := hsub
    rw [h.terms_eq] at hacc
    rcases exists_mem_of_accum hacc with ⟨a, ha, hasu⟩
    refine ⟨⟨t.subject, ?_, hsub⟩, by simpa using hope⟩
    rw [mem_dedup, ← hasu]
    exact mem_map_of_mem ha

lemma undecided_of_mem {constraint : VersionConstraint P V}
    (hmem : version constraint ∈ ts) : Undecided sol constraint := by
  rcases (mem_unsat_iff h hter).1 hmem with ⟨htee, hpos, hund⟩
  exact { terms_eq := htee, positive := hpos, undecided := hund }

end

omit [LinearOrder P] [LinearOrder V] in
lemma mem_of_mapM_constraint {constraints : List (VersionConstraint P V)}
    (h : terms.mapM constraint? = some constraints) {constraint : VersionConstraint P V}
    (hmem : constraint ∈ constraints) : version constraint ∈ terms := by
  rcases (mem_of_mapM_eq_some h constraint).1 hmem with ⟨term, hter, hcon⟩
  cases term with
  | version x =>
    obtain rfl : x = constraint := by simpa [constraint?] using hcon
    exact hter
  | root b => simp [constraint?] at hcon

end Resolver

end Toolchain.SatResolver
