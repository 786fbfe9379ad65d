import Toolchain.SatResolver.Validity

/-!
# SatResolver.Justification — why an assignment was made

A derivation is made because all other terms of its cause hold by then, a decision because its package
is required by then.  Conflict resolution goes back along these facts, and comes at every round to an
incompatibility that was satisfied earlier.
-/

namespace Toolchain.SatResolver

open Lib List PartialSolution Term Grown

structure Justified {P V : Type} [DecidableEq P] [DecidableEq V]
    (before : List (Assignment P V)) (a : Assignment P V) : Prop where
  derivation : ∀ cause, a.cause = some cause →
    ∃ t ∈ cause.terms, a.term = t.inverse ∧ ∀ u ∈ cause.terms, u ≠ t → SatisfiedBy before u
  decision : a.isDecision = true → before ≠ [] → ∃ t, accumulated before a.subject = some t ∧
    t.isPositive = true

namespace PartialSolution

variable {P V : Type} [DecidableEq P] [DecidableEq V] {all : P → Finset V}
  {self : PartialSolution P V} {t : Term P V}

/-! ## Where a term was satisfied -/

lemma Coherent.grown_take (h : self.Coherent all) (n : Nat) :
    Grown (Assigned all) (self.assignments.take n) := by
  have hgro := h.grown
  rw [← take_append_drop n self.assignments] at hgro
  exact hgro.of_append

lemma Coherent.satBy_take_mono (h : self.Coherent all) {m n : Nat} (hle : m ≤ n)
    (ht : SatisfiedBy (self.assignments.take m) t) : SatisfiedBy (self.assignments.take n) t := by
  rcases take_prefix_take_left (l := self.assignments) hle with ⟨rest, hres⟩
  have hgro := h.grown_take n
  rw [← hres] at hgro ⊢
  exact ht.append hgro

variable {a : Assignment P V}

section

variable (h : self.Coherent all)

include h

lemma Coherent.index_eq {bef after : List (Assignment P V)} (hspl : self.assignments = bef ++ a :: after) :
    a.index = bef.length ∧ bef = self.assignments.take a.index := by
  have hgro := h.grown
  rw [hspl] at hgro
  have hind := hgro.rel.index
  refine ⟨hind, ?_⟩
  rw [hind, hspl, take_left]

lemma Coherent.satBy_take_iff (hsat : self.satisfier t = some a) (n : Nat) :
    SatisfiedBy (self.assignments.take n) t ↔ a.index < n := by
  rcases satisfier_eq_some hsat with ⟨_, bef, after, hspl, hbef, haft⟩
  rcases h.index_eq hspl with ⟨hlen, htak⟩
  have hnex : bef ++ [a] = self.assignments.take (a.index + 1) := by
    have hpre : bef ++ [a] <+: self.assignments := ⟨after, by simp [hspl]⟩
    simpa [hlen] using prefix_iff_eq_take.1 hpre
  constructor
  · intro hn
    by_contra hle
    apply hbef
    rw [htak]
    exact h.satBy_take_mono (Nat.not_lt.1 hle) hn
  · intro hlt
    rw [hnex] at haft
    exact h.satBy_take_mono hlt haft

lemma Coherent.level_le_of_index_le {a b : Assignment P V}
    (ha : a ∈ self.assignments) (hb : b ∈ self.assignments) (hind : a.index ≤ b.index) :
    a.decisionLevel ≤ b.decisionLevel := by
  rcases hind.eq_or_lt with heq | hlt
  · rw [eq_of_index_eq h.grown ha hb heq]
  rcases append_of_mem hb with ⟨bef, after, hspl⟩
  have hgro := h.grown
  rw [hspl] at hgro ha
  have hmem := mem_before_of_index_lt hgro ha hlt
  have hsor := levels_sorted hgro
  exact (pairwise_append.1 hsor).2.2 a hmem b (by simp)

lemma Coherent.upTo_eq_take (level : Nat) : ∃ n, upTo level self.assignments = self.assignments.take n ∧
    ∀ a ∈ self.assignments, a.index < n ↔ a.decisionLevel ≤ level := by
  rcases exists_eq_upTo_append level self.assignments with ⟨rem, hspl, hrem⟩
  refine ⟨(upTo level self.assignments).length, ?_, fun a ha => ?_⟩
  · exact prefix_iff_eq_take.1 ⟨rem, hspl.symm⟩
  · rcases append_of_mem ha with ⟨bef, after, hspa⟩
    rcases h.index_eq hspa with ⟨hlen, htak⟩
    constructor
    · intro hlt
      have hmem : a ∈ upTo level self.assignments := by
        rw [mem_iff_getElem?]
        refine ⟨a.index, ?_⟩
        have hget : self.assignments[a.index]? = some a := by
          rw [hlen, hspa]
          simp
        rw [hspl, getElem?_append_left hlt] at hget
        exact hget
      exact ((h.mem_upTo level a).1 hmem).2
    · intro hle
      by_contra hnot
      -- the assignment is among those above the level
      have hget : self.assignments[a.index]? = some a := by
        rw [hlen, hspa]
        simp
      rw [hspl, getElem?_append_right (Nat.not_lt.1 hnot)] at hget
      exact absurd hle (Nat.not_le.2 (hrem a (mem_of_getElem? hget)))

lemma Coherent.satisfiedAt_iff (hsat : self.satisfier t = some a) (level : Nat) :
    self.SatisfiedAt level t ↔ a.decisionLevel ≤ level := by
  rcases h.upTo_eq_take level with ⟨n, htak, hlev⟩
  rw [← hlev a (mem_of_satisfier_eq_some hsat), ← h.satBy_take_iff hsat n, ← htak]
  rfl

lemma justified_take (hjus : Grown Justified self.assignments) (ha : a ∈ self.assignments) :
    Justified (self.assignments.take a.index) a := by
  rcases append_of_mem ha with ⟨bef, after, hspl⟩
  rw [← (h.index_eq hspl).2]
  rw [hspl] at hjus
  exact hjus.rel

end

end PartialSolution

namespace Resolver

variable {P V : Type} [LinearOrder P] [LinearOrder V] {all : P → Finset V}
  {sol : PartialSolution P V} {inc : Incompatibility P V}

/-! ## What conflict resolution comes to -/

lemma satBy_inverse_difference (h : sol.Coherent all) {t d : Term P V}
    {a : Assignment P V} (hsati : sol.satisfier t = some a)
    (hd : a.term.difference t = some d) :
    SatisfiedBy (sol.assignments.take a.index) d.inverse := by
  rcases satisfier_eq_some hsati with
    ⟨hsub, before, after, hspl, _, new, hnew, hsat⟩
  rw [← (h.index_eq hspl).2]
  have hgro := h.grown
  rw [hspl] at hgro
  have ha := hgro.rel
  have hdsu : d.inverse.subject = a.subject := by
    rw [subject_inverse, (ha.isOver.difference hd).2]
    rfl
  rw [accum_concat, if_pos hsub] at hnew
  rcases hold : accumulated before t.subject with _ | old
  · -- the satisfier was the first assignment, and leaves nothing open
    rw [hold] at hnew
    obtain rfl := Option.some.inj hnew
    rw [difference_eq_none_of_satisfies hsat] at hd
    cases hd
  · rw [hold] at hnew
    rcases accum_over hgro.of_append hold with ⟨hove, hols⟩
    refine ⟨old, by rw [hdsu, hsub, hold], ?_⟩
    exact satisfies_inverse_difference hove ha.isOver (hols.trans hsub.symm) hnew hsat hd

lemma newTerms_satBy (h : sol.Coherent all) (hjus : Grown Justified sol.assignments)
    (hwel : inc.WellFormed all)
    {last : Term P V × Assignment P V} {ear : List (Term P V × Assignment P V)}
    (hlas : mostRecentlySatisfied sol inc = some (last, ear))
    {cause : Incompatibility P V} (hcau : last.2.cause = some cause) :
    ∀ u ∈ newTerms inc last.1 last.2.term cause, SatisfiedBy (sol.assignments.take last.2.index) u := by
  rcases recent_eq_some hlas with ⟨hper, hsat, _⟩
  have hlasa := hsat last (by simp)
  intro u hu
  rcases mem_newTerms.1 hu with ⟨hu, hne⟩ | ⟨hu, hsub⟩ | ⟨d, hd, rfl⟩
  · rcases mem_map.1 (hper.mem_iff.2 hu) with ⟨x, hx, rfl⟩
    rcases mem_cons.1 hx with rfl | hx
    · exact absurd rfl hne
    · rw [h.satBy_take_iff (hsat x (.tail _ hx))]
      exact index_lt_of_recent h hwel hlas hx
  · have hmem := mem_of_satisfier_eq_some hlasa
    rcases (justified_take h hjus hmem).derivation cause hcau with
      ⟨t, _, hter, hoth⟩
    refine hoth u hu fun heq => hsub ?_
    rw [heq, hter, subject_inverse]
  · exact satBy_inverse_difference h hlasa hd

lemma satBy_inter {asgs : List (Assignment P V)} {a b c : Term P V}
    (ha : a.Over all ∧ SatisfiedBy asgs a) (hb : b.Over all ∧ SatisfiedBy asgs b)
    (hsub : a.subject = b.subject) (h : a.intersect b = some c) :
    c.Over all ∧ SatisfiedBy asgs c := by
  rcases ha with ⟨ha, cur, hcur, hsat⟩
  rcases hb with ⟨hb, current', hcur', hsat'⟩
  rcases ha.intersect hb hsub h with ⟨hc, hcsu⟩
  obtain rfl : cur = current' := by
    rw [← hsub, hcur] at hcur'
    exact Option.some.inj hcur'
  exact ⟨hc, cur, by rw [hcsu, hcur], satisfies_inter ha hb hsub h hsat hsat'⟩

lemma satBy_of_replace (h : sol.Coherent all) (hjus : Grown Justified sol.assignments)
    (hwel : inc.WellFormed all)
    {last : Term P V × Assignment P V} {ear : List (Term P V × Assignment P V)}
    (hlas : mostRecentlySatisfied sol inc = some (last, ear))
    {cause new : Incompatibility P V} (hcau : last.2.cause = some cause)
    (hcao : ∀ t ∈ cause.terms, t.Over all)
    (hnew : createIncompatibilityFromConflict inc last.1 last.2.term cause = some new) :
    ∀ u ∈ new.terms, SatisfiedBy (sol.assignments.take last.2.index) u := by
  have hmem := mem_of_satisfier_eq_some ((recent_eq_some hlas).2.1 last (by simp))
  rcases append_of_mem hmem with ⟨bef, after, hspl⟩
  have hgro := h.grown
  rw [hspl] at hgro
  have hove : ∀ t ∈ newTerms inc last.1 last.2.term cause, t.Over all :=
    newTerms_over hwel.isOver hcao hgro.rel.isOver
  have hsat := newTerms_satBy h hjus hwel hlas hcau
  rcases Option.map_eq_some_iff.1 hnew with ⟨terms, hter, rfl⟩
  intro u hu
  exact (foldlM_mergeTerm_forall
    (Q := fun t => t.Over all ∧ SatisfiedBy (sol.assignments.take last.2.index) t)
    (fun _ _ _ => satBy_inter) (by simp)
    (fun t ht => ⟨hove t ht, hsat t ht⟩) hter u hu).2

/-! ## Runs -/

variable {cfg : Config P V} {self : Resolver P V}

structure Supported (resolver : Resolver P V) : Prop where
  justified : Grown Justified resolver.solution.assignments
  conflicting : ∀ conflict current scanned next changed,
    resolver.control = .resolve conflict current scanned next changed →
      ∀ t ∈ current.terms, resolver.solution.satisfies t = true

section

variable (h : sol.Coherent all) (hjus : Grown Justified sol.assignments)

include h hjus

lemma justified_derive {t : Term P V} (hver : verdict sol none inc.terms = .unit t) :
    Grown Justified (sol.derive t.inverse inc).assignments := by
  refine concat hjus { derivation := ?_, decision := ?_ }
  · intro cause hcau
    cases hcau
    refine ⟨t, (verdict_unit hver).1, rfl, fun u hu hne => ?_⟩
    exact h.satisfies_iff_satBy.1 ((verdict_unit hver).2.2.2 u hu hne)
  · intro hdec
    cases hdec

lemma justified_propagate : Grown Justified (propagateIncompatibility sol inc).2.assignments := by
  unfold propagateIncompatibility
  cases hver : verdict sol none inc.terms with
  | conflict | inconclusive => exact hjus
  | unit t => exact justified_derive h hjus hver

end

lemma justified_backtrack (hjus : Grown Justified sol.assignments) (lvl : Nat) :
    Grown Justified (sol.backtrack lvl).assignments := by
  rcases sol.exists_backtrack_eq lvl with ⟨rem, hspl, heq⟩
  rw [hspl] at hjus
  rw [heq]
  exact hjus.of_append

lemma justified_decideVersion (h : self.solution.Coherent all)
    (hjus : Grown Justified self.solution.assignments) {con : VersionConstraint P V}
    (hund : Undecided self.solution con) (ver : V) :
    Grown Justified (self.decideVersion cfg con.packageName ver).solution.assignments := by
  unfold Resolver.decideVersion
  simp only
  split
  · exact hjus
  rw [decide_assigned]
  refine concat hjus { derivation := fun cause hcau => ?_, decision := fun _ _ => ?_ }
  · cases hcau
  · refine ⟨.version con, ?_, hund.positive⟩
    rw [← h.terms_eq]
    exact hund.terms_eq

lemma Supported.setControl {old new : Resolver P V} (h : Supported old)
    (hsol : new.solution = old.solution)
    (hcon : ∀ conflict cur scanned next changed,
    new.control ≠ .resolve conflict cur scanned next changed) : Supported new where
  justified := hsol ▸ h.justified
  conflicting conflict cur scanned next changed hres :=
    absurd hres (hcon conflict cur scanned next changed)

lemma supported_step {old new : Resolver P V} (hcons : Consistent cfg old)
    (h : Supported old) (hste : Step cfg old new) : Supported new := by
  have hcoh := hcons.coherent
  cases hste with
  | conflict hcon hnex hver =>
    refine { justified := h.justified, conflicting := fun _ _ _ _ _ hres => ?_ }
    cases hres
    exact verdict_conflict hver
  | derive hcon hnex hver =>
    exact
      { justified := justified_derive hcoh h.justified hver
        conflicting := fun _ _ _ _ _ hres => by cases hres }
  | @backjump conflict cur sca next chan level hcon hfai hreso =>
    have hlev := one_le_of_resolution hcoh hreso
    exact
      { justified := justified_propagate (hcoh.backtrack hlev) (justified_backtrack h.justified level)
        conflicting := fun _ _ _ _ _ hres => by cases hres }
  | @replace conflict cur new sca next chan hcon hfai hreso =>
    have hwel := hcons.wf_of_resolve hcon
    refine { justified := h.justified, conflicting := fun _ _ _ _ _ hres => ?_ }
    cases hres
    rcases resolution_replace hreso with ⟨last, ear, cause, hlas, hcau, hnew⟩
    have hmem := mem_of_satisfier_eq_some ((recent_eq_some hlas).2.1 last (by simp))
    intro t ht
    have hbef := satBy_of_replace hcoh h.justified hwel hlas hcau
      (hcons.causes last.2 hmem cause hcau).1.isOver hnew t ht
    have hgro := hcoh.grown
    rw [← take_append_drop last.2.index old.solution.assignments] at hgro
    have hsat := hbef.append hgro
    rw [take_append_drop] at hsat
    exact hcoh.satisfies_iff_satBy.2 hsat
  | decide hoff hlat hloc hval =>
    exact
      { justified := justified_decideVersion hcoh h.justified (hoff.undecided hcoh) _
        conflicting := fun _ _ _ _ _ hres => by cases hres }
  | halt hcon => exact h
  | _ => exact h.setControl rfl (by rintro _ _ _ _ _ hres; cases hres)

lemma supported_root (cfg : Config P V) : Supported (setupRoot cfg) := by
  have hsol := solution_root cfg
  have hcon := control_root cfg
  refine { justified := ?_, conflicting := ?_ }
  · rw [hsol, decide_assigned]
    refine concat nil { derivation := ?_, decision := fun _ hne => absurd rfl hne }
    intro cause hcau
    cases hcau
  · intro conflict cur sca next chan hres
    rw [hcon] at hres
    cases hres

lemma supported_run (hsel : cfg.NoSelfDependency) (sts : Nat) : Supported (run cfg sts) := by
  refine (run_induction cfg (I := fun res => Consistent cfg res ∧
    Supported res) ⟨consistent_root hsel, supported_root cfg⟩ ?_ sts).2
  intro old new h hste
  exact ⟨consistent_step hsel h.1 hste, supported_step h.1 h.2 hste⟩

/-- Every derivation is forced by the assignments before it, and the incompatibility that conflict
resolution looks at is satisfied. -/
theorem derivations_forced (config : Config P V) (hself : config.NoSelfDependency) (steps : Nat) :
    Supported (run config steps) :=
  supported_run hself steps

theorem derivations_forced_backtracking : Supported (run backtracking 20) :=
  derivations_forced backtracking (by unfold Config.NoSelfDependency; decide) 20

end Resolver
end Toolchain.SatResolver
