import Toolchain.SatResolver.Footprint
import Toolchain.SatResolver.Justification
import Toolchain.SatResolver.Soundness

/-!
# SatResolver.Crash — when a run raises what it should not

`run` may raise another exception than `ResolutionError`: when terms that exclude each other are merged,
a term has no satisfier, a package has no version, or the incompatibility to report has no terms.  If
every dependency allows a version there is and no absence is lost, none of this happens.
-/

namespace Toolchain.SatResolver

open Lib List Finset Option Assignment VersionConstraint Term

section Assignments

variable {P V : Type} [DecidableEq P] [DecidableEq V] {all : P → Finset V}
  {asgs : List (Assignment P V)}

def Populated (assignments : List (Assignment P V)) : Prop :=
  ∀ a ∈ assignments, ∀ constraint, a.term = .version constraint → constraint.isPositive = true →
    constraint.allowedVersions.Nonempty

lemma accum_nonempty (hgro : Grown (Assigned all) asgs)
    (hpop : Populated asgs) {subj : Subject P} {con : VersionConstraint P V}
    (h : accumulated asgs subj = some (.version con))
    (hpos : con.isPositive = true) : con.allowedVersions.Nonempty := by
  induction asgs using reverseRecOn with
  | nil => cases h
  | append_singleton bef a ih =>
    rcases Grown.concat_iff.1 hgro with ⟨hbef, ha⟩
    rw [accum_concat] at h
    by_cases hsub : a.subject = subj
    swap
    · rw [if_neg hsub] at h
      exact ih hbef (fun b hb => hpop b (by simp [hb])) h
    rw [if_pos hsub] at h
    rcases hold : accumulated bef subj with _ | old
    · rw [hold] at h
      exact hpop a (by simp) con (some.inj h) hpos
    rw [hold] at h
    rcases accum_over hbef hold with ⟨hove, hols⟩
    have hsam := hols.trans hsub.symm
    cases old with
    | version x =>
      cases hter : a.term with
      | version y =>
        rw [hter] at h
        rcases map_eq_some_iff.1 h with ⟨z, hz, heq⟩
        cases heq
        have haov := ha.isOver
        rw [hter] at haov
        rw [Assignment.subject, hter] at hsam
        exact (inter_eq_some (hove.allVersions_eq haov hsam) hz).2.2.2.2 hpos
      | root b => simp [narrow, Term.intersect, hter] at h
    | root x => cases hter : a.term <;> simp [narrow, Term.intersect, hter] at h

end Assignments

namespace Resolver

variable {P V : Type} [LinearOrder P] [LinearOrder V] {cfg : Config P V} {self : Resolver P V}

/-! ## Conflict resolution -/

lemma populated_assigned (hatt : Attainable cfg)
    (h : Tracked cfg (Within cfg) self) : Populated self.solution.assignments := by
  intro a ha con hter hpos
  rcases hcau : a.cause with _ | cause
  · rcases append_of_mem ha with ⟨bef, after, hspl⟩
    have hgro := h.coherent.grown
    rw [hspl] at hgro
    have hdec := hgro.rel.decision (by simp [isDecision, hcau])
    rw [hter] at hdec
    rcases hdec.decided.2 with ⟨v, hv⟩
    rw [hv]
    exact singleton_nonempty v
  · rcases h.causes a ha cause hcau with ⟨hwit, t, ht, hinv⟩
    rw [hter] at hinv
    cases t with
    | version y =>
      obtain rfl : con = y.inverse := by simpa [Term.inverse] using hinv
      have hneg : y.isPositive = false := by simpa [VersionConstraint.inverse] using hpos
      rcases (hwit _ ht).excludes hatt y rfl hneg with ⟨v, hv, hexc⟩
      refine ⟨v, ?_⟩
      rw [allowed_inverse]
      exact mem_sdiff.2 ⟨hv, hexc⟩
    | root b => simp [Term.inverse] at hinv

lemma exists_inter (hatt : Attainable cfg) {asgs : List (Assignment P V)}
    (hgro : Grown (Assigned cfg.allVersions) asgs) (hpop : Populated asgs)
    {a b : Term P V} (ha : Within cfg a ∧ SatisfiedBy asgs a)
    (hb : Within cfg b ∧ SatisfiedBy asgs b) (hsub : a.subject = b.subject) :
    ∃ c, a.intersect b = some c := by
  rcases ha with ⟨ha, cur, hcur, hsaa⟩
  rcases hb with ⟨hb, current', hcur', hsab⟩
  obtain rfl : cur = current' := by
    rw [← hsub, hcur] at hcur'
    exact some.inj hcur'
  cases a with
  | version x =>
    cases b with
    | version y =>
      cases cur with
      | version z =>
        simp only [Term.satisfies, VersionConstraint.satisfies_iff] at hsaa hsab
        have hsom : x.intersect y ≠ none := by
          by_cases hpos : x.isPositive = true ∨ y.isPositive = true
          · -- a version is left that both terms allow
            intro hnon
            have hz := accum_nonempty hgro hpop hcur (hpos.elim hsaa.1 hsab.1)
            rcases hz with ⟨v, hv⟩
            have hemp := (inter_eq_none_iff hpos).1 hnon
            have hmem := mem_inter.2 ⟨hsaa.2 hv, hsab.2 hv⟩
            rw [hemp] at hmem
            cases hmem
          · -- a negative term excludes a version
            simp only [not_or, Bool.not_eq_true] at hpos
            rcases ha.excludes hatt x rfl hpos.1 with ⟨v, hv, hexc⟩
            have hmem : v ∈ x.versions := by simpa [allowedVersions, hpos.1, hv] using hexc
            have hne : x.versions ∪ y.versions ≠ ∅ := ne_empty_of_mem (mem_union_left _ hmem)
            simp [VersionConstraint.intersect, hpos, hne]
        rcases ne_none_iff_exists'.1 hsom with ⟨c, hc⟩
        exact ⟨.version c, by simp [Term.intersect, hc]⟩
      | root _ => simp [Term.satisfies] at hsaa
    | root _ => simp [Term.subject] at hsub
  | root x =>
    cases b with
    | version y => simp [Term.subject] at hsub
    | root y =>
      cases cur with
      | version z => simp [Term.satisfies] at hsaa
      | root z =>
        simp only [Term.satisfies, beq_iff_eq] at hsaa hsab
        exact ⟨.root x, by simp [Term.intersect, ← hsaa, ← hsab]⟩

variable {sol : PartialSolution P V} {all : P → Finset V}

lemma exists_recent (h : sol.Coherent all) {inc : Incompatibility P V} (hfai : inc.isFailure = false)
    (hsat : ∀ t ∈ inc.terms, sol.satisfies t = true) :
    ∃ last earlier, mostRecentlySatisfied sol inc = some (last, earlier) := by
  unfold mostRecentlySatisfied
  simp only
  rcases hpai : (inc.terms.mapM fun term =>
    (sol.satisfier term).map fun sat => (term, sat)) with _ | pairs
  · rcases exists_of_mapM_eq_none hpai with ⟨t, ht, hnon⟩
    rcases h.exists_satisfier (hsat t ht) with ⟨a, ha⟩
    simp [ha] at hnon
  simp only
  rcases hsor : (pairs.insertionSort fun x y => x.2.index ≤ y.2.index).reverse with
    _ | ⟨last, earlier⟩
  · -- an incompatibility without terms is a failure
    have hlen := congrArg length hsor
    rw [length_reverse, length_insertionSort, length_nil] at hlen
    have hnil := (satisfiers_eq_some hpai).1
    rw [eq_nil_of_length_eq_zero hlen] at hnil
    rw [Incompatibility.isFailure, ← hnil] at hfai
    cases hfai
  · exact ⟨last, earlier, by rw [hsor]⟩

lemma resolution_ne_none (hatt : Attainable cfg) (hcons : Consistent cfg self)
    (hsup : Supported self) (htra : Tracked cfg (Within cfg) self)
    {conf cur : Incompatibility P V} {sca : Subject P} {next : Nat}
    {chan : List (Outcome P)}
    (hcon : self.control = .resolve conf cur sca next chan)
    (hfai : cur.isFailure = false) : resolution self.solution cur ≠ none := by
  have hcoh := hcons.coherent
  have hwel := hcons.wf_of_resolve hcon
  rcases exists_recent hcoh hfai (hsup.conflicting _ _ _ _ _ hcon) with ⟨last, ear, hlas⟩
  have hlasa := (recent_eq_some hlas).2.1 last (by simp)
  have hmem := PartialSolution.mem_of_satisfier_eq_some hlasa
  have hpre : ∃ previous, previousDecisionLevel self.solution last ear = some previous := by
    unfold previousDecisionLevel
    simp only
    rcases hd : last.2.term.difference last.1 with _ | d
    · exact ⟨_, rfl⟩
    have hbef := satBy_inverse_difference hcoh hlasa hd
    have hall := hcoh.satBy_take_mono (le_max_left last.2.index self.solution.assignments.length) hbef
    rw [take_of_length_le (le_max_right _ _)] at hall
    rcases hcoh.exists_satisfier (hcoh.satisfies_iff_satBy.2 hall) with ⟨b, hb⟩
    simp only [hb, map_some]
    exact ⟨_, rfl⟩
  rcases hpre with ⟨previous, hpre⟩
  unfold resolution
  simp only [hlas, hpre]
  rcases hcau : last.2.cause with _ | cause
  · simp
  simp only
  split
  · simp
  -- the terms to merge hold before the last satisfier
  rcases htra.causes last.2 hmem cause hcau with ⟨hcat, u, hu, hter⟩
  have hcur := (htra.resolving _ _ _ _ _ hcon).1
  have hsat := newTerms_satBy hcoh hsup.justified hwel hlas hcau
  have hwit : ∀ t ∈ newTerms cur last.1 last.2.term cause, Within cfg t := by
    intro t ht
    rcases mem_newTerms.1 ht with ⟨ht, _⟩ | ⟨ht, _⟩ | ⟨d, hd, rfl⟩
    · exact hcur t ht
    · exact hcat t ht
    · rw [hter] at hd
      exact within_inverse_difference (hcat u hu) hd
  have hpop : Populated (self.solution.assignments.take last.2.index) := by
    intro a ha
    exact populated_assigned hatt htra a (mem_of_mem_take ha)
  rcases foldlM_mergeTerm_isSome (Q := fun t => Within cfg t ∧
      SatisfiedBy (self.solution.assignments.take last.2.index) t)
    (fun a b c ha hb hsub h => ⟨within_inter ha.1 hb.1 hsub h,
      (satBy_inter ⟨ha.1.isOver, ha.2⟩ ⟨hb.1.isOver, hb.2⟩ hsub h).2⟩)
    (fun a b => exists_inter hatt (hcoh.grown_take _) hpop)
    (forall_mem_nil _) (fun t ht => ⟨hwit t ht, hsat t ht⟩) with
    ⟨merged, hmer⟩
  simp [createIncompatibilityFromConflict, mergeTerms, hmer]

/-! ## Choices -/

lemma exists_unsat (h : sol.Coherent all) : ∃ terms, sol.unsatisfied = some terms := by
  unfold PartialSolution.unsatisfied
  simp only
  rcases hmap : (sol.assignments.map Assignment.subject).dedup.mapM sol.terms with _ | terms
  swap
  · exact ⟨_, rfl⟩
  rcases exists_of_mapM_eq_none hmap with ⟨subject, hsub, hnon⟩
  rcases mem_map.1 (mem_dedup.1 hsub) with ⟨a, ha, rfl⟩
  rcases append_of_mem ha with ⟨bef, after, hspl⟩
  -- an assignment leaves an intersection for its subject
  have hgro := h.grown
  rw [hspl, append_cons] at hgro
  rcases accum_concat_satisfies hgro.of_append with ⟨new, hnew, _⟩
  rcases accum_append_satisfies hgro hnew with ⟨later, hlat, _⟩
  rw [h.terms_eq, hspl, append_cons, hlat] at hnon
  cases hnon

lemma isDecided_root (h : sol.Coherent all) : sol.isDecided .root = true := by
  rcases hasg : sol.assignments with _ | ⟨first, rest⟩
  · exact absurd hasg h.nonempty
  have hgro := h.grown
  rw [hasg] at hgro
  rcases (Grown.rel (l := []) hgro).first rfl with ⟨hroo, hdec⟩
  exact (h.isDecided_iff .root).2 ⟨first, by simp [hasg], hdec, hroo⟩

lemma allVersions_nonempty_of_offered (hatt : Attainable cfg)
    (htra : Tracked cfg (Within cfg) self) {con : VersionConstraint P V}
    (hund : Undecided self.solution con) :
    (cfg.allVersions con.packageName).Nonempty := by
  have hcoh := htra.coherent
  have hter := hund.terms_eq
  rw [hcoh.terms_eq] at hter
  have hove := (accum_over hcoh.grown hter).1
  rcases accum_nonempty hcoh.grown (populated_assigned hatt htra) hter hund.positive with ⟨v, hv⟩
  exact ⟨v, hove ▸ con.allowed_subset hv⟩

/-! ## Runs -/

lemma control_ne_crashed_of_step {old new : Resolver P V} (hatt : Attainable cfg)
    (hcon : Consistent cfg old) (hsup : Supported old) (htra : Tracked cfg (Within cfg) old)
    (hrequires : Infers cfg (fun inc => ∃ t ∈ inc.terms, t.isPositive = true) old)
    (hste : Step cfg old new) (h : old.control ≠ .crashed) : new.control ≠ .crashed := by
  cases hste with
  | stuck hcont hfai hres =>
    rcases hfai with hfai | hnil
    · exact absurd hres (resolution_ne_none hatt hcon hsup htra hcont hfai)
    · rcases (hrequires.resolving _ _ _ _ _ hcont).1.2 with ⟨t, ht, _⟩
      rw [hnil] at ht
      cases ht
  | lost hcont hlos =>
    exfalso
    rcases exists_unsat hcon.coherent with ⟨terms, hter⟩
    rcases hlos terms hter with ⟨t, ht, hnon⟩ | ⟨con, hmem, _, hemp⟩
    · -- the root has been decided
      cases t with
      | version c => cases hnon
      | root b =>
        have hund := ((mem_unsat_iff hcon.coherent hter).1 ht).2.2
        rw [Term.subject, isDecided_root hcon.coherent] at hund
        cases hund
    · exact hemp (allVersions_nonempty_of_offered hatt htra (undecided_of_mem hcon.coherent hter hmem))
  | halt hcont => exact h
  | _ =>
    intro hcra
    cases hcra

lemma control_ne_crashed_run (hsel : cfg.NoSelfDependency) (hatt : Attainable cfg) (sts : Nat)
    (hkeeps : ∀ k < sts, (run cfg k).losesAbsence = false) : (run cfg sts).control ≠ .crashed := by
  induction sts with
  | zero =>
    rw [run, Function.iterate_zero, id_eq, control_root]
    intro hcra
    cases hcra
  | succ sts ih =>
    rw [run, Function.iterate_succ_apply']
    have hbefore : ∀ k < sts, (run cfg k).losesAbsence = false :=
      fun k hk => hkeeps k (Nat.lt_succ_of_lt hk)
    exact control_ne_crashed_of_step hatt (consistent_run hsel sts)
      (supported_run hsel sts) (tracked_run (stable_within cfg) sts)
      (infers_run (inferred_requires cfg) hsel sts hbefore) (step_spec cfg _) (ih hbefore)

end Resolver
end Toolchain.SatResolver
