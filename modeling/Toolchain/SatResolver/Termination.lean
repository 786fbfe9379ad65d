import Mathlib.Data.Set.Card
import Toolchain.Lib.Run
import Toolchain.SatResolver.Backjump
import Toolchain.SatResolver.Crash
import Toolchain.SatResolver.Progress

/-!
# SatResolver.Termination — every run comes to an end

The measure of a state: how far the solution has come (`progress`), what is still to list and to prefer
(`outstanding`), the phase of the program, and what remains of its loop.  Conflict resolution comes at
every round to an incompatibility satisfied earlier, and when it backtracks exactly one term is open
(`verdict_backtrack`).  A run crashes only over a dependency that no version meets.
-/

namespace Toolchain.SatResolver.Resolver

open Lib List Function PartialSolution

variable {P V : Type} [LinearOrder P] [LinearOrder V] {config cfg : Config P V} {self : Resolver P V}
  {packages pkgs : Finset P}

def Halted (self : Resolver P V) : Prop :=
  self.control = .done ∨ (∃ x, self.control = .failed x) ∨ self.control = .crashed

/-! ## The measure -/

def outstanding (config : Config P V) (packages : Finset P) (self : Resolver P V) : Nat :=
  (∑ p ∈ packages, ((config.allVersions p).filter fun v =>
      .version p v ∉ self.haveListedIncompatibilities).card) +
    (packages.filter fun p => self.shouldUseLatest config p).card +
      (packages.filter fun p => self.shouldUseLocked config p).card

def Doomed (self : Resolver P V) : Prop :=
  ∃ x, (∀ t ∈ x.terms, self.solution.satisfies t = true) ∧ match self.control with
    | .propagate (.derived subject :: _) => x ∈ self.incompatibilities subject
    | .scan subject next _ => ∃ i, next ≤ i ∧ (self.incompatibilities subject)[i]? = some x
    | _ => False

open Classical in
/-- The phases of a round, counted down: propagation, a choice, propagation that ends in a conflict,
conflict resolution, the end of the run. -/
noncomputable def phase (self : Resolver P V) : Nat :=
  match self.control with
  | .propagate _ => if self.Doomed then 2 else 4
  | .scan _ _ _ => if self.Doomed then 2 else 4
  | .choose => 3
  | .resolve _ _ _ _ _ => 1
  | _ => 0

noncomputable def satisfiedAfter (solution : PartialSolution P V) (x : Incompatibility P V) : Nat :=
  sInf {n | ∀ t ∈ x.terms, SatisfiedBy (solution.assignments.take n) t}

noncomputable def remaining (self : Resolver P V) : ℕ ×ₗ ℕ :=
  match self.control with
  | .propagate changed => toLex (changed.length, 0)
  | .scan subject next changed =>
    toLex (changed.length, (self.incompatibilities subject).length - next + 1)
  | .resolve _ current _ _ _ => toLex (satisfiedAfter self.solution current, 0)
  | _ => toLex (0, 0)

noncomputable def rank (config : Config P V) (packages : Finset P) (self : Resolver P V) :
    Lex (Fin (packages.card + 2) → WithTop ℕ) ×ₗ (ℕ ×ₗ (ℕ ×ₗ (ℕ ×ₗ ℕ))) :=
  toLex (self.solution.progress config.allVersions packages,
    toLex (outstanding config packages self, toLex (self.phase, self.remaining)))

def Propagating (self : Resolver P V) : Prop :=
  (∃ changed, self.control = .propagate changed) ∨
    ∃ subject next changed, self.control = .scan subject next changed

omit [LinearOrder P] in
lemma phase_of_propagating (h : Propagating self) :
    self.Doomed ∧ self.phase = 2 ∨ ¬self.Doomed ∧ self.phase = 4 := by
  rcases h with ⟨chan, hcon⟩ | ⟨subject, next, chan, hcon⟩
  · by_cases hdoo : self.Doomed
    · exact .inl ⟨hdoo, by simp [phase, hcon, hdoo]⟩
    · exact .inr ⟨hdoo, by simp [phase, hcon, hdoo]⟩
  · by_cases hdoo : self.Doomed
    · exact .inl ⟨hdoo, by simp [phase, hcon, hdoo]⟩
    · exact .inr ⟨hdoo, by simp [phase, hcon, hdoo]⟩

section Rank

variable {old new : Resolver P V}

lemma rank_lt_of_progress (h : new.solution.progress cfg.allVersions pkgs <
    old.solution.progress cfg.allVersions pkgs) :
    rank cfg pkgs new < rank cfg pkgs old :=
  Prod.Lex.toLex_lt_toLex.2 (.inl h)

lemma rank_lt_of_outstanding (hsol : new.solution = old.solution)
    (h : outstanding cfg pkgs new < outstanding cfg pkgs old) :
    rank cfg pkgs new < rank cfg pkgs old := by
  refine Prod.Lex.toLex_lt_toLex.2 (.inr ⟨by rw [hsol], ?_⟩)
  exact Prod.Lex.toLex_lt_toLex.2 (.inl h)

lemma rank_lt_of_phase (hsol : new.solution = old.solution)
    (hout : outstanding cfg pkgs new = outstanding cfg pkgs old)
    (h : new.phase < old.phase ∨ new.phase = old.phase ∧ new.remaining < old.remaining) :
    rank cfg pkgs new < rank cfg pkgs old := by
  refine Prod.Lex.toLex_lt_toLex.2 (.inr ⟨by rw [hsol], ?_⟩)
  refine Prod.Lex.toLex_lt_toLex.2 (.inr ⟨hout, ?_⟩)
  exact Prod.Lex.toLex_lt_toLex.2 h

lemma rank_lt_of_propagating (hold : Propagating old) (hnew : Propagating new)
    (hsol : new.solution = old.solution)
    (hout : outstanding cfg pkgs new = outstanding cfg pkgs old)
    (hdoo : old.Doomed → new.Doomed) (h : new.remaining < old.remaining) :
    rank cfg pkgs new < rank cfg pkgs old := by
  apply rank_lt_of_phase hsol hout
  rcases phase_of_propagating hold with ⟨holdo, holp⟩ | ⟨_, holp⟩
  · rcases phase_of_propagating hnew with ⟨_, hnep⟩ | ⟨hsaf, _⟩
    · exact .inr ⟨hnep.trans holp.symm, h⟩
    · exact absurd (hdoo holdo) hsaf
  · rcases phase_of_propagating hnew with ⟨_, hnep⟩ | ⟨_, hnep⟩
    · exact .inl (by omega)
    · exact .inr ⟨hnep.trans holp.symm, h⟩

end Rank

/-! ## What is still outstanding -/

omit [LinearOrder P] [LinearOrder V] in
lemma card_filter_lt {f g : P → Bool} (hle : ∀ q, f q = true → g q = true) {p : P}
    (hp : p ∈ pkgs) (hf : f p = false) (hg : g p = true) :
    (pkgs.filter fun q => f q).card < (pkgs.filter fun q => g q).card := by
  apply Finset.card_lt_card
  have hsub : (pkgs.filter fun q => f q) ⊆ pkgs.filter fun q => g q := by
    intro q hq
    rw [Finset.mem_filter] at hq ⊢
    exact ⟨hq.1, hle q hq.2⟩
  refine (Finset.ssubset_iff_of_subset hsub).2 ⟨p, by simp [hp, hg], ?_⟩
  simp [hf]

variable {new : Resolver P V}

section

variable {p : P} (hp : p ∈ packages)

include hp

lemma outstanding_lt_of_useLatest (hlat : self.shouldUseLatest config p = true)
    (hlis : new.haveListedIncompatibilities = self.haveListedIncompatibilities)
    (huse : new.haveUsedLatest = p :: self.haveUsedLatest)
    (hloc : new.haveUsedLocked = self.haveUsedLocked) :
    outstanding config packages new < outstanding config packages self := by
  have hles := card_filter_lt (f := new.shouldUseLatest config) (g := self.shouldUseLatest config)
    (fun q hq => by simp_all [shouldUseLatest]) hp (by simp [shouldUseLatest, huse]) hlat
  have hsam : new.shouldUseLocked config = self.shouldUseLocked config := by
    funext q
    simp [shouldUseLocked, hloc]
  unfold outstanding
  rw [hlis, hsam]
  omega

lemma outstanding_lt_of_useLocked (hloc : self.shouldUseLocked config p = true)
    (hlis : new.haveListedIncompatibilities = self.haveListedIncompatibilities)
    (hlat : new.haveUsedLatest = self.haveUsedLatest)
    (huse : new.haveUsedLocked = p :: self.haveUsedLocked) :
    outstanding config packages new < outstanding config packages self := by
  have hles := card_filter_lt (f := new.shouldUseLocked config) (g := self.shouldUseLocked config)
    (fun q hq => by simp_all [shouldUseLocked]) hp (by simp [shouldUseLocked, huse]) hloc
  have hsam : new.shouldUseLatest config = self.shouldUseLatest config := by
    funext q
    simp [shouldUseLatest, hlat]
  unfold outstanding
  rw [hlis, hsam]
  omega

lemma outstanding_lt_of_listed {v : V}
    (hv : v ∈ config.allVersions p) (hnew : .version p v ∉ self.haveListedIncompatibilities)
    (hlis : new.haveListedIncompatibilities = .version p v :: self.haveListedIncompatibilities)
    (hlat : new.haveUsedLatest = self.haveUsedLatest)
    (hloc : new.haveUsedLocked = self.haveUsedLocked) :
    outstanding config packages new < outstanding config packages self := by
  have hsub : ∀ q, ((config.allVersions q).filter fun w =>
      .version q w ∉ new.haveListedIncompatibilities) ⊆ (config.allVersions q).filter fun w =>
        .version q w ∉ self.haveListedIncompatibilities := by
    intro q w hw
    rw [Finset.mem_filter] at hw ⊢
    refine ⟨hw.1, fun hmem => hw.2 ?_⟩
    rw [hlis]
    exact .tail _ hmem
  have hles := Finset.sum_lt_sum (fun q (_ : q ∈ packages) => Finset.card_le_card (hsub q))
    ⟨p, hp, Finset.card_lt_card
      ((Finset.ssubset_iff_of_subset (hsub p)).2 ⟨v, by simp [hv, hnew], by simp [hlis]⟩)⟩
  have hsal : new.shouldUseLatest config = self.shouldUseLatest config := by
    funext q
    simp [shouldUseLatest, hlat]
  have hsalo : new.shouldUseLocked config = self.shouldUseLocked config := by
    funext q
    simp [shouldUseLocked, hloc]
  unfold outstanding
  rw [hsal, hsalo]
  omega

end

/-! ## Every step lowers the measure -/

section

variable {old : Resolver P V}

lemma exists_package_of_open {sol : PartialSolution P V}
    (h : sol.Coherent cfg.allVersions) {t : Term P V} (ht : Within cfg t)
    (hsat : sol.satisfies t = false) (hcom : sol.isIncompatible t = false) :
    ∃ p, t.subject = .package p ∧ Reached cfg p := by
  rcases hsub : t.subject with _ | p
  · rcases h.settled (t := t) (by rw [hsub]; exact isDecided_root h) with hset | hset
    · rw [hsat] at hset
      cases hset
    · rw [hcom] at hset
      cases hset
  · exact ⟨p, rfl, ht.reached p hsub⟩

variable {con : VersionConstraint P V}

section

variable (hcoh : self.solution.Coherent cfg.allVersions) (hund : Undecided self.solution con)

include hcoh hund

lemma satisfies_offered : self.solution.satisfies (cfg.require con.packageName con.versions) = true := by
  have hter := hund.terms_eq
  have hove : con.allVersions = cfg.allVersions con.packageName := by
    rw [hcoh.terms_eq] at hter
    exact (accum_over hcoh.grown hter).1
  refine satisfies_iff.2 ⟨.version con, hter, ?_⟩
  rw [Config.satisfies_require_iff]
  refine ⟨hund.positive, ?_⟩
  rw [VersionConstraint.allowedVersions, if_pos hund.positive, hove]

lemma doomed_addAbout (cause : Cause) :
    Doomed (self.addAbout con.packageName (.external [cfg.require con.packageName con.versions] cause)) := by
  refine ⟨.external [cfg.require con.packageName con.versions] cause, ?_, ?_⟩
  · intro t ht
    rw [mem_singleton.1 ht]
    exact satisfies_offered hcoh hund
  · have hcom := (extends_add self (.external [cfg.require con.packageName con.versions] cause)).complete
    exact hcom _ (.head _) _ (.head _)

end

lemma satisfiedAfter_lt (hcon : Consistent cfg old) (hsup : Supported old)
    {conf current new : Incompatibility P V} {sca : Subject P} {next : Nat}
    {chan : List (Outcome P)}
    (hcont : old.control = .resolve conf current sca next chan)
    (hres : resolution old.solution current = some (.replace new)) :
    satisfiedAfter old.solution new < satisfiedAfter old.solution current := by
  have hcoh := hcon.coherent
  rcases resolution_replace hres with ⟨last, ear, cause, hlas, hcau, hnew⟩
  rcases recent_eq_some hlas with ⟨hper, hsat, _⟩
  have hlasa := hsat last (by simp)
  have hmem := mem_of_satisfier_eq_some hlasa
  have hbef := satBy_of_replace hcoh hsup.justified (hcon.wf_of_resolve hcont) hlas hcau
    (hcon.causes last.2 hmem cause hcau).1.isOver hnew
  have hne : {n | ∀ t ∈ current.terms, SatisfiedBy (old.solution.assignments.take n) t}.Nonempty := by
    refine ⟨old.solution.assignments.length, fun t ht => ?_⟩
    rw [take_length]
    exact hcoh.satisfies_iff_satBy.1 (hsup.conflicting _ _ _ _ _ hcont t ht)
  -- every part of the assignments that satisfies the conflict contains its last satisfier
  have hlal : last.2.index < satisfiedAfter old.solution current := by
    have hall := Nat.sInf_mem hne last.1 (hper.mem_iff.1 (by simp))
    exact (hcoh.satBy_take_iff hlasa _).1 hall
  exact lt_of_le_of_lt (Nat.sInf_le hbef) hlal

lemma rank_lt_of_derive {new : Resolver P V} (hcoh : old.solution.Coherent cfg.allVersions)
    (hpac : ∀ p, Reached cfg p → p ∈ pkgs) {lvl : Nat} (hone : 1 ≤ lvl)
    (hle : lvl ≤ old.solution.decisionLevel)
    (hbou : old.solution.decisionLevel < pkgs.card + 2)
    (inc : Incompatibility P V) {t : Term P V} (ht : Within cfg t)
    (hver : verdict (old.solution.backtrack lvl) none inc.terms = .unit t)
    (hsol : new.solution = (old.solution.backtrack lvl).derive t.inverse inc) :
    rank cfg pkgs new < rank cfg pkgs old := by
  rcases verdict_unit hver with ⟨_, hsat, hcom, _⟩
  rcases exists_package_of_open (hcoh.backtrack hone) ht hsat hcom with
    ⟨p, hsub, hrea⟩
  apply rank_lt_of_progress
  rw [hsol]
  exact progress_derive_lt hcoh hone hle (lt_of_le_of_lt hle hbou) ht.isOver hsub (hpac p hrea)
    hsat hcom inc

lemma rank_lt_of_decideVersion (hcoh : old.solution.Coherent cfg.allVersions) {ver : V}
    (hoff : Offered old con)
    (hp : con.packageName ∈ pkgs)
    (hval : ver ∈ cfg.validVersionsForPackage con)
    (hbou : (old.decideVersion cfg con.packageName ver).solution.decisionLevel < pkgs.card + 2) :
    rank cfg pkgs (old.decideVersion cfg con.packageName ver) <
    rank cfg pkgs old := by
  have hava := (Finset.mem_filter.1 (Finset.mem_inter.1 hval).1).1
  have hdec := coherent_decide_version hcoh (hoff.undecided hcoh) hval
  cases hcon : (old.incompatibilitiesFor cfg (.version con.packageName ver)).any
    (isConflict old.solution) with
  | true =>
    have hsol : (old.decideVersion cfg con.packageName ver).solution =
        old.solution := by simp [decideVersion, hcon]
    apply rank_lt_of_outstanding hsol
    have hnew : .version con.packageName ver ∉ old.haveListedIncompatibilities := by
      intro hlis
      simp [incompatibilitiesFor, hlis] at hcon
    have huse := haveUsed_foldl_add old (old.incompatibilitiesFor cfg (.version con.packageName ver))
    exact outstanding_lt_of_listed hp hava hnew rfl huse.1 huse.2
  | false =>
    have hsol : (old.decideVersion cfg con.packageName ver).solution =
        old.solution.decide (cfg.require con.packageName {ver}) := by
      simp [decideVersion, hcon]
    apply rank_lt_of_progress
    rw [hsol] at hbou ⊢
    exact progress_decide_lt hcoh hdec hbou

lemma rank_lt_of_step {new : Resolver P V} (hcons : Consistent config old)
    (hsup : Supported old) (htra : Tracked config (Within config) old)
    (hpac : ∀ p, Reached config p → p ∈ packages)
    (hold : old.solution.decisionLevel < packages.card + 2)
    (hnew : new.solution.decisionLevel < packages.card + 2) (hrun : ¬Halted old)
    (hste : Step config old new) : rank config packages new < rank config packages old := by
  have hcoh := hcons.coherent
  have hofm : ∀ {con : VersionConstraint P V}, Offered old con → con.packageName ∈ packages := by
    intro con hoff
    rcases htra.mentions hoff with ⟨x, hx, t, ht, hsub⟩
    exact hpac _ ((hx t ht).reached _ hsub)
  cases hste with
  | settle hcon =>
    refine rank_lt_of_phase rfl rfl ?_
    rcases phase_of_propagating (.inl ⟨_, hcon⟩) with ⟨⟨_, _, hdoo⟩, _⟩ | ⟨_, hpha⟩
    · rw [hcon] at hdoo
      cases hdoo
    · exact .inl (by rw [hpha]; simp [phase])
  | @skip out chan hcon hout =>
    refine rank_lt_of_propagating (.inl ⟨_, hcon⟩) (.inl ⟨_, rfl⟩) rfl rfl ?_ ?_
    · rintro ⟨x, _, hdoo⟩
      rw [hcon] at hdoo
      cases out with
      | derived subject => exact absurd rfl (hout subject)
      | conflict | nothing => cases hdoo
    · simp [remaining, hcon, Prod.Lex.toLex_lt_toLex]
  | @enter subject chan hcon =>
    refine rank_lt_of_propagating (.inl ⟨_, hcon⟩) (.inr ⟨_, _, _, rfl⟩) rfl rfl ?_ ?_
    · rintro ⟨x, hx, hdoo⟩
      rw [hcon] at hdoo
      rcases mem_iff_getElem?.1 hdoo with ⟨i, hi⟩
      exact ⟨x, hx, i, Nat.zero_le i, hi⟩
    · simp [remaining, hcon, Prod.Lex.toLex_lt_toLex]
  | @leave subject next chan hcon hend =>
    refine rank_lt_of_propagating (.inr ⟨_, _, _, hcon⟩) (.inl ⟨_, rfl⟩) rfl rfl ?_ ?_
    · rintro ⟨x, _, hdoo⟩
      rw [hcon] at hdoo
      rcases hdoo with ⟨i, hle, hi⟩
      -- the list ends before the incompatibility
      have hlen := List.getElem?_eq_none_iff.1 hend
      have hlt := (List.getElem?_eq_some_iff.1 hi).1
      exact absurd (hlen.trans hle) (Nat.not_le.2 hlt)
    · simp [remaining, hcon, Prod.Lex.toLex_lt_toLex]
  | @conflict subject next chan inc hcon hnex hver =>
    refine rank_lt_of_phase rfl rfl ?_
    have hone : phase { old with control := .resolve inc inc subject next chan } = 1 := rfl
    rcases phase_of_propagating (.inr ⟨_, _, _, hcon⟩) with ⟨_, hpha⟩ | ⟨_, hpha⟩
    · exact .inl (by omega)
    · exact .inl (by omega)
  | @pass subject next chan inc hcon hnex hver =>
    have hlt := (List.getElem?_eq_some_iff.1 hnex).1
    refine rank_lt_of_propagating (.inr ⟨_, _, _, hcon⟩) (.inr ⟨_, _, _, rfl⟩) rfl rfl ?_ ?_
    · rintro ⟨x, hx, hdoo⟩
      rw [hcon] at hdoo
      rcases hdoo with ⟨i, hle, hi⟩
      refine ⟨x, hx, i, Nat.succ_le_of_lt (lt_of_le_of_ne hle fun heq => ?_), hi⟩
      -- the incompatibility that was passed is not satisfied
      rw [← heq, hnex] at hi
      cases hi
      rw [verdict_eq_conflict hx] at hver
      cases hver
    · simp only [remaining, hcon, Prod.Lex.toLex_lt_toLex, lt_irrefl, true_and, false_or]
      omega
  | @derive subject next chan inc t hcon hnex hver =>
    have hbac := hcoh.backtrack_level
    refine rank_lt_of_derive hcoh hpac hcoh.one_le_decisionLevel le_rfl hold inc
      (htra.stored subject _ (mem_of_getElem? hnex) t (verdict_unit hver).1) ?_ ?_
    · rwa [hbac]
    · rw [hbac]
  | fail hcon hfai | finish hcon huns => exact rank_lt_of_phase rfl rfl (.inl (by simp [phase, hcon]))
  | stuck hcon hfai hres | lost hcon hlos =>
    exact rank_lt_of_phase rfl rfl (.inl (by simp [phase, hcon, crash]))
  | @backjump conflict cur sca next chan level hcon hfai hres =>
    have hwel := hcons.wf_of_resolve hcon
    rcases resolution_backtrack hcoh hwel hfai hres with ⟨hone, hlt⟩
    rcases verdict_backtrack hcoh hwel hfai hres with ⟨t, ht, hver⟩
    refine rank_lt_of_derive hcoh hpac hone hlt.le hold cur ((htra.resolving _ _ _ _ _ hcon).1 t ht)
      hver ?_
    change (propagateIncompatibility (old.solution.backtrack level) cur).2 = _
    simp only [propagateIncompatibility, hver]
  | replace hcon hfai hres =>
    refine rank_lt_of_phase rfl rfl (.inr ⟨by simp [phase, hcon], ?_⟩)
    simp only [remaining, hcon, Prod.Lex.toLex_lt_toLex]
    exact .inl (satisfiedAfter_lt hcons hsup hcon hres)
  | useLatest hoff hlat non =>
    refine rank_lt_of_outstanding rfl ?_
    exact outstanding_lt_of_useLatest (hofm hoff) hlat rfl rfl rfl
  | useLocked hoff hlat hloc hvers =>
    refine rank_lt_of_outstanding rfl ?_
    exact outstanding_lt_of_useLocked (hofm hoff) hloc rfl rfl rfl
  | @noVersions con cause hoff hnon =>
    refine rank_lt_of_phase rfl rfl ?_
    left
    have hthr : old.phase = 3 := by simp [phase, hoff.choosing]
    have hdoo := doomed_addAbout hcoh (hoff.undecided hcoh) cause
    have htwo : phase (old.addAbout con.packageName
        (.external [config.require con.packageName con.versions] cause)) = 2 :=
      if_pos hdoo
    omega
  | decide hoff hlat hloc hval => exact rank_lt_of_decideVersion hcoh hoff (hofm hoff) hval hnew
  | halt hcon => exact absurd hcon hrun

end

/-! ## Halting -/

lemma nodup_decided {all : P → Finset V} {sol : PartialSolution P V}
    (h : sol.Coherent all) : (sol.decisions.map Term.subject).Nodup := by
  have hgro := h.grown
  rw [h.decisions_eq, map_map]
  clear h
  generalize sol.assignments = asgs at hgro ⊢
  induction asgs using reverseRecOn with
  | nil => exact nodup_nil
  | append_singleton bef a ih =>
    rcases Grown.concat_iff.1 hgro with ⟨hbef, ha⟩
    rw [filter_append, map_append, nodup_append]
    refine ⟨ih hbef, ?_, ?_⟩
    · cases hdec : a.isDecision <;> simp [hdec]
    · intro subject hsub other hoth heq
      rcases mem_map.1 hsub with ⟨b, hb, rfl⟩
      rcases mem_filter.1 hb with ⟨hb, hdec⟩
      rcases mem_map.1 hoth with ⟨c, hc, rfl⟩
      obtain rfl : c = a := by simpa using (mem_filter.1 hc).1
      exact ha.undecided b hb hdec heq

lemma level_lt (hpac : ∀ p, Reached cfg p → p ∈ pkgs) (sts : Nat) :
    (run cfg sts).solution.decisionLevel < pkgs.card + 2 := by
  have hcoh := (tracked_run (stable_over cfg) sts).coherent
  have hrea := decisions_run cfg
    (Q := fun t => ∀ p, t.subject = .package p → Reached cfg p) (by simp [Term.subject]) sts (by
      intro k _ con version hdec p hp
      cases hp
      exact hdec.offered.reached)
  have hsub : ((run cfg sts).solution.decisions.map Term.subject).toFinset ⊆
      insert .root (pkgs.image Subject.package) := by
    intro subject hsubj
    rcases mem_map.1 (mem_toFinset.1 hsubj) with ⟨t, ht, rfl⟩
    rcases htsu : t.subject with _ | p
    · exact Finset.mem_insert_self _ _
    · refine Finset.mem_insert_of_mem (Finset.mem_image_of_mem _ (hpac p ?_))
      exact hrea t ht p htsu
  have hcar := Finset.card_le_card hsub
  rw [toFinset_card_of_nodup (nodup_decided hcoh), length_map] at hcar
  have hins := Finset.card_insert_le (.root : Subject P) (pkgs.image Subject.package)
  have hima : (pkgs.image Subject.package).card ≤ pkgs.card := Finset.card_image_le
  unfold decisionLevel
  omega

lemma exists_halted (hsel : cfg.NoSelfDependency)
    (hpac : ∀ p, Reached cfg p → p ∈ pkgs) : ∃ steps, Halted (run cfg steps) := by
  refine exists_iterate_of_measure_lt (step cfg) Halted (rank cfg pkgs) (setupRoot cfg) ?_
  intro n hrun
  rw [iterate_succ_apply']
  refine rank_lt_of_step (consistent_run hsel n) (supported_run hsel n)
    (tracked_run (stable_within cfg) n) hpac (level_lt hpac n) ?_ hrun
    (step_spec cfg _)
  have hnex := level_lt hpac (n + 1)
  rwa [run, iterate_succ_apply'] at hnex

/-- The solver never decides for more packages than can be reached. -/
theorem decisionLevel_lt_reached (config : Config P V) (steps : Nat) :
    ((run config steps).solution.decisionLevel : ℕ∞) < {p | Reached config p}.encard + 2 := by
  by_cases hfin : {p | Reached config p}.Finite
  · have hlev := level_lt (fun p hp => hfin.mem_toFinset.2 hp) steps
    rw [hfin.encard_eq_coe_toFinset_card]
    exact_mod_cast hlev
  · rw [Set.Infinite.encard_eq hfin]
    exact ENat.natCast_lt_top _

/-- A problem with a solution is solved, unless a step loses the case of an absent package. -/
theorem solvable_is_solved (config : Config P V) (hself : config.NoSelfDependency)
    (hfinite : {p | Reached config p}.Finite) (hattainable : Attainable config)
    (hlatest : config.useLatest = ∅) (hlocked : ∀ p, config.locked p = none)
    (hsolvable : ∃ selection, Solution config selection) :
    ∃ steps, (run config steps).control = .done ∨ ∃ k < steps, (run config k).losesAbsence = true := by
  rcases exists_halted hself (fun p hp => hfinite.mem_toFinset.2 hp) with ⟨steps, hhalted⟩
  refine ⟨steps, or_iff_not_imp_right.2 fun hnot => ?_⟩
  have hkeeps : ∀ k < steps, (run config k).losesAbsence = false := by simpa using hnot
  rcases hhalted with hdone | ⟨x, hfailed⟩ | hcrashed
  · exact hdone
  · have htrue := infers_run (inferred_proved hlatest hlocked) hself steps hkeeps
    rcases htrue.failed x hfailed with ⟨⟨-, hproved⟩, hfailure⟩
    exact absurd hsolvable (not_solution_of_failure hproved hfailure)
  · exact absurd hcrashed (control_ne_crashed_run hself hattainable steps hkeeps)

theorem solvable_is_solved_backtracking :
    ∃ steps, (run backtracking steps).control = .done ∨ ∃ k < steps,
      (run backtracking k).losesAbsence = true :=
  solvable_is_solved backtracking (by unfold Config.NoSelfDependency; decide) (Set.toFinite _)
    { root := by decide, version := fun p v hp => by clear hp; revert p v; decide } rfl (fun _ => rfl)
    ⟨fun _ => some 0, { available := by decide, valid := by decide, root := by decide, met := by decide }⟩

end Toolchain.SatResolver.Resolver
