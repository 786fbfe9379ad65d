import Toolchain.SatResolver.Footprint

/-!
# SatResolver.Preferences — versions to lock and to take the latest of

For a package to be locked, or taken at its latest version, the solver adds an incompatibility whose
only term requires the version wanted, and so forbids it.  Propagation hears of that: such a package
is in a result at another version only (`honoured_iff_undecided`).
-/

namespace Toolchain.SatResolver.Resolver

open Lib List Assignment Config

variable {P V : Type} [LinearOrder P] [LinearOrder V] {cfg : Config P V} {self : Resolver P V}

/-! ## Incompatibilities of one term -/

def forbids (config : Config P V) (p : P) (versions : Finset V) (cause : Cause) :
    Incompatibility P V :=
  .external [config.require p versions] cause

omit [LinearOrder P] in
/-- A decision for a version satisfies the term that requires one of several, among them this one. -/
lemma owed_forbids {a : Assignment P V} {p : P} {v : V} (hterm : a.term = cfg.require p {v})
    {versions : Finset V} (hv : v ∈ versions) : Owed a (cfg.require p versions) none where
  satisfied current hselected := by
    rw [hterm] at hselected
    cases current with
    | version c =>
      rw [satisfies_require_iff] at hselected ⊢
      refine ⟨hselected.1, hselected.2.trans (Finset.inter_subset_inter_left ?_)⟩
      exact Finset.singleton_subset_iff.2 hv
    | root b => simp [require, Term.satisfies] at hselected
  subject_eq := by
    rw [subject, hterm]
    rfl
  other_ne := by simp

variable {old new : Resolver P V}

/-! ## Preferences -/

/-- The preferences the solver has come to are stored, and it has come to those of every package
decided. -/
structure Applied (config : Config P V) (resolver : Resolver P V) : Prop where
  latest : ∀ p ∈ resolver.haveUsedLatest, ∀ nonempty : (config.allVersions p).Nonempty,
    forbids config p {(config.allVersions p).max' nonempty} .useLatest ∈ resolver.incompatibilities
      (.package p)
  locked : ∀ p ∈ resolver.haveUsedLocked, ∀ version, config.locked p = some version →
    forbids config p {version} .useLocked ∈ resolver.incompatibilities (.package p)
  decided : ∀ constraint, Term.version constraint ∈ resolver.solution.decisions →
    resolver.shouldUseLatest config constraint.packageName = false ∧
      resolver.shouldUseLocked config constraint.packageName = false

lemma Applied.mono (h : Applied cfg old)
    (htab : ∀ subject, old.incompatibilities subject <+: new.incompatibilities subject)
    (hlat : new.haveUsedLatest = old.haveUsedLatest)
    (hloc : new.haveUsedLocked = old.haveUsedLocked)
    (hdec : ∀ con, Term.version con ∈ new.solution.decisions →
    Term.version con ∈ old.solution.decisions ∨ old.shouldUseLatest cfg con.packageName = false ∧
    old.shouldUseLocked cfg con.packageName = false) : Applied cfg new where
  latest p hp nonempty := (htab _).subset (h.latest p (hlat ▸ hp) nonempty)
  locked p hp version hver := (htab _).subset (h.locked p (hloc ▸ hp) version hver)
  decided con hmem := by
    unfold shouldUseLatest shouldUseLocked
    rw [hlat, hloc]
    rcases hdec con hmem with hmem | happ
    · exact h.decided con hmem
    · exact happ

lemma applied_step (h : Applied cfg old) (hste : Step cfg old new) : Applied cfg new := by
  cases hste with
  | backjump hcon hfai hres =>
    unfold Resolver.backjump
    simp only
    split
    · refine h.mono (extends_add old _).grows rfl rfl fun c hmem => .inl ?_
      rw [decisions_propagate] at hmem
      exact mem_decisions_of_backtrack hmem
    · refine h.mono (fun _ => prefix_refl _) rfl rfl fun c hmem => .inl ?_
      rw [decisions_propagate] at hmem
      exact mem_decisions_of_backtrack hmem
  | @useLatest con hoff hlat non =>
    have hext := extends_add
      { old with haveUsedLatest := con.packageName :: old.haveUsedLatest }
      (forbids cfg con.packageName {(cfg.allVersions con.packageName).max' non} .useLatest)
    refine
      { latest := ?_, locked := fun p hp version hver => (hext.grows _).subset (h.locked p hp version hver)
        decided := ?_ }
    · intro p hp hpno
      rcases mem_cons.1 hp with rfl | hp
      · exact hext.complete _ (.head _) _ (.head _)
      · exact (hext.grows _).subset (h.latest p hp hpno)
    · intro c hmem
      rcases h.decided c hmem with ⟨hc, hloc⟩
      refine ⟨?_, hloc⟩
      unfold shouldUseLatest at hc ⊢
      simp only [Bool.and_eq_false_iff, decide_eq_false_iff_not, not_not] at hc ⊢
      exact hc.imp_right (mem_cons_of_mem _)
  | @useLocked con version hoff hlat hloc hver =>
    have hext := extends_add
      { old with haveUsedLocked := con.packageName :: old.haveUsedLocked }
      (forbids cfg con.packageName {version} .useLocked)
    refine
      { latest := fun p hp non => (hext.grows _).subset (h.latest p hp non), locked := ?_
        decided := ?_ }
    · intro p hp other hoth
      rcases mem_cons.1 hp with rfl | hp
      · rw [hver] at hoth
        cases hoth
        exact hext.complete _ (.head _) _ (.head _)
      · exact (hext.grows _).subset (h.locked p hp other hoth)
    · intro c hmem
      rcases h.decided c hmem with ⟨hlat, hc⟩
      refine ⟨hlat, ?_⟩
      unfold shouldUseLocked at hc ⊢
      simp only [Bool.and_eq_false_iff, decide_eq_false_iff_not, not_not] at hc ⊢
      exact hc.imp_right (mem_cons_of_mem _)
  | noVersions cause hoff hnon => exact h.mono (extends_add old _).grows rfl rfl fun c hmem => .inl hmem
  | @decide con version hoff hlat hloc hval =>
    have huse := haveUsed_foldl_add old (old.incompatibilitiesFor cfg (.version con.packageName version))
    refine h.mono (extends_foldl_add old _).grows huse.1 huse.2 fun c hmem => ?_
    rcases mem_decisions_of_step (.decide hoff hlat hloc hval) hmem with
      hmem | ⟨c', _, hdec, heq⟩
    · exact .inl hmem
    · cases heq
      exact .inr ⟨hdec.latest, hdec.locked⟩
  | _ => exact { latest := h.latest, locked := h.locked, decided := h.decided }

lemma applied_run (cfg : Config P V) (sts : Nat) : Applied cfg (run cfg sts) := by
  refine run_induction cfg ?_ (fun _ _ => applied_step) sts
  have huse := haveUsed_foldl_add (P := P) (V := V)
    { incompatibilities := fun _ => [], solution := .empty, haveListedIncompatibilities := []
      haveUsedLatest := [], haveUsedLocked := [], control := .propagate [.derived .root] }
  refine { latest := ?_, locked := ?_, decided := ?_ }
  · intro p hp
    have hnil : (setupRoot cfg).haveUsedLatest = [] := (huse _).1
    rw [hnil] at hp
    cases hp
  · intro p hp
    have hnil : (setupRoot cfg).haveUsedLocked = [] := (huse _).2
    rw [hnil] at hp
    cases hp
  · intro con hmem
    have hroo := decisions_run cfg (Q := fun t => t = .root true) rfl 0
      (fun k hk => absurd hk (Nat.not_lt_zero k)) _ hmem
    cases hroo

section

variable {constraint : VersionConstraint P V} (h : Applied cfg self)
  (hdecided : Term.version constraint ∈ self.solution.decisions)

include h hdecided

lemma Applied.latest_stored (hlatest : constraint.packageName ∈ cfg.useLatest)
    (nonempty : (cfg.allVersions constraint.packageName).Nonempty) :
    forbids cfg constraint.packageName {(cfg.allVersions constraint.packageName).max' nonempty}
      .useLatest ∈ self.incompatibilities (.package constraint.packageName) :=
  h.latest _ (by simpa [shouldUseLatest, hlatest] using (h.decided _ hdecided).1) nonempty

lemma Applied.locked_stored {version : V}
    (hlocked : cfg.locked constraint.packageName = some version) :
    forbids cfg constraint.packageName {version} .useLocked ∈
      self.incompatibilities (.package constraint.packageName) :=
  h.locked _ (by simpa [shouldUseLocked, hlocked] using (h.decided _ hdecided).2) version hlocked

end

/-- When a version has been decided, the preferences for its package have been turned into
incompatibilities, and none is outstanding. -/
theorem preferences_come_first (config : Config P V) (steps : Nat) :
    {constraint | Term.version constraint ∈ (run config steps).solution.decisions} ⊆
    {constraint | ((run config steps).shouldUseLatest config constraint.packageName = false ∧
        (run config steps).shouldUseLocked config constraint.packageName = false) ∧
      (constraint.packageName ∈ config.useLatest →
        ∀ nonempty : (config.allVersions constraint.packageName).Nonempty,
        forbids config constraint.packageName
            {(config.allVersions constraint.packageName).max' nonempty} .useLatest ∈
          (run config steps).incompatibilities (.package constraint.packageName)) ∧
      ∀ version, config.locked constraint.packageName = some version →
        forbids config constraint.packageName {version} .useLocked ∈
          (run config steps).incompatibilities (.package constraint.packageName)} := by
  have happlied := applied_run config steps
  intro constraint hdecided
  exact ⟨happlied.decided constraint hdecided, happlied.latest_stored hdecided,
    fun _ => happlied.locked_stored hdecided⟩

/-- Packages to be taken at their latest version are, and others are at the version they are locked
to, if any. -/
def Honoured (config : Config P V) (versions : List (P ×ₗ V)) : Prop :=
  ∀ p v, toLex (p, v) ∈ versions →
    (p ∈ config.useLatest → v ∈ config.allVersions p ∧ ∀ w ∈ config.allVersions p, w ≤ v) ∧
      (p ∉ config.useLatest → ∀ w, config.locked p = some w → v = w)

lemma decided_version {sts : Nat} {constraint : VersionConstraint P V}
    (hdecided : Term.version constraint ∈ (run cfg sts).solution.decisions) :
    ∃ version, constraint.versions = {version} ∧
      Term.version constraint = cfg.require constraint.packageName {version} := by
  refine decisions_run cfg (Q := fun t => ∀ c, t = .version c → ∃ version, c.versions = {version} ∧
    t = cfg.require c.packageName {version}) (by simp) sts ?_ _ hdecided constraint rfl
  intro k hk con version _ c hc
  cases hc
  exact ⟨version, rfl, rfl⟩

section

variable {sts : Nat} (hdon : (run cfg sts).control = .done)

include hdon

lemma not_mem_of_forbids {p : P} {v : V}
    (hmem : toLex (p, v) ∈ (run cfg sts).result) {versions : Finset V} {cause : Cause}
    (hfor : forbids cfg p versions cause ∈ (run cfg sts).incompatibilities (.package p)) :
    v ∉ versions := by
  rcases (mem_result _ p v).1 hmem with ⟨con, hdec, rfl, hv⟩
  rcases decided_version hdec with ⟨w, hver, hter⟩
  rw [hver, Finset.mem_singleton] at hv
  subst hv
  rw [(tracked_run (stable_over cfg) sts).coherent.decisions_eq] at hdec
  rcases mem_map.1 hdec with ⟨a, ha, hate⟩
  rcases mem_filter.1 ha with ⟨ha, hdeci⟩
  have hterm := hate.trans hter
  intro hmem
  have hsub : a.subject = .package con.packageName := by
    rw [subject, hterm]
    rfl
  -- propagation would have heard of it
  rcases (heard_run cfg sts).of_done hdon ha hdeci (owed_forbids hterm hmem) (hsub ▸ hfor) with ⟨u, hu, -⟩
  cases hu

end

/-- A run that returns honours the preferences exactly if none of the packages it has decided for
has one. -/
theorem honoured_iff_undecided (config : Config P V) (steps : Nat)
    (hdone : (run config steps).control = .done) :
    Honoured config (run config steps).result ↔
      ∀ constraint, Term.version constraint ∈ (run config steps).solution.decisions →
        constraint.packageName ∉ config.useLatest ∧ config.locked constraint.packageName = none := by
  have happlied := applied_run config steps
  constructor
  · intro h constraint hdecided
    rcases decided_version hdecided with ⟨v, hversions, -⟩
    have hmem : toLex (constraint.packageName, v) ∈ (run config steps).result :=
      (mem_result _ _ v).2 ⟨constraint, hdecided, rfl, by simp [hversions]⟩
    have hnot : constraint.packageName ∉ config.useLatest := by
      intro hlatest
      rcases (h _ v hmem).1 hlatest with ⟨havailable, hgreatest⟩
      -- the greatest version is the one forbidden
      apply not_mem_of_forbids hdone hmem
        (happlied.latest_stored hdecided hlatest ⟨v, havailable⟩)
      rw [Finset.mem_singleton]
      exact le_antisymm (Finset.le_max' _ _ havailable) (hgreatest _ (Finset.max'_mem _ _))
    refine ⟨hnot, ?_⟩
    rcases hlocked : config.locked constraint.packageName with _ | w
    · rfl
    exfalso
    apply not_mem_of_forbids hdone hmem (happlied.locked_stored hdecided hlocked)
    rw [Finset.mem_singleton]
    exact (h _ v hmem).2 hnot w hlocked
  · intro h p v hmem
    rcases (mem_result _ p v).1 hmem with ⟨constraint, hdecided, rfl, -⟩
    rcases h constraint hdecided with ⟨hlatest, hlocked⟩
    refine ⟨fun hp => absurd hp hlatest, fun _ w hw => ?_⟩
    rw [hlocked] at hw
    cases hw

def preferring (useLatest : Finset (Fin 2)) (locked : Fin 2 → Option (Fin 2)) :
    Config (Fin 2) (Fin 2) where
  dependencies := [(0, {0, 1})]
  graph := { allVersions := fun _ => {0, 1}, fetchDependenciesFor := fun _ _ => some [] }
  useLatest := useLatest
  locked := locked
  downgrades := ∅
  overrides := fun _ => none

/-- Version 0 of package 0 depends on package 1, and version 1 does not. -/
def bypassing : Config (Fin 2) (Fin 2) :=
  { preferring {1} fun _ => none with
    graph :=
      { allVersions := fun _ => {0, 1}
        fetchDependenciesFor := fun p v => if p = 0 ∧ v = 0 then some [(1, {0, 1})] else some [] } }

theorem honoured_bypassing :
    (run bypassing 13).result = [toLex (0, 1)] ∧ Honoured bypassing (run bypassing 13).result := by
  refine ⟨by decide +kernel, (honoured_iff_undecided bypassing 13 (by decide +kernel)).2 ?_⟩
  have hdecided : ∀ t ∈ (run bypassing 13).solution.decisions, t.subject ≠ .package 1 := by
    decide +kernel
  intro constraint hmem
  have hother := hdecided _ hmem
  refine ⟨fun hlatest => hother ?_, rfl⟩
  rw [Term.subject, Finset.mem_singleton.1 hlatest]

/-- The latest version of package 0 is asked for, or it is locked to its latest version, and the
other version is selected. -/
theorem selects_other_version :
    ((run (preferring {0} fun _ => none) 24).control = .done ∧
    ¬Honoured (preferring {0} fun _ => none) (run (preferring {0} fun _ => none) 24).result) ∧
    (run (preferring ∅ fun _ => some 1) 24).control = .done ∧
    ¬Honoured (preferring ∅ fun _ => some 1) (run (preferring ∅ fun _ => some 1) 24).result := by
  have hlat : (run (preferring {0} fun _ => none) 24).result = [toLex (0, 0)] := by
    decide +kernel
  have hloc : (run (preferring ∅ fun _ => some 1) 24).result = [toLex (0, 0)] := by
    decide +kernel
  refine ⟨⟨by decide +kernel, fun h => ?_⟩, by decide +kernel, fun h => ?_⟩
  · rw [hlat] at h
    have hgre := ((h 0 0 (.head _)).1 (by decide)).2 1 (by decide)
    exact absurd hgre (by decide)
  · rw [hloc] at h
    have heq := (h 0 0 (.head _)).2 (by decide) 1 rfl
    exact absurd heq (by decide)

end Toolchain.SatResolver.Resolver
