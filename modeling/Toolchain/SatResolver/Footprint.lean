import Toolchain.SatResolver.Decisions

/-!
# SatResolver.Footprint — what the terms of a run are about

A property of terms that survives conflict resolution is `Stable`, and then holds of every term stored
(`Tracked`): terms are about all versions the graph has of a package, and about packages that can be
reached from the root.
-/

namespace Toolchain.SatResolver

open List VersionConstraint

namespace Resolver

open Lib

variable {P V : Type} [LinearOrder P] [LinearOrder V] {cfg : Config P V}
  {Q : Term P V → Prop}

/-! ## Packages that can be reached -/

/-- The root depends on the package, or an available version of a package that can be reached. -/
inductive Reached (config : Config P V) : P → Prop
  | root {dependency : P × Finset V} (hdependency : dependency ∈ config.dependenciesFor .root) :
      Reached config dependency.1
  | version {p : P} {v : V} {dependency : P × Finset V} (hreached : Reached config p)
      (havailable : v ∈ config.allVersions p)
      (hdependency : dependency ∈ config.dependenciesFor (.version p v)) :
      Reached config dependency.1

/-- Every dependency that can be reached allows a version there is. -/
structure Attainable (config : Config P V) : Prop where
  root : ∀ dependency ∈ config.dependenciesFor .root,
    (config.allVersions dependency.1 ∩ config.pinned dependency).Nonempty
  version : ∀ p v, Reached config p → v ∈ config.allVersions p →
    ∀ dependency ∈ config.dependenciesFor (.version p v),
      (config.allVersions dependency.1 ∩ config.pinned dependency).Nonempty

/-- A term about a package that can be reached.  If it is negative, it excludes a version there
is. -/
structure Within (config : Config P V) (t : Term P V) : Prop where
  isOver : t.Over config.allVersions
  reached : ∀ p, t.subject = .package p → Reached config p
  excludes : Attainable config → ∀ constraint, t = .version constraint →
    constraint.isPositive = false → ∃ v ∈ constraint.allVersions, v ∉ constraint.allowedVersions

section

omit [LinearOrder P]

lemma within_require {p : P} (hp : Reached cfg p) (vers : Finset V) : Within cfg (cfg.require p vers) where
  isOver := cfg.require_over p vers
  reached q hq := by
    cases hq
    exact hp
  excludes _ constr heq hneg := by
    cases heq
    cases hneg

lemma within_dep {ver : PackageVersion P V} {dep : P × Finset V} (hdep : Within cfg (cfg.dependeeTerm ver))
    (hrea : Reached cfg dep.1)
    (hatt : Attainable cfg → (cfg.allVersions dep.1 ∩ cfg.pinned dep).Nonempty) :
    ∀ t ∈ (cfg.dependencyIncompatibility ver dep).terms, Within cfg t := by
  intro t ht
  have hcas : t = cfg.dependeeTerm ver ∨ t = cfg.exclude dep.1 (cfg.pinned dep) := by
    simpa [Config.dependencyIncompatibility, Incompatibility.terms] using ht
  rcases hcas with rfl | rfl
  · exact hdep
  refine { isOver := cfg.exclude_over _ _, reached := ?_, excludes := ?_ }
  · intro q hq
    cases hq
    exact hrea
  · intro h con heq _
    cases heq
    rcases hatt h with ⟨v, hv⟩
    rw [Finset.mem_inter] at hv
    exact ⟨v, hv.1, by simp [allowedVersions, hv.2]⟩

lemma within_inter {a b c : Term P V} (ha : Within cfg a) (hb : Within cfg b)
    (hsub : a.subject = b.subject) (h : a.intersect b = some c) : Within cfg c := by
  rcases ha.isOver.intersect hb.isOver hsub h with ⟨hove, hcsu⟩
  refine { isOver := hove, reached := fun p hp => ha.reached p (hcsu ▸ hp), excludes := ?_ }
  rintro hatt z rfl hneg
  cases a with
  | version x =>
    cases b with
    | version y =>
      rcases Option.map_eq_some_iff.1 h with ⟨z', hz, heq⟩
      cases heq
      rcases inter_eq_some (ha.isOver.allVersions_eq hb.isOver hsub) hz with
        ⟨_, hall, hsig, hallo, _⟩
      rw [hsig, Bool.or_eq_false_iff] at hneg
      -- the intersection of two negative terms excludes what one of them excludes
      rcases ha.excludes hatt x rfl hneg.1 with ⟨v, hv, hexc⟩
      refine ⟨v, hall ▸ hv, fun hmem => hexc ?_⟩
      rw [hallo] at hmem
      exact (Finset.mem_inter.1 hmem).1
    | root _ => simp [Term.intersect] at h
  | root x => cases b <;> simp [Term.intersect] at h

lemma within_inverse_difference {a b d : Term P V} (ha : Within cfg a)
    (hd : a.inverse.difference b = some d) : Within cfg d.inverse := by
  rcases ha.isOver.inverse.difference hd with ⟨hove, hsub⟩
  rw [Term.subject_inverse] at hsub
  refine { isOver := hove.inverse, reached := fun p hp => ha.reached p ?_, excludes := ?_ }
  · rw [← hsub, ← Term.subject_inverse d, hp]
  · intro _ con heq _
    cases a with
    | version x =>
      cases b with
      | version y =>
        by_cases hemp : x.inverse.allowedVersions \ y.allowedVersions = ∅
        · simp [Term.inverse, Term.difference, difference, hemp] at hd
        obtain rfl : _ = d := by
          simpa [Term.inverse, Term.difference, difference, hemp] using hd
        cases heq
        -- the versions of a difference are there
        rcases Finset.nonempty_iff_ne_empty.2 hemp with ⟨v, hv⟩
        refine ⟨v, x.inverse.allowed_subset (Finset.mem_sdiff.1 hv).1, ?_⟩
        simpa [allowedVersions, inverse] using fun _ => hv
      | root _ => simp [Term.inverse, Term.difference] at hd
    | root x =>
      cases d with
      | version z => simp [Term.subject] at hsub
      | root z => cases heq

lemma stable_within (cfg : Config P V) : Stable cfg (Within cfg) where
  isOver _ ht := ht.isOver
  intersect _ _ _ := within_inter
  difference _ _ _ := within_inverse_difference
  root dependency hdep := by
    refine within_dep ?_ (.root hdep) fun h => h.root _ hdep
    exact
      { isOver := trivial
        reached := fun p hp => by cases hp
        excludes := fun _ con heq => by cases heq }
  version p v hspo hava dependency hdep := by
    rcases hspo with ⟨t, ht, hsub⟩
    have hp := ht.reached p hsub
    exact within_dep (within_require hp {v}) (.version hp hava hdep) fun h => h.version p v hp hava _ hdep
  require p vers hspo := by
    rcases hspo with ⟨t, ht, hsub⟩
    exact within_require (ht.reached p hsub) vers

end

lemma Offered.reached {sts : Nat} (h : Offered (run cfg sts) constr) : Reached cfg constr.packageName := by
  rcases (tracked_run (stable_within cfg) sts).mentions h with ⟨x, hx, t, ht, hsub⟩
  exact (hx t ht).reached _ hsub

/-- Facts and assignments are about the root and packages in reach. -/
theorem run_within_reach (sts : Nat) :
    (∀ subject, ∀ x ∈ (run cfg sts).incompatibilities subject, ∀ t ∈ x.terms, Within cfg t) ∧
    ∀ a ∈ (run cfg sts).solution.assignments, ∀ p, a.subject = .package p → Reached cfg p := by
  have htra := tracked_run (stable_within cfg) sts
  refine ⟨htra.stored, fun a ha p hp => ?_⟩
  cases hcau : a.cause with
  | none =>
    have hmem : a.term ∈ (run cfg sts).solution.decisions := by
      rw [htra.coherent.decisions_eq]
      exact mem_map_of_mem (mem_filter.2 ⟨ha, by simp [Assignment.isDecision, hcau]⟩)
    refine decisions_run cfg (Q := fun u => u.subject = .package p → Reached cfg p) (by rintro ⟨⟩)
      sts ?_ _ hmem hp
    rintro k - con v hdec ⟨⟩
    exact hdec.offered.reached
  | some cause =>
    obtain ⟨hall, t, ht, hterm⟩ := htra.causes a ha cause hcau
    rw [Assignment.subject, hterm, Term.subject_inverse] at hp
    exact (hall t ht).reached p hp

end Resolver
end Toolchain.SatResolver
