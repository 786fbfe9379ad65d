import Mathlib.Algebra.Order.BigOperators.Group.Finset
import Mathlib.Data.DFinsupp.WellFounded
import Toolchain.SatResolver.Footprint
import Toolchain.SatResolver.Justification
import Toolchain.SatResolver.Replay

/-!
# SatResolver.Progress — a measure that derivations, decisions and backjumps lower

`weight` counts what the assignments up to a level leave open, over all packages; the weights from the
lowest level on measure how far a solution has come (`progress`).  A derivation lowers the last one, a
decision opens a level, and a backjump derives something at the level it goes back to.
-/

namespace Toolchain.SatResolver

open Lib List Finset Term VersionConstraint Assignment

/-! ## What is left open -/

section

variable {P V : Type} [DecidableEq P] [DecidableEq V] {all : P → Finset V}

def openness (versions : Nat) : Option (Term P V) → Nat
  | none => 2 * versions + 2
  | some (.version constraint) =>
    if constraint.isPositive then
      constraint.allowedVersions.card
    else
      versions + 1 + constraint.allowedVersions.card
  | some (.root _) => 0

def weight (all : P → Finset V) (packages : Finset P) (assignments : List (Assignment P V)) : Nat :=
  ∑ p ∈ packages, openness (all p).card (accumulated assignments (.package p))

omit [DecidableEq P] in
lemma openness_narrow_lt {old : Option (Term P V)} {t new : Term P V} {p : P}
    (hold : ∀ x, old = some x → x.Over all ∧ x.subject = .package p) (ht : t.Over all)
    (hsubj : t.subject = .package p) (hcom : ∀ x, old = some x → x.intersect t ≠ none)
    (hnew : narrow old t.inverse = some new) :
    openness (all p).card (some new) < openness (all p).card old := by
  cases t with
  | root b => cases hsubj
  | version y =>
    have hnam : y.packageName = p := by simpa [Term.subject] using hsubj
    have hall : y.allVersions = all p := hnam ▸ ht
    have hcar : ∀ z : VersionConstraint P V, z.allVersions = all p →
        z.allowedVersions.card ≤ (all p).card := fun z hz =>
      hz ▸ card_le_card z.allowed_subset
    cases old with
    | none =>
      -- the first assignment about the package
      obtain rfl : Term.version y.inverse = new := by simpa [narrow, Term.inverse] using hnew
      have hle := hcar y.inverse hall
      simp only [openness]
      split <;> omega
    | some x =>
      rcases hold x rfl with ⟨hove, hxsu⟩
      cases x with
      | root b => cases hxsu
      | version x =>
        have hx : x.allVersions = all p := by
          have hxna : x.packageName = p := by simpa [Term.subject] using hxsu
          exact hxna ▸ hove
        rcases Option.map_eq_some_iff.1 hnew with ⟨z, hz, rfl⟩
        have hxy : x.allVersions = y.inverse.allVersions := hx.trans hall.symm
        rcases inter_eq_some hxy hz with ⟨_, hzal, hsig, hallo, _⟩
        have hzle := hcar z (hzal.trans hx)
        have hcom' : x.intersect y ≠ none := by simpa [Term.intersect] using hcom _ rfl
        have hsub : z.allowedVersions ⊆ x.allowedVersions := by
          rw [hallo]
          exact inter_subset_left
        -- what the term allows is taken away
        have hlt : (x.isPositive = true ∨ y.isPositive = true) → z.allowedVersions.card <
          x.allowedVersions.card := by
          intro hpos
          have hnon : (x.allowedVersions ∩ y.allowedVersions).Nonempty := by
            rw [nonempty_iff_ne_empty]
            intro hemp
            exact hcom' ((inter_eq_none_iff hpos).2 hemp)
          rcases hnon with ⟨v, hv⟩
          rw [mem_inter] at hv
          refine card_lt_card (ssubset_iff_of_subset hsub |>.2 ⟨v, hv.1, ?_⟩)
          intro hmem
          rw [hallo, mem_inter, allowed_inverse] at hmem
          exact (mem_sdiff.1 hmem.2).2 hv.2
        simp only [openness, hsig, VersionConstraint.inverse]
        cases hxpo : x.isPositive with
        | true =>
          have hles := hlt (.inl hxpo)
          simpa using hles
        | false =>
          cases hypo : y.isPositive with
          | true =>
            have hles := hlt (.inr hypo)
            simp
            omega
          | false =>
            simp
            omega

lemma weight_concat_lt {pac : Finset P} {assignments : List (Assignment P V)}
    {a : Assignment P V} {t : Term P V} {p : P}
    (hgro : Grown (Assigned all) (assignments ++ [a])) (hter : a.term = t.inverse)
    (ht : t.Over all) (hsub : t.subject = .package p) (hp : p ∈ pac)
    (hcom : ∀ x, accumulated assignments (.package p) = some x → x.intersect t ≠ none) :
    weight all pac (assignments ++ [a]) < weight all pac assignments := by
  have hasu : a.subject = .package p := by rw [Assignment.subject, hter, Term.subject_inverse, hsub]
  rcases Grown.concat_iff.1 hgro with ⟨hbef, hasg⟩
  rcases hasg.narrows with ⟨new, hnew⟩
  rw [hasu, hter] at hnew
  have hles : openness (all p).card (accumulated (assignments ++ [a]) (.package p)) <
      openness (all p).card (accumulated assignments (.package p)) := by
    rw [accum_concat, if_pos hasu, hter, hnew]
    exact openness_narrow_lt (fun x hx => accum_over hbef hx) ht hsub hcom hnew
  refine sum_lt_sum (fun q _ => ?_) ⟨p, hp, hles⟩
  by_cases hq : q = p
  · rw [hq]
    exact hles.le
  -- the other packages are not touched
  have hne : a.subject ≠ .package q := by
    rw [hasu]
    intro heq
    cases heq
    exact hq rfl
  rw [accum_concat, if_neg hne]

end

namespace PartialSolution

variable {P V : Type} [DecidableEq P] [DecidableEq V] {all : P → Finset V}
  {self : PartialSolution P V} {packages : Finset P}

/-! ## Levels -/

variable {assignments asgs : List (Assignment P V)} {level lvl : Nat}

lemma countP_upTo (hgro : Grown (Assigned all) asgs) (lvl : Nat) : (upTo lvl asgs).countP isDecision =
    min lvl (asgs.countP isDecision) := by
  induction asgs using reverseRecOn with
  | nil => simp [upTo]
  | append_singleton bef a ih =>
    rcases Grown.concat_iff.1 hgro with ⟨hbef, ha⟩
    have hlev := ha.level
    have hsuc : (bef ++ [a]).countP isDecision ≤ bef.countP isDecision + 1 := by
      rw [countP_append]
      exact Nat.add_le_add_left countP_le_length _
    rw [upTo, rdropWhile_concat]
    by_cases hlt : lvl < a.decisionLevel
    · rw [if_pos (decide_eq_true hlt)]
      have hkep := ih hbef
      rw [upTo] at hkep
      omega
    · rw [if_neg (by simpa using hlt)]
      omega

omit [DecidableEq P] [DecidableEq V] in
lemma upTo_concat_of_lt {a : Assignment P V}
    (hlt : lvl < a.decisionLevel) : upTo lvl (assignments ++ [a]) = upTo lvl assignments := by
  rw [upTo, rdropWhile_concat, if_pos (decide_eq_true hlt), upTo]

/-! ## Progress -/

def weightAt (all : P → Finset V) (packages : Finset P) (self : PartialSolution P V)
    (level : Nat) : WithTop Nat :=
  if level ≤ self.decisionLevel then WithTop.some
    (weight all packages (upTo level self.assignments)) else ⊤

def progress (all : P → Finset V) (packages : Finset P) (self : PartialSolution P V) :
    Lex (Fin (packages.card + 2) → WithTop Nat) :=
  toLex fun level => self.weightAt all packages level

lemma progress_lt {old new : PartialSolution P V} (hlev : lvl < packages.card + 2)
    (hbel : ∀ lower < lvl, new.weightAt all packages lower = old.weightAt all packages lower)
    (hat : new.weightAt all packages lvl < old.weightAt all packages lvl) :
    new.progress all packages < old.progress all packages :=
  ⟨⟨lvl, hlev⟩, fun lower hlow => hbel lower hlow, hat⟩

section

variable (h : self.Coherent all)

include h

lemma progress_derive_lt (hone : 1 ≤ level)
    (hle : level ≤ self.decisionLevel) (hbou : level < packages.card + 2) {t : Term P V}
    (ht : t.Over all) {p : P} (hsub : t.subject = .package p) (hp : p ∈ packages)
    (hsat : (self.backtrack level).satisfies t = false)
    (hcom : (self.backtrack level).isIncompatible t = false) (cause : Incompatibility P V) :
    ((self.backtrack level).derive t.inverse cause).progress all packages <
    self.progress all packages := by
  have hbac := h.backtrack hone
  have hnew := hbac.derive ht hsat hcom cause
  have hlev : (self.backtrack level).decisionLevel = level := by
    rw [hbac.level_eq]
    change (upTo level self.assignments).countP isDecision = level
    rw [countP_upTo h.grown, ← h.level_eq, Nat.min_eq_left hle]
  have hasg : ((self.backtrack level).derive t.inverse cause).assignments = upTo level self.assignments ++
        [{ term := t.inverse, decisionLevel := (self.backtrack level).decisionLevel
           index := (self.backtrack level).assignments.length, cause := some cause }] := rfl
  have hnel : ((self.backtrack level).derive t.inverse cause).decisionLevel = level := hlev
  apply progress_lt hbou
  · intro lower hlow
    unfold weightAt
    rw [hnel, if_pos hlow.le, if_pos (hlow.le.trans hle), hasg,
      upTo_concat_of_lt (by rw [hlev]; exact hlow), upTo_upTo hlow.le]
  unfold weightAt
  rw [hnel, if_pos le_rfl, if_pos hle, hasg, upTo, rdropWhile_concat, if_neg (by simp [hlev])]
  apply WithTop.coe_lt_coe.2
  refine weight_concat_lt ?_ rfl ht hsub hp ?_
  · have hgro := hnew.grown
    rw [hasg] at hgro
    exact hgro
  · intro x hx hnon
    have hexc : (self.backtrack level).isIncompatible t = true := by
      refine isIncompatible_iff.2 ⟨x, ?_, hnon⟩
      rwa [hbac.terms_eq, hsub]
    rw [hcom] at hexc
    cases hexc

lemma Coherent.one_le_decisionLevel : 1 ≤ self.decisionLevel := by
  rcases exists_mem_of_ne_nil _ h.nonempty with ⟨a, ha⟩
  exact (one_le_level h.grown ha).trans (h.level_le ha)

lemma Coherent.backtrack_level : self.backtrack self.decisionLevel = self := by
  calc self.backtrack self.decisionLevel = replay (self.backtrack self.decisionLevel).assignments :=
        (h.backtrack h.one_le_decisionLevel).eq_replay
    _ = replay self.assignments := congrArg replay h.upTo_level
    _ = self := h.eq_replay.symm

lemma progress_decide_lt {t : Term P V} (hnew : (self.decide t).Coherent all)
    (hbou : (self.decide t).decisionLevel < packages.card + 2) :
    (self.decide t).progress all packages < self.progress all packages := by
  have hasg : (self.decide t).assignments = self.assignments ++
      [{ term := t, decisionLevel := (self.decide t).decisionLevel, index := self.assignments.length
         cause := none }] := rfl
  have hsuc : (self.decide t).decisionLevel = self.decisionLevel + 1 := by
    rw [hnew.level_eq, h.level_eq, hasg, countP_append]
    rfl
  rw [hsuc] at hbou
  apply progress_lt hbou
  · intro lower hlow
    unfold weightAt
    rw [hsuc, if_pos hlow.le, if_pos (Nat.lt_succ_iff.1 hlow), hasg,
      upTo_concat_of_lt (by rw [hsuc]; exact hlow)]
  · unfold weightAt
    rw [hsuc, if_pos le_rfl, if_neg (Nat.not_succ_le_self _)]
    exact WithTop.coe_lt_top _

end

end PartialSolution

end Toolchain.SatResolver
