import Toolchain.SatResolver.Soundness

/-!
# SatResolver.Replay — a partial solution is what its assignments make it

`backtrack` drops the decision of every subject of which it removed an assignment, and rebuilds the
terms of these subjects only.  That leaves the `replay` of what it keeps, since nothing is assigned to a
subject that has been decided.
-/

namespace Toolchain.SatResolver

open Lib List Assignment

variable {P V : Type} [DecidableEq P] [DecidableEq V]

def intersection : List (Term P V) → Option (Term P V)
  | [] => none
  | first :: rest => rest.foldlM Term.intersect first

omit [DecidableEq P] in
lemma intersection_concat {ts : List (Term P V)} (hter : ts ≠ []) (t : Term P V) :
    intersection (ts ++ [t]) = (intersection ts).bind fun old => old.intersect t := by
  cases ts with
  | nil => exact absurd rfl hter
  | cons first rest => simp [intersection, foldlM_append]

namespace PartialSolution

def termsOf (assignments : List (Assignment P V)) (subject : Subject P) : List (Term P V) :=
  (assignments.filter fun assignment => assignment.subject = subject).map term

def redo (self : PartialSolution P V) (assignment : Assignment P V) : PartialSolution P V :=
  match assignment.cause with
  | none => self.decide assignment.term
  | some cause => self.derive assignment.term cause

def replay (assignments : List (Assignment P V)) : PartialSolution P V :=
  assignments.foldl redo empty

structure Accurate (self : PartialSolution P V) : Prop where
  terms_eq : ∀ subject, self.terms subject = intersection (termsOf self.assignments subject)
  defined : ∀ a ∈ self.assignments, self.terms a.subject ≠ none
  decisions_eq : self.decisions = (self.assignments.filter isDecision).map term
  indices : self.assignments.map index = range self.assignments.length
  levels : self.assignments.Pairwise fun a b => a.decisionLevel ≤ b.decisionLevel

/-! ## Tables of a list of assignments -/

section

variable {all : P → Finset V} {asgs : List (Assignment P V)}

omit [DecidableEq V] in
lemma termsOf_concat (asgs : List (Assignment P V)) (a : Assignment P V) (subject : Subject P) :
    termsOf (asgs ++ [a]) subject = if a.subject = subject then termsOf asgs subject ++ [a.term]
    else termsOf asgs subject := by
  by_cases h : a.subject = subject <;> simp [termsOf, filter_append, h]

section

variable (hgro : Grown (Assigned all) asgs)

include hgro

lemma accum_eq_intersection (subj : Subject P) : accumulated asgs subj = intersection (termsOf asgs subj) ∧
    (termsOf asgs subj ≠ [] → accumulated asgs subj ≠ none) := by
  induction hgro with
  | nil => exact ⟨rfl, fun h => absurd rfl h⟩
  | @concat bef a _ ha ih =>
    rw [accum_concat, termsOf_concat]
    by_cases hsub : a.subject = subj
    swap
    · rwa [if_neg hsub, if_neg hsub]
    rw [if_pos hsub, if_pos hsub]
    rcases ha.narrows with ⟨new, hnew⟩
    rw [hsub] at hnew
    refine ⟨?_, fun _ => by simp [hnew]⟩
    rcases hter : termsOf bef subj with _ | ⟨first, rest⟩
    · -- the first assignment of the subject
      have hnon : accumulated bef subj = none := by
        rw [ih.1, hter]
        rfl
      rw [hnon]
      rfl
    · have hne : termsOf bef subj ≠ [] := by simp [hter]
      rcases hold : accumulated bef subj with _ | old
      · exact absurd hold (ih.2 hne)
      · rw [← hter, intersection_concat hne, ← ih.1, hold]
        rfl

lemma indices_eq_range : asgs.map index = range asgs.length := by
  induction hgro with
  | nil => rfl
  | concat _ ha ih => simp [ih, ha.index, range_succ]

lemma replay_eq : replay asgs =
      { assignments := asgs, decisions := (asgs.filter isDecision).map term
        terms := accumulated asgs } := by
  induction hgro with
  | nil => rfl
  | @concat bef a hbef ha ih =>
    have hter : register (accumulated bef) a = accumulated (bef ++ [a]) :=
      funext (register_eq_accum (fun _ => rfl) a)
    have hste : replay (bef ++ [a]) = (replay bef).redo a := by simp [replay, foldl_append]
    rw [hste, ih]
    rcases a with ⟨term, level, index, _ | cause⟩
    · -- a decision: no earlier one is about its subject
      have hfil : ((bef.filter Assignment.isDecision).map Assignment.term).filter
          (fun old => old.subject ≠ term.subject) = (bef.filter Assignment.isDecision).map
            Assignment.term := by
        refine filter_eq_self.2 fun old hold => decide_eq_true ?_
        rcases mem_map.1 hold with ⟨b, hb, rfl⟩
        rcases mem_filter.1 hb with ⟨hb, hdec⟩
        exact ha.undecided b hb hdec
      have hlev : ((bef.filter Assignment.isDecision).map Assignment.term ++ [term]).length =
          level := by
        have hcou : level = _ := ha.level
        rw [length_append, length_map, ← countP_eq_length_filter, hcou, countP_append]
        rfl
      have hind := ha.index.symm
      simp only [redo, PartialSolution.decide, append, decisionLevel, hfil, hlev, hind, hter]
      rw [filter_append, map_append]
      rfl
    · -- a derivation leaves the decisions as they are
      have hlev : ((bef.filter Assignment.isDecision).map Assignment.term).length =
          level := by
        have hcou : level = _ := ha.level
        rw [length_map, ← countP_eq_length_filter, hcou, countP_append]
        rfl
      have hind := ha.index.symm
      simp only [redo, PartialSolution.derive, append, decisionLevel, hlev, hind, hter]
      rw [filter_append, map_append]
      simp [isDecision]

end

end

/-! ## Coherent solutions -/

variable {all : P → Finset V} {self : PartialSolution P V}

section

variable (h : self.Coherent all)

include h

lemma Coherent.accurate : self.Accurate where
  terms_eq subject := (h.terms_eq subject).trans (accum_eq_intersection h.grown subject).1
  defined a ha := by
    rw [h.terms_eq]
    apply (accum_eq_intersection h.grown a.subject).2
    intro hnil
    simpa using filter_eq_nil_iff.1 (map_eq_nil_iff.1 hnil) a ha
  decisions_eq := h.decisions_eq
  indices := indices_eq_range h.grown
  levels := levels_sorted h.grown

lemma Coherent.eq_replay : self = replay self.assignments := by
  calc self
      = { assignments := self.assignments
          decisions := (self.assignments.filter isDecision).map term
          terms := accumulated self.assignments } := by
        rw [← h.decisions_eq, ← funext h.terms_eq]
    _ = replay self.assignments := (replay_eq h.grown).symm

lemma Coherent.backtrack_eq_replay {level : Nat} (hlev : 1 ≤ level) :
    self.backtrack level = replay (self.assignments.filter fun a => a.decisionLevel ≤ level) := by
  calc self.backtrack level = replay (self.backtrack level).assignments := (h.backtrack hlev).eq_replay
    _ = replay (upTo level self.assignments) := rfl
    _ = replay (self.assignments.filter fun a => a.decisionLevel ≤ level) := by rw [h.upTo_eq_filter]

end

end PartialSolution

namespace Resolver

open PartialSolution

variable {P V : Type} [LinearOrder P] [LinearOrder V]

/-- In every state of a run the tables are accurate, and backtracking would leave the replay of what it
keeps. -/
theorem solution_accurate (config : Config P V) (hself : config.NoSelfDependency) (steps : Nat) :
    (run config steps).solution.Accurate ∧ ∀ level, 1 ≤ level → level <
      (run config steps).solution.decisionLevel →
    (run config steps).solution.backtrack level =
      replay ((run config steps).solution.assignments.filter fun a =>
    a.decisionLevel ≤ level) ∧
    ((run config steps).solution.backtrack level).Accurate := by
  have h := (consistent_run hself steps).coherent
  refine ⟨h.accurate, fun level hlev _ => ⟨h.backtrack_eq_replay hlev, ?_⟩⟩
  exact (h.backtrack hlev).accurate

theorem solution_accurate_misjudged :
    (run misjudged 20).solution.decisionLevel = 3 ∧ (run misjudged 20).solution.backtrack 2 =
    replay ((run misjudged 20).solution.assignments.filter fun a => a.decisionLevel ≤ 2) := by
  have hlev : (run misjudged 20).solution.decisionLevel = 3 := by decide +kernel
  refine ⟨hlev, ?_⟩
  have hsel : misjudged.NoSelfDependency := by
    unfold Config.NoSelfDependency
    decide
  exact ((solution_accurate misjudged hsel 20).2 2 (by decide) (by rw [hlev]; decide)).1

end Resolver

end Toolchain.SatResolver
