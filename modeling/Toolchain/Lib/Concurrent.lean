import Toolchain.Lib.Run

/-!
# Concurrent — calls that share a state and take their statements in any order

A *call* is a sequential program of atomic *statements* on a shared state; the schedule says which call
goes on, and what the environment answers.  Interference freedom: an invariant with an assertion for
every program point is kept by all schedules if every statement establishes what holds after it and
invalidates no assertion of another call.
-/

namespace Toolchain.Lib

open List

universe u v w x

structure Concurrent (σ : Type u) (π : Type v) where
  shared : σ
  calls : List π
  deriving DecidableEq

inductive Scheduled (κ : Type w) (α : Type x)
  | begin (request : κ)
  | advance (index : Nat) (answer : α)

namespace Concurrent

variable {σ : Type u} {π : Type v} {κ : Type w} {α : Type x}

def init (shared : σ) : Concurrent σ π where
  shared := shared
  calls := []

def step (entry : κ → π) (statement : σ → π → α → σ × π) (s : Concurrent σ π) :
    Scheduled κ α → Concurrent σ π
  | .begin request => { s with calls := s.calls ++ [entry request] }
  | .advance index answer =>
    match s.calls[index]? with
    | none => s
    | some point =>
      { shared := (statement s.shared point answer).1
        calls := s.calls.set index (statement s.shared point answer).2 }

def Allowed (allowed : σ → π → α → Prop) (s : Concurrent σ π) : Scheduled κ α → Prop
  | .begin _ => True
  | .advance index answer => ∀ point ∈ s.calls[index]?, allowed s.shared point answer

instance (allowed : σ → π → α → Prop) [∀ shared point answer, Decidable (allowed shared point answer)]
    (s : Concurrent σ π) : ∀ event : Scheduled κ α, Decidable (Allowed allowed s event)
  | .begin _ => inferInstanceAs (Decidable True)
  | .advance index answer =>
    inferInstanceAs (Decidable (∀ point ∈ s.calls[index]?, allowed s.shared point answer))

variable {entry ent : κ → π} {stmt : σ → π → α → σ × π} {s : Concurrent σ π}

lemma step_advance {idx : Nat} {pt : π} (h : s.calls[idx]? = some pt) (ans : α) :
    step ent stmt s (.advance idx ans) =
      { shared := (stmt s.shared pt ans).1
        calls := s.calls.set idx (stmt s.shared pt ans).2 } := by
  simp only [step, h]

lemma step_cases (ent : κ → π) (stmt : σ → π → α → σ × π) (s : Concurrent σ π) (ev : Scheduled κ α) :
    (∃ request, ev = .begin request ∧ step ent stmt s ev = { s with calls := s.calls ++ [ent request] }) ∨
    step ent stmt s ev = s ∨
    ∃ idx answer point, ev = .advance idx answer ∧ s.calls[idx]? = some point ∧ step ent stmt s ev =
          { shared := (stmt s.shared point answer).1
            calls := s.calls.set idx (stmt s.shared point answer).2 } := by
  cases ev with
  | begin request => exact .inl ⟨request, rfl, rfl⟩
  | advance idx answer =>
    cases hpoi : s.calls[idx]? with
    | none =>
      refine .inr (.inl ?_)
      simp only [step, hpoi]
    | some point => exact .inr (.inr ⟨idx, answer, point, rfl, hpoi, step_advance hpoi answer⟩)

structure Annotated (I : σ → Prop) (J : Nat → σ → π → Prop) (s : Concurrent σ π) : Prop where
  invariant : I s.shared
  assertions : ∀ (index : Nat) (point : π), s.calls[index]? = some point → J index s.shared point

lemma annotated_init {I : σ → Prop} {J : Nat → σ → π → Prop} {shr : σ} (h : I shr) :
    Annotated I J (init shr) where
  invariant := h
  assertions idx point hpoi := by simp [init] at hpoi

lemma Annotated.step {I : σ → Prop} {J : Nat → σ → π → Prop} {allo : σ → π → α → Prop}
    (hent : ∀ idx shared request, I shared → J idx shared (ent request))
    (hown : ∀ idx shared point answer, I shared → J idx shared point →
    allo shared point answer → I (stmt shared point answer).1 ∧
    J idx (stmt shared point answer).1 (stmt shared point answer).2)
    (hoth : ∀ idx other shared point answer next, I shared → J idx shared point →
    allo shared point answer → other ≠ idx → J other shared next →
      J other (stmt shared point answer).1 next)
    (h : Annotated I J s) {ev : Scheduled κ α} (hall : Allowed allo s ev) :
    Annotated I J (step ent stmt s ev) := by
  rcases step_cases ent stmt s ev with
    ⟨request, rfl, heq⟩ | heq | ⟨idx, answer, point, rfl, hpoi, heq⟩
  · rw [heq]
    refine ⟨h.invariant, ?_⟩
    intro other next hnex
    rcases Nat.lt_or_ge other s.calls.length with hlt | hge
    · rw [getElem?_append_left hlt] at hnex
      exact h.assertions other next hnex
    -- the new call is at its entry
    rw [getElem?_append_right hge, getElem?_singleton] at hnex
    split at hnex
    · cases hnex
      exact hent other s.shared request h.invariant
    · cases hnex
  · rwa [heq]
  · rw [heq]
    have hper := hall point hpoi
    have hasg := h.assertions idx point hpoi
    have hdon := hown idx s.shared point answer h.invariant hasg hper
    refine ⟨hdon.1, ?_⟩
    intro other next hnex
    by_cases hsam : other = idx
    · subst hsam
      have hlt := (List.getElem?_eq_some_iff.1 hpoi).1
      rw [getElem?_set_self hlt] at hnex
      cases hnex
      exact hdon.2
    · rw [getElem?_set_ne (Ne.symm hsam)] at hnex
      exact hoth idx other s.shared point answer next h.invariant hasg hper hsam
        (h.assertions other next hnex)

lemma countP_set {idx : Nat} {pt : π} (h : s.calls[idx]? = some pt) (next : π) (kind : π → Bool) :
    (s.calls.set idx next).countP kind + (kind pt).toNat = s.calls.countP kind + (kind next).toNat := by
  rcases List.getElem?_eq_some_iff.1 h with ⟨hlt, rfl⟩
  rw [List.countP_set hlt]
  cases hkin : kind s.calls[idx] with
  | true =>
    -- the call is counted, so there is something to subtract from
    have hpos := countP_pos_iff.2 ⟨s.calls[idx], getElem_mem hlt, hkin⟩
    cases kind next with
    | true | false => simp; omega
  | false =>
    cases kind next with
    | true | false => simp

lemma countP_step (kind : π → Bool) (num : σ → Nat) {allo : σ → π → α → Prop}
    (hent : ∀ request, kind (ent request) = false)
    (hsta : ∀ point answer, point ∈ s.calls → allo s.shared point answer →
    num (stmt s.shared point answer).1 + (kind point).toNat =
    num s.shared + (kind (stmt s.shared point answer).2).toNat)
    (h : s.calls.countP kind = num s.shared) {ev : Scheduled κ α}
    (hall : Allowed allo s ev) :
    (step ent stmt s ev).calls.countP kind = num (step ent stmt s ev).shared := by
  rcases step_cases ent stmt s ev with
    ⟨request, rfl, heq⟩ | heq | ⟨idx, answer, point, rfl, hpoi, heq⟩
  · rw [heq]
    simp [countP_append, hent, h]
  · rwa [heq]
  rw [heq]
  have hcou := countP_set hpoi (stmt s.shared point answer).2 kind
  have hnum := hsta point answer (mem_of_getElem? hpoi) (hall point hpoi)
  show (s.calls.set idx (stmt s.shared point answer).2).countP kind = num (stmt s.shared point answer).1
  omega

end Concurrent
end Toolchain.Lib
