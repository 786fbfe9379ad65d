import Mathlib.Data.List.Basic
import Mathlib.Order.WellFounded

/-!
# Run — executions of a machine driven by a list of actions

A machine is a function `step : σ → α → σ`; a *run* performs a list of actions, its *trace* is all
states it passes through, and an action may have to meet a *guard*.

* `run_invariant` — an invariant kept by every step holds after every run;
* `forall_trace_of_guarded` — one kept by guarded steps holds along every guarded run;
* `forall_trace_iff_guarded` — if every other step loses what it implies, only along those.
-/

namespace Toolchain.Lib

open List

universe u v

variable {σ : Type u} {α : Type v}

def run (step : σ → α → σ) (s : σ) (as : List α) : σ :=
  as.foldl step s

def trace (step : σ → α → σ) : σ → List α → List σ
  | s, [] => [s]
  | s, a :: as => s :: trace step (step s a) as

def Guarded (step : σ → α → σ) (guard : σ → α → Prop) : σ → List α → Prop
  | _, [] => True
  | s, a :: as => guard s a ∧ Guarded step guard (step s a) as

instance (step : σ → α → σ) (guard : σ → α → Prop) [∀ s a, Decidable (guard s a)] :
    ∀ s as, Decidable (Guarded step guard s as)
  | _, [] => inferInstanceAs (Decidable True)
  | s, a :: as =>
    have : Decidable (Guarded step guard (step s a) as) := instDecidableGuarded step guard _ as
    inferInstanceAs (Decidable (guard s a ∧ Guarded step guard (step s a) as))

variable {step : σ → α → σ} {guard : σ → α → Prop}

@[simp] lemma run_nil (s : σ) : run step s [] = s := rfl

@[simp] lemma run_cons (s : σ) (a : α) (as : List α) :
    run step s (a :: as) = run step (step s a) as := rfl

lemma run_append (s : σ) (as bs : List α) :
    run step s (as ++ bs) = run step (run step s as) bs := by simp [run]

lemma mem_trace_self (s : σ) (as : List α) : s ∈ trace step s as := by
  cases as with
  | nil | cons a as => simp [trace]

lemma run_mem_trace (s : σ) (as : List α) : run step s as ∈ trace step s as := by
  induction as generalizing s with
  | nil => simp [trace]
  | cons a as ih => exact .tail _ (ih (step s a))

lemma Guarded.and_trace {P : σ → Prop} :
    ∀ {s : σ} {as : List α}, Guarded step guard s as → (∀ t ∈ trace step s as, P t) →
    Guarded step (fun s a => P s ∧ P (step s a) ∧ guard s a) s as := by
  intro s as
  induction as generalizing s with
  | nil => intro _ _; trivial
  | cons a as ih =>
    rintro ⟨hgua, hres⟩ hP
    have hnex : ∀ t ∈ trace step (step s a) as, P t := fun t ht => hP t (.tail _ ht)
    exact ⟨⟨hP s (mem_trace_self s (a :: as)), hnex _ (mem_trace_self _ as), hgua⟩, ih hres hnex⟩

variable (Inv : σ → Prop) {as : List α}

lemma guarded_of_forall_mem (h : ∀ a ∈ as, ∀ s, guard s a) (s : σ) :
    Guarded step guard s as := by
  induction as generalizing s with
  | nil => trivial
  | cons a as ih => exact ⟨h a (.head _) s, ih (fun b hb => h b (.tail _ hb)) _⟩

variable {s : σ} {guard' : σ → α → Prop}

lemma guarded_iff_forall_split : Guarded step guard s as ↔
    ∀ bef a after, as = bef ++ a :: after → guard (run step s bef) a := by
  induction as generalizing s with
  | nil => simp [Guarded]
  | cons b as ih =>
    constructor
    · rintro ⟨hgua, hres⟩ bef a after heq
      cases bef with
      | nil =>
        cases heq
        exact hgua
      | cons c bef =>
        cases heq
        exact ih.1 hres bef a after rfl
    · intro h
      refine ⟨h [] b as rfl, ih.2 ?_⟩
      rintro bef a after rfl
      exact h (b :: bef) a after rfl

lemma guarded_append {as bs : List α} : Guarded step guard s (as ++ bs) ↔
    Guarded step guard s as ∧ Guarded step guard (run step s as) bs := by
  induction as generalizing s with
  | nil => simp [Guarded]
  | cons a as ih => simp [Guarded, ih, and_assoc]

lemma forall_trace_of_guarded (hste : ∀ s a, Inv s → guard s a → Inv (step s a)) :
    ∀ {s : σ} {as : List α}, Inv s → Guarded step guard s as → ∀ t ∈ trace step s as, Inv t := by
  intro s as
  induction as generalizing s with
  | nil =>
    intro hs _ t ht
    have : t = s := by simpa [trace] using ht
    exact this ▸ hs
  | cons a as ih =>
    rintro hs ⟨hgua, hres⟩ t ht
    rcases mem_cons.1 ht with rfl | ht
    · exact hs
    · exact ih (hste s a hs hgua) hres t ht

lemma run_invariant (hste : ∀ s a, Inv s → Inv (step s a)) :
    ∀ {s : σ} (as : List α), Inv s → Inv (run step s as) := by
  intro s as
  induction as generalizing s with
  | nil => exact id
  | cons a as ih =>
    intro hs
    exact ih (hste s a hs)

lemma guarded_congr (hste : ∀ s a, Inv s → Inv (step s a)) (h : ∀ s a, Inv s → (guard s a ↔ guard' s a)) :
    ∀ {s : σ} (as : List α), Inv s → (Guarded step guard s as ↔ Guarded step guard' s as) := by
  intro s as
  induction as generalizing s with
  | nil =>
    intro _
    exact Iff.rfl
  | cons a as ih =>
    intro hs
    exact and_congr (h s a hs) (ih (hste s a hs))

/-- A property that follows from an invariant of the guarded steps, and that no other step
establishes, holds along a run exactly when all of its steps are guarded. -/
lemma forall_trace_iff_guarded {P : σ → Prop}
    (hste : ∀ s a, Inv s → guard s a → Inv (step s a)) (hsou : ∀ s, Inv s → P s)
    (hexa : ∀ s a, Inv s → P (step s a) → guard s a) (hs : Inv s) :
    (∀ t ∈ trace step s as, P t) ↔ Guarded step guard s as := by
  constructor
  · intro h
    induction as generalizing s with
    | nil => trivial
    | cons a as ih =>
      have hgua := hexa s a hs (h _ (.tail _ (mem_trace_self (step s a) as)))
      refine ⟨hgua, ih (hste s a hs hgua) ?_⟩
      intro t ht
      exact h t (.tail _ ht)
  · intro h t ht
    exact hsou t (forall_trace_of_guarded Inv hste hs h t ht)

/-! ## Halting -/

lemma exists_iterate_of_measure_lt {β : Type v} [LT β] [WellFoundedLT β] (next : σ → σ)
    (halt : σ → Prop) (meas : σ → β) (s : σ)
    (h : ∀ n, ¬halt (next^[n] s) → meas (next^[n + 1] s) < meas (next^[n] s)) :
    ∃ n, halt (next^[n] s) := by
  by_contra hrun
  rcases WellFounded.not_rel_apply_succ (r := (· < ·)) fun n => meas (next^[n] s) with ⟨n, hn⟩
  exact hn (h n fun hhal => hrun ⟨n, hhal⟩)

end Toolchain.Lib
