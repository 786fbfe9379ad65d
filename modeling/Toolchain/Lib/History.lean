import Mathlib.Data.List.DropRight

/-!
# History — lists that only ever grow at the end

`Grown R l` says that `l` was built by appending entries, where `R l a` is the condition under which `a`
may follow `l`.  Taking entries off the end again leaves such a list.
-/

namespace Toolchain.Lib

open List

universe u

variable {α : Type u} {R : List α → α → Prop} {l m : List α} {a : α}

inductive Grown (R : List α → α → Prop) : List α → Prop
  | nil : Grown R []
  | concat {l : List α} {a : α} : Grown R l → R l a → Grown R (l ++ [a])

namespace Grown

lemma concat_iff : Grown R (l ++ [a]) ↔ Grown R l ∧ R l a := by
  constructor
  · intro h
    generalize hm : l ++ [a] = m at h
    cases h with
    | nil => simp at hm
    | concat hl ha =>
      rcases append_inj' hm rfl with ⟨rfl, hlas⟩
      cases hlas
      exact ⟨hl, ha⟩
  · rintro ⟨hl, ha⟩
    exact concat hl ha

lemma of_append (h : Grown R (l ++ m)) : Grown R l := by
  induction m using reverseRecOn with
  | nil => simpa using h
  | append_singleton m a ih =>
    rw [← append_assoc, concat_iff] at h
    exact ih h.1

lemma rel (h : Grown R (l ++ a :: m)) : R l a := by
  rw [append_cons] at h
  exact (concat_iff.1 h.of_append).2

end Grown

lemma forall_mem_of_before {Q : α → Prop} (l : List α)
    (h : ∀ bef a after, l = bef ++ a :: after → (∀ b ∈ bef, Q b) → Q a) :
    ∀ a ∈ l, Q a := by
  induction l using reverseRecOn with
  | nil => simp
  | append_singleton l a ih =>
    have hl : ∀ b ∈ l, Q b := by
      apply ih
      intro bef b after hspl
      exact h bef b (after ++ [a]) (by simp [hspl])
    intro b hb
    rcases mem_append.1 hb with hb | hb
    · exact hl b hb
    · rw [mem_singleton.1 hb]
      exact h l a [] rfl hl

/-! ## Taking entries off the end -/

lemma rdropWhile_eq_filter (p : α → Bool) (l : List α)
    (hsor : l.Pairwise fun a b => p a = true → p b = true) :
    l.rdropWhile p = l.filter fun a => !p a := by
  induction l using reverseRecOn with
  | nil => rfl
  | append_singleton l a ih =>
    have hpar := pairwise_append.1 hsor
    rw [rdropWhile_concat, filter_append]
    by_cases ha : p a = true
    · simp [ha, ih hpar.1]
    -- the last entry stays, and so does everything before it
    have hkep : ∀ b ∈ l, (!p b) = true := by
      intro b hb
      cases hpb : p b with
      | true => exact absurd (hpar.2.2 b hb a (by simp) hpb) ha
      | false => rfl
    simp [ha, filter_eq_self.2 hkep]

end Toolchain.Lib
