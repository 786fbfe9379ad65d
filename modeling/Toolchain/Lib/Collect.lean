import Mathlib.Data.Finset.Card

/-!
# Collect — gathering everything reachable in a finite graph

`collect next fuel a ret` walks a graph depth first from `a` and adds what it meets to `ret`; successors
enter the set before any of them is visited.  A walk inside a finite set needs no more fuel than there
are nodes left to meet.
-/

namespace Toolchain.Lib

open List Finset Relation

variable {α : Type} [DecidableEq α]

def collect (next : α → List α) : Nat → α → Finset α → Finset α
  | 0, _, ret => ret
  | fuel + 1, a, ret =>
    ((next a).filter (· ∉ ret)).foldl (fun ret b => collect next fuel b ret) (ret ∪ (next a).toFinset)

/-- The same walk, which fails when the fuel runs out. -/
def collect? (next : α → List α) : Nat → α → Finset α → Option (Finset α)
  | 0, _, _ => none
  | fuel + 1, a, ret =>
    ((next a).filter (· ∉ ret)).foldlM (fun ret b => collect? next fuel b ret) (ret ∪ (next a).toFinset)

structure Collected (next : α → List α) (a : α) (ret res : Finset α) : Prop where
  subset : ret ⊆ res
  start : ∀ b ∈ next a, b ∈ res
  closed : ∀ c ∈ res, c ∉ ret → ∀ b ∈ next c, b ∈ res

section Spec

variable {next : α → List α} (univ : Finset α)

lemma foldl_collect {fuel : Nat} (ret : Finset α) (hvis : ∀ b acc, (univ \ acc).card < fuel →
    Collected next b acc (collect next fuel b acc)) :
    ∀ (bs : List α) (acc : Finset α), (univ \ acc).card < fuel →
      (∀ c ∈ acc, c ∉ ret → c ∈ bs ∨ ∀ b ∈ next c, b ∈ acc) →
    acc ⊆ bs.foldl (fun ret b => collect next fuel b ret) acc ∧
    ∀ c ∈ bs.foldl (fun ret b => collect next fuel b ret) acc, c ∉ ret →
    ∀ b ∈ next c, b ∈ bs.foldl (fun ret b => collect next fuel b ret) acc := by
  intro bs
  induction bs with
  | nil =>
    intro acc _ hacc
    refine ⟨subset_rfl, ?_⟩
    intro c hc hret
    simpa using hacc c hc hret
  | cons b bs ih =>
    intro acc hfue hacc
    obtain ⟨hsub, hsta, hclo⟩ := hvis b acc hfue
    have hfuel' := lt_of_le_of_lt (card_le_card (sdiff_subset_sdiff (subset_rfl) hsub)) hfue
    have hnex : ∀ c ∈ collect next fuel b acc, c ∉ ret → c ∈ bs ∨ ∀ d ∈ next c,
      d ∈ collect next fuel b acc := by
      intro c hc hret
      by_cases hcac : c ∈ acc
      · rcases hacc c hcac hret with hmem | hdon
        · rcases mem_cons.1 hmem with rfl | hmem
          · exact .inr hsta
          · exact .inl hmem
        · exact .inr fun d hd => hsub (hdon d hd)
      · exact .inr (hclo c hc hcac)
    obtain ⟨hsub', hclo'⟩ := ih _ hfuel' hnex
    exact ⟨hsub.trans hsub', hclo'⟩

variable (huni : ∀ a, ∀ b ∈ next a, b ∈ univ)

include huni

lemma card_sdiff_union_lt {a : α} {ret : Finset α} (hnew : (next a).filter (· ∉ ret) ≠ []) :
    (univ \ (ret ∪ (next a).toFinset)).card < (univ \ ret).card := by
  obtain ⟨b, hb⟩ := exists_mem_of_ne_nil _ hnew
  obtain ⟨hb, hbre⟩ : b ∈ next a ∧ b ∉ ret := by simpa using hb
  refine card_lt_card (ssubset_iff_of_subset (sdiff_subset_sdiff (subset_rfl) subset_union_left) |>.2 ?_)
  exact ⟨b, by simp [huni a b hb, hbre], by simp [hb]⟩

lemma collect_collected :
    ∀ (fuel : Nat) (a : α) (ret : Finset α), (univ \ ret).card < fuel →
      Collected next a ret (collect next fuel a ret)
  | 0, _, _, hfue => absurd hfue (Nat.not_lt_zero _)
  | fuel + 1, a, ret, hfue => by
      by_cases hnew : (next a).filter (· ∉ ret) = []
      · -- nothing new: the walk stops here
        have hmem : ∀ b ∈ next a, b ∈ ret := by simpa [filter_eq_nil_iff] using hnew
        have hret : collect next (fuel + 1) a ret = ret := by
          simp only [collect, hnew, foldl_nil, union_eq_left]
          intro b hb
          exact hmem b (mem_toFinset.1 hb)
        rw [hret]
        exact ⟨subset_rfl, hmem, fun c hc hcre => absurd hc hcre⟩
      · have hles := card_sdiff_union_lt univ huni hnew
        obtain ⟨hsub, hclo⟩ := foldl_collect univ ret (fun b acc hacc => collect_collected fuel b acc hacc)
          ((next a).filter (· ∉ ret)) (ret ∪ (next a).toFinset) (by omega) (by
            intro c hc hret
            refine .inl ?_
            simpa [hret] using hc)
        refine ⟨subset_union_left.trans hsub, ?_, hclo⟩
        intro c hc
        exact hsub (mem_union_right _ (mem_toFinset.2 hc))

/-- With this fuel the walk never runs out of it. -/
lemma collect?_eq_some : ∀ (fuel : Nat) (a : α) (ret : Finset α), (univ \ ret).card < fuel →
    collect? next fuel a ret = some (collect next fuel a ret)
  | 0, _, _, hfue => absurd hfue (Nat.not_lt_zero _)
  | fuel + 1, a, ret, hfue => by
      have hfol : ∀ (bs : List α) (acc : Finset α), (univ \ acc).card < fuel →
          bs.foldlM (fun ret b => collect? next fuel b ret) acc =
            some (bs.foldl (fun ret b => collect next fuel b ret) acc) := by
        intro bs
        induction bs with
        | nil => exact fun _ _ => rfl
        | cons b bs ih =>
          intro acc hacc
          have hsub := (collect_collected univ huni fuel b acc hacc).subset
          rw [foldlM_cons, collect?_eq_some fuel b acc hacc]
          exact ih _ (lt_of_le_of_lt (card_le_card (sdiff_subset_sdiff (subset_rfl) hsub)) hacc)
      by_cases hnew : (next a).filter (· ∉ ret) = []
      · simp only [collect?, collect, hnew, foldlM_nil, foldl_nil]
        rfl
      · have hles := card_sdiff_union_lt univ huni hnew
        exact hfol _ _ (by omega)

end Spec

lemma reachable_of_mem_collect {next : α → List α} :
    ∀ (fuel : Nat) (a : α) (ret : Finset α) {b : α}, b ∈ collect next fuel a ret →
    b ∈ ret ∨ TransGen (fun c d => d ∈ next c) a b
  | 0, _, _, _, hb => .inl hb
  | fuel + 1, a, ret, b, hb => by
      have hfol : ∀ (cs : List α) (acc : Finset α), (∀ c ∈ cs, c ∈ next a) →
          b ∈ cs.foldl (fun ret c => collect next fuel c ret) acc →
          b ∈ acc ∨ TransGen (fun c d => d ∈ next c) a b := by
        intro cs
        induction cs with
        | nil => exact fun _ _ hb => .inl hb
        | cons c cs ih =>
          intro acc hcs hb
          rcases ih _ (fun d hd => hcs d (.tail _ hd)) hb with hb | hb
          · rcases reachable_of_mem_collect fuel c acc hb with hb | hb
            · exact .inl hb
            · exact .inr (.head (hcs c (.head _)) hb)
          · exact .inr hb
      rcases hfol _ _ (fun c hc => mem_of_mem_filter hc) hb with hb | hb
      · rcases mem_union.1 hb with hb | hb
        · exact .inl hb
        · exact .inr (.single (mem_toFinset.1 hb))
      · exact .inr hb

lemma mem_collect_iff {next : α → List α} (univ : Finset α) (huni : ∀ a, ∀ b ∈ next a, b ∈ univ)
    {fuel : Nat}
    (hfue : univ.card < fuel) {a b : α} :
    b ∈ collect next fuel a ∅ ↔ TransGen (fun c d => d ∈ next c) a b := by
  have hcol := collect_collected univ huni fuel a ∅ (by simpa using hfue)
  constructor
  · intro hb
    exact (reachable_of_mem_collect fuel a ∅ hb).resolve_left (by simp)
  · intro hpat
    induction hpat with
    | single hedg => exact hcol.start _ hedg
    | tail _ hedg ih => exact hcol.closed _ ih (by simp) _ hedg

end Toolchain.Lib
