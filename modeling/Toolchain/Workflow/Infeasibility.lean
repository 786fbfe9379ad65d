import Toolchain.Workflow.RequirementCount

/-!
# Infeasibility — what becomes of the units that require an infeasible one

`permanent_error_occurred` marks all transitive requirers of the unit that failed.  `add_requirement` on
an `INFEASIBLE` target marks the unit that gets the requirement, and no other: whoever waits for that
unit goes on waiting.
-/

namespace Toolchain.Workflow

open Lib Db Instance Relation

namespace Db

def TransitivelyRequires (db : Db) : Nat → Nat → Prop :=
  TransGen fun source target => source ∈ db.requirers target

/-- If an operation adds a requirement, whoever requires the unit is `INFEASIBLE` already. -/
def Cascades (db : Db) : Operation → Prop
  | .addRequirement pk _ => ∀ p, p ≠ pk → db.TransitivelyRequires p pk → (db.unit p).state = .infeasible
  | _ => True

/-! ## Operations that make no unit infeasible -/

def NoneCondemned (db db' : Db) : Prop :=
  ∀ p, (db'.unit p).state = .infeasible → (db.unit p).state = .infeasible

lemma spared_update {db db' : Db} {pk : Nat} {row : WorkUnit}
    (huni : db'.unit = Function.update db.unit pk row)
    (hrow : row.state = .infeasible → (db.unit pk).state = .infeasible) :
    db.NoneCondemned db' := by
  intro p hp
  rw [huni] at hp
  by_cases hne : p = pk
  · subst hne
    exact hrow (by simpa using hp)
  · simpa [hne] using hp

lemma spared_bulk (db : Db) (ctype made n : Nat) : db.NoneCondemned (db.bulkCreate ctype made n) := by
  intro p hp
  simp only [bulkCreate] at hp
  split at hp
  · cases hp
  · exact hp

lemma spared_trans {db₁ db₂ db₃ : Db} (h₁ : db₁.NoneCondemned db₂)
    (h₂ : db₂.NoneCondemned db₃) : db₁.NoneCondemned db₃ :=
  fun p hp => h₁ p (h₂ p hp)

lemma spared_foldl_satisfy (start : Db) (now : Nat) (again : Bool) :
    ∀ (pks : List Nat) (db : Db), start.NoneCondemned db →
    start.NoneCondemned ((pks.map start.fetch).foldl (satisfy now again) db)
  | [], _, h => h
  | pk :: pks, db, h => by
      refine spared_foldl_satisfy start now again pks _ ?_
      intro p hp
      by_cases hne : p = pk
      · subst hne
        have hsel := satisfy_unit_self now again db (start.fetch p)
        rw [fetch_pk] at hsel
        rw [hsel] at hp
        exact satisfied_infeasible now again (start.fetch p) hp
      · rw [satisfy_state_of_ne now again db (start.fetch pk) hne] at hp
        exact h p hp

lemma spared_perform (db : Db) {op : Operation} (hadd : ∀ pk tgt, op ≠ .addRequirement pk tgt)
    (herr : ∀ pk, op ≠ .permanentErrorOccurred pk) : db.NoneCondemned (db.perform op) := by
  rw [perform_eq]
  split
  swap
  · exact fun _ hp => hp
  rename_i hena
  cases op with
  | create ctype made => exact spared_bulk db ctype made 1
  | addRequirement pk tgt => exact absurd rfl (hadd pk tgt)
  | createRequirements pk ctype made n =>
    have hold : (db.bulkCreate ctype made n).unit pk =
      db.unit pk := by simp [bulkCreate, Nat.not_le.2 hena.1]
    refine spared_trans (spared_bulk db ctype made n) ?_
    refine spared_update (requireNew_unit _ _ _ _ _) fun hinf => ?_
    rw [fetch_pk, hold]
    by_cases hrea : (db.unit pk).state = .ready
    · simp [requiringNew, hrea] at hinf
    · simpa [requiringNew, hrea] using hinf
  | takeLease pk holder unt last node => exact spared_update (rewrite_unit _ _ _) (by simp)
  | revokeLease pk | markAsFeasible pk =>
    refine spared_update (transition_unit _ _ _) fun hinf => ?_
    unfold WorkUnit.stateForCount at hinf
    split at hinf <;> cases hinf
  | workSucceeded pk now again =>
    have hsel : db.NoneCondemned (db.succeed (db.fetch pk)) := spared_update (succeed_unit _ _) (by simp)
    have hloo := spared_foldl_satisfy (db.succeed (db.fetch pk)) now again
      ((db.succeed (db.fetch pk)).requirers pk) _ (fun _ hp => hp)
    refine spared_trans hsel (spared_trans hloo ?_)
    exact spared_update rfl (by simp)
  | rerun pk =>
    have hbum : db.NoneCondemned (db.bumpPending pk) := fun p hp => by simpa using hp
    refine spared_trans hbum ?_
    exact spared_update (transition_unit _ _ _) (by simp)
  | permanentErrorOccurred pk => exact absurd rfl (herr pk)

/-! ## Paths to the unit -/

lemma mem_requirers_addEdge {db : Db} {sour tgt s t : Nat} : s ∈ (db.addEdge sour tgt).requirers t ↔
    s ∈ db.requirers t ∨ (s < db.nextPk ∧ s = sour ∧ t = tgt) := by
  simp only [mem_requirers, addEdge, Bool.or_eq_true, Bool.and_eq_true, beq_iff_eq]
  constructor
  · rintro ⟨hlt, ⟨hs, ht⟩ | hedg⟩
    · exact .inr ⟨hlt, hs, ht⟩
    · exact .inl ⟨hlt, hedg⟩
  · rintro (⟨hlt, hedg⟩ | ⟨hlt, hs, ht⟩)
    · exact ⟨hlt, .inr hedg⟩
    · exact ⟨hlt, .inl ⟨hs, ht⟩⟩

lemma requires_of_addEdge {db : Db} {pk tgt p : Nat}
    (hpat : (db.addEdge pk tgt).TransitivelyRequires p pk) :
    p = pk ∨ db.TransitivelyRequires p pk := by
  induction hpat using TransGen.head_induction_on with
  | single hedg =>
    rcases mem_requirers_addEdge.1 hedg with hedg | ⟨_, hp, _⟩
    · exact .inr (.single hedg)
    · exact .inl hp
  | head hedg _ ih =>
    rcases mem_requirers_addEdge.1 hedg with hfir | ⟨_, hp, _⟩
    · rcases ih with rfl | hres
      · exact .inr (.single hfir)
      · exact .inr (.head hfir hres)
    · exact .inl hp

lemma requires_addEdge {db : Db} {pk tgt p q : Nat}
    (hpat : db.TransitivelyRequires p q) : (db.addEdge pk tgt).TransitivelyRequires p q :=
  TransGen.mono (fun _ _ hedg => mem_requirers_addEdge.2 (.inl hedg)) _ _ hpat

/-! ## Transitive requirers -/

lemma requires_of_otherRequirers {db : Db} {p pk : Nat}
    (h : TransGen (fun tgt sour => sour ∈ db.otherRequirers tgt) pk p) : db.TransitivelyRequires p pk := by
  rw [← transGen_swap] at h
  exact .mono (fun _ _ hedg => List.mem_of_mem_filter hedg) _ _ h

lemma otherRequirers_of_requires {db : Db} {p pk : Nat} (hpat : db.TransitivelyRequires p pk)
    (hne : p ≠ pk) :
    TransGen (fun tgt sour => sour ∈ db.otherRequirers tgt) pk p := by
  induction hpat using TransGen.head_induction_on with
  | single hedg => exact .single (by simpa [otherRequirers, hne] using hedg)
  | @head p q hedg _ ih =>
    by_cases hloo : p = q
    · exact hloo ▸ ih (hloo ▸ hne)
    · have hedg : p ∈ db.otherRequirers q := by simpa [otherRequirers, hloo] using hedg
      by_cases hq : q = pk
      · exact hq ▸ .single hedg
      · exact .tail (ih hq) hedg

lemma mem_doomed_of_requires {db : Db} {pk tgt p : Nat}
    (htar : tgt = pk ∨ tgt ∈ db.doomed pk) (hpat : db.TransitivelyRequires p tgt) :
    p = pk ∨ p ∈ db.doomed pk := by
  by_cases hp : p = tgt
  · exact hp ▸ htar
  rw [mem_doomed_iff] at htar ⊢
  have hres := otherRequirers_of_requires hpat hp
  rcases htar with rfl | htar
  · exact .inr hres
  · exact .inr (htar.trans hres)

/-- The recursion ends on every graph, and it finds the units that transitively require `pk`; `pk` itself
is among them only if there is a way back to it through another unit. -/
theorem gathered_iff_requires (db : Db) (self : Instance) (pk fuel : Nat) (hfuel : db.nextPk < fuel) :
    ∃ ret, collect? db.otherRequirers fuel pk ∅ = some ret ∧
    gatherTransitiveRequirers fuel pk ∅ (quiet db self) = .ok ret (quiet db self) ∧
    ∀ p, p ∈ ret ↔ db.TransitivelyRequires p pk ∧
    (p = pk → ∃ q ≠ pk, db.TransitivelyRequires pk q ∧ db.TransitivelyRequires q pk) := by
  have hcar : (Finset.range db.nextPk).card < fuel := by simpa using hfuel
  refine ⟨_, collect?_eq_some _ mem_range_of_otherRequirers fuel pk ∅ (by simpa using hcar),
    gather_quiet db self fuel pk ∅, fun p => ?_⟩
  rw [mem_collect_iff _ mem_range_of_otherRequirers hcar]
  constructor
  · intro hpat
    refine ⟨requires_of_otherRequirers hpat, ?_⟩
    rintro rfl
    -- the first edge leads to another unit, and the rest of the path from there back
    obtain ⟨q, hedg, hres⟩ := TransGen.head'_iff.1 hpat
    have hq : q ≠ p := by simpa using (List.mem_filter.1 hedg).2
    refine ⟨q, hq, requires_of_otherRequirers ?_, requires_of_otherRequirers (.single hedg)⟩
    exact (reflTransGen_iff_eq_or_transGen.1 hres).resolve_left hq.symm
  · rintro ⟨hpat, hloo⟩
    by_cases hp : p = pk
    · subst hp
      obtain ⟨q, hq, hto, hfro⟩ := hloo rfl
      exact (otherRequirers_of_requires hfro hq).trans (otherRequirers_of_requires hto hq.symm)
    · exact otherRequirers_of_requires hpat hp

end Db

/-! ## Propagation -/

lemma requires_congr {db db' : Db} (hnex : db'.nextPk = db.nextPk) (hreq : db'.requires = db.requires) :
    db'.TransitivelyRequires = db.TransitivelyRequires := by
  unfold Db.TransitivelyRequires requirers
  rw [hnex, hreq]

lemma require_propagates_iff {db : Db} {pk tgt : Nat}
    (hinf : ((db.require (db.fetch pk) tgt).unit pk).state = .infeasible) :
    (∀ p, (db.require (db.fetch pk) tgt).TransitivelyRequires p pk →
    ((db.require (db.fetch pk) tgt).unit p).state = .infeasible) ↔
    ∀ p, p ≠ pk → db.TransitivelyRequires p pk → (db.unit p).state = .infeasible := by
  have hoth : ∀ p, p ≠ pk → (db.require (db.fetch pk) tgt).unit p = db.unit p := by
    intro p hne
    simp [require_unit, hne]
  have hedg : (db.require (db.fetch pk) tgt).TransitivelyRequires =
    (db.addEdge pk tgt).TransitivelyRequires :=
    requires_congr (by simp) (by simp)
  rw [hedg]
  constructor
  · intro h p hne hpat
    rw [← hoth p hne]
    exact h p (requires_addEdge hpat)
  · intro h p hpat
    by_cases hne : p = pk
    · exact hne ▸ hinf
    · rw [hoth p hne]
      exact h p hne ((requires_of_addEdge hpat).resolve_left hne)

lemma condemn_state (db : Db) (pk p : Nat) :
    (((db.condemn pk).transition (db.fetch pk) .infeasible).unit p).state =
    if p = pk ∨ p < db.nextPk ∧ p ∈ db.doomed pk then .infeasible else (db.unit p).state := by
  by_cases hne : p = pk
  · subst hne
    simp
  · by_cases hdoo : p < db.nextPk ∧ p ∈ db.doomed pk
    · simp [hne, hdoo, condemn_unit]
    · simp [hne, hdoo, condemn_unit]

lemma condemn_propagates {db : Db} {failed pk : Nat} (hbef : (db.unit pk).state ≠ .infeasible)
    (haft : (((db.condemn failed).transition (db.fetch failed) .infeasible).unit pk).state = .infeasible) :
    ∀ p, ((db.condemn failed).transition (db.fetch failed) .infeasible).TransitivelyRequires p pk →
    (((db.condemn failed).transition (db.fetch failed) .infeasible).unit p).state =
    .infeasible := by
  have hmar : pk = failed ∨ pk ∈ db.doomed failed := by
    by_contra hnot
    rw [condemn_state, if_neg fun h => hnot (h.imp_right And.right)] at haft
    exact hbef haft
  intro p hpat
  have hedg : ((db.condemn failed).transition (db.fetch failed) .infeasible).TransitivelyRequires =
      db.TransitivelyRequires :=
    requires_congr (by simp) (by simp)
  rw [hedg] at hpat
  have hexi : p < db.nextPk := by
    obtain ⟨_, hedge, _⟩ := TransGen.head'_iff.1 hpat
    exact (mem_requirers.1 hedge).1
  rw [condemn_state, if_pos]
  rcases mem_doomed_of_requires hmar hpat with hp | hp
  · exact .inl hp
  · exact .inr ⟨hexi, hp⟩

/-- When a unit becomes `INFEASIBLE`, so do all that transitively require it, unless a requirement was
added to a unit that others wait for. -/
theorem infeasible_propagates_iff (db : Db) (op : Operation) (pk : Nat)
    (hbefore : (db.unit pk).state ≠ .infeasible)
    (hafter : ((db.perform op).unit pk).state = .infeasible) :
    (∀ p, (db.perform op).TransitivelyRequires p pk →
    ((db.perform op).unit p).state = .infeasible) ↔ db.Cascades op := by
  have hena : db.Enabled op := by
    by_contra hnot
    rw [perform_of_not_enabled hnot] at hafter
    exact hbefore hafter
  by_cases hadd : ∃ source tar, op = .addRequirement source tar
  · obtain ⟨source, tar, rfl⟩ := hadd
    rw [perform_of_enabled hena] at hafter ⊢
    change ((db.require (db.fetch source) tar).unit pk).state = .infeasible at hafter
    obtain rfl : pk = source := by
      by_contra hne
      rw [require_unit, fetch_pk, Function.update_of_ne hne] at hafter
      exact hbefore hafter
    exact require_propagates_iff hafter
  · by_cases herr : ∃ failed, op = .permanentErrorOccurred failed
    · obtain ⟨failed, rfl⟩ := herr
      rw [perform_of_enabled hena] at hafter ⊢
      exact iff_of_true (condemn_propagates hbefore hafter) trivial
    · have hnon := spared_perform db (fun source tar h => hadd ⟨source, tar, h⟩)
        (fun failed h => herr ⟨failed, h⟩)
      exact absurd (hnon pk hafter) hbefore

def waitingUnit : Db :=
  run Db.perform Db.empty [.create 0 0, .create 0 0, .create 0 0, .addRequirement 2 1, .takeLease 0 "a" 10 5 "n"]

def failedUnit : Db :=
  waitingUnit.perform (.permanentErrorOccurred 0)

theorem gathered_waitingUnit : ∃ ret, collect? waitingUnit.otherRequirers 4 1 ∅ = some ret ∧ 2 ∈ ret := by
  obtain ⟨ret, hret, _, hmem⟩ := gathered_iff_requires waitingUnit (waitingUnit.fetch 1) 1 4 (by decide)
  exact ⟨ret, hret, (hmem 2).2 ⟨.single (by decide), by simp⟩⟩

theorem infeasible_propagates_waitingUnit :
    (((failedUnit.perform (.takeLease 1 "b" 20 15 "n")).perform
    (.permanentErrorOccurred 1)).unit 2).state = .infeasible :=
  (infeasible_propagates_iff (failedUnit.perform (.takeLease 1 "b" 20 15 "n"))
    (.permanentErrorOccurred 1) 1 (by decide) (by decide)).2 trivial 2 (.single (by decide))

theorem not_propagated_by_addRequirement :
    (failedUnit.unit 1).state ≠ .infeasible ∧
      ((failedUnit.perform (.addRequirement 1 0)).unit 1).state = .infeasible ∧
    (failedUnit.perform (.addRequirement 1 0)).TransitivelyRequires 2 1 ∧
    ((failedUnit.perform (.addRequirement 1 0)).unit 2).state = .pending :=
  ⟨by decide, by decide, .single (by decide), by decide⟩

end Toolchain.Workflow
