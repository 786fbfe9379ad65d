import Toolchain.Lib.History
import Toolchain.SatResolver.PartialSolution

/-!
# SatResolver.Coherence — what holds of every partial solution

A solution is `Coherent` when its assignments have grown under the condition `Assigned` and its tables
say what the assignments say; `derive`, `decide` and `backtrack` keep it so.  A term that the
assignments up to a level satisfy stays satisfied at that level (`SatisfiedAt`) until backtracking goes
below it.
-/

namespace Toolchain.SatResolver

open Lib List VersionConstraint Term Grown Assignment PartialSolution Decidable

variable {P V : Type} [DecidableEq P] [DecidableEq V]

/-! ## Assignments and their intersections -/

def accumulated (assignments : List (Assignment P V)) (subject : Subject P) : Option (Term P V) :=
  (assignments.filter fun assignment => assignment.subject = subject).foldl
    (fun old assignment => narrow old assignment.term) none

lemma accum_concat (ass : List (Assignment P V)) (a : Assignment P V) (subject : Subject P) :
    accumulated (ass ++ [a]) subject = if a.subject = subject then
        narrow (accumulated ass subject) a.term
      else
        accumulated ass subject := by
  by_cases h : a.subject = subject <;> simp [accumulated, h]

lemma accum_append_of_notMem (kept rem : List (Assignment P V)) (subject : Subject P)
    (h : ∀ a ∈ rem, a.subject ≠ subject) :
    accumulated (kept ++ rem) subject = accumulated kept subject := by
  have hnon : (rem.filter fun a => a.subject = subject) = [] := by simpa using h
  simp [accumulated, hnon]

/-- What a decision is about: the root, or one existing version of a package. -/
def Term.IsDecision : Term P V → Prop
  | .version constraint =>
    constraint.isPositive = true ∧ ∃ v ∈ constraint.allVersions, constraint.versions = {v}
  | .root isPositive => isPositive = true

omit [DecidableEq P] in
lemma Term.IsDecision.decided {t : Term P V} (h : t.IsDecision) : t.Decided := by
  cases t with
  | version c =>
    rcases h with ⟨hpos, v, hv, hver⟩
    refine ⟨hpos, v, ?_⟩
    simp [allowedVersions, hpos, hver, hv]
  | root b => exact h

variable {new : Term P V}

omit [DecidableEq P] in
lemma Term.IsDecision.intersect {all : P → Finset V} {old t : Term P V} (h : t.IsDecision)
    (hold : old.Over all) (ht : t.Over all) (hsub : old.subject = t.subject)
    (hnew : old.intersect t = some new) : new.Decided := by
  have hsat := satisfies_of_inter hold ht hsub hnew (.inr (satisfies_self t))
  cases old with
  | version x =>
    cases t with
    | version y =>
      rcases hxy : x.intersect y with _ | z
      · simp [Term.intersect, hxy] at hnew
      obtain rfl : Term.version z = new := by simpa [Term.intersect, hxy] using hnew
      rcases h.decided with ⟨hpos, v, hv⟩
      have hz := inter_eq_some (hold.allVersions_eq ht hsub) hxy
      rcases hz with ⟨_, _, _, _, hnon⟩
      have hz : z.satisfies y = true := hsat
      rw [satisfies_iff, hv] at hz
      refine ⟨hz.1 hpos, v, ?_⟩
      exact (hnon (hz.1 hpos)).subset_singleton_iff.1 hz.2
    | root _ => simp [Term.intersect] at hnew
  | root x =>
    cases t with
    | version y => simp [Term.intersect] at hnew
    | root y =>
      have hy : y = true := h
      by_cases hxy : x = y
      · obtain rfl : Term.root x = new := by simpa [Term.intersect, hxy] using hnew
        exact hxy.trans hy
      · simp [Term.intersect, hxy] at hnew

structure Assigned (all : P → Finset V) (before : List (Assignment P V)) (a : Assignment P V) :
    Prop where
  index : a.index = before.length
  level : a.decisionLevel = (before ++ [a]).countP isDecision
  isOver : a.term.Over all
  narrows : ∃ t, narrow (accumulated before a.subject) a.term = some t
  undecided : ∀ b ∈ before, b.isDecision = true → b.subject ≠ a.subject
  decision : a.isDecision = true → a.term.IsDecision
  first : before = [] → a.subject = .root ∧ a.isDecision = true

variable {after : List (Assignment P V)}

section Grown

variable {all : P → Finset V} {assignments asgs rest : List (Assignment P V)} {subject subj : Subject P}
  {t : Term P V}

lemma accum_over (hgro : Grown (Assigned all) assignments)
    (h : accumulated assignments subject = some t) : t.Over all ∧ t.subject = subject := by
  induction hgro generalizing t with
  | nil => simp [accumulated] at h
  | @concat bef a _ ha ih =>
    rw [accum_concat] at h
    by_cases hsub : a.subject = subject
    swap
    · rw [if_neg hsub] at h
      exact ih h
    rw [if_pos hsub] at h
    rcases hold : accumulated bef subject with _ | old
    · obtain rfl : a.term = t := by simpa [narrow, hold] using h
      exact ⟨ha.isOver, hsub⟩
    rcases ih hold with ⟨hove, hols⟩
    have hint : old.intersect a.term = some t := by simpa [narrow, hold] using h
    have hsam := hols.trans hsub.symm
    rcases hove.intersect ha.isOver hsam hint with ⟨ht, htsu⟩
    exact ⟨ht, htsu.trans hols⟩

lemma accum_append_satisfies (hgro : Grown (Assigned all) (asgs ++ rest))
    (h : accumulated asgs subj = some t) :
    ∃ t', accumulated (asgs ++ rest) subj = some t' ∧ ∀ u, t.satisfies u = true →
      t'.satisfies u = true := by
  induction rest using reverseRecOn with
  | nil => exact ⟨t, by simpa using h, fun _ hu => hu⟩
  | append_singleton rest a ih =>
    rw [← append_assoc] at hgro ⊢
    rcases concat_iff.1 hgro with ⟨hbef, ha⟩
    rcases ih hbef with ⟨old, hold, hmon⟩
    rw [accum_concat]
    by_cases hsub : a.subject = subj
    · rw [if_pos hsub]
      rcases ha.narrows with ⟨new, hnew⟩
      rw [hsub, hold] at hnew
      rcases accum_over hbef hold with ⟨hove, hols⟩
      refine ⟨new, by rw [hold]; exact hnew, fun u hu => ?_⟩
      exact satisfies_of_inter hove ha.isOver (hols.trans hsub.symm) hnew (.inl (hmon u hu))
    · rw [if_neg hsub]
      exact ⟨old, hold, hmon⟩

def SatisfiedBy (assignments : List (Assignment P V)) (t : Term P V) : Prop :=
  ∃ current, accumulated assignments t.subject = some current ∧ current.satisfies t = true

lemma SatisfiedBy.append (hgro : Grown (Assigned all) (asgs ++ rest))
    (h : SatisfiedBy asgs t) : SatisfiedBy (asgs ++ rest) t := by
  rcases h with ⟨cur, hcur, hsat⟩
  rcases accum_append_satisfies hgro hcur with ⟨new, hnew, hmon⟩
  exact ⟨new, hnew, hmon t hsat⟩

variable {a : Assignment P V}

lemma accum_concat_satisfies (hgro : Grown (Assigned all) (asgs ++ [a])) :
    ∃ new, accumulated (asgs ++ [a]) a.subject = some new ∧
    ∀ u, a.term.satisfies u = true → new.satisfies u = true := by
  rcases concat_iff.1 hgro with ⟨hbef, ha⟩
  rcases ha.narrows with ⟨new, hnew⟩
  refine ⟨new, by rw [accum_concat, if_pos rfl, hnew], fun u hu => ?_⟩
  rcases hold : accumulated asgs a.subject with _ | old
  · obtain rfl : a.term = new := by simpa [narrow, hold] using hnew
    exact hu
  · rcases accum_over hbef hold with ⟨hove, hols⟩
    have hint : old.intersect a.term = some new := by simpa [narrow, hold] using hnew
    exact satisfies_of_inter hove ha.isOver hols hint (.inr hu)

lemma accum_decided (hgro : Grown (Assigned all) asgs) {b : Assignment P V}
    (hb : b ∈ asgs) (hdec : b.isDecision = true) :
    ∃ t, accumulated asgs b.subject = some t ∧ t.Decided ∧ t.satisfies b.term = true := by
  induction hgro with
  | nil => cases hb
  | @concat bef a hbef ha ih =>
    rcases mem_append.1 hb with hb | hb
    · -- the assignment added since is about another subject
      rcases ih hb with ⟨t, ht⟩
      refine ⟨t, ?_, ht.2⟩
      rw [accum_concat, if_neg (ha.undecided b hb hdec).symm, ht.1]
    obtain rfl : b = a := by simpa using hb
    rcases accum_concat_satisfies (hbef.concat ha) with ⟨new, hnew, hsat⟩
    refine ⟨new, hnew, ?_, hsat _ (satisfies_self _)⟩
    rw [accum_concat, if_pos rfl] at hnew
    rcases hold : accumulated bef b.subject with _ | old
    · obtain rfl : b.term = new := by simpa [narrow, hold] using hnew
      exact (ha.decision hdec).decided
    · rcases accum_over hbef hold with ⟨hove, hols⟩
      refine (ha.decision hdec).intersect hove ha.isOver hols ?_
      simpa [narrow, hold] using hnew

/-! ## Levels and positions -/

section

variable (hgro : Grown (Assigned all) asgs)

include hgro

lemma level_le_countP (ha : a ∈ asgs) : a.decisionLevel ≤ asgs.countP isDecision := by
  rcases append_of_mem ha with ⟨bef, after, rfl⟩
  rw [hgro.rel.level]
  simp only [countP_append, countP_cons, countP_nil]
  omega

lemma one_le_level (ha : a ∈ asgs) : 1 ≤ a.decisionLevel := by
  rcases append_of_mem ha with ⟨bef, after, rfl⟩
  rw [hgro.rel.level, Nat.one_le_iff_ne_zero, ← Nat.pos_iff_ne_zero, countP_pos_iff]
  cases bef with
  | nil => exact ⟨a, by simp, (hgro.rel.first rfl).2⟩
  | cons b bef => exact ⟨b, by simp, (rel (l := []) hgro).first rfl |>.2⟩

lemma levels_sorted : asgs.Pairwise fun a b => a.decisionLevel ≤ b.decisionLevel := by
  induction hgro with
  | nil => exact .nil
  | @concat bef a hbef ha ih =>
    refine pairwise_append.2 ⟨ih, pairwise_singleton _ _, ?_⟩
    intro b hb c hc
    obtain rfl : c = a := by simpa using hc
    calc b.decisionLevel ≤ bef.countP isDecision := level_le_countP hbef hb
      _ ≤ (bef ++ [c]).countP isDecision := by
          rw [countP_append]
          exact Nat.le_add_right _ _
      _ = c.decisionLevel := ha.level.symm

end

variable {a b : Assignment P V}

lemma mem_before_of_index_lt {before : List (Assignment P V)}
    (hgro : Grown (Assigned all) (before ++ a :: after)) (hb : b ∈ before ++ a :: after)
    (hind : b.index < a.index) : b ∈ before := by
  have ha := hgro.rel.index
  rcases mem_append.1 hb with hb | hb
  · exact hb
  exfalso
  rcases mem_cons.1 hb with rfl | hb
  · exact lt_irrefl _ hind
  rcases append_of_mem hb with ⟨bet, rest, rfl⟩
  have hspl : before ++ a :: (bet ++ b :: rest) = (before ++ a :: bet) ++ b :: rest := by simp
  rw [hspl] at hgro
  have hb := hgro.rel.index
  simp only [length_append, length_cons] at hb
  omega

section

variable (hgro : Grown (Assigned all) asgs) (ha : a ∈ asgs) (hb : b ∈ asgs)

include hgro ha hb

lemma eq_of_index_eq (hind : a.index = b.index) : a = b := by
  rcases append_of_mem ha with ⟨bef, after, rfl⟩
  rcases append_of_mem hb with ⟨before', after', hspl⟩
  have ha' := hgro.rel.index
  rw [hspl] at hgro
  have hb' := hgro.rel.index
  rcases append_inj hspl (by omega) with ⟨_, hres⟩
  exact (cons.inj hres).1

lemma level_lt_of_decision (hind : b.index < a.index)
    (hdec : a.isDecision = true) : b.decisionLevel < a.decisionLevel := by
  rcases append_of_mem ha with ⟨bef, after, rfl⟩
  have hle := level_le_countP hgro.of_append (mem_before_of_index_lt hgro hb hind)
  have hlev := hgro.rel.level
  simp only [countP_append, countP_cons, countP_nil, hdec] at hlev
  simp only [if_true] at hlev
  omega

end

end Grown

/-! ## Coherent solutions -/

structure PartialSolution.Coherent (all : P → Finset V) (solution : PartialSolution P V) :
    Prop where
  grown : Grown (Assigned all) solution.assignments
  nonempty : solution.assignments ≠ []
  decisions_eq : solution.decisions = (solution.assignments.filter isDecision).map term
  terms_eq : ∀ subject, solution.terms subject = accumulated solution.assignments subject

variable {ts : Subject P → Option (Term P V)} {lvl : Nat} {cur : Option (Term P V)}

namespace PartialSolution

variable {all : P → Finset V} {self : PartialSolution P V} {t : Term P V}

lemma Coherent.level_eq (h : self.Coherent all) :
    self.decisionLevel = self.assignments.countP isDecision := by
  rw [decisionLevel, h.decisions_eq, length_map, countP_eq_length_filter]

variable {a : Assignment P V} {kept removed : List (Assignment P V)}
  {assignments asgs : List (Assignment P V)}

lemma Coherent.level_le (h : self.Coherent all) (ha : a ∈ self.assignments) :
    a.decisionLevel ≤ self.decisionLevel := by
  rw [h.level_eq]
  exact level_le_countP h.grown ha

lemma Coherent.isDecided_iff (h : self.Coherent all) (subject : Subject P) :
    self.isDecided subject = true ↔
    ∃ b ∈ self.assignments, b.isDecision = true ∧ b.subject = subject := by
  simp [isDecided, h.decisions_eq, Assignment.subject]

omit [DecidableEq P] in
lemma satisfies_iff :
    self.satisfies t = true ↔ ∃ cur, self.terms t.subject = some cur ∧ cur.satisfies t = true := by
  unfold satisfies
  cases self.terms t.subject <;> simp

lemma Coherent.satisfies_iff_satBy (h : self.Coherent all) :
    self.satisfies t = true ↔ SatisfiedBy self.assignments t := by
  rw [satisfies_iff, h.terms_eq]
  rfl

omit [DecidableEq P] in
lemma isIncompatible_iff : self.isIncompatible t = true ↔
    ∃ cur, self.terms t.subject = some cur ∧ cur.intersect t = none := by
  unfold isIncompatible
  cases self.terms t.subject <;> simp

lemma Coherent.settled (h : self.Coherent all) (hdec : self.isDecided t.subject = true) :
    self.satisfies t = true ∨ self.isIncompatible t = true := by
  rcases (h.isDecided_iff _).1 hdec with ⟨b, hb, hdeci, hsub⟩
  rcases accum_decided h.grown hb hdeci with ⟨current, hcur, hcur', _⟩
  rcases accum_over h.grown hcur with ⟨_, hcus⟩
  have hter : self.terms t.subject = some current := by rw [h.terms_eq, ← hsub, hcur]
  rcases hcur'.satisfies_or_inter_eq_none (hcus.trans hsub) with hs | hn
  · exact .inl (satisfies_iff.2 ⟨current, hter, hs⟩)
  · exact .inr (isIncompatible_iff.2 ⟨current, hter, hn⟩)

lemma Coherent.satisfies_inverse (h : self.Coherent all) (ht : t.Over all)
    (hsat : self.satisfies t = false) (hexc : self.isIncompatible t = true) :
    self.satisfies t.inverse = true := by
  rcases isIncompatible_iff.1 hexc with ⟨cur, hter, hnon⟩
  have hacc := hter
  rw [h.terms_eq] at hacc
  rcases accum_over h.grown hacc with ⟨hcur, hsub⟩
  have hsat' : cur.satisfies t = false := by simpa [satisfies, hter] using hsat
  rw [satisfies_iff, subject_inverse]
  exact ⟨cur, hter, Term.satisfies_inverse hcur ht hsub hsat' hnon⟩

lemma register_eq_accum (h : ∀ subject, ts subject = accumulated asgs subject) (a : Assignment P V)
    (subject : Subject P) :
    register ts a subject = accumulated (asgs ++ [a]) subject := by
  rw [accum_concat, register]
  by_cases hsub : a.subject = subject
  · subst hsub
    simp [h]
  · rw [if_neg hsub, Function.update_of_ne (Ne.symm hsub), h]

lemma Coherent.derive (h : self.Coherent all) (ht : t.Over all)
    (hsat : self.satisfies t = false) (hcom : self.isIncompatible t = false)
    (cause : Incompatibility P V) : (self.derive t.inverse cause).Coherent all := by
  have hnar : ∃ new, narrow (accumulated self.assignments t.inverse.subject) t.inverse = some new := by
    rw [subject_inverse]
    rcases hold : accumulated self.assignments t.subject with _ | old
    · exact ⟨t.inverse, rfl⟩
    rcases accum_over h.grown hold with ⟨hove, hsub⟩
    refine inter_inverse_isSome hove ht hsub ?_ ?_
    · simpa [satisfies, h.terms_eq, hold] using hsat
    · have : ((old.intersect t).isNone) = false := by
        simpa [isIncompatible, h.terms_eq, hold] using hcom
      rw [Ne, ← Option.isNone_iff_eq_none, this]
      exact Bool.false_ne_true
  have hund : self.isDecided t.subject = false := by
    cases hd : self.isDecided t.subject with
    | false => rfl
    | true => rcases h.settled hd with hs | hi <;> simp_all
  have hasg : Assigned all self.assignments
      { term := t.inverse
        decisionLevel := self.decisionLevel
        index := self.assignments.length
        cause := some cause } := by
    refine
      { index := rfl
        level := ?_
        isOver := ht.inverse
        narrows := hnar
        undecided := ?_
        decision := fun hd => by cases hd
        first := fun hnil => absurd hnil h.nonempty }
    · rw [h.level_eq, countP_append]
      simp [isDecision]
    intro b hb hdec hsub
    have hd := (h.isDecided_iff _).2 ⟨b, hb, hdec, by simpa [Assignment.subject] using hsub⟩
    rw [hund] at hd
    cases hd
  exact
    { grown := h.grown.concat hasg
      nonempty := by simp [PartialSolution.derive, append]
      decisions_eq := by
        simp [PartialSolution.derive, append, h.decisions_eq, Assignment.isDecision]
      terms_eq := register_eq_accum h.terms_eq _ }

lemma satisfies_derive (cause : Incompatibility P V)
    (h : (self.derive t cause).Coherent all) : (self.derive t cause).satisfies t = true := by
  rcases accum_concat_satisfies h.grown with ⟨new, hnew, hmon⟩
  refine satisfies_iff.2 ⟨new, ?_, hmon t (satisfies_self t)⟩
  rwa [h.terms_eq]

lemma Coherent.decide (h : self.Coherent all) (ht : t.Over all) (hdec : t.IsDecision)
    (hund : self.isDecided t.subject = false)
    (hnar : ∃ new, narrow (self.terms t.subject) t = some new) :
    (self.decide t).Coherent all := by
  have hfil : (self.decisions.filter fun old => old.subject ≠ t.subject) = self.decisions := by
    rw [filter_eq_self]
    intro old hold
    have hall : ∀ x ∈ self.decisions, x.subject ≠ t.subject := by simpa [isDecided] using hund
    simpa using hall old hold
  have hasg : Assigned all self.assignments
      { term := t, decisionLevel := (self.decisions ++ [t]).length, index := self.assignments.length
        cause := none } := by
    refine
      { index := rfl, level := ?_, isOver := ht, narrows := by rwa [h.terms_eq] at hnar, undecided := ?_
        decision := fun _ => hdec, first := fun hnil => absurd hnil h.nonempty }
    · have hlev : self.decisions.length = self.assignments.countP isDecision := h.level_eq
      simp [isDecision, hlev]
    · intro b hb hbde hsub
      have hd : self.isDecided t.subject = true := (h.isDecided_iff _).2 ⟨b, hb, hbde, hsub⟩
      rw [hund] at hd
      cases hd
  have hdeci : self.decide t =
      { assignments := self.assignments ++
          [{ term := t, decisionLevel := (self.decisions ++ [t]).length, index := self.assignments.length
             cause := none }]
        decisions := self.decisions ++ [t]
        terms := register self.terms
          { term := t, decisionLevel := (self.decisions ++ [t]).length, index := self.assignments.length
            cause := none } } := by
    simp only [PartialSolution.decide, append, decisionLevel, hfil]
  rw [hdeci]
  exact
    { grown := h.grown.concat hasg, nonempty := by simp
      decisions_eq := by
        rw [filter_append, map_append, ← h.decisions_eq]
        rfl
      terms_eq := register_eq_accum h.terms_eq _ }

lemma coherent_root : ((empty : PartialSolution P V).decide (.root true)).Coherent all := by
  have hasg : Assigned all []
      { term := .root true, decisionLevel := 1, index := 0, cause := none } :=
    { index := rfl, level := rfl, isOver := trivial, narrows := ⟨_, rfl⟩,
      undecided := fun b hb => by cases hb
      decision := fun _ => rfl, first := fun _ => ⟨rfl, rfl⟩ }
  exact
    { grown := nil.concat hasg, nonempty := by simp [decide, append], decisions_eq := rfl
      terms_eq := register_eq_accum (fun subject => (rfl : none = accumulated [] subject)) _ }

/-! ## Backtracking -/

lemma foldl_register (asgs : List (Assignment P V)) (ts : Subject P → Option (Term P V))
    (subj : Subject P) :
    asgs.foldl register ts subj = (asgs.filter fun a => a.subject = subj).foldl
    (fun old a => narrow old a.term) (ts subj) := by
  induction asgs generalizing ts with
  | nil => rfl
  | cons a asgs ih =>
    rw [foldl_cons, ih]
    by_cases hsub : a.subject = subj
    · subst hsub
      simp [register]
    · simp [register, hsub, Function.update_of_ne (Ne.symm hsub)]

def upTo (decisionLevel : Nat) (assignments : List (Assignment P V)) : List (Assignment P V) :=
  assignments.rdropWhile fun a => decisionLevel < a.decisionLevel

omit [DecidableEq P] [DecidableEq V] in
lemma exists_eq_upTo_append (lvl : Nat) (asgs : List (Assignment P V)) :
    ∃ removed, asgs = upTo lvl asgs ++ removed ∧ ∀ a ∈ removed, lvl < a.decisionLevel := by
  refine ⟨_, rdropWhile_append_rtakeWhile.symm, ?_⟩
  intro a ha
  simpa using mem_rtakeWhile_imp ha

lemma Coherent.upTo_eq_filter (h : self.Coherent all) (level : Nat) : upTo level self.assignments =
    self.assignments.filter fun a => a.decisionLevel ≤ level := by
  have hsor : self.assignments.Pairwise fun a b =>
      (Decidable.decide (level < a.decisionLevel)) = true →
        (Decidable.decide (level < b.decisionLevel)) = true := by
    refine (levels_sorted h.grown).imp ?_
    intro a b hab ha
    simp only [decide_eq_true_eq] at ha ⊢
    exact lt_of_lt_of_le ha hab
  rw [upTo, rdropWhile_eq_filter _ _ hsor]
  refine filter_congr fun a _ => ?_
  by_cases ha : a.decisionLevel ≤ level
  · simp [ha, Nat.not_lt.2 ha]
  · simp [ha, Nat.not_le.1 ha]

lemma Coherent.mem_upTo (h : self.Coherent all) (decisionLevel : Nat) (a : Assignment P V) :
    a ∈ upTo decisionLevel self.assignments ↔ a ∈ self.assignments ∧ a.decisionLevel ≤ decisionLevel := by
  rw [h.upTo_eq_filter, mem_filter, decide_eq_true_eq]

lemma exists_backtrack_eq (self : PartialSolution P V) (lvl : Nat) :
    ∃ removed, self.assignments = upTo lvl self.assignments ++ removed ∧ self.backtrack lvl =
        { assignments := upTo lvl self.assignments
          decisions := self.decisions.filter fun term => term.subject ∉ removed.map Assignment.subject
          terms := ((upTo lvl self.assignments).filter fun a =>
            a.subject ∈ removed.map Assignment.subject).foldl register fun subject =>
                if subject ∈ removed.map Assignment.subject then none else self.terms subject } := by
  rcases exists_eq_upTo_append lvl self.assignments with ⟨removed, hspl, _⟩
  have hrem : self.assignments.drop (upTo lvl self.assignments).length = removed := by
    calc self.assignments.drop (upTo lvl self.assignments).length =
      (upTo lvl self.assignments ++ removed).drop
            (upTo lvl self.assignments).length := by rw [← hspl]
      _ = removed := drop_left
  refine ⟨removed, hspl, ?_⟩
  rw [← hrem]
  rfl

lemma filter_decisions_kept (hgro : Grown (Assigned all) (kept ++ removed)) :
    ((((kept ++ removed).filter Assignment.isDecision).map Assignment.term).filter fun term =>
    term.subject ∉ removed.map Assignment.subject) =
    (kept.filter Assignment.isDecision).map Assignment.term := by
  rw [filter_append, map_append, filter_append]
  have hkep : ∀ t ∈ (kept.filter Assignment.isDecision).map Assignment.term,
      t.subject ∉ removed.map Assignment.subject := by
    intro t ht
    rcases mem_map.1 ht with ⟨a, ha, rfl⟩
    rcases mem_filter.1 ha with ⟨ha, hdec⟩
    intro hmem
    rcases mem_map.1 hmem with ⟨b, hb, hsub⟩
    rcases append_of_mem hb with ⟨bet, rest, rfl⟩
    rw [← append_assoc] at hgro
    exact hgro.rel.undecided a (mem_append_left _ ha) hdec hsub.symm
  have hrem : ∀ t ∈ (removed.filter Assignment.isDecision).map Assignment.term,
      t.subject ∈ removed.map Assignment.subject := by
    intro t ht
    rcases mem_map.1 ht with ⟨a, ha, rfl⟩
    exact mem_map_of_mem (mem_filter.1 ha).1
  have hlef := filter_eq_self.2 fun t ht => decide_eq_true (hkep t ht)
  have hrig : (((removed.filter Assignment.isDecision).map Assignment.term).filter fun term =>
      term.subject ∉ removed.map Assignment.subject) = [] :=
    filter_eq_nil_iff.2 fun t ht => by simpa using hrem t ht
  rw [hlef, hrig, append_nil]

lemma foldl_register_kept (hter : ∀ subject, ts subject = accumulated (kept ++ removed) subject)
    (subject : Subject P) :
    ((kept.filter fun a => a.subject ∈ removed.map Assignment.subject).foldl register
    fun subject => if subject ∈ removed.map Assignment.subject then none else ts subject)
    subject =
    accumulated kept subject := by
  rw [foldl_register, filter_filter]
  by_cases hmem : subject ∈ removed.map Assignment.subject
  · -- the term is rebuilt from all assignments kept
    rw [if_pos hmem, accumulated]
    congr 1
    refine filter_congr fun a _ => ?_
    by_cases hsub : a.subject = subject
    · simp [hsub, hmem]
    · simp [hsub]
  · -- nothing about the subject was removed
    rw [if_neg hmem, hter, accum_append_of_notMem]
    · have hemp : (kept.filter fun a => Decidable.decide (a.subject = subject) &&
          Decidable.decide (a.subject ∈ removed.map Assignment.subject)) = [] := by
        rw [filter_eq_nil_iff]
        intro a _ ha
        rw [Bool.and_eq_true, decide_eq_true_eq, decide_eq_true_eq] at ha
        exact hmem (ha.1 ▸ ha.2)
      rw [hemp, foldl_nil]
    · intro a ha hsub
      exact hmem (hsub ▸ mem_map_of_mem ha)

lemma Coherent.first_mem_upTo (h : self.Coherent all) (hlev : 1 ≤ lvl) :
    upTo lvl self.assignments ≠ [] := by
  rcases hlis : self.assignments with _ | ⟨first, rest⟩
  · exact absurd hlis h.nonempty
  have hgro := h.grown
  rw [hlis] at hgro
  have hfir := rel (l := []) hgro
  have hmem : first ∈ upTo lvl self.assignments := by
    rw [h.mem_upTo, hlis, hfir.level]
    refine ⟨by simp, le_trans ?_ hlev⟩
    simpa using countP_le_length (p := isDecision) (l := [first])
  rw [← hlis]
  exact ne_nil_of_mem hmem

lemma Coherent.backtrack (h : self.Coherent all) {dec : Nat} (hlev : 1 ≤ dec) :
    (self.backtrack dec).Coherent all := by
  rcases self.exists_backtrack_eq dec with ⟨rem, hspl, heq⟩
  have hgro : Grown (Assigned all) (upTo dec self.assignments ++ rem) := by
    rw [← hspl]
    exact h.grown
  rw [heq]
  refine
    { grown := hgro.of_append, nonempty := h.first_mem_upTo hlev, decisions_eq := ?_
      terms_eq := foldl_register_kept fun subject => by rw [← hspl, h.terms_eq] }
  rw [h.decisions_eq, ← filter_decisions_kept hgro, ← hspl]

/-! ## What was satisfied at a level -/

def SatisfiedAt (self : PartialSolution P V) (decisionLevel : Nat) (t : Term P V) : Prop :=
  ∃ current, accumulated (upTo decisionLevel self.assignments) t.subject = some current ∧
    current.satisfies t = true

section

variable (h : self.Coherent all)

include h

lemma Coherent.upTo_level : upTo self.decisionLevel self.assignments = self.assignments := by
  rcases hlas : self.assignments.reverse with _ | ⟨last, rest⟩
  · exact absurd (reverse_eq_nil_iff.1 hlas) h.nonempty
  have hspl : self.assignments = rest.reverse ++ [last] := by
    rw [← reverse_reverse self.assignments, hlas, reverse_cons]
  have hle : last.decisionLevel ≤ self.decisionLevel := h.level_le (by simp [hspl])
  rw [hspl, upTo, rdropWhile_concat]
  simp [Nat.not_lt.2 hle]

lemma Coherent.satisfiedAt_of_satisfies (ht : self.satisfies t = true) :
    self.SatisfiedAt self.decisionLevel t := by
  rcases satisfies_iff.1 ht with ⟨cur, hter, hsat⟩
  exact ⟨cur, by rw [h.upTo_level, ← h.terms_eq, hter], hsat⟩

lemma SatisfiedAt.satisfies (ht : self.SatisfiedAt lvl t) : self.satisfies t = true := by
  rcases ht with ⟨cur, hcur, hsat⟩
  rcases exists_eq_upTo_append lvl self.assignments with ⟨rem, hspl, _⟩
  have hgro := h.grown
  rw [hspl] at hgro
  rcases accum_append_satisfies hgro hcur with ⟨new, hnew, hmon⟩
  rw [← hspl, ← h.terms_eq] at hnew
  exact satisfies_iff.2 ⟨new, hnew, hmon t hsat⟩

end

lemma SatisfiedAt.append {new : PartialSolution P V}
    (hnew : new.Coherent all) (happ : new.assignments = self.assignments ++ [a])
    (ht : self.SatisfiedAt lvl t) : new.SatisfiedAt lvl t := by
  unfold SatisfiedAt
  rw [happ, upTo, rdropWhile_concat]
  by_cases hlev : lvl < a.decisionLevel
  · rwa [if_pos (decide_eq_true hlev)]
  rw [if_neg (by simpa using hlev)]
  rcases ht with ⟨cur, hcur, hsat⟩
  rcases exists_eq_upTo_append lvl self.assignments with ⟨rem, hspl, _⟩
  have hgro := hnew.grown
  rw [happ, hspl, append_assoc] at hgro
  rcases accum_append_satisfies hgro hcur with ⟨new, hnew, hmon⟩
  rw [← append_assoc, ← hspl] at hnew
  exact ⟨new, hnew, hmon t hsat⟩

omit [DecidableEq P] [DecidableEq V] in
lemma upTo_upTo {low high : Nat} (hle : low ≤ high) (assignments : List (Assignment P V)) :
    upTo low (upTo high assignments) = upTo low assignments := by
  rcases exists_eq_upTo_append high assignments with ⟨rem, hspl, hrem⟩
  conv_rhs => rw [hspl]
  generalize upTo high assignments = kept
  clear hspl
  induction rem using reverseRecOn with
  | nil => rw [append_nil]
  | append_singleton rem a ih =>
    have ha := lt_of_le_of_lt hle (hrem a (by simp))
    rw [ih fun b hb => hrem b (by simp [hb]), ← append_assoc, upTo, upTo, rdropWhile_concat,
      if_pos (decide_eq_true ha)]

lemma SatisfiedAt.backtrack {level : Nat} (hle : level ≤ lvl)
    (ht : self.SatisfiedAt level t) : (self.backtrack lvl).SatisfiedAt level t := by
  rcases self.exists_backtrack_eq lvl with ⟨rem, _, heq⟩
  unfold SatisfiedAt
  rwa [heq, upTo_upTo hle]

/-! ## Satisfiers -/

omit [DecidableEq P] in
lemma satisfierFrom_eq_some (hcur : ∀ old, cur = some old → old.satisfies t = false)
    (h : satisfierFrom t cur asgs = some a) :
    ∃ bef after new, asgs = bef ++ a :: after ∧
    (∀ old, bef.foldl (fun old b => narrow old b.term) cur = some old → old.satisfies t = false) ∧
    narrow (bef.foldl (fun old b => narrow old b.term) cur) a.term = some new ∧
      new.satisfies t = true := by
  induction asgs generalizing cur with
  | nil => simp [satisfierFrom] at h
  | cons b asgs ih =>
    unfold satisfierFrom at h
    rcases hnar : narrow cur b.term with _ | new
    · simp [hnar] at h
    simp only [hnar] at h
    by_cases hsat : new.satisfies t = true
    · obtain rfl : b = a := by simpa [hsat] using h
      exact ⟨[], asgs, new, rfl, hcur, hnar, hsat⟩
    simp only [hsat] at h
    rcases ih (by simpa using hsat) h with ⟨bef, after, found, rfl, hbef, hfou, hsat⟩
    refine ⟨b :: bef, after, found, rfl, ?_, ?_, hsat⟩
    · rwa [foldl_cons, hnar]
    · rwa [foldl_cons, hnar]

omit [DecidableEq P] in
lemma satisfierFrom_isSome (hnarr : ∀ bef b after, asgs = bef ++ b :: after →
    narrow (bef.foldl (fun old b => narrow old b.term) cur) b.term ≠ none)
    (hne : asgs ≠ [])
    (hnew : asgs.foldl (fun old b => narrow old b.term) cur = some new)
    (hsat : new.satisfies t = true) : ∃ a, satisfierFrom t cur asgs = some a := by
  induction asgs generalizing cur with
  | nil => exact absurd rfl hne
  | cons b asgs ih =>
    unfold satisfierFrom
    rcases hnar : narrow cur b.term with _ | first
    · exact absurd hnar (hnarr [] b asgs rfl)
    simp only
    split
    · exact ⟨b, rfl⟩
    rename_i hfir
    rw [foldl_cons, hnar] at hnew
    refine ih ?_ ?_ hnew
    · rintro bef c after rfl
      have hc := hnarr (b :: bef) c after rfl
      rw [foldl_cons, hnar] at hc
      exact hc
    · rintro rfl
      cases hnew
      exact hfir hsat

lemma exists_split_of_filter {asgs bef : List (Assignment P V)} {subj : Subject P}
    (h : (asgs.filter fun b => b.subject = subj) = bef ++ a :: after) :
    a.subject = subj ∧ ∃ front back, asgs = front ++ a :: back ∧
    accumulated front subj = bef.foldl (fun old b => narrow old b.term) none := by
  rcases filter_eq_append_iff.1 h with ⟨front, back, rfl, hfro, hbac⟩
  rcases filter_eq_cons_iff.1 hbac with ⟨skipped, rest, rfl, hski, ha, _⟩
  refine ⟨by simpa using ha, front ++ skipped, rest, by simp, ?_⟩
  have hnon := filter_eq_nil_iff.2 hski
  rw [accumulated, filter_append, hfro, hnon, append_nil]

lemma satisfier_eq_some (h : self.satisfier t = some a) :
    a.subject = t.subject ∧ ∃ bef after, self.assignments = bef ++ a :: after ∧
    ¬SatisfiedBy bef t ∧ SatisfiedBy (bef ++ [a]) t := by
  rcases satisfierFrom_eq_some (by simp) h with ⟨bef, after, new, hspl, hbef, hnew, hsat⟩
  rcases exists_split_of_filter hspl with ⟨hsub, front, back, hasg, hfro⟩
  refine ⟨hsub, front, back, hasg, ?_, new, ?_, hsat⟩
  · rintro ⟨old, hold, hsao⟩
    rw [hbef old (hfro ▸ hold)] at hsao
    cases hsao
  · rwa [accum_concat, if_pos hsub, hfro]

lemma Coherent.exists_satisfier (h : self.Coherent all) (ht : self.satisfies t = true) :
    ∃ a, self.satisfier t = some a := by
  rcases h.satisfies_iff_satBy.1 ht with ⟨new, hnew, hsat⟩
  refine satisfierFrom_isSome ?_ ?_ hnew hsat
  · intro bef b after hspl
    rcases exists_split_of_filter hspl with ⟨hsub, front, back, hasg, hfro⟩
    have hgro := h.grown
    rw [hasg] at hgro
    rcases hgro.rel.narrows with ⟨nar, hnar⟩
    rw [hsub, hfro] at hnar
    rw [hnar]
    exact Option.some_ne_none nar
  · intro hnil
    rw [accumulated, hnil] at hnew
    cases hnew

lemma mem_of_satisfier_eq_some (h : self.satisfier t = some a) : a ∈ self.assignments := by
  rcases satisfier_eq_some h with ⟨_, bef, after, hspl, _⟩
  simp [hspl]

lemma Coherent.difference_of_decision (h : self.Coherent all)
    (ht : t.Over all) (hsati : self.satisfier t = some a) (hdec : a.isDecision = true) :
    a.term.difference t = none := by
  rcases satisfier_eq_some hsati with ⟨hsub, bef, after, hspl, _, new, hnew, hsat⟩
  have hgro := h.grown
  rw [hspl, append_cons] at hgro
  have hgro := hgro.of_append
  have ha := (concat_iff.1 hgro).2
  rcases accum_decided hgro (by simp) hdec with ⟨new', hnew', hdeci, hsel⟩
  obtain rfl : new = new' := by
    rw [hsub, hnew] at hnew'
    exact Option.some.inj hnew'
  rcases accum_over hgro hnew with ⟨hove, hnes⟩
  have hter := (ha.decision hdec).decided
  cases hat : a.term with
  | version x =>
    cases t with
    | version y =>
      cases new with
      | version z =>
        rw [hat] at hter hsel
        rcases hter with ⟨_, v, hv⟩
        rcases hdeci with ⟨_, w, hw⟩
        simp only [Term.satisfies, VersionConstraint.satisfies_iff] at hsel hsat
        rw [hw, hv, Finset.singleton_subset_iff, Finset.mem_singleton] at hsel
        rw [hw, Finset.singleton_subset_iff, hsel.2] at hsat
        simp [Term.difference, VersionConstraint.difference, hv, hsat.2]
      | root _ => simp [Term.satisfies] at hsat
    | root _ => simp [Assignment.subject, hat, Term.subject] at hsub
  | root x =>
    cases t with
    | version y => simp [Assignment.subject, hat, Term.subject] at hsub
    | root y =>
      cases new with
      | version z => simp [Term.satisfies] at hsat
      | root z =>
        rw [hat] at hsel
        simp only [Term.satisfies, beq_iff_eq] at hsel hsat
        simp [Term.difference, ← hsel, ← hsat]

end PartialSolution

end Toolchain.SatResolver
