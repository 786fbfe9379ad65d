import Toolchain.SatResolver.Invariant

/-!
# SatResolver.Propagation — what propagation makes of short incompatibilities

An incompatibility from the graph or the preferences has a term that a decision satisfies, and at
most one other.  Propagation hears it at the level of the decision (`Heard`): the other term is
contradicted there.  Only the last decision may be ahead of propagation.  A conflict interrupts
propagation for good, but backtracking then gives up the decision (`resolution_backtrack`).
-/

namespace Toolchain.SatResolver.Resolver

open Lib List Config Assignment PartialSolution

variable {P V : Type} [LinearOrder P] [LinearOrder V] {config : Config P V} {old new : Resolver P V}
  {Q : Incompatibility P V → Prop}

/-- An incompatibility of a term and perhaps another one, which has not been derived. -/
def short (t : Term P V) (other : Option (Term P V)) (cause : Cause) : Incompatibility P V :=
  .external (t :: other.toList) cause

/-- The decision satisfies a term, and the other term, if any, is about something else. -/
structure Owed (a : Assignment P V) (t : Term P V) (other : Option (Term P V)) : Prop where
  satisfied : ∀ current : Term P V, current.satisfies a.term = true → current.satisfies t = true
  subject_eq : t.subject = a.subject
  other_ne : ∀ u ∈ other, u.subject ≠ a.subject

/-- The last decision is excused from what propagation has not come to, and from anything while a
conflict is resolved. -/
def Excused (self : Resolver P V) (a : Assignment P V) (x : Incompatibility P V) : Prop :=
  a.decisionLevel = self.solution.decisionLevel ∧ match self.control with
    | .propagate (.derived subject :: _) => subject = a.subject
    | .scan subject next _ => ∃ i, next ≤ i ∧ (self.incompatibilities subject)[i]? = some x
    | .resolve _ current scanned next _ =>
      (current.terms.map Term.subject).Nodup ∨
        ∃ i, next < i ∧ (self.incompatibilities scanned)[i]? = some x
    | .failed _ => True
    | .crashed => True
    | _ => False

/-- What a decision owes to a stored incompatibility has been derived at its level, or the decision is
excused. -/
def Heard (self : Resolver P V) : Prop :=
  ∀ a ∈ self.solution.assignments, a.isDecision = true → ∀ t other cause,
    short t other cause ∈ self.incompatibilities a.subject → Owed a t other →
      (∃ u ∈ other, self.solution.SatisfiedAt a.decisionLevel u.inverse) ∨
        Excused self a (short t other cause)

/-- How a step keeps `Heard`: no decision is made, nothing is stored about what is decided, what was
satisfied at the level of a decision stays so, and every excuse is replaced. -/
lemma Heard.next (h : Heard old)
    (hexcused : ∀ a ∈ new.solution.assignments, a.isDecision = true → ∀ t other cause,
      short t other cause ∈ old.incompatibilities a.subject → Owed a t other →
        Excused old a (short t other cause) →
        (∃ u ∈ other, new.solution.SatisfiedAt a.decisionLevel u.inverse) ∨
          Excused new a (short t other cause))
    (hassigned : ∀ a ∈ new.solution.assignments, a.isDecision = true → a ∈ old.solution.assignments := by
      exact fun _ ha _ => ha)
    (hstored : ∀ a ∈ new.solution.assignments, a.isDecision = true → ∀ t other cause,
      short t other cause ∈ new.incompatibilities a.subject → t.subject = a.subject →
        short t other cause ∈ old.incompatibilities a.subject := by
      exact fun _ _ _ _ _ _ hmem _ => hmem)
    (hsatisfied : ∀ a ∈ new.solution.assignments, a.isDecision = true → ∀ t,
      old.solution.SatisfiedAt a.decisionLevel t → new.solution.SatisfiedAt a.decisionLevel t := by
      exact fun _ _ _ _ hsat => hsat) : Heard new := by
  intro a ha hdecision t other cause hmem howed
  have hold := hstored a ha hdecision t other cause hmem howed.subject_eq
  rcases h a (hassigned a ha hdecision) hdecision t other cause hold howed with
    ⟨u, hu, hsat⟩ | hexc
  · exact .inl ⟨u, hu, hsatisfied a ha hdecision _ hsat⟩
  · exact hexcused a ha hdecision t other cause hold howed hexc

lemma not_isDecision_of_mem_propagate {solution : PartialSolution P V} {inc : Incompatibility P V}
    {a : Assignment P V} (ha : a ∈ (propagateIncompatibility solution inc).2.assignments)
    (hdecision : a.isDecision = true) : a ∈ solution.assignments := by
  rcases mem_propagate ha with ha | ⟨_, _, _, hcause⟩
  · exact ha
  · simp [isDecision, hcause] at hdecision

/-- After an incompatibility of which a term is satisfied has been propagated without a conflict, its
other term is contradicted. -/
lemma satisfies_of_propagate {solution : PartialSolution P V}
    (h : solution.Coherent config.allVersions) {t : Term P V} {other : Option (Term P V)}
    {cause : Cause} (hover : ∀ u ∈ other, u.Over config.allVersions)
    (ht : solution.satisfies t = true)
    (hconflict : (propagateIncompatibility solution
      (short t other cause)).1 ≠ .conflict) :
    ∃ u ∈ other, (propagateIncompatibility solution
      (short t other cause)).2.satisfies u.inverse = true := by
  unfold propagateIncompatibility at hconflict ⊢
  cases other with
  | none => simp [short, Incompatibility.terms, verdict, ht] at hconflict
  | some u =>
    refine ⟨u, rfl, ?_⟩
    simp only [short, Incompatibility.terms, Option.toList_some, verdict, ht, if_true] at hconflict ⊢
    cases hsat : solution.satisfies u with
    | true => simp [hsat] at hconflict
    | false =>
      cases hinc : solution.isIncompatible u with
      | true => simpa using h.satisfies_inverse (hover u rfl) hsat hinc
      | false => simpa using satisfies_derive _ (h.derive (hover u rfl) hsat hinc _)

section

variable (hground : Grounded config Q) (hold : Upholds config Q old) (h : Heard old)

include hground hold h

/-- The next incompatibility is propagated without a conflict. -/
lemma Heard.scan {subject : Subject P} {next : Nat} {changed : List (Outcome P)}
    {inc : Incompatibility P V} (hcontrol : old.control = .scan subject next changed)
    (hnext : (old.incompatibilities subject)[next]? = some inc)
    (hconflict : (propagateIncompatibility old.solution inc).1 ≠ .conflict)
    (outcomes : List (Outcome P)) : Heard { old with
      solution := (propagateIncompatibility old.solution inc).2
      control := .scan subject (next + 1) outcomes } := by
  have hinc := hold.stored subject inc (mem_of_getElem? hnext)
  have hcoherent := propagate_coherent hold.coherent (hground.isOver inc hinc)
  refine h.next ?_ (fun a => not_isDecision_of_mem_propagate) (fun _ _ _ _ _ _ hmem _ => hmem)
    (fun a _ _ t => satisfiedAt_propagate hold.coherent (hground.isOver inc hinc))
  intro a ha hdecision t other cause hmem howed hexc
  have hmember := not_isDecision_of_mem_propagate ha hdecision
  unfold Excused at hexc
  rw [hcontrol] at hexc
  rcases hexc with ⟨hlevel, i, hi, hx⟩
  rcases Nat.eq_or_lt_of_le hi with rfl | hi
  swap
  · exact .inr ⟨by rw [propagate_level, hlevel], i, hi, hx⟩
  -- this is the incompatibility that the decision owes something to
  rw [hnext] at hx
  cases hx
  have hsat : old.solution.satisfies t = true := by
    rcases accum_decided hold.coherent.grown hmember hdecision with ⟨current, hcurrent, _, hselected⟩
    refine satisfies_iff.2 ⟨current, ?_, howed.satisfied current hselected⟩
    rw [hold.coherent.terms_eq, howed.subject_eq, hcurrent]
  rcases satisfies_of_propagate hold.coherent
    (fun u hu => hground.isOver _ hinc u (by simp_all [short, Incompatibility.terms])) hsat hconflict with
    ⟨u, hu, hinverse⟩
  have hat := hcoherent.satisfiedAt_of_satisfies hinverse
  rw [propagate_level, ← hlevel] at hat
  exact .inl ⟨u, hu, hat⟩

lemma Heard.backjump {conflict current : Incompatibility P V} {scanned : Subject P} {next : Nat}
    {changed : List (Outcome P)} {level : Nat}
    (hcontrol : old.control = .resolve conflict current scanned next changed)
    (hfailure : current.isFailure = false)
    (hresolution : resolution old.solution current = some (.backtrack level)) :
    Heard (old.backjump level conflict current scanned next changed) := by
  rcases hold.resolving _ _ _ _ _ hcontrol with ⟨hcurrent, hfrom⟩
  have hone := one_le_of_resolution hold.coherent hresolution
  have hcoherent := hold.coherent.backtrack hone
  have hkept : ∀ a ∈ (old.backjump level conflict current scanned next changed).solution.assignments,
      a.isDecision = true → a ∈ old.solution.assignments ∧ a.decisionLevel ≤ level :=
    fun a ha hdecision =>
      (hold.coherent.mem_upTo level a).1 (not_isDecision_of_mem_propagate ha hdecision)
  have hlearned : (∀ subject, old.incompatibilities subject <+:
        (old.backjump level conflict current scanned next changed).incompatibilities subject) ∧
      ∀ subject terms cause, .external terms cause ∈
        (old.backjump level conflict current scanned next changed).incompatibilities subject →
        .external terms cause ∈ old.incompatibilities subject := by
    unfold Resolver.backjump
    simp only
    split
    swap
    · exact ⟨fun _ => prefix_refl _, fun _ _ _ hmem => hmem⟩
    rename_i hne
    -- what is learned has been derived
    have hext := extends_add old current
    refine ⟨hext.grows, fun subject terms cause hmem => ?_⟩
    rcases hext.only _ _ hmem with hmem | hmem
    · exact hmem
    · rcases hfrom with heq | ⟨⟨terms, first, second, heq⟩, _⟩
      · exact absurd heq hne
      · exact absurd ((mem_singleton.1 hmem).trans heq) (by simp)
  refine h.next ?_ (fun a ha hdecision => (hkept a ha hdecision).1)
    (fun a _ _ t other cause hmem _ => hlearned.2 _ _ cause hmem) ?_
  · intro a ha hdecision t other cause _ _ hexc
    right
    unfold Excused at hexc
    rw [hcontrol] at hexc
    have hle := (hkept a ha hdecision).2
    rcases hexc with ⟨hlevel, hnodup | ⟨i, hi, hx⟩⟩
    · have hlt := (resolution_backtrack hold.coherent
        { isOver := hground.isOver _ hcurrent, subjects := hnodup } hfailure hresolution).2
      omega
    obtain ⟨rest, hrest⟩ := hlearned.1 scanned
    refine ⟨?_, i, hi, by
      rw [← hrest, getElem?_append_left (List.getElem?_eq_some_iff.1 hx).1, hx]⟩
    have hshorter : (old.solution.backtrack level).decisionLevel ≤ old.solution.decisionLevel :=
      length_filter_le _ _
    have hge := hcoherent.level_le (not_isDecision_of_mem_propagate ha hdecision)
    change a.decisionLevel =
      (propagateIncompatibility (old.solution.backtrack level) current).2.decisionLevel
    rw [propagate_level]
    omega
  · intro a ha hdecision t hsat
    exact satisfiedAt_propagate hcoherent (hground.isOver _ hcurrent)
      (hsat.backtrack (hkept a ha hdecision).2)

end

/-- Where a choice is made, no decision is excused. -/
lemma Heard.of_choose (h : Heard old) (hcontrol : old.control = .choose)
    (hsolution : new.solution = old.solution)
    (hstored : ∀ a ∈ old.solution.assignments, a.isDecision = true → ∀ t other cause,
      short t other cause ∈ new.incompatibilities a.subject → t.subject = a.subject →
        short t other cause ∈ old.incompatibilities a.subject := by
      exact fun _ _ _ _ _ _ hmem _ => hmem) : Heard new := by
  refine h.next ?_ ?_ ?_ ?_ <;> rw [hsolution]
  · intro a _ _ t other cause _ _ hexc
    unfold Excused at hexc
    rw [hcontrol] at hexc
    exact hexc.2.elim
  · exact fun _ ha _ => ha
  · exact hstored
  · exact fun _ _ _ _ hsat => hsat

/-- What is added when nothing has been decided about the subject of its first term. -/
lemma mem_old_of_undecided {all : P → Finset V} (hcoherent : old.solution.Coherent all)
    {added : List (Incompatibility P V)} (honly : ∀ subject, ∀ x ∈ new.incompatibilities subject,
      x ∈ old.incompatibilities subject ∨ x ∈ added) {subject : Subject P}
    (hundecided : old.solution.isDecided subject = false)
    (hadded : ∀ t terms cause, .external (t :: terms) cause ∈ added → t.subject = subject) :
    ∀ a ∈ old.solution.assignments, a.isDecision = true →
      ∀ (t : Term P V) (other : Option (Term P V)) cause,
      short t other cause ∈ new.incompatibilities a.subject → t.subject = a.subject →
        short t other cause ∈ old.incompatibilities a.subject := by
  intro a ha hdecision t other cause hmem hsubject
  rcases honly _ _ hmem with hmem | hmem
  · exact hmem
  have hdecided := (hcoherent.isDecided_iff subject).2
    ⟨a, ha, hdecision, by rw [← hsubject, hadded _ _ _ hmem]⟩
  rw [hundecided] at hdecided
  cases hdecided

section

variable {constraint : VersionConstraint P V} (hold : Upholds config Q old) (h : Heard old)
  (hoffered : Offered old constraint)

include hold h hoffered

lemma Heard.addAbout (versions : Finset V) (cause : Cause) {used : Resolver P V}
    (hsolution : used.solution = old.solution)
    (hstored : used.incompatibilities = old.incompatibilities) :
    Heard (used.addAbout constraint.packageName
      (.external [config.require constraint.packageName versions] cause)) := by
  have hundecided := (hoffered.undecided hold.coherent).undecided
  refine h.of_choose hoffered.choosing hsolution ?_
  have hext := extends_add used (.external [config.require constraint.packageName versions] cause)
  rw [← hsolution, ← hstored]
  rw [← hsolution] at hundecided
  refine mem_old_of_undecided (hsolution ▸ hold.coherent) hext.only hundecided ?_
  intro t terms cause hmem
  obtain ⟨⟨rfl, -⟩, -⟩ : (t = _ ∧ terms = []) ∧ _ := by simpa using hmem
  rfl

lemma Heard.decideVersion {version : V} (hvalid : version ∈ config.validVersionsForPackage constraint) :
    Heard (old.decideVersion config constraint.packageName version) := by
  have hundecided := hoffered.undecided hold.coherent
  have hlisted := mem_old_of_undecided hold.coherent
    (extends_foldl_add old (old.incompatibilitiesFor config
      (.version constraint.packageName version))).only hundecided.undecided (by
      intro t terms cause hmem
      unfold incompatibilitiesFor at hmem
      split at hmem
      · cases hmem
      · rcases mem_map.1 hmem with ⟨dependency, _, heq⟩
        cases heq
        rfl)
  unfold Resolver.decideVersion
  simp only
  split
  · exact h.of_choose hoffered.choosing rfl hlisted
  have hcoherent := coherent_decide_version hold.coherent hundecided hvalid
  intro a ha hdecision t other cause hmem howed
  rcases mem_append.1 (decide_assigned old.solution _ ▸ ha) with ha | ha
  · left
    rcases h a ha hdecision t other cause (hlisted a ha hdecision t other cause hmem howed.subject_eq)
      howed with ⟨u, hu, hsat⟩ | hexc
    · exact ⟨u, hu, hsat.append hcoherent (decide_assigned _ _)⟩
    · unfold Excused at hexc
      rw [hoffered.choosing] at hexc
      exact hexc.2.elim
  · right
    rw [mem_singleton.1 ha]
    exact ⟨rfl, rfl⟩

end

/-- A step keeps what propagation has heard. -/
lemma heard_step (hground : Grounded config Q) (hold : Upholds config Q old) (h : Heard old)
    (hstep : Step config old new) : Heard new := by
  cases hstep with
  | halt _ => exact h
  | lost hcontrol hlost | finish hcontrol hunsatisfied => exact h.of_choose hcontrol rfl
  | useLatest hoffered hlatest nonempty | useLocked hoffered hlatest hlocked hversion
  | noVersions cause hoffered hnone => exact h.addAbout hold hoffered _ _ rfl rfl
  | decide hoffered hlatest hlocked hvalid => exact h.decideVersion hold hoffered hvalid
  | backjump hcontrol hfailure hresolution =>
    exact h.backjump hground hold hcontrol hfailure hresolution
  | pass hcontrol hnext hverdict | derive hcontrol hnext hverdict =>
    have hscan := h.scan hground hold hcontrol hnext (by simp [propagateIncompatibility, hverdict])
    simpa only [propagateIncompatibility, hverdict] using hscan _
  | fail hcontrol hfailure hterms | stuck hcontrol hfailure hresolution =>
    exact h.next fun a _ _ t other cause _ _ hexc => .inr ⟨hexc.1, trivial⟩
  | replace hcontrol hfailure hresolution =>
    exact h.next fun a _ _ t other cause _ _ hexc =>
      .inr ⟨hexc.1, .inl (hold.replace_wf hground hcontrol hresolution).subjects⟩
  | settle hcontrol =>
    refine h.next fun a _ _ t other cause _ _ hexc => ?_
    unfold Excused at hexc
    rw [hcontrol] at hexc
    exact hexc.2.elim
  | @skip outcome changed hcontrol houtcome =>
    refine h.next fun a _ _ t other cause _ _ hexc => ?_
    unfold Excused at hexc
    rw [hcontrol] at hexc
    cases outcome with
    | derived subject => exact absurd rfl (houtcome subject)
    | conflict | nothing => exact hexc.2.elim
  | enter hcontrol =>
    refine h.next fun a _ _ t other cause hmem _ hexc => ?_
    unfold Excused at hexc
    rw [hcontrol] at hexc
    rcases hexc with ⟨hlevel, rfl⟩
    rcases mem_iff_getElem?.1 hmem with ⟨i, hi⟩
    exact .inr ⟨hlevel, i, Nat.zero_le i, hi⟩
  | leave hcontrol hend =>
    refine h.next fun a _ _ t other cause _ _ hexc => ?_
    unfold Excused at hexc
    rw [hcontrol] at hexc
    rcases hexc with ⟨_, i, hi, hx⟩
    rw [getElem?_eq_none ((getElem?_eq_none_iff.1 hend).trans hi)] at hx
    cases hx
  | conflict hcontrol hnext hverdict =>
    refine h.next fun a _ _ t other cause _ howed hexc => .inr ?_
    unfold Excused at hexc
    rw [hcontrol] at hexc
    rcases hexc with ⟨hlevel, i, hi, hx⟩
    refine ⟨hlevel, ?_⟩
    rcases Nat.eq_or_lt_of_le hi with rfl | hi
    · -- the two terms of the conflict are about different subjects
      rw [hnext] at hx
      cases hx
      left
      cases other with
      | none => simp [short, Incompatibility.terms]
      | some u =>
        have hne := howed.other_ne u rfl
        rw [← howed.subject_eq] at hne
        simpa [short, Incompatibility.terms] using hne.symm
    · exact .inr ⟨i, hi, hx⟩

lemma heard_root (config : Config P V) : Heard (setupRoot config) := by
  intro a ha _ t other cause _ _
  right
  unfold Excused
  rw [solution_root] at ha ⊢
  rw [control_root]
  obtain rfl := mem_singleton.1 ha
  exact ⟨rfl, rfl⟩

lemma heard_run (config : Config P V) (steps : Nat) : Heard (run config steps) := by
  refine (run_induction config
    (I := fun resolver => Tracked config (Term.Over config.allVersions) resolver ∧ Heard resolver)
    ⟨tracked_root (stable_over config), heard_root config⟩ ?_ steps).2
  intro old new h hstep
  exact ⟨tracked_step (stable_over config) h.1 hstep,
    heard_step (stable_over config).grounded h.1 h.2 hstep⟩

/-- Once a run has returned, no decision is excused. -/
lemma Heard.of_done (h : Heard old) (hdone : old.control = .done) {a : Assignment P V}
    (ha : a ∈ old.solution.assignments) (hdecision : a.isDecision = true) {t : Term P V}
    {other : Option (Term P V)} (howed : Owed a t other) {cause : Cause}
    (hmem : short t other cause ∈ old.incompatibilities a.subject) :
    ∃ u ∈ other, old.solution.SatisfiedAt a.decisionLevel u.inverse := by
  rcases h a ha hdecision t other cause hmem howed with hsat | hexc
  · exact hsat
  · unfold Excused at hexc
    rw [hdone] at hexc
    exact hexc.2.elim

end Toolchain.SatResolver.Resolver
