import Toolchain.Execution.Moves

/-!
# Execution.SingleExecution — when a digest is queued or leased twice

`execute` queues a digest when its action is not in `all`, also if an action that `cancel` took out of
`all` is still queued or leased; then two workers run it (`leased_twice`).  These are the only ways in
which that happens (`single_execution_iff`).
-/

namespace Toolchain.Execution

open List

variable {D : Type}

variable {self : Instance D} {digest : D}

namespace Instance

/-- Each digest is queued at most once, runs under at most one lease, and while it is in `all` not
both. -/
structure SingleExecution [DecidableEq D] (inst : Instance D) : Prop where
  queued_once : ∀ digest, inst.queued.count digest ≤ 1
  leased_once : ∀ digest session id session' id', inst.tracked session id = some digest →
    inst.tracked session' id' = some digest → session = session' ∧ id = id'
  not_both : ∀ digest, (inst.all digest).isSome → digest ∈ inst.queued →
    ∀ session id, inst.tracked session id ≠ some digest

def Absent (inst : Instance D) (digest : D) : Prop :=
  digest ∉ inst.queued ∧ ∀ session id, inst.tracked session id ≠ some digest

structure Exclusive (inst : Instance D) : Prop where
  queued_nodup : inst.queued.Nodup
  leased_once : ∀ digest session id session' id', inst.tracked session id = some digest →
    inst.tracked session' id' = some digest → session = session' ∧ id = id'
  apart : ∀ digest session id, inst.tracked session id = some digest → digest ∉ inst.queued

variable {after : Instance D}

namespace Exclusive

lemma new : (Instance.new : Instance D).Exclusive where
  queued_nodup := nodup_nil
  leased_once := by
    intro digest sess id _ _ h
    cases h
  apart := by
    intro digest sess id h
    cases h

lemma congr (h : self.Exclusive) (hque : after.queued = self.queued)
    (htra : ∀ sess id, after.tracked sess id = self.tracked sess id) :
    after.Exclusive := by
  refine ⟨hque ▸ h.queued_nodup, ?_, ?_⟩
  · simpa only [htra] using h.leased_once
  · simpa only [htra, hque] using h.apart

variable [DecidableEq D]

variable {self : Instance D}

variable (sess : SessionName)

section

variable (h : self.Exclusive)

include h

lemma singleExecution : self.SingleExecution where
  queued_once := nodup_iff_count_le_one.1 h.queued_nodup
  leased_once := h.leased_once
  not_both := fun digest _ hque sess id htra => h.apart digest sess id htra hque

lemma complete (id : LeaseId) : (self.complete sess id).Exclusive := by
  have hold : ∀ sess' id' digest, (self.complete sess id).tracked sess' id' = some digest →
      self.tracked sess' id' = some digest := by
    intro sess' id' digest htra
    rw [tracked_complete] at htra
    split at htra
    · cases htra
    · exact htra
  refine ⟨?_, ?_, ?_⟩
  · rw [queued_complete]
    exact h.queued_nodup
  · intro digest s i s' i' htra htra'
    exact h.leased_once digest s i s' i' (hold s i digest htra) (hold s' i' digest htra')
  · intro digest s i htra
    rw [queued_complete]
    exact h.apart digest s i (hold s i digest htra)

lemma release (id : LeaseId) : (self.release sess id).Exclusive := by
  -- what is tracked afterwards is another lease, of another digest
  have hold : ∀ sess' id' digest, (self.release sess id).tracked sess' id' = some digest →
      self.tracked sess' id' = some digest ∧ self.tracked sess id ≠ some digest := by
    intro sess' id' digest htra
    rw [tracked_release] at htra
    split at htra
    · cases htra
    · rename_i hoth
      refine ⟨htra, fun hsam => hoth ?_⟩
      exact h.leased_once digest sess' id' sess id htra hsam
  refine ⟨?_, ?_, ?_⟩
  · rw [queued_release]
    cases hdig : self.tracked sess id with
    | none => simpa using h.queued_nodup
    | some digest => exact nodup_cons.2 ⟨h.apart digest sess id hdig, h.queued_nodup⟩
  · intro digest s i s' i' htra htra'
    exact h.leased_once digest s i s' i' (hold s i digest htra).1 (hold s' i' digest htra').1
  · intro digest s i htra
    rcases hold s i digest htra with ⟨hbef, hne⟩
    rw [queued_release, mem_append, not_or]
    refine ⟨?_, h.apart digest s i hbef⟩
    intro hmem
    exact hne (Option.mem_toList.1 hmem)

lemma start {queued : List D} (hque : self.queued = digest :: queued) :
    (self.start sess digest queued).Exclusive := by
  have hnod : (digest :: queued).Nodup := hque ▸ h.queued_nodup
  -- a digest that is tracked is the new one or was tracked before
  have hcas : ∀ sess' id' other, (self.start sess digest queued).tracked sess' id' =
      some other → (sess' = sess ∧ id' = self.nextLease ∧ other = digest) ∨ self.tracked sess' id' =
        some other := by
    intro sess' id' other htra
    rw [tracked_start] at htra
    split at htra
    · rename_i hnew
      exact .inl ⟨hnew.1, hnew.2, (Option.some.inj htra).symm⟩
    · exact .inr htra
  have hunl : ∀ sess' id', self.tracked sess' id' ≠ some digest := by
    intro sess' id' htra
    apply h.apart digest sess' id' htra
    rw [hque]
    exact (.head _)
  refine ⟨(nodup_cons.1 hnod).2, ?_, ?_⟩
  · intro other s i s' i' htra htra'
    rcases hcas s i other htra with ⟨rfl, rfl, rfl⟩ | hbef
    · rcases hcas s' i' other htra' with ⟨rfl, rfl, -⟩ | hbef'
      · exact ⟨rfl, rfl⟩
      · exact absurd hbef' (hunl s' i')
    · rcases hcas s' i' other htra' with ⟨rfl, rfl, rfl⟩ | hbef'
      · exact absurd hbef (hunl s i)
      · exact h.leased_once other s i s' i' hbef hbef'
  · intro other s i htra
    change other ∉ queued
    rcases hcas s i other htra with ⟨-, -, rfl⟩ | hbef
    · exact (nodup_cons.1 hnod).1
    · have hnot := h.apart other s i hbef
      rw [hque] at hnot
      exact fun hmem => hnot (.tail _ hmem)

end

lemma move (hmov : Move self after) (h : self.Exclusive) :
    after.Exclusive := by
  cases hmov with
  | waited op | cancelled op | streamDropped digest => exact h.congr rfl fun _ _ => rfl
  | opened sess => exact h.congr rfl (tracked_openWorker self sess)
  | completed sess id => exact h.complete sess id
  | released sess id => exact h.release sess id
  | skipped hque hgon =>
    have hnod := h.queued_nodup
    rw [hque] at hnod
    refine ⟨(nodup_cons.1 hnod).2, h.leased_once, fun digest s i htra => ?_⟩
    have hnot := h.apart digest s i htra
    rw [hque] at hnot
    exact fun hmem => hnot (.tail _ hmem)
  | started sess hque hact hfre => exact h.start sess hque
  | closed sess hunt => exact h.congr rfl (tracked_closed self sess hunt)

lemma execute (h : self.Exclusive) {dig : D}
    (habs : self.all dig = none → self.Absent dig) : (self.execute dig).Exclusive := by
  cases hall : self.all dig with
  | some acti => exact h.congr (by simp [queued_execute, hall]) (tracked_execute self dig)
  | none =>
    rcases habs hall with ⟨hque, hlea⟩
    have hnew : (self.execute dig).queued = self.queued ++ [dig] := by simp [queued_execute, hall]
    refine ⟨?_, ?_, ?_⟩
    · rw [hnew]
      exact nodup_append.2 ⟨h.queued_nodup, nodup_singleton dig, by
        rintro other hoth _ hsin rfl
        exact hque (mem_singleton.1 hsin ▸ hoth)⟩
    · simpa only [tracked_execute] using h.leased_once
    · intro other s i htra
      rw [tracked_execute] at htra
      rw [hnew, mem_append, mem_singleton, not_or]
      refine ⟨h.apart other s i htra, ?_⟩
      rintro rfl
      exact hlea s i htra

end Exclusive

lemma SingleExecution.absent_of_execute [DecidableEq D]
    (h : (self.execute digest).SingleExecution) (hall : self.all digest = none) :
    self.Absent digest := by
  have hnew : (self.execute digest).queued = self.queued ++ [digest] := by simp [queued_execute, hall]
  constructor
  · intro hque
    have honc := h.queued_once digest
    have hpos := count_pos_iff.2 hque
    rw [hnew, count_append, count_singleton_self] at honc
    omega
  · intro sess id htra
    refine h.not_both digest ?_ ?_ sess id ?_
    · rw [isSome_all_execute]
      exact .inl rfl
    · rw [hnew]
      exact mem_append_right _ (.head _)
    · rw [tracked_execute, htra]

end Instance

namespace Server

variable [DecidableEq D]

/-- The event is not the `execute` of a digest that is not in `all` but still queued or leased. -/
def MeetsNoLeftover (self : Server D) (event : Event D) : Prop :=
  ∀ digest, event = .execute digest → self.inst.all digest = none → self.inst.Absent digest

/-- Each digest has a single place in all states of a run exactly when no `execute` of the run
meets a leftover of its digest. -/
theorem single_execution_iff (events : List (Event D)) :
    (∀ state ∈ Lib.trace step new events, state.inst.SingleExecution) ↔
    Lib.Guarded step MeetsNoLeftover new events := by
  refine Lib.forall_trace_iff_guarded (fun self : Server D => self.inst.Exclusive) ?_ ?_ ?_
    Instance.Exclusive.new
  · intro self event h hgua
    exact step_inst_invariant Instance.Exclusive (fun _ _ hmov h => h.move hmov) self event
      (fun digest heve => h.execute (hgua digest heve)) h
  · intro self h
    exact h.singleExecution
  · rintro self event - haft digest rfl hall
    exact Instance.SingleExecution.absent_of_execute haft hall

/-- A worker takes the action, its client gives up, and the action is asked for again: two workers run
it. -/
theorem leased_twice :
    let poll (number : PollId) (session : SessionName) : List (Event Nat) :=
      .poll session [] :: replicate 4 (.advance number)
    let even : List (Event Nat) :=
      [.execute 7] ++ poll 0 0 ++ [.dropStream 7, .cancel 0, .execute 7] ++ poll 1 1
    let inst := (Lib.run step new even).inst
    inst.tracked 0 0 = some 7 ∧ inst.tracked 1 1 = some 7 ∧ inst.isCancelled 7 = false ∧
      ¬ inst.SingleExecution := by
  intro poll even inst
  have hfir : inst.tracked 0 0 = some 7 := by decide
  have hsec : inst.tracked 1 1 = some 7 := by decide
  refine ⟨hfir, hsec, by decide, fun h => ?_⟩
  exact absurd (h.leased_once 7 0 0 1 1 hfir hsec).1 (by decide)

end Server
end Toolchain.Execution
