import Toolchain.Execution.Server

/-!
# Execution.Moves — what can happen to an instance, and no action is lost

An event executes an action or makes a sequence of the moves below (`Server.step_moves`), so an
invariant needs one look at `execute` and one at each move.  The first is `WellFormed`: an action
without a result is in the queue or held by a lease (`no_action_lost`).
-/

namespace Toolchain.Execution

open List Function Worker AList Instance Option
open Relation (ReflTransGen)

variable {D : Type}

variable {self : Instance D}

variable (sess : SessionName)

namespace Instance

variable [DecidableEq D]

/-- One thing that happens to an instance, other than `execute`. -/
inductive Move : Instance D → Instance D → Prop
  | waited (self : Instance D) (operationName : OperationName) : Move self (self.wait operationName)
  | cancelled (self : Instance D) (operationName : OperationName) : Move self (self.cancel operationName)
  | streamDropped (self : Instance D) (digest : D) : Move self (self.dropStream digest)
  | opened (self : Instance D) (session : SessionName) : Move self (self.openWorker session)
  | completed (self : Instance D) (session : SessionName) (id : LeaseId) :
    Move self (self.complete session id)
  | released (self : Instance D) (session : SessionName) (id : LeaseId) :
    Move self (self.release session id)
  | skipped (self : Instance D) {digest : D} {queued : List D}
      (hqueued : self.queued = digest :: queued) (hgone : self.all digest = none) :
      Move self { self with queued := queued }
  | started (self : Instance D) (session : SessionName) {digest : D} {queued : List D}
      (hqueued : self.queued = digest :: queued) (hactive : (self.all digest).isSome)
      (hfree : 0 < (self.worker session).free) :
      Move self (self.start session digest queued)
  | closed (self : Instance D) (session : SessionName)
    (huntracked : ∀ id, self.tracked session id = none) :
      Move self { self with workers := Function.update self.workers session none }

lemma free_le_free_start (self : Instance D) (sess : SessionName) (digest : D) (queued : List D) :
    (self.worker sess).free ≤ ((self.start sess digest queued).worker sess).free + 1 := by
  have hwor : (self.start sess digest queued).worker sess = (self.worker sess).insert self.nextLease
    digest :=
    worker_setWorker self sess _
  have hlen := length_erase_le (a := self.nextLease) (l := (self.worker sess).leases.keys)
  rw [hwor]
  simp only [Worker.free, Worker.insert, AList.keys_insert, length_cons]
  omega

/-- The rule of the loop: it skips digests of the queue and starts others. -/
lemma acquire_rule {P : Instance D → Draft → Prop} {sess : SessionName}
    (hski : ∀ self draft queued, P self draft → P { self with queued := queued } draft)
    (hsta : ∀ self draft digest queued, P self draft → P (self.start sess digest queued)
    { leases := draft.leases ++ [{ id := self.nextLease, state := .pending }], changed := true })
    (queued : List D) (free : Nat) {draft : Draft} (h : P self draft) :
    P (acquire sess queued free self draft).1 (acquire sess queued free self draft).2 := by
  induction queued generalizing free self draft with
  | nil => rwa [acquire]
  | cons digest queued ih =>
    cases free with
    | zero => rwa [acquire]
    | succ free =>
      rw [acquire]
      cases self.all digest with
      | none => exact ih (free + 1) (hski self draft queued h)
      | some acti => exact ih free (hsta self draft digest queued h)

lemma acquire_moves (queued : List D) (free : Nat) (self : Instance D)
    (draft : Draft) (hque : self.queued = queued) (hfre : free ≤ (self.worker sess).free) :
    ReflTransGen Move self (acquire sess queued free self draft).1 := by
  induction queued generalizing free self draft with
  | nil => rw [acquire]
  | cons digest queued ih =>
    cases free with
    | zero => rw [acquire]
    | succ free =>
      rw [acquire]
      cases hall : self.all digest with
      | none => exact .head (.skipped self hque hall) (ih (free + 1) _ draft rfl hfre)
      | some acti =>
        have hroo := free_le_free_start self sess digest queued
        exact .head (.started self sess hque (by simp [hall]) (by omega)) (ih free _ _ rfl (by omega))

lemma foldl_release_moves (ids : List LeaseId) (self : Instance D) :
    ReflTransGen Move self (ids.foldl (·.release sess ·) self) := by
  induction ids generalizing self with
  | nil => exact .refl
  | cons id ids ih => exact .head (.released self sess id) (ih _)

lemma expire_moves (self : Instance D) (sess : SessionName) :
    ReflTransGen Move self (self.expire sess) := by
  apply (foldl_release_moves sess (self.worker sess).leases.keys self).tail
  apply Move.closed
  intro id
  -- the leases released are all there were
  rw [tracked_foldl_release]
  by_cases hid : id ∈ (self.worker sess).leases.keys
  · simp [hid]
  · have hnon := lookup_eq_none.2 hid
    simp [hid, tracked, hnon]

end Instance

namespace Server

variable [DecidableEq D]

lemma takeLock_moves (self : Server D) (poll : PollId) (sess : SessionName) (phase : Phase) :
    ReflTransGen Instance.Move self.inst (self.takeLock poll sess phase).inst := by
  unfold takeLock
  cases self.lock with
  | none => exact .single (.opened self.inst sess)
  | some _ => exact .refl

lemma advance_moves (self : Server D) (poll : PollId) (sess : SessionName) (phase : Phase) :
    ReflTransGen Instance.Move self.inst (self.advance poll sess phase).inst := by
  cases phase with
  | arriving leas => exact self.takeLock_moves poll sess _
  | completing todo kept =>
    cases todo with
    | nil => exact .refl
    | cons lease todo =>
      simp only [advance]
      split
      · exact .single (.completed self.inst sess lease.id)
      · exact .refl
  | looping leas => exact self.takeLock_moves poll sess _
  | checking todo draft =>
    cases todo with
    | nil => exact acquire_moves sess _ _ _ draft rfl le_rfl
    | cons lease todo =>
      simp only [advance]
      split
      · exact .refl
      · split <;> exact .refl
  | dropping lease todo draft => exact .single (.released self.inst sess lease.id)
  | waiting | returned leas => exact .refl

lemma step_moves (self : Server D) (ev : Event D) :
    (∃ digest, ev = .execute digest ∧ (self.step ev).inst = self.inst.execute digest) ∨
    ReflTransGen Instance.Move self.inst (self.step ev).inst := by
  cases ev with
  | execute digest => exact .inl ⟨digest, rfl, rfl⟩
  | wait op => exact .inr (.single (.waited self.inst op))
  | cancel op => exact .inr (.single (.cancelled self.inst op))
  | dropStream digest => exact .inr (.single (.streamDropped self.inst digest))
  | poll sess leas => exact .inr .refl
  | advance poll =>
    right
    simp only [step]
    split
    · exact self.advance_moves poll _ _
    · exact .refl
  | timeout poll =>
    right
    simp only [step]
    split <;> exact .refl
  | expire sess =>
    right
    simp only [step]
    split
    · exact self.inst.expire_moves sess
    · exact .refl

lemma step_inst_invariant (Inv : Instance D → Prop)
    (hmove : ∀ a b : Instance D, Instance.Move a b → Inv a → Inv b) (self : Server D)
    (ev : Event D)
    (hexe : ∀ digest, ev = .execute digest → Inv (self.inst.execute digest))
    (hsel : Inv self.inst) : Inv (self.step ev).inst := by
  rcases self.step_moves ev with ⟨digest, heve, hins⟩ | hmov
  · rw [hins]
    exact hexe digest heve
  generalize (self.step ev).inst = after at hmov ⊢
  induction hmov with
  | refl => exact hsel
  | tail _ hlas ih => exact hmove _ _ hlas ih

end Server

/-! ## No action is lost -/

structure Worker.Fits (worker : Worker D) : Prop where
  capacity_pos : 0 < worker.capacity
  room : worker.leases.keys.length ≤ worker.capacity

variable {wk : Worker D}

namespace Worker.Fits

lemma new : (new : Worker D).Fits := ⟨Nat.one_pos, Nat.zero_le _⟩

lemma remove (h : wk.Fits) (id : LeaseId) : (wk.remove id).Fits := by
  refine ⟨h.capacity_pos, ?_⟩
  have hlen := length_erase_le (a := id) (l := wk.leases.keys)
  simp only [Worker.remove, AList.keys_erase]
  exact Nat.le_trans hlen h.room

lemma insert (h : wk.Fits) (id : LeaseId) (dig : D) (hfre : 0 < wk.free) : (wk.insert id dig).Fits := by
  refine ⟨h.capacity_pos, ?_⟩
  have hlen := length_erase_le (a := id) (l := wk.leases.keys)
  simp only [free] at hfre
  simp only [Worker.insert, AList.keys_insert, length_cons]
  omega

end Worker.Fits

namespace Instance

structure WellFormed (inst : Instance D) : Prop where
  fresh : ∀ session id, inst.nextLease ≤ id → inst.tracked session id = none
  room : ∀ session, (inst.worker session).Fits
  kept : ∀ digest, (inst.all digest).isSome → digest ∈ inst.queued ∨
    ∃ session id, inst.tracked session id = some digest

namespace WellFormed

lemma new : (new : Instance D).WellFormed where
  fresh := fun _ _ _ => rfl
  room := fun _ => .new
  kept := by simp [Instance.new]

lemma room_setWorker (h : ∀ sess, (self.worker sess).Fits) (sess : SessionName) (hwor : wk.Fits)
    (oth : SessionName) :
    ((self.setWorker sess wk).worker oth).Fits := by
  by_cases hoth : oth = sess
  · rwa [hoth, worker_setWorker]
  · simpa [worker, setWorker, hoth] using h oth

variable [DecidableEq D]

lemma execute (h : self.WellFormed) (dig : D) : (self.execute dig).WellFormed where
  fresh := by simpa using h.fresh
  room := by simpa [worker] using h.room
  kept := by
    intro other hoth
    simp only [tracked_execute, queued_execute]
    by_cases hact : (self.all other).isSome
    · rcases h.kept other hact with hque | hlea
      · exact .inl (mem_append_left _ hque)
      · exact .inr hlea
    -- only the digest just queued is new
    have hsam := ((isSome_all_execute self dig other).1 hoth).resolve_right hact
    left
    rw [hsam] at hact ⊢
    simp [hact]

lemma move {after : Instance D} (hmov : Move self after) (h : self.WellFormed) :
    after.WellFormed := by
  cases hmov with
  | waited op | streamDropped digest =>
    exact ⟨h.fresh, h.room, fun other hoth => h.kept other (by simpa using hoth)⟩
  | cancelled op =>
    exact ⟨h.fresh, h.room, fun other hoth => h.kept other (isSome_all_of_cancel self op other hoth)⟩
  | opened sess =>
    refine ⟨?_, room_setWorker h.room sess (h.room sess), ?_⟩
    · intro other id hfre
      rw [tracked_openWorker]
      exact h.fresh other id hfre
    · intro other hoth
      simp only [tracked_openWorker]
      exact h.kept other hoth
  | completed sess id =>
    refine ⟨?_, ?_, ?_⟩
    · intro other other' hfre
      rw [nextLease_complete] at hfre
      rw [tracked_complete, h.fresh other other' hfre, ite_self]
    · unfold complete
      split
      · exact h.room
      · exact room_setWorker h.room sess ((h.room sess).remove id)
    · intro other hoth
      rcases (isSome_all_complete self sess id other).1 hoth with ⟨hact, hnot⟩
      rw [queued_complete]
      refine (h.kept other hact).imp_right ?_
      -- the completed lease was for another action
      rintro ⟨sess', id', hlea⟩
      refine ⟨sess', id', ?_⟩
      rw [tracked_complete, if_neg ?_, hlea]
      rintro ⟨rfl, rfl⟩
      exact hnot hlea
  | released sess id =>
    refine ⟨?_, ?_, ?_⟩
    · intro other other' hfre
      rw [nextLease_release] at hfre
      rw [tracked_release, h.fresh other other' hfre, ite_self]
    · unfold release
      split
      · exact h.room
      · exact room_setWorker h.room sess ((h.room sess).remove id)
    · intro other hoth
      rw [isSome_all_release] at hoth
      rw [queued_release]
      rcases h.kept other hoth with hque | ⟨sess', id', hlea⟩
      · exact .inl (mem_append_right _ hque)
      by_cases hsam : sess' = sess ∧ id' = id
      · rcases hsam with ⟨rfl, rfl⟩
        left
        simp [hlea]
      · right
        exact ⟨sess', id', by rw [tracked_release, if_neg hsam, hlea]⟩
  | skipped hque hgon =>
    refine ⟨h.fresh, h.room, fun other hoth => ?_⟩
    refine (h.kept other hoth).imp_left fun hmem => ?_
    rw [hque] at hmem
    rcases mem_cons.1 hmem with rfl | hmem
    · rw [hgon] at hoth
      cases hoth
    · exact hmem
  | started sess hque hact hfree =>
    rename_i digest queued
    refine ⟨?_, ?_, ?_⟩
    · intro other id hfre
      have hnex := hfre
      rw [tracked_start, if_neg ?_, h.fresh other id (Nat.le_of_lt hnex)]
      rintro ⟨-, rfl⟩
      exact Nat.lt_irrefl _ hnex
    · exact room_setWorker h.room sess ((h.room sess).insert self.nextLease digest hfree)
    · intro other hoth
      rw [isSome_all_start] at hoth
      by_cases hsam : other = digest
      · right
        exact ⟨sess, self.nextLease, by simp [tracked_start, hsam]⟩
      refine (h.kept other hoth).imp ?_ ?_
      · intro hmem
        rw [hque] at hmem
        exact (mem_cons.1 hmem).resolve_left hsam
      · rintro ⟨sess', id', hlea⟩
        refine ⟨sess', id', ?_⟩
        -- the new lease has not taken the place of another
        rw [tracked_start, if_neg ?_, hlea]
        rintro ⟨rfl, rfl⟩
        rw [h.fresh sess' _ le_rfl] at hlea
        cases hlea
  | closed sess hunt =>
    have htra := tracked_closed self sess hunt
    refine ⟨?_, ?_, ?_⟩
    · intro other id hfre
      rw [htra]
      exact h.fresh other id hfre
    · intro other
      by_cases hoth : other = sess
      · simpa [worker, hoth] using Worker.Fits.new
      · simpa [worker, update_of_ne hoth] using h.room other
    · simpa [htra] using h.kept

end WellFormed
end Instance

namespace Server

variable [DecidableEq D]

def Reachable (self : Server D) : Prop :=
  ∃ events : List (Event D), self = Lib.run step new events

lemma wellFormed_step (self : Server D) (ev : Event D) (h : self.inst.WellFormed) :
    (self.step ev).inst.WellFormed :=
  step_inst_invariant Instance.WellFormed (fun _ _ hmov h => h.move hmov) self ev
    (fun digest _ => h.execute digest) h

lemma Reachable.wellFormed {self : Server D} (h : self.Reachable) : self.inst.WellFormed := by
  rcases h with ⟨even, rfl⟩
  exact Lib.run_invariant (fun self : Server D => self.inst.WellFormed) wellFormed_step even .new

/-- No worker has more leases than it has room for, and ids not given out yet are in no worker. -/
theorem leases_fit_and_fresh (events : List (Event D)) (session : SessionName) :
    ((Lib.run step new events).inst.worker session).Fits ∧ ∀ id,
      (Lib.run step new events).inst.nextLease ≤ id →
    (Lib.run step new events : Server D).inst.tracked session id = none := by
  have hrea : (Lib.run step new events : Server D).Reachable := ⟨events, rfl⟩
  exact ⟨hrea.wellFormed.room session, hrea.wellFormed.fresh session⟩

/-- In every state that any order of events leads to, an action without a result is in the queue or
held by a lease of a worker. -/
theorem no_action_lost (events : List (Event D)) (digest : D)
    (hactive : ((Lib.run step new events).inst.all digest).isSome) :
    digest ∈ (Lib.run step new events).inst.queued ∨
    ∃ session worker id, (Lib.run step new events).inst.workers session = some worker ∧
    worker.leases.lookup id = some digest := by
  have hrea : (Lib.run step new events : Server D).Reachable := ⟨events, rfl⟩
  refine (hrea.wellFormed.kept digest hactive).imp_right ?_
  rintro ⟨session, id, htra⟩
  -- only a worker that is there has leases
  cases hwor : (Lib.run step new events).inst.workers session with
  | none => simp [Instance.tracked, Instance.worker, hwor, Worker.new] at htra
  | some worker =>
    exact ⟨session, worker, id, hwor, by
      simpa [Instance.tracked, Instance.worker, hwor] using htra⟩

theorem no_action_lost_executing :
    let events : List (Event Nat) :=
      [.execute 7, .poll 0 [], .advance 0, .advance 0, .advance 0, .advance 0]
    ((Lib.run step new events).inst.all 7).isSome ∧ (7 ∈ (Lib.run step new events).inst.queued ∨
        ∃ session worker id, (Lib.run step new events).inst.workers session = some worker ∧
          worker.leases.lookup id = some 7) :=
  ⟨by decide, no_action_lost _ 7 (by decide)⟩

end Server

namespace Instance

def operations (self : Instance D) (digest : D) : List OperationName :=
  ((self.all digest).map (·.receivers)).getD []

structure Named (inst : Instance D) : Prop where
  fresh : ∀ digest, ∀ name ∈ inst.operations digest, name < inst.nextOperation
  unique : ∀ digest other name, name ∈ inst.operations digest → name ∈ inst.operations other →
    digest = other

variable [DecidableEq D]

lemma operations_update_map (self : Instance D) (dig other : D) (f : Action → Action)
    (hf : ∀ action, (f action).receivers = action.receivers) :
    ((Function.update self.all dig ((self.all dig).map f) other).map (·.receivers)).getD [] =
    self.operations other := by
  have hcom := funext hf
  by_cases h : other = dig
  · simp [h, operations, Function.comp_def, hcom]
  · simp [Function.update_of_ne h, operations]

lemma Move.operations_subset {self after : Instance D} (hmov : Move self after) :
    after.nextOperation = self.nextOperation ∧ ∀ digest,
      after.operations digest ⊆ self.operations digest := by
  cases hmov with
  | waited op =>
    refine ⟨rfl, fun digest name hnam => ?_⟩
    cases hall : self.all digest with
    | none => simp [operations, wait, hall] at hnam
    | some acti =>
      simp only [operations, wait, hall, Option.map_some, Option.getD_some, Action.cloneReceiver] at hnam ⊢
      split at hnam <;> exact hnam
  | cancelled op =>
    refine ⟨rfl, fun digest name hnam => ?_⟩
    cases hall : self.all digest with
    | none => simp [operations, cancel, hall] at hnam
    | some acti =>
      simp only [operations, cancel, hall, Option.map_some, Option.filter] at hnam ⊢
      split at hnam
      · exact mem_of_mem_filter hnam
      · simp at hnam
  | streamDropped digest =>
    exact ⟨rfl, fun other name hnam =>
      operations_update_map self digest other
        (fun acti => { acti with streams := acti.streams - 1 }) (fun _ => rfl) ▸ hnam⟩
  | opened sess | skipped hque hgon | closed sess hunt => exact ⟨rfl, fun digest => .refl _⟩
  | completed sess id =>
    unfold complete
    split
    · exact ⟨rfl, fun digest => .refl _⟩
    rename_i digest htra
    refine ⟨rfl, fun other name hnam => ?_⟩
    by_cases h : other = digest
    · simp [operations, h] at hnam
    · simpa [operations, update_of_ne h] using hnam
  | released sess id =>
    unfold release
    split
    · exact ⟨rfl, fun digest => .refl _⟩
    · rename_i digest htra
      exact ⟨rfl, fun other name hnam =>
        operations_update_map self digest other _ (fun acti => acti.send_receivers _) ▸ hnam⟩
  | started sess hque hact hfre =>
    rename_i digest queued
    exact ⟨rfl, fun other name hnam =>
      operations_update_map self digest other _ (fun acti => acti.send_receivers _) ▸ hnam⟩

namespace Named

lemma move {self after : Instance D} (hmov : Move self after) (h : self.Named) :
    after.Named := by
  rcases hmov.operations_subset with ⟨hnex, hsub⟩
  refine ⟨fun digest name hnam => ?_, fun digest other name hnam hoth => ?_⟩
  · rw [hnex]
    exact h.fresh digest name (hsub digest hnam)
  · exact h.unique digest other name (hsub digest hnam) (hsub other hoth)

lemma operations_execute (self : Instance D) (dig oth : D) (name : OperationName) :
    name ∈ (self.execute dig).operations oth → name ∈ self.operations oth ∨ oth = dig ∧
      name = self.nextOperation := by
  intro hnam
  by_cases h : oth = dig
  · subst h
    cases hall : self.all oth with
    | none =>
      simp only [operations, all_execute_of_none self hall, update_self,
        map_some, getD_some, Action.new, mem_singleton] at hnam
      exact .inr ⟨rfl, hnam⟩
    | some acti =>
      simp only [operations, all_execute_of_some self hall, update_self,
        map_some, getD_some, Action.subscribe, mem_cons] at hnam
      rcases hnam with hnam | hnam
      · exact .inr ⟨rfl, hnam⟩
      · exact .inl (by simpa [operations, hall] using hnam)
  · left
    cases hall : self.all dig with
    | none => simpa [operations, all_execute_of_none self hall, update_of_ne h] using hnam
    | some acti => simpa [operations, all_execute_of_some self hall, update_of_ne h] using hnam

lemma execute {self : Instance D} (h : self.Named) (dig : D) : (self.execute dig).Named := by
  have hnex : (self.execute dig).nextOperation = self.nextOperation + 1 := by
    unfold Instance.execute
    split <;> rfl
  refine ⟨fun other name hnam => ?_, fun other other' name hnam hname' => ?_⟩
  · rw [hnex]
    rcases operations_execute self dig other name hnam with hold | ⟨-, rfl⟩
    · exact Nat.lt_succ_of_lt (h.fresh other name hold)
    · exact Nat.lt_succ_self _
  · rcases operations_execute self dig other name hnam with hold | ⟨rfl, rfl⟩
    · rcases operations_execute self dig other' name hname' with hold' | ⟨-, rfl⟩
      · exact h.unique other other' name hold hold'
      · exact absurd (h.fresh other _ hold) (Nat.lt_irrefl _)
    · rcases operations_execute self other other' _ hname' with hold' | ⟨rfl, -⟩
      · exact absurd (h.fresh other' _ hold') (Nat.lt_irrefl _)
      · rfl

end Named
end Instance

namespace Server

variable [DecidableEq D]

/-- The first action that has an operation is the only one, as `Instance.wait` takes for granted. -/
theorem operations_unique (events : List (Event D)) (name : OperationName) :
    {digest | name ∈ (Lib.run step new events).inst.operations digest}.Subsingleton := by
  have hnam : (Lib.run step new events : Server D).inst.Named := by
    refine Lib.run_invariant (fun self : Server D => self.inst.Named) ?_ events ?_
    · intro self event h
      exact step_inst_invariant Instance.Named (fun _ _ hmov h => h.move hmov) self event
        (fun dig _ => h.execute dig) h
    · exact ⟨by simp [new, Instance.new, Instance.operations],
        by simp [new, Instance.new, Instance.operations]⟩
  intro dig hdig other hoth
  exact hnam.unique dig other name hdig hoth

end Server
end Toolchain.Execution
