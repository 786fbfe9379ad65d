import Toolchain.Execution.Moves

/-!
# Execution.Cancellation — what a cancelled action still does

An action leaves `all` only in `cancel`, and only when it has no receiver left at that moment.  When the
last stream ends *after* the operation was cancelled, the action stays, and the poll that removes its
lease takes it again (`leased_after_cancellation`).  An action that was removed is not leased again
(`stopped_of_cancelled`).
-/

namespace Toolchain.Execution

open Lib Option List Instance Worker

variable {D : Type} [DecidableEq D]

namespace Server

/-- Unless the digest is executed again no lease is ever created for it: the leases it has in any
later state are those it has now. -/
def Stopped (self : Server D) (digest : D) : Prop :=
  ∀ events : List (Event D), (∀ event ∈ events, event ≠ .execute digest) →
    ∀ state ∈ trace step self events, ∀ session id,
      state.inst.tracked session id = some digest → self.inst.tracked session id = some digest

end Server

variable {self after bef : Instance D} {dig digest : D} {session : SessionName} {id : LeaseId}

namespace Instance

structure Fading (before : Instance D) (digest : D) (inst : Instance D) : Prop where
  gone : inst.all digest = none
  leases : ∀ session id, inst.tracked session id = some digest → before.tracked session id = some digest

section

variable (hmov : Move self after)

include hmov

lemma all_eq_none_of_move (hgon : self.all dig = none) : after.all dig = none := by
  have hnot : ¬ (self.all dig).isSome := by simp [hgon]
  rw [← not_isSome_iff_eq_none]
  intro haft
  apply hnot
  cases hmov with
  | waited op | streamDropped other | released session id | started session hque hact hfre =>
    simpa using haft
  | cancelled op => exact isSome_all_of_cancel self op dig haft
  | opened session | skipped hque hoth | closed session hunt => exact haft
  | completed session id => exact ((isSome_all_complete self session id dig).1 haft).1

lemma tracked_of_move (hgon : self.all digest = none) (htra : after.tracked session id = some digest) :
    self.tracked session id = some digest := by
  cases hmov with
  | waited op | cancelled op | streamDropped other => exact htra
  | opened sess' => rwa [tracked_openWorker] at htra
  | completed sess' id' =>
    rw [tracked_complete] at htra
    split at htra
    · cases htra
    · exact htra
  | released sess' id' =>
    rw [tracked_release] at htra
    split at htra
    · cases htra
    · exact htra
  | skipped hque hoth => exact htra
  | started sess' hque hact hfre =>
    rw [tracked_start] at htra
    split at htra
    · rw [some.inj htra, hgon] at hact
      cases hact
    · exact htra
  | closed sess' hunt => rwa [tracked_closed self sess' hunt] at htra

lemma Fading.move (h : Fading bef dig self) : Fading bef dig after :=
  ⟨all_eq_none_of_move hmov h.gone, fun session id htra =>
    h.leases session id (tracked_of_move hmov h.gone htra)⟩

end

lemma Fading.execute {oth : D} (hoth : oth ≠ dig) (h : Fading bef dig self) :
    Fading bef dig (self.execute oth) := by
  refine ⟨?_, by simpa using h.leases⟩
  rw [← not_isSome_iff_eq_none, isSome_all_execute, h.gone]
  simp [Ne.symm hoth]

end Instance

lemma Server.stopped_of_removed (self : Server D) (digest : D)
    (hgon : self.inst.all digest = none) : self.Stopped digest := by
  intro events heve state hsta
  have hgua : Guarded step (fun _ event => event ≠ .execute digest) self events :=
    guarded_of_forall_mem (fun event heven _ => heve event heven) self
  have hfad := forall_trace_of_guarded
    (fun later : Server D => Instance.Fading self.inst digest later.inst)
    (fun later event h hguar => step_inst_invariant _ (fun _ _ hmov h => h.move hmov) later event
      (fun other hoth => h.execute (by
        rintro rfl
        exact hguar hoth)) h)
    ⟨hgon, fun _ _ => id⟩ hgua
  exact (hfad state hsta).leases

namespace Instance

variable (session sess : SessionName)

open Nat

lemma tracked_acquire_of_lt (queued : List D) (free : Nat) (self : Instance D) (draft : Draft)
    (oth : SessionName) (hid : id < self.nextLease) :
    (acquire sess queued free self draft).1.tracked oth id = self.tracked oth id := by
  refine (acquire_rule (P := fun x _ => id < x.nextLease ∧ x.tracked oth id = self.tracked oth id)
    (fun _ _ _ h => h) ?_ queued free ⟨hid, rfl⟩).2
  rintro x d digest rest ⟨hlt, h⟩
  refine ⟨lt_succ_of_lt hlt, ?_⟩
  rw [tracked_start, if_neg ?_, h]
  rintro ⟨-, rfl⟩
  exact lt_irrefl _ hlt

lemma tracked_acquire_head (digest : D) (queued : List D) (free : Nat)
    (self : Instance D) (draft : Draft) (hfre : 0 < free) (hact : (self.all digest).isSome) :
    (acquire sess (digest :: queued) free self draft).1.tracked sess self.nextLease =
    some digest := by
  cases free with
  | zero => exact absurd hfre (lt_irrefl 0)
  | succ free =>
    rw [acquire]
    cases hall : self.all digest with
    | none => simp [hall] at hact
    | some acti =>
      -- what follows does not touch the new lease
      refine (tracked_acquire_of_lt sess queued free _ _ sess (lt_succ_self _)).trans ?_
      simp [tracked_start]

lemma acquire_progress (queued : List D) (free : Nat) (self : Instance D)
    (draft : Draft) (hfre : 0 < free) (hque : dig ∈ queued)
    (hact : (self.all dig).isSome) :
    let after := (acquire sess queued free self draft).1
    (∃ id, self.nextLease ≤ id ∧ after.tracked sess id = some dig) ∨
      dig ∈ after.queued ∧ after.queued.length < queued.length ∧ (after.all dig).isSome ∧
        self.nextLease ≤ after.nextLease := by
  induction queued generalizing free self draft with
  | nil => cases hque
  | cons head queued ih =>
    by_cases hsam : dig = head
    · subst hsam
      exact .inl ⟨self.nextLease, le_refl _,
        tracked_acquire_head sess dig queued free self draft hfre hact⟩
    have hmem := (mem_cons.1 hque).resolve_left hsam
    cases free with
    | zero => exact absurd hfre (lt_irrefl 0)
    | succ free =>
      rw [acquire]
      cases self.all head with
      | none =>
        have hres := ih (free + 1) { self with queued := queued } draft hfre hmem hact
        refine hres.imp_right ?_
        rintro ⟨hin, hlen, hres⟩
        exact ⟨hin, lt_succ_of_lt hlen, hres⟩
      | some acti =>
        have hsti : ((self.start sess head queued).all dig).isSome := by simpa using hact
        have hnex : self.nextLease ≤ (self.start sess head queued).nextLease := le_succ _
        cases free with
        | zero =>
          right
          cases queued with
          | nil => cases hmem
          | cons next queued => exact ⟨hmem, lt_succ_self _, hsti, hnex⟩
        | succ free =>
          have hres := ih (free + 1) (self.start sess head queued)
            { leases := draft.leases ++ [{ id := self.nextLease, state := .pending }], changed := true }
            (succ_pos _) hmem hsti
          refine hres.imp ?_ ?_
          · rintro ⟨id, hid, htra⟩
            exact ⟨id, le_trans hnex hid, htra⟩
          · rintro ⟨hin, hlen, hact', hle⟩
            exact ⟨hin, lt_succ_of_lt hlen, hact', le_trans hnex hle⟩

def Bounded (self : Instance D) : Prop :=
  ∃ bound, ∀ session, bound ≤ session → self.workers session = none

omit [DecidableEq D] in
lemma Bounded.setWorker (h : self.Bounded) (session : SessionName)
    (wk : Worker D) : (self.setWorker session wk).Bounded := by
  rcases h with ⟨bound, hbou⟩
  refine ⟨max bound (session + 1), fun other hoth => ?_⟩
  have hle := le_trans (le_max_left _ _) hoth
  have hne : other ≠ session := by
    rintro rfl
    exact Nat.lt_irrefl _ (Nat.le_trans (Nat.le_max_right bound _) hoth)
  simp [Instance.setWorker, Function.update_of_ne hne, hbou other hle]

lemma Bounded.move (hmov : Move self after) (h : self.Bounded) :
    after.Bounded := by
  cases hmov with
  | waited op | cancelled op | streamDropped digest => exact h
  | opened sess => exact h.setWorker sess _
  | completed sess id =>
    unfold complete
    split
    · exact h
    · exact h.setWorker sess _
  | released sess id =>
    unfold release
    split
    · exact h
    · exact h.setWorker sess _
  | skipped hque hgon => exact h
  | started sess hque hact hfre => exact h.setWorker sess _
  | closed sess hunt =>
    rcases h with ⟨bound, hbou⟩
    refine ⟨bound, fun other hoth => ?_⟩
    by_cases hsam : other = sess
    · simp [hsam]
    · simp [Function.update_of_ne hsam, hbou other hoth]

end Instance

namespace Server

def askForWork (self : Server D) (session : SessionName) : List (Event D) :=
  .poll session [] :: replicate 4 (.advance self.nextPoll)

variable (self : Server D)

lemma run_askForWork (hloc : self.lock = none) (sess : SessionName) :
    let after := run step self (self.askForWork sess)
    let opened := (self.inst.openWorker sess).openWorker sess
    after.lock = none ∧ after.inst = (opened.acquire sess self.inst.queued (opened.worker sess).free
        { leases := [], changed := false }).1 := by
  simp [askForWork, replicate, step, takeLock, advance, finishTurn, goto, hloc]
  rfl

lemma bounded_step (ev : Event D) (h : self.inst.Bounded) : (self.step ev).inst.Bounded :=
  step_inst_invariant Instance.Bounded (fun _ _ hmov h => h.move hmov) self ev
    (fun digest _ => by simpa [Instance.Bounded] using h) h

lemma Reachable.bounded {self : Server D} (h : self.Reachable) : self.inst.Bounded := by
  rcases h with ⟨even, rfl⟩
  exact run_invariant (fun self : Server D => self.inst.Bounded) bounded_step even ⟨0, fun _ _ => rfl⟩

lemma exists_lease_of_queued (digest : D) (len : Nat) (self : Server D)
    (hlen : self.inst.queued.length = len) (hloc : self.lock = none)
    (hbou : self.inst.Bounded) (hque : digest ∈ self.inst.queued)
    (hact : (self.inst.all digest).isSome) :
    ∃ events : List (Event D), (∀ event ∈ events, event ≠ .execute digest) ∧
      ∃ session id, self.inst.nextLease ≤ id ∧
    (run step self events).inst.tracked session id = some digest := by
  induction len using Nat.strongRecOn generalizing self with
  | ind len ih =>
    rcases id hbou with ⟨session, hboun⟩
    have hwor : self.inst.worker session = Worker.new := by
      simp [worker, hboun session (le_refl _)]
    rcases self.run_askForWork hloc session with ⟨hlock', hins⟩
    have hfre : 0 < (((self.inst.openWorker session).openWorker session).worker session).free := by
      simp [Instance.openWorker, hwor, Worker.new, Worker.free]
    have heve : ∀ event ∈ self.askForWork session, event ≠ .execute digest := by
      simp [askForWork, replicate]
    have hpro := acquire_progress session _ _
      ((self.inst.openWorker session).openWorker session) { leases := [], changed := false } hfre
      hque hact
    rw [← hins] at hpro
    rcases hpro with ⟨id, hid, htra⟩ | ⟨hque', hsho, hact', hnex⟩
    · exact ⟨_, heve, session, id, hid, htra⟩
    have hbou' : (run step self (self.askForWork session)).inst.Bounded :=
      run_invariant (fun self : Server D => self.inst.Bounded) bounded_step _ hbou
    rcases ih _ (hlen ▸ hsho) _ rfl hlock' hbou' hque' hact' with
      ⟨events, hoth, sess', id, hid, htra⟩
    refine ⟨self.askForWork session ++ events, ?_, sess', id, le_trans hnex hid, ?_⟩
    · intro event heven
      exact (mem_append.1 heven).elim (heve event) (hoth event)
    · rwa [run_append]

/-- Every action that has no result can come to a worker without another request for it. -/
theorem active_action_leasable (events : List (Event D)) (digest : D)
    (hidle : (run step new events).lock = none)
    (hactive : ((run step new events).inst.all digest).isSome) :
    ∃ later : List (Event D), (∀ event ∈ later, event ≠ .execute digest) ∧
    ∃ session id, (run step new (events ++ later)).inst.tracked session id = some digest := by
  have hrea : (run step new events : Server D).Reachable := ⟨events, rfl⟩
  rcases hrea.wellFormed.kept digest hactive with hque | hlea
  · rcases exists_lease_of_queued digest _ _ rfl hidle hrea.bounded hque hactive with
      ⟨later, hlat, session, id, -, htra⟩
    exact ⟨later, hlat, session, id, by rwa [run_append]⟩
  · exact ⟨[], by simp, by simpa using hlea⟩

/-- A digest that was cancelled is first in the queue. -/
theorem active_action_leasable_executed :
    ∃ later : List (Event Nat), (∀ event ∈ later, event ≠ .execute 0) ∧
    ∃ session id, (run step new ([.execute 1, .cancel 0, .execute 0] ++ later)).inst.tracked session
      id = some 0 :=
  active_action_leasable [.execute 1, .cancel 0, .execute 0] 0 rfl rfl

/-- A call by a worker that still works on its one lease, up to the end of its first turn if the lease
is found cancelled. -/
def reportLease (self : Server D) (session : SessionName) (id : LeaseId) : List (Event D) :=
  .poll session [{ id := id, state := .active }] :: replicate 7 (.advance self.nextPoll)

lemma run_reportLease (hloc : self.lock = none) {sess : SessionName}
    (hlea : self.inst.tracked sess id = some dig)
    (hclo : self.inst.isCancelled dig) :
    let opened := (self.inst.openWorker sess).openWorker sess
    let released := opened.release sess id
    (run step self (self.reportLease sess id)).inst =
      (released.acquire sess released.queued (released.worker sess).free
        { leases := [], changed := true }).1 := by
  have hcan : ((self.inst.openWorker sess).openWorker sess).isCancelled dig = true := hclo
  simp [reportLease, replicate, step, takeLock, advance, finishTurn, goto, hloc, Lease.isFinished,
    hlea, hcan]

lemma exists_lease_of_leased (hwel : self.inst.WellFormed) (hloc : self.lock = none) (hact : (self.inst.all digest).isSome) (hclo : self.inst.isCancelled digest) (hlea : self.inst.tracked session id = some digest) :
    ∃ events : List (Event D), (∀ event ∈ events, event ≠ .execute digest) ∧
      ∃ session id, self.inst.nextLease ≤ id ∧
    (run step self events).inst.tracked session id = some digest := by
  have hrun := self.run_reportLease hloc hlea hclo
  have htra : ((self.inst.openWorker session).openWorker session).tracked session id =
      some digest := by
    simpa using hlea
  -- the worker has room again once the lease is removed
  have hroo : 0 <
      ((((self.inst.openWorker session).openWorker session).release session id).worker session).free := by
    have hwor : (((self.inst.openWorker session).openWorker session).release session id).worker
        session = (self.inst.worker session).remove id := by
      simp only [release, htra, update]
      exact (worker_setWorker _ session _).trans (by simp [openWorker])
    have hmem : id ∈ (self.inst.worker session).leases.keys := by
      refine AList.mem_keys.1 (AList.lookup_isSome.1 ?_)
      change (self.inst.tracked session id).isSome
      simp [hlea]
    have hlen := length_erase_of_mem hmem
    have hpos := length_pos_of_mem hmem
    have hfit := (hwel.room session).room
    simp only [hwor, free, remove, AList.keys_erase]
    omega
  refine ⟨self.reportLease session id, by simp [reportLease, replicate], session,
    self.inst.nextLease, le_refl _, ?_⟩
  have hnex : (((self.inst.openWorker session).openWorker session).release session id).nextLease =
      self.inst.nextLease := nextLease_release _ session id
  rw [hrun, queued_release, htra, ← hnex]
  refine tracked_acquire_head session digest _ _ _ _ hroo ?_
  rwa [isSome_all_release]

/-! ## Cancelled actions -/

/-- Of an action without receivers no new lease is created if it was removed from `all`; otherwise, with
nobody inside a locked section, one can be. -/
theorem stopped_of_cancelled (self : Server D) (hreachable : self.Reachable) (digest : D)
    (hcancelled : self.inst.isCancelled digest) :
    (self.inst.all digest = none → self.Stopped digest) ∧
    (self.lock = none → self.Stopped digest → self.inst.all digest = none) := by
  refine ⟨self.stopped_of_removed digest, fun hloc hsto => ?_⟩
  have hwef := hreachable.wellFormed
  by_contra hpre
  have hact := isSome_iff_ne_none.2 hpre
  have hlea : ∃ even : List (Event D), (∀ event ∈ even, event ≠ .execute digest) ∧
      ∃ session id, self.inst.nextLease ≤ id ∧ (run step self even).inst.tracked session id =
        some digest := by
    rcases hwef.kept digest hact with hque | ⟨session, id, hleas⟩
    · exact exists_lease_of_queued digest _ self rfl hloc hreachable.bounded hque hact
    · exact exists_lease_of_leased self hwef hloc hact hcancelled hleas
  rcases hlea with ⟨even, heve, session, id, hid, htra⟩
  have hold := hsto even heve _ (run_mem_trace self even) session id htra
  rw [hwef.fresh session id hid] at hold
  cases hold

theorem stopped_of_cancelled_removed :
    let state := run step (new : Server Nat) [.execute 7, .dropStream 7, .cancel 0]
    state.inst.all 7 = none ∧ state.Stopped 7 :=
  ⟨by decide, (stopped_of_cancelled _ ⟨_, rfl⟩ 7 (by decide)).1 (by decide)⟩

/-- The operation of a running action is cancelled and then the client's stream ends; the next poll of
the worker leases the action again. -/
theorem leased_after_cancellation :
    let state := run step (new : Server Nat)
      ([.execute 7, .poll 0 []] ++ replicate 4 (.advance 0) ++ [.cancel 0, .dropStream 7])
    let later := run step state (.poll 0 [{ id := 0, state := .active }] :: .replicate 7 (.advance 1))
    state.inst.isCancelled 7 = true ∧
      later.polls 1 = some { session := 0, phase := .returned [{ id := 1, state := .pending }] } ∧
      later.inst.tracked 0 1 = some 7 ∧ ¬ state.Stopped 7 := by
  intro state later
  have hlea : later.inst.tracked 0 1 = some 7 := by decide
  refine ⟨by decide, by decide, hlea, fun hsto => ?_⟩
  have hbef := hsto _ (by decide) later (run_mem_trace state _) 0 1 hlea
  exact absurd hbef (by decide)

end Server
end Toolchain.Execution
