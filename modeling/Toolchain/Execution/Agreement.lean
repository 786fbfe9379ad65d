import Toolchain.Execution.Moves

/-!
# Execution.Agreement — does a bot know about the leases of its session?

A lease that is tracked for a session and was not reported by the bot is never looked at in `poll`.  So
if the answer to a poll is lost, and the session is sent again as it was, the lease takes up capacity
and is not returned (`lease_unknown_to_bot`).  Server and bot agree exactly when the bot reports every
tracked lease (`poll_agrees_iff`).
-/

namespace Toolchain.Execution

open Lib List Instance Phase Server

variable {D : Type}

namespace Phase

def ids (self : Phase) : List LeaseId :=
  self.leases.map (·.id)

end Phase

variable {sess oth : SessionName}

namespace Instance

def Unreported (self : Instance D) (session : SessionName) (ids : List LeaseId) (id : LeaseId) :
    Prop :=
  (self.tracked session id).isSome ∧ id ∉ ids

lemma unreported_removed {self after : Instance D} {id : LeaseId}
    (htra : ∀ other, after.tracked sess other =
    if other = id then none else self.tracked sess other) (kept todo : List LeaseId)
    (other : LeaseId) :
    after.Unreported sess (kept ++ todo) other ↔ self.Unreported sess (kept ++ id :: todo) other := by
  simp only [Unreported, htra, mem_append, mem_cons]
  by_cases h : other = id
  · simp [h]
  · simp [h]

variable [DecidableEq D]

open Nat

lemma unreported_acquire (sess : SessionName) (queued : List D) (free : Nat) (self : Instance D)
    (draft : Draft)
    (hfre : ∀ id, self.nextLease ≤ id → self.tracked sess id = none) (id : LeaseId) :
    let acquired := acquire sess queued free self draft
    acquired.1.Unreported sess (acquired.2.leases.map (·.id)) id ↔
      self.Unreported sess (draft.leases.map (·.id)) id := by
  refine (acquire_rule (P := fun x d => (∀ id, x.nextLease ≤ id → x.tracked sess id = none) ∧
    (x.Unreported sess (d.leases.map (·.id)) id ↔ self.Unreported sess (draft.leases.map (·.id)) id))
    ?_ ?_ queued free ⟨hfre, Iff.rfl⟩).2
  · exact fun _ _ _ h => h
  rintro x d digest rest ⟨hfre, hiff⟩
  refine ⟨?_, Iff.trans ?_ hiff⟩
  · intro other hoth
    rw [tracked_start, if_neg ?_, hfre other (le_of_lt hoth)]
    rintro ⟨-, rfl⟩
    exact Nat.lt_irrefl _ hoth
  -- the new lease is in the session, and its id was not in use
  simp only [Unreported, tracked_start, map_append, map_cons, map_nil, mem_append, mem_singleton, true_and]
  by_cases hid : id = x.nextLease
  · simp [hid, hfre x.nextLease (le_refl _)]
  · simp [hid]

end Instance

variable {poll : PollId} {unr : LeaseId → Prop} {self : Server D}

namespace Server

variable [DecidableEq D]

/-! ## A section of a call -/

lemma advance_tracked_of_ne (self : Server D) (poll : PollId) (hoth : oth ≠ sess) (phase : Phase)
    (id : LeaseId) :
    (self.advance poll sess phase).inst.tracked oth id = self.inst.tracked oth id := by
  have htak : ∀ phase, (self.takeLock poll sess phase).inst.tracked oth id = self.inst.tracked oth id := by
    intro phase
    unfold takeLock
    split
    · exact tracked_openWorker self.inst sess oth id
    · rfl
  cases phase with
  | arriving leas => exact htak _
  | completing todo kept =>
    cases todo with
    | nil => rfl
    | cons lease todo =>
      simp only [advance]
      split
      · exact (tracked_complete ..).trans (if_neg fun h => hoth h.1)
      · rfl
  | looping leas => exact htak _
  | checking todo draft =>
    cases todo with
    | nil =>
      refine acquire_rule (P := fun x _ => x.tracked oth id = _) (fun _ _ _ h => h) ?_ _ _ rfl
      intro x d digest rest h
      rw [tracked_start, if_neg fun h => hoth h.1, h]
    | cons lease todo =>
      simp only [advance]
      split
      · rfl
      · split <;> rfl
  | dropping lease todo draft => exact (tracked_release ..).trans (if_neg fun h => hoth h.1)
  | waiting | returned leas => rfl

lemma advance_unreported (self : Server D) (poll : PollId) (session : SessionName) (phase : Phase)
    (hpol : self.polls poll = some { session, phase })
    (hfre : ∀ id, self.inst.nextLease ≤ id → self.inst.tracked session id = none) :
    ∃ phase', (self.advance poll session phase).polls poll = some { session, phase := phase' } ∧
    ∀ id, (self.advance poll session phase).inst.Unreported session phase'.ids id ↔
    self.inst.Unreported session phase.ids id := by
  have htak : ∀ next : Phase, next.ids = phase.ids →
      ∃ phase', (self.takeLock poll session next).polls poll = some { session, phase := phase' } ∧
        ∀ id, (self.takeLock poll session next).inst.Unreported session phase'.ids id ↔
          self.inst.Unreported session phase.ids id := by
    intro next hids
    unfold takeLock
    split
    · refine ⟨next, by simp [goto], fun id => ?_⟩
      simp [Instance.Unreported, hids]
    · exact ⟨phase, hpol, fun _ => .rfl⟩
  cases phase with
  | arriving leas | looping leas => exact htak _ (by simp [ids, leases])
  | completing todo kept =>
    cases todo with
    | nil => exact ⟨_, self.goto_polls .., by simp [advance, goto, ids, leases]⟩
    | cons lease todo =>
      simp only [advance]
      split
      · refine ⟨_, self.goto_polls .., fun id => ?_⟩
        simp only [ids, leases, map_append, map_cons]
        apply unreported_removed
        intro other
        simp [tracked_complete]
      · exact ⟨_, self.goto_polls .., by simp [goto, ids, leases]⟩
  | checking todo draft =>
    cases todo with
    | nil =>
      refine ⟨_, self.goto_polls .., fun id => ?_⟩
      have hacq := unreported_acquire session self.inst.queued (self.inst.worker session).free
        self.inst draft hfre id
      -- a call that goes on to wait has no leases in its session
      simp only [advance, finishTurn]
      split <;> rename_i hret
      · simpa [ids, leases] using hacq
      · simp only [Bool.or_eq_true, Bool.not_eq_true', not_or, Bool.not_eq_true,
          Bool.not_eq_false, List.isEmpty_iff] at hret
        simpa [ids, leases, hret.2] using hacq
    | cons lease todo =>
      simp only [advance]
      split
      · -- the server does not track the lease: taking it off the session changes nothing
        rename_i hunt
        refine ⟨_, self.goto_polls .., fun id => ?_⟩
        simp only [ids, leases, map_append, map_cons]
        apply unreported_removed
        intro other
        by_cases h : other = lease.id
        · simp [goto, h, hunt]
        · simp [goto, h]
      · split
        · exact ⟨_, self.goto_polls .., by simp [goto, ids, leases]⟩
        · exact ⟨_, self.goto_polls .., by simp [goto, ids, leases]⟩
  | dropping lease todo draft =>
    refine ⟨_, self.goto_polls .., fun id => ?_⟩
    simp only [ids, leases, map_append, map_cons]
    apply unreported_removed
    intro other
    simp [advance, tracked_release]
  | waiting => exact ⟨_, self.goto_polls .., fun _ => .rfl⟩
  | returned leas => exact ⟨.returned leas, hpol, fun _ => .rfl⟩

/-! ## A whole call -/

def LeavesAlone (session : SessionName) (poll : PollId) (self : Server D) : Event D → Prop
  | .advance other => other = poll ∨ ∀ call, self.polls other = some call → call.session ≠ session
  | .expire other => other ≠ session
  | _ => True

structure Reporting (session : SessionName) (poll : PollId) (unreported : LeaseId → Prop)
    (server : Server D) : Prop where
  wellFormed : server.inst.WellFormed
  issued : poll < server.nextPoll
  phase : ∃ phase, server.polls poll = some { session, phase } ∧
    ∀ id, server.inst.Unreported session phase.ids id ↔ unreported id

omit [DecidableEq D] in
lemma Reporting.congr {after : Server D} (h : Reporting sess poll unr self)
    (hwel : after.inst.WellFormed) (hiss : self.nextPoll ≤ after.nextPoll)
    (hpol : after.polls poll = self.polls poll)
    (htra : ∀ id, after.inst.tracked sess id = self.inst.tracked sess id) :
    Reporting sess poll unr after := by
  rcases h.phase with ⟨phase, hpha, hunr⟩
  refine ⟨hwel, lt_of_lt_of_le h.issued hiss, phase, hpol.trans hpha, ?_⟩
  simpa only [Instance.Unreported, htra] using hunr

lemma Reporting.step (h : Reporting sess poll unr self) {ev : Event D}
    (halo : LeavesAlone sess poll self ev) :
    Reporting sess poll unr (self.step ev) := by
  have hwel := wellFormed_step self ev h.wellFormed
  cases ev with
  | execute digest => exact h.congr hwel (le_refl _) rfl (Instance.tracked_execute self.inst digest sess)
  | wait op | cancel op | dropStream digest => exact h.congr hwel (le_refl _) rfl fun _ => rfl
  | poll other leas =>
    refine h.congr hwel (Nat.le_succ _) ?_ fun _ => rfl
    exact Function.update_of_ne (ne_of_lt h.issued) ..
  | advance other =>
    cases hoth : self.polls other with
    | none =>
      have hste : self.step (.advance other) = self := by simp [Server.step, hoth]
      rwa [hste]
    | some call =>
      have hste : self.step (.advance other) = self.advance other call.session call.phase := by
        simp [Server.step, hoth]
      rw [hste] at hwel ⊢
      by_cases hsel : other = poll
      · subst hsel
        rcases h.phase with ⟨phase, hpha, hunr⟩
        rw [hoth, Option.some.injEq] at hpha
        subst hpha
        rcases self.advance_unreported other sess phase hoth (h.wellFormed.fresh sess) with
          ⟨next, hnex, hsam⟩
        exact ⟨hwel, self.nextPoll_advance .. ▸ h.issued, next, hnex, fun id => (hsam id).trans (hunr id)⟩
      · have hne := (halo.resolve_left hsel) call hoth
        exact h.congr hwel (le_of_eq (self.nextPoll_advance ..).symm)
          (self.advance_polls_of_ne (.symm hsel) ..)
          (self.advance_tracked_of_ne other (.symm hne) call.phase)
  | timeout other =>
    simp only [Server.step] at hwel ⊢
    split at hwel
    swap
    · exact h
    rename_i sess' hoth
    by_cases hsel : other = poll
    · subst hsel
      rcases h.phase with ⟨phase, hpha, hunr⟩
      rw [hoth, Option.some.injEq, Poll.mk.injEq] at hpha
      rcases hpha with ⟨rfl, rfl⟩
      exact ⟨hwel, h.issued, .returned [], self.goto_polls .., hunr⟩
    · refine h.congr hwel (le_refl _) ?_ fun _ => rfl
      exact Function.update_of_ne (Ne.symm hsel) ..
  | expire other =>
    cases hloc : self.lock with
    | none =>
      have hste : self.step (.expire other) = { self with inst := self.inst.expire other } := by
        simp [Server.step, hloc]
      rw [hste] at hwel ⊢
      refine h.congr hwel (le_refl _) rfl fun id => ?_
      exact (Instance.tracked_expire ..).trans (if_neg (Ne.symm halo))
    | some holder =>
      have hste : self.step (.expire other) = self := by simp [Server.step, hloc]
      rwa [hste]

/-- After a `poll` during which nobody else touched the worker, the returned session has every lease
tracked for it exactly when the session that was sent had. -/
theorem poll_agrees_iff (self : Server D) (hreachable : self.Reachable) (session : SessionName)
    (leases : List Lease) (events : List (Event D))
    (halone : Guarded step (LeavesAlone session self.nextPoll) (self.step (.poll session leases))
    events) (returned : List Lease)
    (hreturned : (run step self (.poll session leases :: events)).polls self.nextPoll =
    some { session, phase := .returned returned }) :
    (∀ id, ((run step self (.poll session leases :: events)).inst.tracked session id).isSome →
    id ∈ returned.map (·.id)) ↔
    ∀ id, (self.inst.tracked session id).isSome → id ∈ leases.map (·.id) := by
  have hcal : Reporting session self.nextPoll
      (self.inst.Unreported session (leases.map (·.id))) (self.step (.poll session leases)) :=
    ⟨hreachable.wellFormed, Nat.lt_succ_self _, .arriving leases, self.goto_polls .., fun _ => .rfl⟩
  have hend := forall_trace_of_guarded _ (fun _ _ h halone => h.step halone) hcal halone _
    (run_mem_trace _ events)
  rcases hend.phase with ⟨phase, hpha, hunr⟩
  -- the phase at the end is known to be `returned`
  have hsam : Phase.returned returned = phase := by
    rw [run_cons, hpha] at hreturned
    simpa using hreturned.symm
  subst hsam
  simp only [Instance.Unreported] at hunr
  constructor
  · intro h id hid
    by_contra hnot
    rcases (hunr id).2 ⟨hid, hnot⟩ with ⟨htra, hlac⟩
    exact hlac (h id htra)
  · intro h id hid
    by_contra hnot
    rcases (hunr id).1 ⟨hid, hnot⟩ with ⟨htra, hlac⟩
    exact hlac (h id htra)

/-- A bot that has got its lease reports it in the next poll and gets it back. -/
theorem poll_agrees_reported :
    let state := run step (new : Server Nat) ([.execute 7, .poll 0 []] ++ replicate 4 (.advance 0))
    let events := replicate 6 (.advance 1)
    let leases := [{ id := 0, state := .active }]
    ∀ id, ((run step state (.poll 0 leases :: events)).inst.tracked 0 id).isSome →
      id ∈ leases.map (·.id) := by
  intro state events leases
  have halo : Guarded step (LeavesAlone 0 state.nextPoll) (state.step (.poll 0 leases)) events :=
    guarded_of_forall_mem (fun event heve _ => eq_of_mem_replicate heve ▸ .inl rfl) _
  refine (poll_agrees_iff state ⟨_, rfl⟩ 0 leases events halo leases (by decide)).2 ?_
  intro id hid
  have hkey := AList.mem_keys.1 (AList.lookup_isSome.1 hid)
  have hall : ∀ id ∈ (state.inst.worker 0).leases.keys, id ∈ leases.map (·.id) := by decide
  exact hall id hkey

/-- The answer with the lease is lost and the session is sent again; the call returns no lease, while
the server goes on tracking one. -/
theorem lease_unknown_to_bot :
    let state := run step (new : Server Nat) ([.execute 7, .poll 0 []] ++ replicate 4 (.advance 0))
    let later := run step state (.poll 0 [] :: replicate 4 (.advance 1) ++ [.timeout 1])
    state.polls 0 = some { session := 0, phase := .returned [{ id := 0, state := .pending }] } ∧
      later.polls 1 = some { session := 0, phase := .returned [] } ∧
      later.inst.tracked 0 0 = some 7 ∧ later.inst.isCancelled 7 = false := by
  decide

end Server
end Toolchain.Execution
