import Toolchain.Lib.Run
import Toolchain.Execution.Instance

/-!
# Execution.Server — calls of an instance, interleaved

A call of `execute`, `wait` or `cancel` is one step.  A `poll` takes the `Workers` lock once for each
turn of its loop, and the `Actions` lock anew for every lease; in between others run, and a call that is
given up takes no further step.  A state has the instance, the point every `poll` has reached, and who
holds the `Workers` lock.  Taking a lease out of a worker's map is one step with the section that
follows, since nothing in between looks at the map.
-/

namespace Toolchain.Execution

abbrev PollId := Nat

/-! ## Calls of `poll` -/

/-- Where a call of `poll` stands, with the leases of its session that it has not looked at yet and
those it has kept. -/
inductive Phase
  /-- waits for the lock to complete the leases of the session that are finished -/
  | arriving (leases : List Lease)
  /-- is in `complete_and_remove_leases` -/
  | completing (todo kept : List Lease)
  /-- is at the head of the loop and waits for the lock -/
  | looping (leases : List Lease)
  /-- is in `cancel_expired_and_maybe_add_new_leases` -/
  | checking (todo : List Lease) (draft : Draft)
  /-- has found a tracked lease to be cancelled and is about to remove it -/
  | dropping (lease : Lease) (todo : List Lease) (draft : Draft)
  | waiting
  | returned (leases : List Lease)
  deriving DecidableEq, Repr

namespace Phase

def leases : Phase → List Lease
  | .arriving leases => leases
  | .completing todo kept => kept ++ todo
  | .looping leases => leases
  | .checking todo draft => draft.leases ++ todo
  | .dropping lease todo draft => draft.leases ++ lease :: todo
  | .waiting => []
  | .returned leases => leases

end Phase

structure Poll where
  session : SessionName
  phase : Phase
  deriving DecidableEq, Repr

/-! ## States and events -/

structure Server (D : Type) where
  inst : Instance D
  lock : Option PollId
  polls : PollId → Option Poll
  nextPoll : PollId

inductive Event (D : Type)
  | execute (digest : D)
  | wait (operationName : OperationName)
  | cancel (operationName : OperationName)
  | dropStream (digest : D)
  | poll (session : SessionName) (leases : List Lease)
  | advance (poll : PollId)
  | timeout (poll : PollId)
  | expire (session : SessionName)
  deriving DecidableEq, Repr

namespace Server

variable {D : Type}

def new : Server D :=
  { inst := Instance.new, lock := none, polls := fun _ => none, nextPoll := 0 }

def goto (self : Server D) (poll : PollId) (session : SessionName) (phase : Phase) : Server D :=
  { self with polls := Function.update self.polls poll (some { session, phase }) }

@[simp] lemma goto_polls (self : Server D) (poll : PollId) (session : SessionName)
    (phase : Phase) : (self.goto poll session phase).polls poll = some { session, phase } := by
  simp [goto]

def takeLock (self : Server D) (poll : PollId) (session : SessionName) (phase : Phase) :
    Server D :=
  match self.lock with
  | none => { (self.goto poll session phase) with inst := self.inst.openWorker session, lock := some poll }
  | some _ => self

variable [DecidableEq D]

/-- The end of a turn of the loop: new leases are acquired, and the call returns if it has changed
the session or there are leases in it. -/
def finishTurn (self : Server D) (poll : PollId) (session : SessionName) (draft : Draft) :
    Server D :=
  let worker := self.inst.worker session
  let acquired := self.inst.acquire session self.inst.queued worker.free draft
  let phase :=
    if acquired.2.changed || !acquired.2.leases.isEmpty then Phase.returned acquired.2.leases else
      Phase.waiting
  { (self.goto poll session phase) with inst := acquired.1, lock := none }

def advance (self : Server D) (poll : PollId) (session : SessionName) : Phase → Server D
  | .arriving leases => self.takeLock poll session (.completing leases [])
  | .completing [] kept => { (self.goto poll session (.looping kept)) with lock := none }
  | .completing (lease :: todo) kept =>
    if lease.isFinished then
      { (self.goto poll session (.completing todo kept)) with inst := self.inst.complete session lease.id }
    else
      self.goto poll session (.completing todo (kept ++ [lease]))
  | .looping leases => self.takeLock poll session (.checking leases { leases := [], changed := false })
  | .checking [] draft => self.finishTurn poll session draft
  | .checking (lease :: todo) draft =>
    match self.inst.tracked session lease.id with
    | none => self.goto poll session (.checking todo { draft with changed := true })
    | some digest =>
      if self.inst.isCancelled digest then
        self.goto poll session (.dropping lease todo draft)
      else
        self.goto poll session (.checking todo { draft with leases := draft.leases ++ [lease] })
  | .dropping lease todo draft =>
    { (self.goto poll session (.checking todo { draft with changed := true })) with
      inst := self.inst.release session lease.id }
  | .waiting => self.goto poll session (.looping [])
  | .returned _ => self

def step (self : Server D) : Event D → Server D
  | .execute digest => { self with inst := self.inst.execute digest }
  | .wait operationName => { self with inst := self.inst.wait operationName }
  | .cancel operationName => { self with inst := self.inst.cancel operationName }
  | .dropStream digest => { self with inst := self.inst.dropStream digest }
  | .poll session leases =>
    { (self.goto self.nextPoll session (.arriving leases)) with nextPoll := self.nextPoll + 1 }
  | .advance poll =>
    match self.polls poll with
    | some { session, phase } => self.advance poll session phase
    | none => self
  | .timeout poll =>
    match self.polls poll with
    | some { session, phase := .waiting } => self.goto poll session (.returned [])
    | _ => self
  | .expire session =>
    match self.lock with
    | none => { self with inst := self.inst.expire session }
    | some _ => self

/-! ## What a section leaves alone -/

lemma advance_polls_of_ne (self : Server D) {poll other : PollId} (hoth : other ≠ poll)
    (sess : SessionName) (phase : Phase) :
    (self.advance poll sess phase).polls other = self.polls other := by
  have hgot : ∀ phase, (self.goto poll sess phase).polls other = self.polls other := by
    intro phase
    simp [goto, Function.update_of_ne hoth]
  have htak : ∀ phase, (self.takeLock poll sess phase).polls other = self.polls other := by
    intro phase
    unfold takeLock
    split
    · exact hgot phase
    · rfl
  cases phase with
  | arriving leas => exact htak _
  | completing todo kept =>
    cases todo with
    | nil => exact hgot _
    | cons lease todo =>
      simp only [advance]
      split <;> exact hgot _
  | looping leas => exact htak _
  | checking todo draft =>
    cases todo with
    | nil => exact hgot _
    | cons lease todo =>
      simp only [advance]
      split
      · exact hgot _
      · split <;> exact hgot _
  | dropping lease todo draft | waiting => exact hgot _
  | returned leas => rfl

lemma nextPoll_advance (self : Server D) (poll : PollId) (sess : SessionName) (phase : Phase) :
    (self.advance poll sess phase).nextPoll = self.nextPoll := by
  have htak : ∀ phase, (self.takeLock poll sess phase).nextPoll = self.nextPoll := by
    intro phase
    unfold takeLock
    split <;> rfl
  cases phase with
  | arriving leas => exact htak _
  | completing todo kept =>
    cases todo with
    | nil => rfl
    | cons lease todo =>
      simp only [advance]
      split <;> rfl
  | looping leas => exact htak _
  | checking todo draft =>
    cases todo with
    | nil => rfl
    | cons lease todo =>
      simp only [advance]
      split
      · rfl
      · split <;> rfl
  | dropping lease todo draft | waiting | returned leas => rfl

end Server
end Toolchain.Execution
