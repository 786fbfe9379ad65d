import Mathlib.Data.List.AList

/-!
# Execution.Instance — the actions and workers of one instance

An `Instance` of `execution/src/server/mod.rs` keeps the actions without a result (`all`), the digests
that wait for a worker (`queued`), and the workers with their leases.  There is one function for each
section under the `Actions` lock.  UUIDs are numbers from a counter; requests, results and times are
left out, and a worker may expire at any time.
-/

namespace Toolchain.Execution

open Function AList

abbrev OperationName := Nat
abbrev LeaseId := Nat
abbrev SessionName := Nat

inductive ExecutionStage
  | queued | executing
  deriving DecidableEq, Repr

/-! ## Actions -/

/-- An action and the receivers of its status: those kept under the name of an operation, and those
held by the streams of clients. -/
structure Action where
  stage : ExecutionStage
  receivers : List OperationName
  streams : Nat
  deriving DecidableEq, Repr

namespace Action

def new (operationName : OperationName) : Action :=
  { stage := .queued, receivers := [operationName], streams := 1 }

/-- `sender.is_closed()`: no receiver is left. -/
def isClosed (self : Action) : Bool :=
  self.receivers.isEmpty && self.streams == 0

/-- `sender.subscribe()`, with one clone kept under the operation and one returned. -/
def subscribe (self : Action) (operationName : OperationName) : Action :=
  { self with receivers := operationName :: self.receivers, streams := self.streams + 1 }

/-- `sender.send(..)` of a running stage.  A closed channel keeps its value. -/
def send (self : Action) (stage : ExecutionStage) : Action :=
  if self.isClosed then self else { self with stage := stage }

/-- A clone of the receiver kept under `operationName`, if there is one. -/
def cloneReceiver (self : Action) (operationName : OperationName) : Action :=
  if operationName ∈ self.receivers then { self with streams := self.streams + 1 } else self

def removeReceiver (self : Action) (operationName : OperationName) : Action :=
  { self with receivers := self.receivers.filter (· ≠ operationName) }

@[simp] lemma send_receivers (self : Action) (stage : ExecutionStage) :
    (self.send stage).receivers = self.receivers := by
  unfold send
  split <;> rfl

end Action

/-! ## Workers -/

/-- A worker and the digests of its leases.  The source's map also has the lease itself, and its
`RunningAction` never lacks the digest. -/
structure Worker (D : Type) where
  capacity : Nat
  leases : AList fun _ : LeaseId => D

namespace Worker

variable {D : Type}

def new : Worker D :=
  { capacity := 1, leases := ∅ }

def remove (self : Worker D) (id : LeaseId) : Worker D :=
  { self with leases := self.leases.erase id }

def insert (self : Worker D) (id : LeaseId) (digest : D) : Worker D :=
  { self with leases := self.leases.insert id digest }

/-- The source subtracts machine integers, which is safe as there are never more leases than the
capacity (`WellFormed.room`). -/
def free (self : Worker D) : Nat :=
  self.capacity - self.leases.keys.length

end Worker

/-! ## Leases of a session -/

inductive LeaseState
  | unspecified | pending | active | completed | cancelled
  deriving DecidableEq, Repr

structure Lease where
  id : LeaseId
  state : LeaseState
  deriving DecidableEq, Repr

def Lease.isFinished (self : Lease) : Bool :=
  self.state == .completed || self.state == .cancelled

/-- The leases of the session that `poll` is editing, and `session_changed`. -/
structure Draft where
  leases : List Lease
  changed : Bool
  deriving DecidableEq, Repr

/-! ## The instance -/

structure Instance (D : Type) where
  all : D → Option Action
  queued : List D
  workers : SessionName → Option (Worker D)
  nextLease : LeaseId
  nextOperation : OperationName

namespace Instance

variable {D : Type}

def new : Instance D :=
  { all := fun _ => none, queued := [], workers := fun _ => none, nextLease := 0, nextOperation := 0 }

def worker (self : Instance D) (session : SessionName) : Worker D :=
  (self.workers session).getD Worker.new

def setWorker (self : Instance D) (session : SessionName) (worker : Worker D) : Instance D :=
  { self with workers := update self.workers session (some worker) }

def tracked (self : Instance D) (session : SessionName) (id : LeaseId) : Option D :=
  (self.worker session).leases.lookup id

def openWorker (self : Instance D) (session : SessionName) : Instance D :=
  self.setWorker session (self.worker session)

def isCancelled (self : Instance D) (digest : D) : Bool :=
  (self.all digest).elim true Action.isClosed

/-! ### What clients do -/

/-- The source clones the receiver of the first action that has the operation; no two actions have one
(`operations_unique`). -/
def wait (self : Instance D) (operationName : OperationName) : Instance D :=
  { self with all := fun digest => (self.all digest).map (·.cloneReceiver operationName) }

/-- Removes the receiver of the operation, and then every action that has no receiver left.  Queue and
workers keep the digest. -/
def cancel (self : Instance D) (operationName : OperationName) : Instance D :=
  { self with
    all := fun digest => ((self.all digest).map (·.removeReceiver operationName)).filter (!·.isClosed) }

variable [DecidableEq D]

def execute (self : Instance D) (digest : D) : Instance D :=
  let operationName := self.nextOperation
  match self.all digest with
  | some action =>
    { self with
      all := update self.all digest (some (action.subscribe operationName))
      nextOperation := operationName + 1 }
  | none =>
    { self with
      all := Function.update self.all digest (some (Action.new operationName))
      queued := self.queued ++ [digest]
      nextOperation := operationName + 1 }

def dropStream (self : Instance D) (digest : D) : Instance D :=
  { self with
    all := update self.all digest ((self.all digest).map fun action =>
      { action with streams := action.streams - 1 }) }

/-! ### What workers do -/

def update (self : Instance D) (digest : D) (stage : ExecutionStage) : Instance D :=
  { self with all := Function.update self.all digest ((self.all digest).map (·.send stage)) }

/-- A finished lease that is tracked is removed from the worker, and its action from `all`. -/
def complete (self : Instance D) (session : SessionName) (id : LeaseId) : Instance D :=
  match self.tracked session id with
  | none => self
  | some digest =>
    { self.setWorker session ((self.worker session).remove id) with
      all := Function.update self.all digest none }

/-- A tracked lease is removed without a result: the digest returns to the front of the queue, also if
its action is gone. -/
def release (self : Instance D) (session : SessionName) (id : LeaseId) : Instance D :=
  match self.tracked session id with
  | none => self
  | some digest =>
    { (self.setWorker session ((self.worker session).remove id)).update digest .queued with
      queued := digest :: self.queued }

/-- `Action::start` for a digest that was popped from the queue, which leaves `queued`. -/
def start (self : Instance D) (session : SessionName) (digest : D) (queued : List D) :
    Instance D :=
  { (self.setWorker session ((self.worker session).insert self.nextLease digest)).update digest
    .executing with
    queued := queued, nextLease := self.nextLease + 1 }

/-- The loop of `cancel_expired_and_maybe_add_new_leases` over the queue, while the worker can acquire
`free` leases.  Digests whose action is gone are skipped. -/
def acquire (session : SessionName) :
    List D → Nat → Instance D → Draft → Instance D × Draft
  | [], _, self, draft => (self, draft)
  | _ :: _, 0, self, draft => (self, draft)
  | digest :: queued, free + 1, self, draft =>
    match self.all digest with
    | none => acquire session queued (free + 1) { self with queued := queued } draft
    | some _ =>
      acquire session queued free (self.start session digest queued)
        { leases := draft.leases ++ [{ id := self.nextLease, state := .pending }], changed := true }

/-- `worker_expiration_task` removes the worker of a session: each of its running actions is
dropped. -/
def expire (self : Instance D) (session : SessionName) : Instance D :=
  let released := (self.worker session).leases.keys.foldl (·.release session ·) self
  { released with workers := Function.update released.workers session none }

/-! ## What is tracked and queued afterwards -/

variable (self : Instance D)

open Instance

omit [DecidableEq D] in
lemma tracked_setWorker (sess oth : SessionName) (wk : Worker D) (id : LeaseId) :
    (self.setWorker sess wk).tracked oth id = if oth = sess then wk.leases.lookup id else
      self.tracked oth id := by
  unfold tracked worker setWorker
  split <;> rename_i h
  · simp [h]
  · simp [update_of_ne h]

variable (sess : SessionName)

section

omit [DecidableEq D]

@[simp] lemma worker_setWorker (worker : Worker D) :
    (self.setWorker sess worker).worker sess = worker := by
  simp [Instance.worker, setWorker]

@[simp] lemma tracked_openWorker (sess oth : SessionName)
    (id : LeaseId) : (self.openWorker sess).tracked oth id = self.tracked oth id := by
  rw [openWorker, tracked_setWorker]
  split <;> simp_all [tracked]

lemma lookup_remove (wor : Worker D) (id other : LeaseId) : (wor.remove id).leases.lookup other =
    if other = id then none else wor.leases.lookup other := by
  unfold Worker.remove
  split <;> rename_i h
  · rw [h, lookup_erase]
  · rw [lookup_erase_ne h]

lemma tracked_setWorker_remove (sess oth : SessionName) (id other' : LeaseId) :
    (self.setWorker sess ((self.worker sess).remove id)).tracked oth other' =
    if oth = sess ∧ other' = id then none else self.tracked oth other' := by
  rw [tracked_setWorker, lookup_remove]
  grind [tracked]

end

lemma tracked_complete (sess oth : SessionName) (id other' : LeaseId) :
    (self.complete sess id).tracked oth other' =
    if oth = sess ∧ other' = id then none else self.tracked oth other' := by
  unfold complete
  split
  · -- nothing was tracked, so there is nothing to forget
    grind
  · exact tracked_setWorker_remove self sess oth id other'

lemma tracked_release (sess oth : SessionName) (id other' : LeaseId) :
    (self.release sess id).tracked oth other' =
    if oth = sess ∧ other' = id then none else self.tracked oth other' := by
  unfold release
  split
  · grind
  · exact tracked_setWorker_remove self sess oth id other'

@[simp] lemma workers_execute (dig : D) :
    (self.execute dig).workers = self.workers := by
  unfold execute
  split <;> rfl

@[simp] lemma tracked_execute (dig : D) (sess : SessionName)
    (id : LeaseId) : (self.execute dig).tracked sess id = self.tracked sess id := by
  simp [tracked, worker]

@[simp] lemma nextLease_execute (dig : D) :
    (self.execute dig).nextLease = self.nextLease := by
  unfold execute
  split <;> rfl

@[simp] lemma nextLease_complete (id : LeaseId) :
    (self.complete sess id).nextLease = self.nextLease := by
  unfold complete
  split <;> rfl

@[simp] lemma nextLease_release (id : LeaseId) :
    (self.release sess id).nextLease = self.nextLease := by
  unfold release
  split <;> rfl

lemma tracked_start (sess oth : SessionName) (dig : D) (queued : List D) (id : LeaseId) :
    (self.start sess dig queued).tracked oth id =
    if oth = sess ∧ id = self.nextLease then some dig else self.tracked oth id := by
  change (self.setWorker sess ((self.worker sess).insert self.nextLease dig)).tracked oth id = _
  rw [tracked_setWorker]
  unfold Worker.insert
  by_cases hid : id = self.nextLease
  · subst hid
    rw [lookup_insert]
    grind
  · rw [lookup_insert_ne hid]
    grind [tracked]

lemma tracked_foldl_release (sess oth : SessionName) (other' : LeaseId) (ids : List LeaseId)
    (self : Instance D) :
    (ids.foldl (·.release sess ·) self).tracked oth other' =
    if oth = sess ∧ other' ∈ ids then none else self.tracked oth other' := by
  induction ids generalizing self with
  | nil => simp
  | cons id ids ih =>
    rw [List.foldl_cons, ih, tracked_release]
    grind

omit [DecidableEq D] in
lemma tracked_closed (hunt : ∀ id, self.tracked sess id = none) (oth : SessionName) (id : LeaseId) :
    tracked { self with workers := Function.update self.workers sess none } oth id =
    self.tracked oth id := by
  by_cases hoth : oth = sess
  · rw [hoth, hunt]
    simp [tracked, worker, Worker.new]
  · simp [tracked, worker, update_of_ne hoth]

lemma tracked_expire (sess oth : SessionName) (id : LeaseId) :
    (self.expire sess).tracked oth id = if oth = sess then none else self.tracked oth id := by
  unfold expire
  split <;> rename_i h
  · simp [h, tracked, worker, Worker.new]
  · have hkee := tracked_foldl_release sess oth id (self.worker sess).leases.keys self
    simpa [tracked, worker, update_of_ne h, h] using hkee

lemma queued_execute (dig : D) : (self.execute dig).queued =
    self.queued ++ if (self.all dig).isSome then [] else [dig] := by
  unfold execute
  cases h : self.all dig with
  | none | some action => simp

@[simp] lemma queued_complete (id : LeaseId) :
    (self.complete sess id).queued = self.queued := by
  unfold complete
  split <;> rfl

@[simp] lemma queued_release (id : LeaseId) :
    (self.release sess id).queued = (self.tracked sess id).toList ++ self.queued := by
  unfold release
  split <;> rename_i h <;> simp [h]

/-! ## Which actions are left -/

lemma all_execute_of_none {dig : D} (h : self.all dig = none) : (self.execute dig).all =
    Function.update self.all dig (some (Action.new self.nextOperation)) := by
  simp [execute, h]

lemma all_execute_of_some {dig : D} {acti : Action} (h : self.all dig = some acti) :
    (self.execute dig).all =
    Function.update self.all dig (some (acti.subscribe self.nextOperation)) := by
  simp [execute, h]

lemma isSome_all_execute (dig oth : D) :
    ((self.execute dig).all oth).isSome ↔ oth = dig ∨ (self.all oth).isSome := by
  by_cases hoth : oth = dig
  · cases h : self.all dig with
    | none => simp [all_execute_of_none self h, hoth]
    | some acti => simp [all_execute_of_some self h, hoth]
  · cases h : self.all dig with
    | none => simp [all_execute_of_none self h, hoth]
    | some acti => simp [all_execute_of_some self h, hoth]

omit [DecidableEq D] in
@[simp] lemma isSome_all_wait (op : OperationName) (oth : D) :
    ((self.wait op).all oth).isSome = (self.all oth).isSome := by
  simp [wait]

omit [DecidableEq D] in
lemma isSome_all_of_cancel (op : OperationName) (oth : D)
    (h : ((self.cancel op).all oth).isSome) : (self.all oth).isSome := by
  cases hall : self.all oth with
  | none => simp [cancel, hall] at h
  | some acti => rfl

lemma isSome_update_map (all : D → Option Action) (dig oth : D) (f : Action → Action) :
    (Function.update all dig ((all dig).map f) oth).isSome = (all oth).isSome := by
  by_cases h : oth = dig
  · simp [h]
  · simp [update_of_ne h]

@[simp] lemma isSome_all_dropStream (dig oth : D) :
    ((self.dropStream dig).all oth).isSome = (self.all oth).isSome :=
  isSome_update_map self.all dig oth _

lemma isSome_all_complete (id : LeaseId) (other : D) : ((self.complete sess id).all other).isSome ↔
    (self.all other).isSome ∧ self.tracked sess id ≠ some other := by
  unfold complete
  split
  · simp_all
  rename_i digest htra
  by_cases h : other = digest
  · simp [h, htra]
  · simp [htra, update_of_ne h, Ne.symm h]

@[simp] lemma isSome_all_release (id : LeaseId)
    (oth : D) : ((self.release sess id).all oth).isSome = (self.all oth).isSome := by
  unfold release
  split
  · rfl
  · exact isSome_update_map self.all _ oth _

@[simp] lemma isSome_all_start (dig : D)
    (queued : List D) (oth : D) :
    ((self.start sess dig queued).all oth).isSome = (self.all oth).isSome :=
  isSome_update_map self.all dig oth _

end Instance
end Toolchain.Execution
