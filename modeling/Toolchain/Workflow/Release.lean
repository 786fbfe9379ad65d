import Toolchain.Workflow.Leases

/-!
# Release — giving back the units of queued executors

A worker thread executes a queued executor or, before exit, releases it.  `WorkExecutor.release` calls
`revoke_lease` on the instance it was created with, without a refetch or a transaction, so it writes
back every column as it was then.
-/

namespace Toolchain.Workflow

open Lib

/-! ## The machine -/

structure WorkerQueue where
  leases : LeaseSystem
  taken : Finset Nat

inductive QueueEvent
  | execute (executor : Nat) (worker : (pk : Nat) → LeaseWorker pk) (now : Nat)
      (completion : Completion) (faults : List (Option PyException))
  | release (executor : Nat)
  | fetch (dispatcher : WorkDispatcher) (unlocked : Finset Nat) (uuid : Nat → String) (now : Nat)
  | recover (unlocked : Finset Nat) (batchSize now : Nat)
  | transit (t : Transition)

variable {self : Instance}

namespace WorkerQueue

def init : WorkerQueue where
  leases := LeaseSystem.init
  taken := ∅

def executor (s : WorkerQueue) (i : Nat) : Option Instance :=
  if i ∈ s.taken then none else s.leases.executors[i]?

def released (db : Db) (self : Instance) : Db :=
  (final (revokeLease (quiet db self))).db

def step (s : WorkerQueue) : QueueEvent → WorkerQueue
  | .execute i worker now completion faults =>
    match s.executor i with
    | none => s
    | some self =>
      { leases := s.leases.complete self (worker self.pk) now completion faults,
        taken := insert i s.taken }
  | .release i =>
    match s.executor i with
    | none => s
    | some self => { leases := { s.leases with db := released s.leases.db self }, taken := insert i s.taken }
  | .fetch dispatcher unlocked uuid now =>
    { s with leases := s.leases.step (.fetch dispatcher unlocked uuid now) }
  | .recover unlocked batchSize now => { s with leases := s.leases.step (.recover unlocked batchSize now) }
  | .transit t => { s with leases := s.leases.step (.transit t) }

/-! ## When a release is fenced -/

/-- A release changes the row of its unit only if its lease is still on the row. -/
def ReleaseFenced (s : WorkerQueue) : QueueEvent → Prop
  | .release i =>
    ∀ self ∈ s.executor i, (s.step (.release i)).leases.db.unit self.pk ≠ s.leases.db.unit self.pk →
      s.leases.Held self
  | _ => True

/-- Nothing has happened to the row since `self` was leased but that the lease was revoked. -/
structure OnlyRevoked (self : Instance) (row : WorkUnit) : Prop where
  state : row.state = self.row.stateForCount
  columns : { row with state := .leased } = self.row

/-- An executor is released while it holds its lease, or before anybody else than the recoverer
has touched the row. -/
def ReleaseTimely (s : WorkerQueue) : QueueEvent → Prop
  | .release i => ∀ self ∈ s.executor i, s.leases.Held self ∨ OnlyRevoked self (s.leases.db.unit self.pk)
  | _ => True

/-! ## What a release writes -/

lemma released_unit {db : Db} (h : self.row.state = .leased) :
    (released db self).unit self.pk = { self.row with state := self.row.stateForCount } := by
  rw [released, revokeLease_quiet db h]
  simp [final, quiet, Db.transition, Instance.setState]

lemma eq_released_iff {row : WorkUnit} (h : self.row.state = .leased) :
    { self.row with state := self.row.stateForCount } = row ↔ OnlyRevoked self row := by
  constructor
  · rintro rfl
    exact ⟨rfl, by rw [← h]⟩
  · rintro ⟨hsta, hcol⟩
    rw [← hsta, ← hcol]

/-! ## Executors hold leased units -/

def Inv (s : WorkerQueue) : Prop :=
  ∀ self ∈ s.leases.executors, self.row.state = .leased

lemma inv_init : Inv init :=
  fun _ h => by cases h

lemma Inv.executor {s : WorkerQueue} (h : s.Inv) {i : Nat}
    (hsel : s.executor i = some self) : self.row.state = .leased := by
  unfold WorkerQueue.executor at hsel
  split at hsel
  · cases hsel
  · exact h self (List.mem_of_getElem? hsel)

lemma inv_step (s : WorkerQueue) (e : QueueEvent) (h : s.Inv) : (s.step e).Inv := by
  cases e with
  | execute i worker now compl faults | release i =>
    simp only [step]
    split
    · exact h
    · exact h
  | fetch dis unl uuid now =>
    rcases fetchBatch_quiet dis uuid now default unl s.leases.db with
      ⟨e, t, herr⟩ | ⟨leased, db', _, hgra, hrun⟩
    · simp only [step, LeaseSystem.step, herr]
      exact h
    simp only [step, LeaseSystem.step, hrun]
    intro self hsel
    rcases List.mem_append.1 hsel with hold | hnew
    · exact h self hold
    · exact (hgra.holder self hnew).1
  | recover unl batchSize now => exact h
  | transit t =>
    simp only [step, LeaseSystem.step]
    split
    · exact h
    · exact h

lemma releaseFenced_iff (s : WorkerQueue) (e : QueueEvent) (h : s.Inv) :
    s.ReleaseFenced e ↔ s.ReleaseTimely e := by
  cases e with
  | release i =>
    refine forall₂_congr fun self hsel => ?_
    have hlea := h.executor hsel
    have hrow : (s.step (.release i)).leases.db.unit self.pk =
        { self.row with state := self.row.stateForCount } := by
      rw [Option.mem_def] at hsel
      simp only [step, hsel]
      exact released_unit hlea
    rw [hrow, ← eq_released_iff hlea, Ne, imp_iff_or_not, not_not]
  | execute i worker now compl faults | fetch dispatcher unlocked uuid now
  | recover unlocked batchSize now | transit t => exact Iff.rfl

/-- The releases of a run are fenced exactly if all of them are timely. -/
theorem releases_fenced_iff_timely (events : List QueueEvent) :
    Guarded step ReleaseFenced init events ↔ Guarded step ReleaseTimely init events :=
  guarded_congr Inv inv_step releaseFenced_iff events inv_init

/-- A lease expires in the queue; the unit is recovered, leased again and completed; then the first
executor is released. -/
def lateRelease : List QueueEvent :=
  [.transit (.perform (.create 0 0)), .fetch LeaseSystem.minuteDispatcher {0} (fun _ => "first") 0, .recover {0} 10 100,
    .fetch LeaseSystem.minuteDispatcher {0} (fun _ => "second") 100,
    .execute 1 LeaseSystem.defaultWorker 110 .success [], .release 0]

/-- A late release turns a unit that has `SUCCEEDED` back to `READY`. -/
theorem release_reopens_succeeded :
    ((run step init (lateRelease.take 5)).leases.db.unit 0).state = .succeeded ∧
    ((run step init lateRelease).leases.db.unit 0).state = .ready ∧
    ¬ Guarded step ReleaseFenced init lateRelease := by
  refine ⟨by decide, by decide, ?_⟩
  rintro ⟨_, _, _, _, _, hrel, _⟩
  exact absurd (hrel _ rfl (by decide)).2 (by decide)

end WorkerQueue

end Toolchain.Workflow
