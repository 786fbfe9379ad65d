import Toolchain.Workflow.Holders

/-!
# Executor — completing a work unit

`WorkExecutor._complete` runs a completion function in a savepoint and updates the work unit.  When it
raises, the savepoint undoes writes to the database but not assignments to the locked instance, which is
saved afterwards in any case.
-/

namespace Toolchain.Workflow

open Lib Instance

/-! ## Workers -/

/-- What a worker callback for the unit `pk` leaves alone: the rows of the unit's requirers, and
requirements, which are never removed. -/
structure Framed (pk : Nat) (db db' : Db) : Prop where
  nextPk : db.nextPk ≤ db'.nextPk
  requires : ∀ source target, db.requires source target = true → db'.requires source target = true
  unit : ∀ requirer ∈ db.requirers pk, requirer ≠ pk → db'.unit requirer = db.unit requirer

/-- A callback may raise and change the database, but it does not itself complete the unit. -/
structure Callback (pk : Nat) (α : Type) where
  body : Db → Except PyException (α × Db)
  framed : ∀ {db a db'}, body db = .ok (a, db') → Framed pk db db'
  unfinished : ∀ {db a db'}, body db = .ok (a, db') → (db.unit pk).state ≠ .succeeded →
    (db'.unit pk).state ≠ .succeeded

structure Worker (pk : Nat) where
  onSuccess : Callback pk Unit
  onReschedule : Callback pk (Option Nat)
  onFailure : Callback pk Unit
  rerunRequirers : Except PyException Bool
  classifyError : PyException → Except PyException (Option Category)
  transientErrorRetryDelay : PyException → Except PyException (Option Nat)

/-! ## Classifying exceptions -/

def lower (message : String) : List Char :=
  message.toList.map Char.toLower

def mentions (message : String) (texts : List String) : Bool :=
  texts.any fun text => decide (text.toList <:+: lower message)

/-- `TransientErrorHelper.is_transient_error`.  The message is lowered before the search, so the
text for `NoCredentialsError` is never found. -/
def isTransientError : PyException → Bool
  | .operationalError message => mentions message ["deadlock detected", "connection reset by peer"]
  | .noCredentialsError message => mentions message ["Unable to locate credentials"]
  | .interfaceError message => mentions message ["connection already closed"]
  | _ => false

variable {pk : Nat}

def getExceptionCategory (worker : Worker pk) (error : PyException) :
    Except PyException Category := do
  match ← worker.classifyError error with
  | some category => return category
  | none =>
    match error with
    | .workException category => return category
    | _ => return if isTransientError error then .transient else .permanent

/-! ## Completion -/

def liftExcept {α : Type} : Except PyException α → M α
  | .ok a => pure a
  | .error e => throw e

def Callback.run {α : Type} (callback : Callback pk α) : M α := do
  dbCall
  let result ← liftExcept (callback.body (← inspect id))
  modify fun s => { s with db := result.2 }
  return result.1

def refreshFromDb : M Unit := do
  let self ← object
  let row ← query fun db => db.unit self.pk
  assign fun self => { self with row := row }

def logException : M Unit := fun s =>
  match dbCall s with
  | .ok u s' => .ok u s'
  | .error e s' => if e.isDbError then .ok () s' else .error e s'

def retryAfter (now : Nat) : Option Nat → M Unit
  | none => pure ()
  | some 0 => pure ()
  | some (delay + 1) =>
    assign fun self => { self with row := { self.row with leasedUntil := now + (delay + 1) } }

def settleException (worker : Worker pk) (now : Nat) (category : Category) : M Unit := do
  let self ← object
  if category = .permanent ∧ self.row.state ≠ .infeasible then
    permanentErrorOccurred
  else if category = .advisory then liftExcept worker.rerunRequirers >>= workSucceeded now else pure ()

def processWorkUnitException (worker : Worker pk) (now : Nat) (error : PyException) : M Unit := do
  let category ← liftExcept (getExceptionCategory worker error)
  logException
  settleException worker now category
  let delay ← liftExcept (worker.transientErrorRetryDelay error)
  retryAfter now delay

inductive Completion
  | success | reschedule
  | failure (error : PyException)

def Completion.run (worker : Worker pk) (now : Nat) : Completion → M Unit
  | .success => do
      worker.onSuccess.run
      let rerunRequirers ← liftExcept worker.rerunRequirers
      refreshFromDb
      workSucceeded now rerunRequirers
  | .reschedule => do
      let newLease ← worker.onReschedule.run
      refreshFromDb
      assign fun self => { self with row := { self.row with leasedUntil := newLease } }
  | .failure error => do
      worker.onFailure.run
      refreshFromDb
      processWorkUnitException worker now error

def Instance.clearLease (self : Instance) : Instance :=
  { self with row := { self.row with leaseHolder := "", leasedUntil := none, node := "" } }

def lockLeased (pk : Nat) (holder : String) : M Bool := do
  dbCall
  let refetch ← query fun db =>
    if pk < db.nextPk ∧ (db.unit pk).leaseHolder = holder ∧ (db.unit pk).state = .leased then
      some (db.fetch pk)
    else
      none
  match refetch with
  | none => return false
  | some lockedWorkUnit =>
    assign fun _ => lockedWorkUnit.clearLease
    save
    return true

def completeLocked (worker : Worker pk) (now : Nat) (completion : Completion) : M Unit := do
  attempt (atomic false (completion.run worker now)) (processWorkUnitException worker now)
  save
  dbCall

def complete (worker : Worker pk) (holder : String) (now : Nat) (completion : Completion) :
    M Unit :=
  attempt (atomic true do
      if ← lockLeased pk holder then
        completeLocked worker now completion)
    fun e => if e.isDbError then pure () else throw e

/-! ## Lease holders and the primary key under faults -/

variable {α : Type} {db : Db}

section

variable {H : Nat → String → Prop}

def Callback.KeepsHolders (H : Nat → String → Prop) (callback : Callback pk α) : Prop :=
  ∀ db a db', callback.body db = .ok (a, db') → db.Holders H → db'.Holders H

lemma maintains_lift {D : Db → Prop} {R : Instance → Prop} {Q : α → Prop}
    {x : Except PyException α} (hx : ∀ a, x = .ok a → Q a) :
    Maintains D R Q (liftExcept x) := by
  cases x with
  | ok a => exact .pure (hx a rfl)
  | error e => exact .throw e

lemma holders_lift (x : Except PyException α) : KeepsHolders H (liftExcept x) :=
  fun _ => maintains_lift fun _ _ => trivial

lemma holders_callback {callback : Callback pk α} (hcallback : callback.KeepsHolders H) :
    KeepsHolders H callback.run := by
  refine holders_bind holders_dbCall fun _ p =>
    .bind (Q := Db.Holders H) (.inspect fun _ hdb => hdb) fun db hdb =>
      .bind (Q := fun result => result.2.Holders H) (maintains_lift fun result hbody => ?_)
        fun result hresult => ?_
  · exact hcallback _ _ _ hbody hdb
  · exact .bind (fun _ _ hself => ⟨hresult, hself, fun _ _ _ => trivial⟩) fun _ _ => .pure trivial

lemma holders_refresh : KeepsHolders H refreshFromDb := by
  refine fun p => .bind .object fun self hself =>
    .bind (Q := fun row => H p row.leaseHolder) (.query fun db hdb => ?_)
      fun row hrow => .assign fun o ho => ⟨ho.1, hrow⟩
  rw [hself.1]
  exact hdb p

lemma holders_logException : KeepsHolders H logException := by
  intro p s hdb hself
  obtain ⟨hmem, hsame⟩ := dbCall_mem s
  unfold logException
  cases hs : (dbCall : M Unit) s with
  | ok u s' =>
    rw [hs] at hmem hsame
    exact ⟨hsame.symm ▸ hdb, hmem.symm ▸ hself, fun _ _ _ => trivial⟩
  | error e s' =>
    rw [hs] at hmem hsame
    simp only
    split <;> exact ⟨hsame.symm ▸ hdb, hmem.symm ▸ hself, fun _ _ _ => trivial⟩

lemma holders_retryAfter (now : Nat) (delay : Option Nat) : KeepsHolders H (retryAfter now delay) := by
  unfold retryAfter
  split
  · exact holders_pure _
  · exact holders_pure _
  · exact holders_assign fun _ => ⟨rfl, rfl⟩

lemma holders_exception (wk : Worker pk) (now : Nat) (err : PyException) :
    KeepsHolders H (processWorkUnitException wk now err) := by
  have hset : ∀ cat, KeepsHolders H (settleException wk now cat) :=
    fun cat => holders_bind holders_object fun _ => holders_ite holders_permanent
      (holders_ite (holders_bind (holders_lift _) fun _ => holders_succeeded _ _) (holders_pure _))
  exact holders_bind (holders_lift _) fun _ => holders_bind holders_logException fun _ =>
    holders_bind (hset _) fun _ => holders_bind (holders_lift _) fun _ => holders_retryAfter _ _

structure Worker.KeepsHolders (H : Nat → String → Prop) (worker : Worker pk) : Prop where
  onSuccess : worker.onSuccess.KeepsHolders H
  onReschedule : worker.onReschedule.KeepsHolders H
  onFailure : worker.onFailure.KeepsHolders H

lemma holders_completion {wk : Worker pk} (hwk : wk.KeepsHolders H) (now : Nat) (completion : Completion) :
    KeepsHolders H (completion.run wk now) := by
  cases completion with
  | success =>
    exact holders_bind (holders_callback hwk.onSuccess) fun _ =>
      holders_bind (holders_lift _) fun _ => holders_bind holders_refresh fun _ => holders_succeeded _ _
  | reschedule =>
    exact holders_bind (holders_callback hwk.onReschedule) fun _ =>
      holders_bind holders_refresh fun _ => holders_assign fun _ => ⟨rfl, rfl⟩
  | failure error =>
    exact holders_bind (holders_callback hwk.onFailure) fun _ =>
      holders_bind holders_refresh fun _ => holders_exception _ _ _

lemma holders_completeLocked {wk : Worker pk} (hwk : wk.KeepsHolders H) (now : Nat)
    (completion : Completion) : KeepsHolders H (completeLocked wk now completion) :=
  holders_bind (holders_attempt (holders_atomic false (holders_completion hwk now completion))
    (holders_exception wk now)) fun _ => holders_bind holders_save fun _ => holders_dbCall

lemma Worker.keepsHolders_true (wk : Worker pk) : wk.KeepsHolders fun _ _ => True :=
  ⟨fun _ _ _ _ _ _ => trivial, fun _ _ _ _ _ _ => trivial, fun _ _ _ _ _ _ => trivial⟩

end

/-! ## Outcomes -/

lemma Framed.mem_requirers {db' : Db} (h : Framed pk db db') {p : Nat}
    (hp : p ∈ db.requirers pk) : p ∈ db'.requirers pk := by
  obtain ⟨hlt, hreq⟩ := Db.mem_requirers.1 hp
  exact Db.mem_requirers.2 ⟨lt_of_lt_of_le hlt h.nextPk, h.requires _ _ hreq⟩

lemma Framed.trans {db₁ db₂ db₃ : Db} (h₁ : Framed pk db₁ db₂) (h₂ : Framed pk db₂ db₃) :
    Framed pk db₁ db₃ :=
  ⟨h₁.nextPk.trans h₂.nextPk, fun s t hst => h₂.requires s t (h₁.requires s t hst),
    fun p hp hne => (h₂.unit p (h₁.mem_requirers hp) hne).trans (h₁.unit p hp hne)⟩

/-- `requirement_satisfied` was applied to every requirer, in the database the worker's callback
has left. -/
def RequirersSatisfied (worker : Worker pk) (now : Nat) (db db' : Db) : Prop :=
  ∃ (mid : Db) (self : Instance) (rerunRequirers : Bool),
    Framed pk db mid ∧ self.pk = pk ∧ worker.rerunRequirers = .ok rerunRequirers ∧ ∀ p, p ≠ pk →
        db'.unit p = ((mid.succeed self).satisfyAll now rerunRequirers pk).unit p

def RequirersUnchanged (pk : Nat) (db db' : Db) : Prop :=
  ∀ p ∈ db.requirers pk, p ≠ pk → db'.unit p = db.unit p

def RequirersInfeasible (pk : Nat) (db db' : Db) : Prop :=
  ∀ p ∈ db.requirers pk, p ≠ pk → db'.unit p = ((db.fetch p).setState .infeasible).row

/-- How the completion of a unit that is then in the given state may have gone: it was applied in
full, it was not applied, or it failed permanently. -/
def Settled (worker : Worker pk) (now : Nat) (db : Db) (state : UnitState) (db' : Db) : Prop :=
  (state = .succeeded ∧ RequirersSatisfied worker now db db') ∨
    (state ≠ .succeeded ∧ RequirersUnchanged pk db db') ∨
      (state = .infeasible ∧ RequirersInfeasible pk db db')

variable {err : PyException}

section Steps

variable {wk : Worker pk} {now : Nat} {s s' : Session Db Instance PyException}

lemma Framed.settled {st : UnitState} (h : Framed pk db s.db) (hsta : st ≠ .succeeded) :
    Settled wk now db st s.db :=
  .inr (.inl ⟨hsta, h.unit⟩)

lemma Settled.save {db' : Db} {st : UnitState} (h : Settled wk now db st db')
    (row : WorkUnit) : Settled wk now db st (db'.setUnit pk row) := by
  have hrow : ∀ p, p ≠ pk → (db'.setUnit pk row).unit p = db'.unit p := fun p hp => by simp [hp]
  rcases h with ⟨hsta, mid, self, again, hmid, hpk, hrer, hrows⟩ | ⟨hsta, hrows⟩ | ⟨hsta, hrows⟩
  · exact .inl ⟨hsta, mid, self, again, hmid, hpk, hrer, fun p hne => (hrow p hne).trans (hrows p hne)⟩
  · exact .inr (.inl ⟨hsta, fun p hp hne => (hrow p hne).trans (hrows p hp hne)⟩)
  · exact .inr (.inr ⟨hsta, fun p hp hne => (hrow p hne).trans (hrows p hp hne)⟩)

lemma liftExcept_ok {x : Except PyException α} {a : α} (h : liftExcept x s = .ok a s') :
    x = .ok a ∧ s' = s := by
  cases x with
  | ok b =>
    cases h
    exact ⟨rfl, rfl⟩
  | error e => cases h

lemma callback_ok {cb : Callback pk α} {a : α} (h : cb.run s = .ok a s') :
    cb.body s.db = .ok (a, s'.db) ∧ s'.mem = s.mem ∧ s'.aborted = false := by
  obtain ⟨_, s₁, hcal, h₁⟩ := bind_eq_ok.1 h
  obtain ⟨_, habo, hdb, hmem⟩ := aborted_of_dbCall hcal
  obtain ⟨_, _, hins, h₂⟩ := bind_eq_ok.1 h₁
  cases hins
  obtain ⟨res, s₂, hlif, h₃⟩ := bind_eq_ok.1 h₂
  obtain ⟨hbod, rfl⟩ := liftExcept_ok hlif
  obtain ⟨_, _, hmod, hret⟩ := bind_eq_ok.1 h₃
  cases hmod
  cases hret
  exact ⟨hdb ▸ hbod, hmem, habo⟩

lemma refresh_ok (h : refreshFromDb s = .ok () s') :
    s'.db = s.db ∧ s'.mem = s.db.fetch s.mem.pk ∧ s'.aborted = s.aborted := by
  have hsta : Stable refreshFromDb := .bind Stable.object fun _ => .bind (.query _) fun _ => .assign _
  exact eq_of_quiet hsta h rfl

lemma logException_ok (h : logException s = .ok () s') : s'.db = s.db ∧ s'.mem = s.mem := by
  have hcal := dbCall_mem s
  unfold logException at h
  cases hs : (dbCall : M Unit) s with
  | ok u s₁ =>
    rw [hs] at hcal
    simp only [hs] at h
    cases h
    exact hcal.symm
  | error e s₁ =>
    rw [hs] at hcal
    simp only [hs] at h
    split at h
    · cases h
      exact hcal.symm
    · cases h

lemma retryAfter_ok {delay : Option Nat} (h : retryAfter now delay s = .ok () s') :
    s'.db = s.db ∧ s'.mem.row.state = s.mem.row.state ∧ s'.aborted = s.aborted := by
  unfold retryAfter at h
  split at h <;> (cases h; exact ⟨rfl, rfl, rfl⟩)

section

variable (h : processWorkUnitException wk now err s = .ok () s')

include h

lemma exception_ok : ∃ cat, getExceptionCategory wk err = .ok cat ∧
    ((s'.mem.row.state = .infeasible ∧ ∀ p ∈ s.db.requirers s.mem.pk, p ≠ s.mem.pk →
    s'.db.unit p = ((s.db.fetch p).setState .infeasible).row) ∨
    (s'.mem.row.state = .succeeded ∧ s'.aborted = false ∧ ∃ again, wk.rerunRequirers = .ok again ∧
    s'.db = (s.db.succeed s.mem).satisfyAll now again s.mem.pk) ∨
    (s'.db = s.db ∧ s'.mem.row.state = s.mem.row.state ∧
      (cat = .transient ∨ s.mem.row.state = .infeasible))) := by
  obtain ⟨cat, s₁, hlif, h₁⟩ := bind_eq_ok.1 h
  obtain ⟨hcat, rfl⟩ := liftExcept_ok hlif
  obtain ⟨_, s₂, hlog, h₂⟩ := bind_eq_ok.1 h₁
  obtain ⟨hdb₂, hmem₂⟩ := logException_ok hlog
  obtain ⟨_, s₃, hset, h₃⟩ := bind_eq_ok.1 h₂
  obtain ⟨delay, s₄, hdel, h₄⟩ := bind_eq_ok.1 h₃
  obtain ⟨_, rfl⟩ := liftExcept_ok hdel
  obtain ⟨hdb, hsta, habo⟩ := retryAfter_ok h₄
  refine ⟨cat, hcat, ?_⟩
  rw [hdb, hsta, habo]
  obtain ⟨_, _, hsel, hset⟩ := bind_eq_ok.1 hset
  cases hsel
  split at hset
  · obtain ⟨hmem, hrow⟩ := permanent_ok hset
    rw [hdb₂, hmem₂] at hrow
    exact .inl ⟨by simp [hmem], hrow⟩
  rename_i hnot
  split at hset
  · obtain ⟨again, _, hrea, hsuc⟩ := bind_eq_ok.1 hset
    obtain ⟨hrer, rfl⟩ := liftExcept_ok hrea
    obtain ⟨hdb₃, hmem₃, hab⟩ := succeeded_ok hsuc
    rw [hdb₂, hmem₂] at hdb₃
    exact .inr (.inl ⟨by simp [hmem₃], hab, again, hrer, hdb₃⟩)
  · rename_i hadv
    cases hset
    refine .inr (.inr ⟨hdb₂, by rw [hmem₂], ?_⟩)
    rw [hmem₂] at hnot
    cases cat with
    | advisory => exact absurd rfl hadv
    | transient => exact .inl rfl
    | permanent => exact .inr (by simpa using hnot)

lemma exception_settled (hpk : s.mem.pk = pk) (hdb : Framed pk db s.db)
    (htra : getExceptionCategory wk err = .ok .transient → s.mem.row.state ≠ .succeeded) :
    Settled wk now db s'.mem.row.state s'.db ∧ (s'.aborted = true → s'.mem.row.state ≠ .succeeded) := by
  obtain ⟨cat, hcat, hinf | hsuc | hkep⟩ := exception_ok h
  · obtain ⟨hsta, hrow⟩ := hinf
    refine ⟨.inr (.inr ⟨hsta, ?_⟩), by simp [hsta]⟩
    intro p hp hne
    rw [hrow p (hpk ▸ hdb.mem_requirers hp) (hpk ▸ hne)]
    simp only [setState, Db.fetch_row, hdb.unit p hp hne]
  · obtain ⟨hsta, habo, again, hrer, haft⟩ := hsuc
    refine ⟨.inl ⟨hsta, s.db, s.mem, again, hdb, hpk, hrer, ?_⟩, by simp [habo]⟩
    intro p _
    rw [haft, hpk]
  · obtain ⟨hsam, hsta, hwhy⟩ := hkep
    have hope : s.mem.row.state ≠ .succeeded := by
      rcases hwhy with rfl | hinf
      · exact htra hcat
      · simp [hinf]
    rw [hsam, hsta]
    exact ⟨hdb.settled hope, fun _ => hope⟩

end

lemma completion_settled {com : Completion}
    (h : com.run wk now s = .ok () s') (hpk : s.mem.pk = pk) (hdb : Framed pk db s.db)
    (hope : (s.db.unit pk).state ≠ .succeeded) :
    Settled wk now db s'.mem.row.state s'.db ∧ (s'.aborted = true → s'.mem.row.state ≠ .succeeded) := by
  cases com with
  | success =>
    obtain ⟨_, s₁, hcal, h₁⟩ := bind_eq_ok.1 h
    obtain ⟨hbod, hmem₁, _⟩ := callback_ok hcal
    obtain ⟨again, _, hrea, h₂⟩ := bind_eq_ok.1 h₁
    obtain ⟨hrer, rfl⟩ := liftExcept_ok hrea
    obtain ⟨_, s₃, href, h₃⟩ := bind_eq_ok.1 h₂
    obtain ⟨hdb₃, hmem₃, _⟩ := refresh_ok href
    obtain ⟨haft, hmem, habo⟩ := succeeded_ok h₃
    refine ⟨.inl ⟨by simp [hmem], s₃.db, s₃.mem, again, ?_, ?_, hrer, ?_⟩, by simp [habo]⟩
    · rw [hdb₃]
      exact hdb.trans (wk.onSuccess.framed hbod)
    · simp [hmem₃, hmem₁, hpk]
    · intro p _
      rw [haft, hmem₃, Db.fetch_pk, hmem₁, hpk]
  | reschedule =>
    obtain ⟨newLease, s₁, hcal, h₁⟩ := bind_eq_ok.1 h
    obtain ⟨hbod, hmem₁, _⟩ := callback_ok hcal
    obtain ⟨_, s₂, href, h₂⟩ := bind_eq_ok.1 h₁
    obtain ⟨hdb₂, hmem₂, _⟩ := refresh_ok href
    cases h₂
    have hsta : s₂.mem.row.state ≠ .succeeded := by
      rw [hmem₂, hmem₁, hpk]
      exact wk.onReschedule.unfinished hbod hope
    refine ⟨Framed.settled ?_ hsta, fun _ => hsta⟩
    simp only [hdb₂]
    exact hdb.trans (wk.onReschedule.framed hbod)
  | failure error =>
    obtain ⟨_, s₁, hcal, h₁⟩ := bind_eq_ok.1 h
    obtain ⟨hbod, hmem₁, _⟩ := callback_ok hcal
    obtain ⟨_, s₂, href, h₂⟩ := bind_eq_ok.1 h₁
    obtain ⟨hdb₂, hmem₂, _⟩ := refresh_ok href
    refine exception_settled h₂ (by simp [hmem₂, hmem₁, hpk]) ?_ fun _ => ?_
    · rw [hdb₂]
      exact hdb.trans (wk.onFailure.framed hbod)
    · rw [hmem₂, hmem₁, hpk]
      exact wk.onFailure.unfinished hbod hope

end Steps

/-! ## The whole of `_complete` -/

/-- The savepoint of the completion function is undone by an error that is classified as
`TRANSIENT` when the locked instance already says `SUCCEEDED`. -/
def lapsed (worker : Worker pk) (now : Nat) (completion : Completion)
    (s : Session Db Instance PyException) : Bool :=
  match atomic false (completion.run worker now) s with
  | .ok _ _ => false
  | .error e s' =>
    match getExceptionCategory worker e with
    | .ok .transient => s'.mem.row.state = .succeeded
    | _ => false

def lapses (worker : Worker pk) (holder : String) (now : Nat) (completion : Completion)
    (s : Session Db Instance PyException) : Bool :=
  match (dbCall >>= fun _ => lockLeased pk holder : M Bool) s with
  | .ok true s' => lapsed worker now completion s'
  | _ => false

section Complete

variable {wk : Worker pk} {now : Nat} {completion : Completion}
  {s s' : Session Db Instance PyException}

lemma attempt_settled
    (h : attempt (atomic false (completion.run wk now)) (processWorkUnitException wk now) s = .ok () s')
    (hpk : s.mem.pk = pk) (hdb : Framed pk db s.db) (hope : (s.db.unit pk).state ≠ .succeeded)
    (hlap : lapsed wk now completion s = false) :
    Settled wk now db s'.mem.row.state s'.db := by
  unfold attempt at h
  unfold lapsed at hlap
  cases hinn : atomic false (completion.run wk now) s with
  | ok u t =>
    simp only [hinn] at h
    cases h
    obtain ⟨t₁, t₂, hbeg, hrun, hend⟩ := atomic_eq_ok hinn
    obtain ⟨_, _, hdb₁, hmem₁⟩ := aborted_of_dbCall hbeg
    obtain ⟨hdon, habo⟩ := completion_settled hrun (hmem₁ ▸ hpk) (hdb₁ ▸ hdb) (hdb₁ ▸ hope)
    rcases hend with ⟨hab, hbac, hmem⟩ | ⟨_, hcom, hmem⟩
    · -- the block was rolled back without an exception
      rw [hbac, hmem]
      exact hdb.settled (habo hab)
    · rwa [hcom, hmem]
  | error e t =>
    simp only [hinn] at h hlap
    have hbac := atomic_eq_error hinn
    have hpk' := pk_of_keepsHolders
      (holders_atomic false (holders_completion wk.keepsHolders_true now completion)) s
    rw [hinn] at hpk'
    refine (exception_settled h (hpk'.trans hpk) (hbac ▸ hdb) ?_).1
    intro htra
    simpa [htra] using hlap

lemma completeLocked_settled (h : completeLocked wk now completion s = .ok () s')
    (hpk : s.mem.pk = pk) (hdb : Framed pk db s.db) (hope : (s.db.unit pk).state ≠ .succeeded)
    (hlap : lapsed wk now completion s = false) :
    Settled wk now db (s'.db.unit pk).state s'.db := by
  obtain ⟨_, s₁, hatt, h₁⟩ := bind_eq_ok.1 h
  obtain ⟨_, s₂, hsav, hpay⟩ := bind_eq_ok.1 h₁
  obtain ⟨_, _, hdb', _⟩ := aborted_of_dbCall hpay
  obtain ⟨hdb₂, _, _⟩ := save_ok hsav
  have hset := attempt_settled hatt hpk hdb hope hlap
  have hkee := pk_of_keepsHolders (holders_attempt
    (holders_atomic false (holders_completion wk.keepsHolders_true now completion))
      (holders_exception wk now)) s
  rw [hatt] at hkee
  rw [hdb', hdb₂, show s₁.mem.pk = pk from hkee.trans hpk]
  simpa using hset.save s₁.mem.row

lemma lockLeased_ok {hld : String} {found : Bool} (h : lockLeased pk hld s = .ok found s') :
    (found = false ∧ s'.db = s.db) ∨ (found = true ∧ s'.mem = (s.db.fetch pk).clearLease ∧
    ((s.db.unit pk).leaseHolder = hld ∧ (s.db.unit pk).state = .leased) ∧
    s'.db = s.db.setUnit pk (s.db.fetch pk).clearLease.row) := by
  obtain ⟨_, s₁, hset, h₁⟩ := bind_eq_ok.1 h
  obtain ⟨_, _, hdb₁, _⟩ := aborted_of_dbCall hset
  obtain ⟨ref, s₂, hque, h₂⟩ := bind_eq_ok.1 h₁
  obtain ⟨_, s₃, hcal, hrea⟩ := bind_eq_ok.1 hque
  obtain ⟨_, _, hdb₂, _⟩ := aborted_of_dbCall hcal
  cases hrea
  have hdb := hdb₂.trans hdb₁
  rw [hdb] at h₂
  by_cases hhel : pk < s.db.nextPk ∧ (s.db.unit pk).leaseHolder = hld ∧ (s.db.unit pk).state = .leased
  · simp only [hhel, and_self, if_true] at h₂
    obtain ⟨_, s₄, hasg, h₃⟩ := bind_eq_ok.1 h₂
    cases hasg
    obtain ⟨_, s₅, hsav, h₄⟩ := bind_eq_ok.1 h₃
    obtain ⟨hdb₅, hmem₅, _⟩ := save_ok hsav
    cases h₄
    exact .inr ⟨rfl, hmem₅, hhel.2, by rw [hdb₅]; simp only [hdb]; rfl⟩
  · simp only [hhel, if_false] at h₂
    cases h₂
    exact .inl ⟨rfl, hdb⟩

lemma complete_cases (wk : Worker pk) (hld : String) (now : Nat)
    (com : Completion) (s : Session Db Instance PyException) :
    (final (complete wk hld now com s)).db = s.db ∨ ∃ locked done,
    (dbCall >>= fun _ => lockLeased pk hld : M Bool) s = .ok true locked ∧
      locked.mem = (s.db.fetch pk).clearLease ∧
    ((s.db.unit pk).leaseHolder = hld ∧ (s.db.unit pk).state = .leased) ∧
    locked.db = s.db.setUnit pk (s.db.fetch pk).clearLease.row ∧
    completeLocked wk now com locked = .ok () done ∧
    (final (complete wk hld now com s)).db = done.db := by
  unfold complete attempt
  cases hout : atomic true (do
      if ← lockLeased pk hld then
        completeLocked wk now com : M Unit) s with
  | error e t =>
    -- an exception leaves the database as it was, whether it is swallowed or not
    refine .inl ?_
    have hbac := atomic_eq_error hout
    simp only
    split <;> exact hbac
  | ok u t =>
    obtain ⟨s₁, s₂, hbeg, hbod, hend⟩ := atomic_eq_ok hout
    obtain ⟨_, _, hdb₁, _⟩ := aborted_of_dbCall hbeg
    obtain ⟨found, s₃, hloc, hres⟩ := bind_eq_ok.1 hbod
    rcases hend with ⟨_, hbac, _⟩ | ⟨_, hcom, _⟩
    · exact .inl hbac
    rcases lockLeased_ok hloc with ⟨rfl, hdb₃⟩ | ⟨rfl, hmem₃, hhel, hdb₃⟩
    · cases hres
      exact .inl (hcom.trans (hdb₃.trans hdb₁))
    · rw [hdb₁] at hmem₃ hhel hdb₃
      exact .inr ⟨s₃, s₂, by rw [bind_of_ok hbeg, hloc], hmem₃, hhel, hdb₃, hres, hcom⟩

/-- Whichever statements failed, the completion was applied in full, was not applied, or has failed
permanently, unless it lapsed. -/
theorem complete_settled (worker : Worker pk) (holder : String) (now : Nat)
    (completion : Completion) (s : Session Db Instance PyException)
    (hleased : (s.db.unit pk).state = .leased)
    (hlapse : lapses worker holder now completion s = false) :
    Settled worker now s.db ((final (complete worker holder now completion s)).db.unit pk).state
    (final (complete worker holder now completion s)).db := by
  rcases complete_cases worker holder now completion s with
    hsam | ⟨locked, done, hloc, hmem, _, hdb, hrun, hdon⟩
  · rw [hsam]
    exact .inr (.inl ⟨by simp [hleased], fun _ _ _ => rfl⟩)
  rw [hdon]
  refine completeLocked_settled hrun (by rw [hmem]; rfl)
    (hdb ▸ ⟨Nat.le_refl _, fun _ _ h => h, fun p _ hne => by simp [hne]⟩) ?_ ?_
  · rw [hdb]
    simp [clearLease, hleased]
  · rwa [lapses, hloc] at hlapse

end Complete

/-! ## Concrete completions -/

def Callback.skip (pk : Nat) {α : Type} (a : α) : Callback pk α where
  body db := .ok (a, db)
  framed h := by
    cases h
    exact ⟨Nat.le_refl _, fun _ _ h => h, fun _ _ _ => rfl⟩
  unfinished h hopen := by
    cases h
    exact hopen

def Worker.default (pk : Nat) : Worker pk where
  onSuccess := Callback.skip pk ()
  onReschedule := Callback.skip pk none
  onFailure := Callback.skip pk ()
  rerunRequirers := .ok true
  classifyError _ := .ok none
  transientErrorRetryDelay _ := .ok none

def waitingPair : Db where
  nextPk := 2
  unit pk :=
    if pk = 0 then
      { payloadCtype := 0, state := .leased, leaseHolder := "holder" }
    else
      { payloadCtype := 0, state := .pending, numUnsatisfiedRequirements := 1 }
  requires source target := source == 1 && target == 0
  deltas := []

theorem complete_settled_waitingPair :
    Settled (Worker.default 0) 7 waitingPair .succeeded
    (final (complete (Worker.default 0) "holder" 7 .success (quiet waitingPair default))).db :=
  complete_settled (.default 0) "holder" 7 .success (quiet waitingPair default) rfl (by decide)

def deadlockAtRequirers : Session Db Instance PyException where
  db := waitingPair
  mem := default
  faults := List.replicate 10 none ++ [some (.operationalError "deadlock detected")]
  aborted := false

def completedPair (completion : Completion) (s : Session Db Instance PyException) : Db :=
  (final (complete (Worker.default 0) "holder" 7 completion s)).db

/-- A permanent failure changes the requirers, and after a deadlock the unit has succeeded while the
requirer still waits. -/
theorem complete_not_all_or_nothing :
    (∃ completion, ((completedPair completion (quiet waitingPair default)).unit 0).state ≠ .succeeded ∧
    ¬ RequirersUnchanged 0 waitingPair (completedPair completion (quiet waitingPair default))) ∧
    (((completedPair .success deadlockAtRequirers).unit 0).state = .succeeded ∧
    1 ∈ waitingPair.requirers 0 ∧ (waitingPair.unit 1).state = .pending ∧
    (completedPair .success deadlockAtRequirers).unit 1 = waitingPair.unit 1) := by
  refine ⟨⟨.failure (.workException .permanent), by decide, ?_⟩, by decide⟩
  intro hunc
  have hsam := hunc 1 (by decide) (by decide)
  revert hsam
  decide

end Toolchain.Workflow
