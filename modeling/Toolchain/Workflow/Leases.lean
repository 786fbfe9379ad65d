import Toolchain.Workflow.Executor

/-!
# Leases — dispatchers, executors and the recoverer

A dispatcher leases `READY` units under new identifiers and hands each to an executor, whose `_complete`
looks the row up by the identifier; meanwhile the recoverer may revoke the lease.  The machine
interleaves their transactions, and logs leases and completions, the latest first.
-/

namespace Toolchain.Workflow

open Lib List Instance

/-! ## Workers -/

/-- What a callback does to the column: it may clear a holder, but it writes no identifier. -/
def Callback.KeepsLeases {pk : Nat} {α : Type} (callback : Callback pk α) : Prop :=
  ∀ db a db', callback.body db = .ok (a, db') → ∀ p,
    (db'.unit p).leaseHolder = "" ∨ (db'.unit p).leaseHolder = (db.unit p).leaseHolder

structure LeaseWorker (pk : Nat) extends Worker pk where
  onSuccess_keepsLeases : onSuccess.KeepsLeases
  onReschedule_keepsLeases : onReschedule.KeepsLeases
  onFailure_keepsLeases : onFailure.KeepsLeases

lemma Callback.KeepsLeases.holders {pk : Nat} {α : Type} {callback : Callback pk α}
    (h : callback.KeepsLeases) {H : Nat → String → Prop} (hempty : ∀ p, H p "") : callback.KeepsHolders H := by
  intro db a db' hbody hdb p
  rcases h db a db' hbody p with hnone | hsame
  · exact hnone ▸ hempty p
  · exact hsame ▸ hdb p

lemma LeaseWorker.keepsHolders {pk : Nat} (wk : LeaseWorker pk) {H : Nat → String → Prop}
    (hempty : ∀ p, H p "") : wk.KeepsHolders H :=
  ⟨wk.onSuccess_keepsLeases.holders hempty, wk.onReschedule_keepsLeases.holders hempty,
    wk.onFailure_keepsLeases.holders hempty⟩

/-! ## Dispatcher and recoverer -/

structure WorkDispatcher where
  selects : Instance → Bool
  batchSize : Nat
  node : String
  leaseSecs : Nat → Option (WorkUnit → Nat)

def WorkDispatcher.lease (dispatcher : WorkDispatcher) (uuid : Nat → String) (now : Nat)
    (workUnit : Instance) : M Instance :=
  onObject workUnit (match dispatcher.leaseSecs workUnit.row.payloadCtype with
    | none => throw (.other "No Worker subclass registered for work unit")
    | some leaseSecs => do
        takeLease (uuid workUnit.pk) (now + leaseSecs workUnit.row) now dispatcher.node
        object)

/-- `uuid` are the identifiers that `take_lease` makes.  The query is not ordered and skips locked rows,
so it may return any rows. -/
def WorkDispatcher.fetchOneWorkBatch (dispatcher : WorkDispatcher) (unlocked : Finset Nat)
    (uuid : Nat → String) (now : Nat) : M (List Instance) := do
  let workUnits ← query fun db =>
    (((range db.nextPk).filter fun pk =>
      decide (pk ∈ unlocked ∧ (db.unit pk).state = .ready) &&
        dispatcher.selects (db.fetch pk)).take dispatcher.batchSize).map db.fetch
  workUnits.mapM (dispatcher.lease uuid now)

def WorkUnit.isExpired (row : WorkUnit) (now : Nat) : Bool :=
  match row.leasedUntil with
  | none => true
  | some t => decide (t < now)

def recoverExpiredWork (unlocked : Finset Nat) (batchSize now : Nat) : M Nat := do
  let workUnits ← query fun db =>
    (((range db.nextPk).filter fun pk =>
      decide (pk ∈ unlocked ∧ (db.unit pk).state = .leased) && (db.unit pk).isExpired now).take
        batchSize).map db.fetch
  workUnits.forM fun workUnit => onObject workUnit revokeLease
  return workUnits.length

/-! ## The machine -/

inductive LeaseRecord
  | granted (pk : Nat) (holder : String)
  | completed (pk : Nat) (holder : String)
  deriving DecidableEq, Repr

def Instance.grant (self : Instance) : LeaseRecord :=
  .granted self.pk self.row.leaseHolder

structure LeaseSystem where
  db : Db
  executors : List Instance
  log : List LeaseRecord

inductive LeaseEvent
  | fetch (dispatcher : WorkDispatcher) (unlocked : Finset Nat) (uuid : Nat → String) (now : Nat)
  | recover (unlocked : Finset Nat) (batchSize now : Nat)
  | transit (t : Transition)
  | complete (executor : Nat) (worker : (pk : Nat) → LeaseWorker pk) (now : Nat)
      (completion : Completion) (faults : List (Option PyException))

namespace LeaseSystem

def init : LeaseSystem where
  db := Db.empty
  executors := []
  log := []

def complete (s : LeaseSystem) (self : Instance) (worker : LeaseWorker self.pk) (now : Nat)
    (completion : Completion) (faults : List (Option PyException)) : LeaseSystem :=
  let db := (final (Workflow.complete worker.toWorker self.row.leaseHolder now completion
    { db := s.db, mem := self, faults := faults, aborted := false })).db
  { s with
    db := db
    log :=
      if db.unit self.pk = s.db.unit self.pk then s.log
      else .completed self.pk self.row.leaseHolder :: s.log }

def step (s : LeaseSystem) : LeaseEvent → LeaseSystem
  | .fetch dispatcher unlocked uuid now =>
    match atomic true (dispatcher.fetchOneWorkBatch unlocked uuid now) (quiet s.db default) with
    | .ok leased t =>
      { db := t.db, executors := s.executors ++ leased, log := leased.map grant ++ s.log }
    | .error _ _ => s
  | .recover unlocked batchSize now =>
    { s with db := s.db.transaction (recoverExpiredWork unlocked batchSize now) }
  | .transit t =>
    -- only dispatchers take leases
    if t.takesLease then s else { s with db := s.db.transit t }
  | .complete executor worker now completion faults =>
    match s.executors[executor]? with
    | none => s
    | some self => s.complete self (worker self.pk) now completion faults

/-- A dispatcher makes an identifier that the unit was not leased under before. -/
def FreshIds (s : LeaseSystem) : LeaseEvent → Prop
  | .fetch _ unlocked uuid _ => ∀ pk ∈ unlocked, uuid pk ≠ "" ∧ LeaseRecord.granted pk (uuid pk) ∉ s.log
  | _ => True

instance (s : LeaseSystem) (e : LeaseEvent) : Decidable (s.FreshIds e) := by
  cases e <;> (unfold FreshIds; infer_instance)

/-- The lease under which `self` was taken is still the one on the row. -/
def Held (s : LeaseSystem) (self : Instance) : Prop :=
  (s.db.unit self.pk).leaseHolder = self.row.leaseHolder ∧ (s.db.unit self.pk).state = .leased

end LeaseSystem

/-! ## The log -/

def lastGrant (pk : Nat) : List LeaseRecord → Option String
  | [] => none
  | .granted p holder :: older => if p = pk then some holder else lastGrant pk older
  | .completed _ _ :: older => lastGrant pk older

/-- Every completion is the first one of its lease, and no other lease on the unit was granted
before it. -/
def Fenced : List LeaseRecord → Prop
  | [] => True
  | .granted _ _ :: older => Fenced older
  | .completed pk holder :: older =>
    lastGrant pk older = some holder ∧ .completed pk holder ∉ older ∧ Fenced older

lemma granted_mem_of_lastGrant {pk : Nat} {hld : String} :
    ∀ {log : List LeaseRecord}, lastGrant pk log = some hld → .granted pk hld ∈ log
  | .granted p h :: older, hlas => by
      unfold lastGrant at hlas
      split at hlas
      · rename_i hp
        cases hlas
        exact hp ▸ (.head _)
      · exact .tail _ (granted_mem_of_lastGrant hlas)
  | .completed p h :: older, hlas => by
      have hold := hlas
      exact .tail _ (granted_mem_of_lastGrant hold)

lemma Fenced.granted_mem {pk : Nat} {hld : String} :
    ∀ {log : List LeaseRecord}, Fenced log → .completed pk hld ∈ log → .granted pk hld ∈ log
  | .granted p h :: older, hfen, hmem => by
      have hold : Fenced older := hfen
      have htai : LeaseRecord.completed pk hld ∈ older := by simpa using hmem
      exact .tail _ (hold.granted_mem htai)
  | .completed p h :: older, hfen, hmem => by
      obtain ⟨hlas, _, hold⟩ := hfen
      rcases mem_cons.1 hmem with hhea | htai
      · cases hhea
        exact .tail _ (granted_mem_of_lastGrant hlas)
      · exact .tail _ (hold.granted_mem htai)

def Live (log : List LeaseRecord) (pk : Nat) (holder : String) : Prop :=
  holder = "" ∨ (lastGrant pk log = some holder ∧ LeaseRecord.completed pk holder ∉ log)

lemma live_empty (log : List LeaseRecord) (pk : Nat) : Live log pk "" := .inl rfl

lemma Live.completed {log : List LeaseRecord} {pk p : Nat} {hld h : String}
    (hliv : Live log p h) (hne : p ≠ pk) : Live (.completed pk hld :: log) p h := by
  rcases hliv with rfl | ⟨hlas, hope⟩
  · exact live_empty _ p
  refine .inr ⟨hlas, ?_⟩
  intro hmem
  rcases mem_cons.1 hmem with hhea | htai
  · cases hhea
    exact hne rfl
  · exact hope htai

section Grants

variable {log : List LeaseRecord} {leased : List Instance} {pk : Nat}

lemma fenced_grants : Fenced (leased.map grant ++ log) ↔ Fenced log := by
  induction leased with
  | nil => exact Iff.rfl
  | cons self leased ih => exact ih

lemma lastGrant_of_notMem (h : ∀ self ∈ leased, self.pk ≠ pk) :
    lastGrant pk (leased.map grant ++ log) = lastGrant pk log := by
  induction leased with
  | nil => rfl
  | cons self leased ih =>
    have hsel := h self (.head _)
    simp only [map_cons, cons_append, grant, lastGrant, if_neg hsel]
    exact ih fun o ho => h o (.tail _ ho)

lemma lastGrant_of_mem {uuid : Nat → String} (huui : ∀ self ∈ leased, self.row.leaseHolder = uuid self.pk)
    (h : ∃ self ∈ leased, self.pk = pk) :
    lastGrant pk (leased.map grant ++ log) = some (uuid pk) := by
  induction leased with
  | nil => simp at h
  | cons self leased ih =>
    simp only [map_cons, cons_append, grant, lastGrant]
    split
    · rename_i hsel
      rw [huui self (.head _), hsel]
    rename_i hsel
    refine ih (fun o ho => huui o (.tail _ ho)) ?_
    obtain ⟨o, ho, hpk⟩ := h
    rcases mem_cons.1 ho with rfl | ho
    · exact absurd hpk hsel
    · exact ⟨o, ho, hpk⟩

lemma completed_mem_grants {hld : String} : .completed pk hld ∈ leased.map grant ++ log ↔
    LeaseRecord.completed pk hld ∈ log := by
  simp [grant]

end Grants

/-! ## Fetching -/

structure Granted (uuid : Nat → String) (db : Db) (leased : List Instance) (db' : Db) : Prop where
  holder : ∀ self ∈ leased, self.row.state = .leased ∧ self.row.leaseHolder = uuid self.pk
  row : ∀ self ∈ leased, db'.unit self.pk = self.row
  other : ∀ pk, (∀ self ∈ leased, self.pk ≠ pk) → db'.unit pk = db.unit pk

section Fetch

variable (dispatcher : WorkDispatcher) (uuid : Nat → String) (now : Nat) (self : Instance)

lemma lease_quiet (db : Db) {wu : Instance} (hrea : wu.row.state = .ready) :
    (∃ e s, dispatcher.lease uuid now wu (quiet db self) = .error e s) ∨
    ∃ leased : Instance, leased.pk = wu.pk ∧ leased.row.state = .leased ∧
    leased.row.leaseHolder = uuid wu.pk ∧ dispatcher.lease uuid now wu (quiet db self) =
    .ok leased (quiet (db.rewrite wu leased) self) := by
  unfold WorkDispatcher.lease
  cases dispatcher.leaseSecs wu.row.payloadCtype with
  | none => exact .inl ⟨_, _, rfl⟩
  | some secs =>
    have hlea := takeLease_quiet db wu hrea (uuid wu.pk) (now + secs wu.row) now dispatcher.node
    exact .inr ⟨wu.lease (uuid wu.pk) (now + secs wu.row) now dispatcher.node, rfl, rfl, rfl,
      onObject_quiet db self ((bind_of_ok hlea).trans (object_quiet _ _))⟩

lemma lease_all_quiet : ∀ (wus : List Instance) (db : Db), (wus.map pk).Nodup →
    (∀ workUnit ∈ wus, workUnit.row.state = .ready) →
    (∃ e s, wus.mapM (dispatcher.lease uuid now) (quiet db self) = .error e s) ∨
    ∃ leased db', leased.map pk = wus.map pk ∧
    Granted uuid db leased db' ∧ wus.mapM (dispatcher.lease uuid now) (quiet db self) =
    .ok leased (quiet db' self)
  | [], db, _, _ => .inr ⟨[], db, rfl, ⟨by simp, by simp, fun _ _ => rfl⟩, rfl⟩
  | workUnit :: wus, db, hnod, hrea => by
      rw [mapM_cons]
      obtain ⟨hfir, hnod⟩ := nodup_cons.1 hnod
      rcases lease_quiet dispatcher uuid now self db (hrea workUnit (.head _)) with
        ⟨e, s, herr⟩ | ⟨o, hpk, hsta, hhol, hlea⟩
      · exact .inl ⟨e, s, bind_of_error herr⟩
      rw [bind_of_ok hlea]
      rcases lease_all_quiet wus (db.rewrite workUnit o) hnod fun w hw => hrea w (.tail _ hw) with
        ⟨e, s, herr⟩ | ⟨leased, db', hpks, hgra, hres⟩
      · exact .inl ⟨e, s, bind_of_error herr⟩
      rw [bind_of_ok hres]
      have hnot : ∀ other ∈ leased, other.pk ≠ workUnit.pk := by
        intro other hoth heq
        exact hfir (heq ▸ hpks ▸ mem_map_of_mem hoth)
      refine .inr ⟨o :: leased, db', by simp [hpk, hpks], ⟨?_, ?_, ?_⟩, rfl⟩
      · intro other hoth
        rcases mem_cons.1 hoth with rfl | hoth
        · exact ⟨hsta, hpk ▸ hhol⟩
        · exact hgra.holder other hoth
      · intro other hoth
        rcases mem_cons.1 hoth with rfl | hoth
        · -- the later rounds do not touch this row
          rw [hpk, hgra.other _ hnot]
          simp
        · exact hgra.row other hoth
      · intro pk hpk'
        have hne : pk ≠ workUnit.pk := fun heq => hpk' o (.head _) (hpk.trans heq.symm)
        rw [hgra.other pk fun other hoth => hpk' other (.tail _ hoth)]
        simp [hne]

lemma fetchBatch_quiet (unl : Finset Nat) (db : Db) :
    (∃ e s, atomic true (dispatcher.fetchOneWorkBatch unl uuid now) (quiet db self) = .error e s) ∨
    ∃ leased db', (∀ o ∈ leased, o.pk ∈ unl) ∧ Granted uuid db leased db' ∧
    atomic true (dispatcher.fetchOneWorkBatch unl uuid now) (quiet db self) =
      .ok leased (quiet db' self) := by
  set pks := ((range db.nextPk).filter fun pk =>
    decide (pk ∈ unl ∧ (db.unit pk).state = .ready) &&
      dispatcher.selects (db.fetch pk)).take dispatcher.batchSize with hpks
  have hmem : ∀ pk ∈ pks, pk ∈ unl ∧ (db.unit pk).state = .ready := by
    intro pk hpk
    have hsel := (mem_filter.1 (mem_of_mem_take hpk)).2
    rw [Bool.and_eq_true] at hsel
    exact of_decide_eq_true hsel.1
  have hmap : (pks.map db.fetch).map pk = pks := by
    rw [map_map]
    exact map_id pks
  have hnod : ((pks.map db.fetch).map pk).Nodup := by
    rw [hmap, hpks]
    exact (nodup_range.filter _).sublist (take_sublist _ _)
  have hrea : ∀ workUnit ∈ pks.map db.fetch, workUnit.row.state = .ready := by
    intro workUnit hwor
    obtain ⟨pk, hpk, rfl⟩ := mem_map.1 hwor
    exact (hmem pk hpk).2
  rcases lease_all_quiet dispatcher uuid now self (pks.map db.fetch) db hnod hrea with
    ⟨e, s, herr⟩ | ⟨leased, db', hlea, hgra, hrun⟩
  · obtain ⟨s', hato, _⟩ :=
      atomic_quiet_error db self true (m := dispatcher.fetchOneWorkBatch unl uuid now) herr
    exact .inl ⟨e, s', hato⟩
  · refine .inr ⟨leased, db', ?_, hgra, atomic_quiet db self true hrun⟩
    intro o ho
    have hpk : o.pk ∈ pks := hmap ▸ hlea ▸ mem_map_of_mem ho
    exact (hmem _ hpk).1

end Fetch

/-! ## Completing -/

lemma complete_fenced {pk : Nat} (wk : LeaseWorker pk) (hld : String) (now : Nat)
    (compl : Completion) (s : Session Db Instance PyException) :
    (final (complete wk.toWorker hld now compl s)).db = s.db ∨
    (((s.db.unit pk).leaseHolder = hld ∧ (s.db.unit pk).state = .leased) ∧
    ∀ H : Nat → String → Prop, (∀ p, H p "") → (∀ p, p ≠ pk → H p (s.db.unit p).leaseHolder) →
    (final (complete wk.toWorker hld now compl s)).db.Holders H) := by
  rcases complete_cases wk.toWorker hld now compl s with
    hsam | ⟨locked, done, _, hmem, hhel, hdb, hrun, hdon⟩
  · exact .inl hsam
  refine .inr ⟨hhel, fun H hemp hoth => ?_⟩
  have hloc : locked.db.Holders H := by
    intro p
    rw [hdb]
    by_cases hp : p = pk
    · subst hp
      simpa [clearLease] using hemp p
    · simpa [hp] using hoth p hp
  have hkep := (holders_completeLocked (wk.keepsHolders hemp) now compl pk locked hloc
    ⟨by rw [hmem]; rfl, by rw [hmem]; exact hemp pk⟩).1
  rw [hdon]
  rwa [hrun] at hkep

namespace LeaseSystem

/-! ## The invariant -/

structure Inv (s : LeaseSystem) : Prop where
  holders : s.db.Holders (Live s.log)
  executors : ∀ self ∈ s.executors, self.row.leaseHolder ≠ ""
  fenced : Fenced s.log

lemma inv_init : Inv init where
  holders := fun pk => live_empty _ pk
  executors := fun _ h => by cases h
  fenced := trivial

variable {s : LeaseSystem}

lemma Inv.fetch (h : s.Inv) {uuid : Nat → String} {leased : List Instance} {db' : Db}
    (hgra : Granted uuid s.db leased db')
    (hfre : ∀ self ∈ leased, uuid self.pk ≠ "" ∧ LeaseRecord.granted self.pk (uuid self.pk) ∉ s.log) :
    Inv { db := db', executors := s.executors ++ leased,
          log := leased.map grant ++ s.log } where
  holders pk := by
    by_cases hpk : ∃ self ∈ leased, self.pk = pk
    · obtain ⟨self, hsel, rfl⟩ := hpk
      have hhol : (db'.unit self.pk).leaseHolder = uuid self.pk := by
        rw [hgra.row self hsel]
        exact (hgra.holder self hsel).2
      rw [hhol]
      refine .inr ⟨lastGrant_of_mem (fun o ho => (hgra.holder o ho).2) ⟨self, hsel, rfl⟩, ?_⟩
      intro hmem
      -- a completed lease was granted before, so its identifier is not fresh
      exact (hfre self hsel).2 (h.fenced.granted_mem (completed_mem_grants.1 hmem))
    · have hoth : ∀ self ∈ leased, self.pk ≠ pk := fun self hsel heq => hpk ⟨self, hsel, heq⟩
      rw [hgra.other pk hoth]
      rcases h.holders pk with hnon | ⟨hlas, hope⟩
      · exact .inl hnon
      · exact .inr ⟨(lastGrant_of_notMem hoth).trans hlas, fun hmem => hope (completed_mem_grants.1 hmem)⟩
  executors self hsel := by
    rcases mem_append.1 hsel with hold | hnew
    · exact h.executors self hold
    · rw [(hgra.holder self hnew).2]
      exact (hfre self hnew).1
  fenced := fenced_grants.2 h.fenced

lemma Inv.complete (h : s.Inv) {self : Instance} (hsel : self.row.leaseHolder ≠ "")
    (wk : LeaseWorker self.pk) (now : Nat) (compl : Completion)
    (faults : List (Option PyException)) :
    (s.complete self wk now compl faults).Inv := by
  unfold LeaseSystem.complete
  rcases complete_fenced wk self.row.leaseHolder now compl
      { db := s.db, mem := self, faults := faults, aborted := false } with
    hsam | ⟨⟨hhol, _⟩, hkep⟩
  · rw [hsam]
    simpa using h
  have hcle := hkep (fun p x => p = self.pk → x = "") (fun _ _ => rfl) (fun p hne heq => absurd heq hne) self.pk rfl
  have hcha : (final (Workflow.complete wk.toWorker self.row.leaseHolder now compl
      { db := s.db, mem := self, faults := faults, aborted := false })).db.unit self.pk ≠
        s.db.unit self.pk := by
    intro heq
    rw [heq] at hcle
    exact hsel (hhol.symm.trans hcle)
  have hliv := h.holders self.pk
  rw [show (s.db.unit self.pk).leaseHolder = self.row.leaseHolder from hhol] at hliv
  obtain ⟨hlas, hope⟩ := hliv.resolve_left hsel
  simp only [if_neg hcha]
  exact {
    holders := hkep (Live _) (live_empty _) fun p hne => (h.holders p).completed hne, executors :=
      h.executors
    fenced := ⟨hlas, hope, h.fenced⟩ }

lemma inv_step (e : LeaseEvent) (h : s.Inv) (hfre : s.FreshIds e) : (s.step e).Inv := by
  cases e with
  | fetch dis unl uuid now =>
    rcases fetchBatch_quiet dis uuid now default unl s.db with
      ⟨e, t, herr⟩ | ⟨leased, db', hunl, hgra, hrun⟩
    · simp only [step, herr]
      exact h
    · simp only [step, hrun]
      exact h.fetch hgra fun self hsel => hfre self.pk (hunl self hsel)
  | recover unl batchSize now =>
    refine ⟨h.holders.transaction ?_ (live_empty _), h.executors, h.fenced⟩
    exact holders_fetched fun _ hos =>
      holders_bind (holders_forM hos fun _ => holders_revokeLease) fun _ => holders_pure _
  | transit t =>
    simp only [step]
    split
    · exact h
    · rename_i ht
      exact ⟨h.holders.transit (live_empty _) (Bool.eq_false_iff.2 ht), h.executors, h.fenced⟩
  | complete exec wor now compl faul =>
    simp only [step]
    cases hsel : s.executors[exec]? with
    | none => exact h
    | some self => exact h.complete (h.executors self (mem_of_getElem? hsel)) _ _ _ _

lemma held_of_complete {exec : Nat} {wk : (pk : Nat) → LeaseWorker pk} {now : Nat}
    {compl : Completion} {faults : List (Option PyException)} {pk : Nat}
    (hcha : (s.step (.complete exec wk now compl faults)).db.unit pk ≠ s.db.unit pk) :
    ∃ self, s.executors[exec]? = some self ∧ s.Held self := by
  simp only [step] at hcha
  cases hsel : s.executors[exec]? with
  | none =>
    simp only [hsel] at hcha
    exact absurd rfl hcha
  | some self =>
    simp only [hsel] at hcha
    rcases complete_fenced (wk self.pk) self.row.leaseHolder now compl
        { db := s.db, mem := self, faults := faults, aborted := false } with
      hsam | ⟨hhel, _⟩
    · exact absurd (congrArg (fun db : Db => db.unit pk) hsam) hcha
    · exact ⟨self, rfl, hhel⟩

/-- With fresh identifiers a completion changes rows only if its lease is still on the row; so each
lease is completed at most once, and never after another lease on the unit. -/
theorem leases_fenced (events : List LeaseEvent) (hfresh : Guarded step FreshIds init events) :
    ∀ s ∈ trace step init events, (∀ executor worker now completion faults pk,
    (s.step (.complete executor worker now completion faults)).db.unit pk ≠ s.db.unit pk →
    ∃ self, s.executors[executor]? = some self ∧ s.Held self) ∧
    Fenced s.log := by
  intro s hs
  have hinv := forall_trace_of_guarded Inv (fun _ e h hgua => inv_step e h hgua) inv_init hfresh s hs
  exact ⟨fun _ _ _ _ _ _ => held_of_complete, hinv.fenced⟩

def defaultWorker (pk : Nat) : LeaseWorker pk where
  toWorker := Worker.default pk
  onSuccess_keepsLeases := fun _ _ _ h _ => by
    cases h
    exact Or.inr rfl
  onReschedule_keepsLeases := fun _ _ _ h _ => by
    cases h
    exact Or.inr rfl
  onFailure_keepsLeases := fun _ _ _ h _ => by
    cases h
    exact Or.inr rfl

def minuteDispatcher : WorkDispatcher where
  selects _ := true
  batchSize := 2
  node := "node"
  leaseSecs _ := some fun _ => 60

def contestedRun : List LeaseEvent :=
  [.transit (.perform (.create 0 0)), .fetch minuteDispatcher {0} (fun _ => "first") 0,
    .recover {0} 10 100, .fetch minuteDispatcher {0} (fun _ => "second") 100,
    .complete 0 defaultWorker 110 .success [],
    .complete 1 defaultWorker 120 .success []]

theorem leases_fenced_contestedRun :
    Fenced (run step init contestedRun).log ∧ (run step init contestedRun).log =
    [.completed 0 "second", .granted 0 "second", .granted 0 "first"] :=
  ⟨(leases_fenced contestedRun (by decide) _ (run_mem_trace _ _)).2, by decide⟩

end LeaseSystem

end Toolchain.Workflow
