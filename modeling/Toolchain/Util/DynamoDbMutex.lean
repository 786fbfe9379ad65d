import Toolchain.Lib.Run
import Toolchain.Lib.Text

/-!
# DynamoDbMutex — a lock that is a row of a table

`lock` is two conditional puts, each after a reading of the clock: the first clears an item that has
expired, the second writes the holder.  An item is cleared by another only if its second is before that
of an earlier reading, so no two clients hold it (`holding_unique`).

Models `util/dynamodb_mutex/mutex.py` and `put_item` of `aws/dynamodb.py`.
-/

namespace Toolchain.Util

open Lib Function

/-! ## The table -/

abbrev Moment := Int

def timestamp (moment : Moment) : Int :=
  moment.tdiv 1000000

def noHolder : Text := "__empty__".toList

structure LockItem where
  lockname : Text
  expireTs : Int
  holder : Text
  ttl : Option Int
deriving DecidableEq

inductive Condition
  | checkHolder (lockHolder : Text)
  | pruneExpired (nowTs : Int)

def Condition.holds : Condition → Option LockItem → Bool
  | _, none => true
  | .checkHolder lockHolder, some item => item.holder == lockHolder
  | .pruneExpired nowTs, some item => item.expireTs < nowTs

abbrev MutexTable := Text → Option LockItem

namespace MutexTable

def putItem (table : MutexTable) (record : LockItem) (condition : Condition) :
    Bool × MutexTable :=
  if condition.holds (table record.lockname) then
    (true, update table record.lockname (some record))
  else
    (false, table)

def checkHolder (holder : Text) : Bool :=
  !(holder == noHolder || holder.isEmpty)

def rowTtl : Int := 6 * 60 * 60 * 1000000

def writeLockItem (table : MutexTable) (lockName holder : Text) (expire : Moment) :
    Bool × MutexTable :=
  table.putItem
    { lockname := lockName, expireTs := timestamp expire, holder := holder
      ttl := some (timestamp (expire + rowTtl)) }
    (.checkHolder noHolder)

def getClearedLock (lockName : Text) : LockItem where
  lockname := lockName
  expireTs := 0
  holder := noHolder
  ttl := none

def clearLockItem (table : MutexTable) (lockName holder : Text) : Bool × MutexTable :=
  table.putItem (getClearedLock lockName) (.checkHolder holder)

def pruneExpired (table : MutexTable) (lockName : Text) (nowTs : Int) : Bool × MutexTable :=
  table.putItem (getClearedLock lockName) (.pruneExpired nowTs)

end MutexTable

/-! ## The clients -/

structure DynamoDbMutex where
  (lockname holder : Text)
  timeout : Int

inductive Point
  | idle
  | pruning (nowTs : Int)
  | pruned
  | writing (expire : Moment)
  | releasing
deriving DecidableEq

/-- How a put ends: with an answer, or with an error other than a failed condition, which leaves open
whether the put was made. -/
inductive Reply
  | answered
  | raised (made : Bool)
deriving DecidableEq

inductive MutexEvent (ι : Type)
  | tick (elapsed : Nat)
  | lock (client : ι)
  | release (client : ι)
  | advance (client : ι) (reply : Reply)

/-- The clock, the table and the clients.  `acquired` is when the locks expire that were taken since
`release` was last called. -/
structure MutexSystem (ι : Type) where
  clock : Moment
  table : MutexTable
  point : ι → Point
  acquired : ι → List Moment

namespace MutexSystem

variable {ι : Type} (clients : ι → DynamoDbMutex)

section Steps

variable [DecidableEq ι]

def tableAfter (s : MutexSystem ι) (reply : Reply) (put : Bool × MutexTable) : MutexTable :=
  match reply with
  | .answered => put.2
  | .raised made => if made then put.2 else s.table

def goTo (s : MutexSystem ι) (client : ι) (point : Point) : MutexSystem ι :=
  { s with point := update s.point client point }

def advance (s : MutexSystem ι) (client : ι) (reply : Reply) : MutexSystem ι :=
  let self := clients client
  match s.point client with
  | .idle => s
  | .pruning nowTs =>
    let table := s.tableAfter reply (s.table.pruneExpired self.lockname nowTs)
    { s.goTo client (if reply = .answered then .pruned else .idle) with table := table }
  | .pruned => s.goTo client (.writing (s.clock + self.timeout))
  | .writing expire =>
    let written := s.table.writeLockItem self.lockname self.holder expire
    { s.goTo client .idle with
      table := s.tableAfter reply written
      acquired :=
        if reply = .answered ∧ written.1 then
          update s.acquired client (expire :: s.acquired client)
        else s.acquired }
  | .releasing =>
    let table := s.tableAfter reply (s.table.clearLockItem self.lockname self.holder)
    { s.goTo client .idle with table := table }

def step (s : MutexSystem ι) : MutexEvent ι → MutexSystem ι
  | .tick elapsed => { s with clock := s.clock + elapsed }
  | .lock client =>
    if s.point client = .idle ∧ MutexTable.checkHolder (clients client).holder then
      s.goTo client (.pruning (timestamp s.clock))
    else s
  | .release client =>
    if s.point client = .idle then
      { s.goTo client (if MutexTable.checkHolder (clients client).holder then .releasing else .idle) with
        acquired := update s.acquired client [] }
    else s
  | .advance client reply => s.advance clients client reply

end Steps

def init (clock : Moment) (table : MutexTable) : MutexSystem ι where
  clock := clock
  table := table
  point := fun _ => .idle
  acquired := fun _ => []

/-- The client had `lock` return `True`, has not called `release` since, and its timeout has not
elapsed. -/
def Holding (s : MutexSystem ι) (client : ι) : Prop :=
  ∃ expire ∈ s.acquired client, s.clock ≤ expire

/-! ## One step -/

lemma timestamp_mono {mom moment' : Moment} (h : mom ≤ moment') : timestamp mom ≤ timestamp moment' :=
  Int.tdiv_le_tdiv (by decide) h

open MutexTable Condition MutexSystem

lemma putItem_cases (tbl : MutexTable) (rec : LockItem) (cond : Condition) :
    tbl.putItem rec cond = (false, tbl) ∨
    cond.holds (tbl rec.lockname) = true ∧ tbl.putItem rec cond =
      (true, update tbl rec.lockname (some rec)) := by
  unfold putItem
  split
  · rename_i hhol
    exact .inr ⟨hhol, rfl⟩
  · exact .inl rfl

/-- Whoever holds the lock is in its item, no reading of the clock is ahead of it, and who is about to
clear the item holds nothing. -/
structure Guards (name : Text) (s : MutexSystem ι) : Prop where
  owned : ∀ client, ∀ expire ∈ s.acquired client, s.clock ≤ expire →
    ∃ item, s.table name = some item ∧ item.holder = (clients client).holder ∧
      item.expireTs = timestamp expire
  reading : ∀ client nowTs, s.point client = .pruning nowTs → nowTs ≤ timestamp s.clock
  released : ∀ client, s.point client = .releasing → s.acquired client = []

variable {clients} {name : Text} {s : MutexSystem ι}

section

variable (h : s.Guards clients name)

include h

lemma Guards.not_holding_of_none (hnon : s.table name = none) (client : ι) : ¬s.Holding client := by
  rintro ⟨expire, hmem, hclo⟩
  obtain ⟨item, hite, -, -⟩ := h.owned client expire hmem hclo
  rw [hnon] at hite
  cases hite

lemma Guards.not_holding_of_expired {nowTs : Int} (hnow : nowTs ≤ timestamp s.clock)
    (hhol : (pruneExpired nowTs).holds (s.table name) = true) (client : ι) :
    ¬s.Holding client := by
  cases hite : s.table name with
  | none => exact h.not_holding_of_none hite client
  | some item =>
    rintro ⟨expire, hmem, hclo⟩
    obtain ⟨item', hitem', -, hexp⟩ := h.owned client expire hmem hclo
    obtain rfl := Option.some.inj (hite.symm.trans hitem')
    have hlt : item.expireTs < nowTs := by simpa [hite, holds] using hhol
    have hle := timestamp_mono hclo
    omega

lemma Guards.not_holding_of_holder {holder : Text}
    (hhol : (Condition.checkHolder holder).holds (s.table name) = true)
    (hhold : ∀ client, (clients client).holder = holder → s.acquired client = []) (client : ι) :
    ¬s.Holding client := by
  cases hite : s.table name with
  | none => exact h.not_holding_of_none hite client
  | some item =>
    rintro ⟨expire, hmem, hclo⟩
    obtain ⟨item', hitem', hnam, -⟩ := h.owned client expire hmem hclo
    obtain rfl := Option.some.inj (hite.symm.trans hitem')
    have heq : item.holder = holder := by simpa [hite, holds] using hhol
    rw [hhold client (hnam.symm.trans heq)] at hmem
    cases hmem

end

lemma tableAfter_eq_or_holds (rpl : Reply) (rec : LockItem) (cond : Condition) :
    s.tableAfter rpl (s.table.putItem rec cond) = s.table ∨ cond.holds (s.table rec.lockname) = true := by
  rcases putItem_cases s.table rec cond with hput | ⟨hhol, -⟩
  · left
    cases rpl with
    | answered => rw [tableAfter, hput]
    | raised made =>
      rw [tableAfter, hput]
      exact ite_self _
  · exact .inr hhol

lemma Guards.put (h : s.Guards clients name) {rec : LockItem} {cond : Condition}
    (hnam : rec.lockname = name)
    (hfre : cond.holds (s.table name) = true → ∀ client, ¬s.Holding client) (rpl : Reply) :
    Guards clients name
    { s with table := s.tableAfter rpl (s.table.putItem rec cond) } where
  owned client expire hmem hclo := by
    rcases tableAfter_eq_or_holds rpl rec cond with hsam | hhol
    · rw [hsam]
      exact h.owned client expire hmem hclo
    · rw [hnam] at hhol
      exact absurd ⟨expire, hmem, hclo⟩ (hfre hhol client)
  reading := h.reading
  released := h.released

section Steps

variable [DecidableEq ι]

lemma Guards.goTo (h : s.Guards clients name) (cl : ι) {next : Point}
    (hrea : ∀ nowTs, next = .pruning nowTs → nowTs ≤ timestamp s.clock)
    (hrel : next = .releasing → s.acquired cl = []) :
    (s.goTo cl next).Guards clients name where
  owned := h.owned
  reading other nowTs hpoi := by
    by_cases hoth : other = cl
    · subst hoth
      exact hrea nowTs (by simpa [MutexSystem.goTo] using hpoi)
    · exact h.reading other nowTs (by simpa [MutexSystem.goTo, hoth] using hpoi)
  released other hpoi := by
    by_cases hoth : other = cl
    · subst hoth
      exact hrel (by simpa [MutexSystem.goTo] using hpoi)
    · exact h.released other (by simpa [MutexSystem.goTo, hoth] using hpoi)

lemma Guards.acquire (h : s.Guards clients name) (cl : ι) {expire : Moment}
    (hnam : (clients cl).lockname = name)
    (hfre : ∀ cl, ¬s.Holding cl) (hpoi : s.point cl ≠ .releasing) :
    Guards clients name
      { s with
        table := update s.table (clients cl).lockname (some
          { lockname := (clients cl).lockname, expireTs := timestamp expire, holder := (clients cl).holder
            ttl := some (timestamp (expire + rowTtl)) })
        acquired := update s.acquired cl (expire :: s.acquired cl) } where
  owned other expire' hmem hclo := by
    by_cases hoth : other = cl
    · subst hoth
      rcases List.mem_cons.1 (by simpa using hmem) with rfl | hold
      · exact ⟨_, by rw [hnam]; exact update_self .., rfl, rfl⟩
      · exact absurd ⟨expire', hold, hclo⟩ (hfre other)
    · have hold : expire' ∈ s.acquired other := by simpa [hoth] using hmem
      exact absurd ⟨expire', hold, hclo⟩ (hfre other)
  reading := h.reading
  released other hrel := by
    by_cases hoth : other = cl
    · subst hoth
      exact absurd hrel hpoi
    · simpa [hoth] using h.released other hrel

section Clients

variable (hname : ∀ client, (clients client).lockname = name)
  (hholder : ∀ client, (clients client).holder ≠ noHolder)
  (hdistinct : Function.Injective fun client => (clients client).holder)

include hname hholder hdistinct

lemma Guards.advance (h : s.Guards clients name) (cl : ι) (rpl : Reply) :
    (s.advance clients cl rpl).Guards clients name := by
  rw [MutexSystem.advance]
  cases hpoi : s.point cl with
  | idle => exact h
  | pruning nowTs =>
    have hcle : (getClearedLock (clients cl).lockname).lockname = name := hname cl
    have hput := h.put hcle (h.not_holding_of_expired (h.reading cl nowTs hpoi)) rpl
    refine hput.goTo cl ?_ ?_ <;> split_ifs <;> simp
  | pruned => exact h.goTo cl (by simp) (by simp)
  | writing expire =>
    have hfree : (Condition.checkHolder noHolder).holds (s.table name) = true → ∀ other,
      ¬s.Holding other := fun hhol =>
      h.not_holding_of_holder hhol fun other hoth => absurd hoth (hholder other)
    dsimp only
    split_ifs with hwri
    · obtain ⟨rfl, hwri⟩ := hwri
      rcases putItem_cases s.table _ _ with hput | ⟨hhol, hput⟩
      · rw [writeLockItem, hput] at hwri
        cases hwri
      rw [show (writeLockItem ..) = _ from hput]
      rw [show LockItem.lockname _ = name from hname cl] at hhol
      exact (h.acquire cl (hname cl) (hfree hhol) (by simp [hpoi])).goTo cl (by simp) (by simp)
    · exact (h.put (hname cl) hfree rpl).goTo cl (by simp) (by simp)
  | releasing =>
    have hcle : (getClearedLock (clients cl).lockname).lockname = name := hname cl
    have hfree : (Condition.checkHolder (clients cl).holder).holds (s.table name) = true →
        ∀ other, ¬s.Holding other := fun hhol =>
      h.not_holding_of_holder hhol fun other hoth => by
        rw [hdistinct hoth]
        exact h.released cl hpoi
    have hput := h.put hcle hfree rpl
    exact hput.goTo cl (by simp) (by simp)

lemma Guards.step (h : s.Guards clients name) (ev : MutexEvent ι) :
    (s.step clients ev).Guards clients name := by
  cases ev with
  | tick elapsed =>
    have hlat : s.clock ≤ s.clock + elapsed := Int.le_add_of_nonneg_right (Int.natCast_nonneg elapsed)
    refine ⟨?_, ?_, h.released⟩
    · intro client expire hmem hclo
      exact h.owned client expire hmem (hlat.trans hclo)
    · intro client nowTs hpoi
      exact (h.reading client nowTs hpoi).trans (timestamp_mono hlat)
  | lock client =>
    rw [MutexSystem.step]
    split
    · refine h.goTo client ?_ (by simp)
      rintro nowTs ⟨⟩
      exact le_rfl
    · exact h
  | release client =>
    rw [MutexSystem.step]
    split
    swap
    · exact h
    -- the client gives up what it holds before its put
    have hgiv : Guards clients name
        { s with acquired := update s.acquired client [] } := by
      refine ⟨?_, h.reading, ?_⟩
      · intro other expire hmem hclo
        by_cases hoth : other = client
        · subst hoth
          simp at hmem
        · exact h.owned other expire (by simpa [hoth] using hmem) hclo
      · intro other hpoi
        by_cases hoth : other = client
        · subst hoth
          exact update_self ..
        · simpa [hoth] using h.released other hpoi
    refine hgiv.goTo client ?_ fun _ => update_self ..
    split_ifs <;> simp
  | advance client reply => exact h.advance hname hholder hdistinct client reply

end Clients

/-! ## Whole runs -/

theorem holding_unique (clients : ι → DynamoDbMutex) (name : Text)
    (hname : ∀ client, (clients client).lockname = name)
    (hholder : ∀ client, (clients client).holder ≠ noHolder)
    (hdistinct : Function.Injective fun client => (clients client).holder) (clock : Moment)
    (table : MutexTable) (events : List (MutexEvent ι)) :
    ∀ s ∈ trace (step clients) (init clock table) events, ∀ client other,
    s.Holding client → s.Holding other → client = other := by
  have hgua : ∀ s ∈ trace (step clients) (init clock table) events,
      s.Guards clients name := by
    have hini : (init clock table).Guards clients name :=
      ⟨by simp [init], by simp [init], by simp [init]⟩
    have hguar : Guarded (step clients) (fun _ _ => True) (init clock table) events :=
      guarded_of_forall_mem (fun _ _ _ => trivial) _
    exact forall_trace_of_guarded _ (fun s event h _ => h.step hname hholder hdistinct event) hini hguar
  rintro s hs client other ⟨expire, hmem, hclo⟩ ⟨expire', hmem', hclock'⟩
  obtain ⟨item, hite, hhel, -⟩ := (hgua s hs).owned client expire hmem hclo
  obtain ⟨item', hitem', hheld', -⟩ := (hgua s hs).owned other expire' hmem' hclock'
  obtain rfl := Option.some.inj (hite.symm.trans hitem')
  exact hdistinct (hhel.symm.trans hheld')

def twoClients : Bool → DynamoDbMutex
  | false => { lockname := "job".toList, holder := "kramer".toList, timeout := 1000000 }
  | true => { lockname := "job".toList, holder := "jerry".toList, timeout := 1000000 }

def contended : List (MutexEvent Bool) :=
  [.lock false, .lock true, .advance false .answered, .advance false .answered,
    .advance true .answered, .advance false .answered, .advance true .answered,
    .advance true .answered, .tick 2500000, .lock true, .advance true .answered,
    .advance true .answered, .advance true .answered, .release false, .advance false .answered]

theorem holding_unique_contended :
    ((run (step twoClients) (init 0 fun _ => none) (contended.take 8)).acquired false = [1000000] ∧
    (run (step twoClients) (init 0 fun _ => none) contended).acquired true = [3500000]) ∧
    ∀ s ∈ trace (step twoClients) (init 0 fun _ => none) contended, ∀ client other,
    s.Holding client → s.Holding other → client = other := by
  refine ⟨by decide, holding_unique twoClients "job".toList ?_ ?_ ?_ 0 _ contended⟩
  · decide
  · decide
  · intro client other
    cases client <;> cases other <;> decide

end Steps

end MutexSystem

end Toolchain.Util
