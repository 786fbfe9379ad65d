import Mathlib.Data.Option.Basic
import Toolchain.Storage.Config

/-!
# Exactness — driver trees without faults answer as a map does

A session calls the methods of a driver one after the other, with any number of attempts open.  Every
answer of a driver tree without faults is one that a map of the committed contents accepts: a committed
digest is read as such a content, and any other is missing.
-/

namespace Toolchain.Storage

open Lib List

/-! ## Sessions -/

inductive Call (H : Type)
  | beginWriteBlob (inst : Text) (digest : Digest H)
  | write (attempt : Nat) (batch : Bytes)
  | commit (attempt : Nat)
  | findMissingBlobs (inst : Text) (digests : List (Digest H))
  | readBlob (inst : Text) (digest : Digest H) (maxBatchSize : Nat)

inductive Answer (H : Type)
  | begun | written | committed
  | missing (digests : List (Digest H))
  | read (content : Option Bytes)
  | alreadyExists
  | failed (error : StorageError H)
  | noAttempt | hung
deriving DecidableEq

variable {H : Type}

def Answer.ofError : StreamingWriteError H → Answer H
  | .alreadyExists => .alreadyExists
  | .storageError error => .failed error

/-- A client of a driver.  Attempts are numbered in the order in which they began; one that was
committed, or whose write failed, is gone. -/
structure Session (driver : Driver H) where
  state : driver.State
  attempts : List (Option driver.Attempt)

namespace Session

variable {driver : Driver H}

def init (driver : Driver H) : Session driver where
  state := driver.init
  attempts := []

def call (session : Session driver) (choices : List Bool) : Call H → Answer H × Session driver
  | .beginWriteBlob inst digest =>
    match (driver.beginWriteBlob inst digest).finish choices session.state with
    | (some (.ok attempt), state) =>
      (.begun, { state := state, attempts := session.attempts ++ [some attempt] })
    | (some (.error error), state) => (.ofError error, { session with state := state })
    | (none, state) => (.hung, { session with state := state })
  | .write index batch =>
    match session.attempts[index]? with
    | some (some attempt) =>
      match (driver.write attempt batch).finish choices session.state with
      | (some (.ok (), attempt), state) =>
        (.written, { state := state, attempts := session.attempts.set index (some attempt) })
      | (some (.error error, _), state) =>
        (.ofError error, { state := state, attempts := session.attempts.set index none })
      | (none, state) => (.hung, { state := state, attempts := session.attempts.set index none })
    | _ => (.noAttempt, session)
  | .commit index =>
    match session.attempts[index]? with
    | some (some attempt) =>
      match (driver.commit attempt).finish choices session.state with
      | (some (.ok ()), state) =>
        (.committed, { state := state, attempts := session.attempts.set index none })
      | (some (.error error), state) =>
        (.ofError error, { state := state, attempts := session.attempts.set index none })
      | (none, state) => (.hung, { state := state, attempts := session.attempts.set index none })
    | _ => (.noAttempt, session)
  | .findMissingBlobs inst digests =>
    match (driver.findMissingBlobs inst digests).finish choices session.state with
    | (some (.ok missing), state) => (.missing missing, { session with state := state })
    | (some (.error error), state) => (.failed error, { session with state := state })
    | (none, state) => (.hung, { session with state := state })
  | .readBlob inst digest maxBatchSize =>
    match (driver.readBlob inst digest (.full maxBatchSize)).finish choices session.state with
    | (some (.ok none), state) => (.read none, { session with state := state })
    | (some (.ok (some stream)), state) =>
      match stream.consolidate with
      | .ok content => (.read (some content), { session with state := state })
      | .error error => (.failed error, { session with state := state })
    | (some (.error error), state) => (.failed error, { session with state := state })
    | (none, state) => (.hung, { session with state := state })

end Session

/-! ## The reference -/

structure Reference (H : Type) where
  committed : List (Text × Digest H × Bytes)
  attempts : List (Option (Text × Digest H × Bytes))

namespace Reference

def init : Reference H where
  committed := []
  attempts := []

def contents (reference : Reference H) : Contents H :=
  fun inst digest content => (inst, digest, content) ∈ reference.committed

/-- The answers to a call.  Only a write of a digest that was committed may be refused. -/
def Accepts (reference : Reference H) (answer : Answer H) : Call H → Prop
  | .beginWriteBlob inst digest =>
    answer = .begun ∨ answer = .alreadyExists ∧ reference.contents.Committed inst digest
  | .write index _ => match reference.attempts[index]? with
      | some (some _) => answer = .written
      | _ => answer = .noAttempt
  | .commit index => match reference.attempts[index]? with
      | some (some _) => answer = .committed
      | _ => answer = .noAttempt
  | .findMissingBlobs inst digests => ∃ missing, answer = .missing missing ∧
      ∀ digest, digest ∈ missing ↔ digest ∈ digests ∧ ¬reference.contents.Committed inst digest
  | .readBlob inst digest _ =>
    (∃ content, answer = .read (some content) ∧ reference.contents inst digest content) ∨
      answer = .read none ∧ ¬reference.contents.Committed inst digest

def next (reference : Reference H) (answer : Answer H) : Call H → Reference H
  | .beginWriteBlob inst digest => match answer with
      | .begun => { reference with attempts := reference.attempts ++ [some (inst, digest, [])] }
      | _ => reference
  | .write index batch => match reference.attempts[index]? with
      | some (some (inst, digest, content)) =>
        { reference with attempts := reference.attempts.set index (some (inst, digest, content ++ batch)) }
      | _ => reference
  | .commit index => match reference.attempts[index]? with
      | some (some written) =>
        { committed := reference.committed ++ [written], attempts := reference.attempts.set index none }
      | _ => reference
  | .findMissingBlobs _ _ => reference
  | .readBlob _ _ _ => reference

end Reference

def Session.Conforms {driver : Driver H} : Session driver → Reference H →
    List (Call H × List Bool) → Prop
  | _, _, [] => True
  | session, reference, (call, choices) :: calls =>
    reference.Accepts (session.call choices call).1 call ∧ Conforms (session.call choices call).2
        (reference.next (session.call choices call).1 call) calls

def Call.Valid : Call H → Prop
  | .readBlob _ _ maxBatchSize => 0 < maxBatchSize
  | _ => True

/-! ## Refinement -/

section

variable {driver : Driver H} (refines rfn : Refines False driver)

def Attempted (s : driver.State) : Option driver.Attempt → Option (Text × Digest H × Bytes) → Prop
  | some attempt, some (inst, digest, content) => refines.carries s attempt inst digest content
  | none, none => True
  | _, _ => False

/-- The driver shows what the map has, has everything in it, and its attempts carry the same
contents. -/
structure Linked (session : Session driver) (reference : Reference H) : Prop where
  inv : refines.view.inv reference.contents session.state
  stored : ∀ inst digest, reference.contents.Committed inst digest →
    refines.view.has session.state inst digest
  attempts : List.Forall₂ (Attempted refines session.state) session.attempts reference.attempts

variable {refines rfn} {session sess : Session driver} {reference refr : Reference H}

lemma Attempted.mono {s t : driver.State} (hgro : rfn.view.grows s t)
    {att : Option driver.Attempt} {written : Option (Text × Digest H × Bytes)}
    (h : Attempted rfn s att written) : Attempted rfn t att written := by
  cases att with
  | none =>
    cases written with
    | none => trivial
    | some written => exact h
  | some att =>
    cases written with
    | none => exact h
    | some written => exact rfn.carries_mono hgro h

section

variable (h : Linked rfn sess refr)

include h

lemma Linked.grow {t : driver.State} (hinv : rfn.view.inv refr.contents t)
    (hgro : rfn.view.grows sess.state t) :
    Linked rfn { sess with state := t } refr where
  inv := hinv
  stored inst digest hcom := rfn.view.has_mono hgro (h.stored inst digest hcom)
  attempts := h.attempts.imp fun _ _ => .mono hgro

lemma Linked.has_iff {inst : Text} {digest : Digest H} :
    rfn.view.has sess.state inst digest ↔ refr.contents.Committed inst digest :=
  ⟨rfn.view.committed_of_has h.inv, h.stored inst digest⟩

lemma Linked.attempt (idx : Nat) :
    (∃ attempt inst digest content, sess.attempts[idx]? = some (some attempt) ∧
    refr.attempts[idx]? = some (some (inst, digest, content)) ∧
      rfn.carries sess.state attempt inst digest content) ∨
    sess.attempts[idx]? = some none ∧ refr.attempts[idx]? = some none ∨
    sess.attempts[idx]? = none ∧ refr.attempts[idx]? = none := by
  obtain ⟨hlen, hget⟩ := forall₂_iff_get.1 h.attempts
  by_cases hind : idx < sess.attempts.length
  · have hind' : idx < refr.attempts.length := hlen ▸ hind
    have hatt := hget idx hind hind'
    simp only [get_eq_getElem] at hatt
    rw [getElem?_eq_getElem hind, getElem?_eq_getElem hind']
    generalize sess.attempts[idx] = attempt at hatt ⊢
    generalize refr.attempts[idx] = written at hatt ⊢
    cases attempt with
    | none =>
      cases written with
      | none => exact .inr (.inl ⟨rfl, rfl⟩)
      | some written => exact hatt.elim
    | some attempt =>
      cases written with
      | none => exact hatt.elim
      | some written => exact .inl ⟨attempt, _, _, _, rfl, rfl, hatt⟩
  · have hind' : ¬idx < refr.attempts.length := hlen ▸ hind
    rw [getElem?_eq_none (Nat.le_of_not_lt hind), getElem?_eq_none (Nat.le_of_not_lt hind')]
    exact .inr (.inr ⟨rfl, rfl⟩)

end

lemma forall₂_set {α β : Type} {R : α → β → Prop} {as : List α} {bs : List β}
    (h : List.Forall₂ R as bs) (idx : Nat) {a : α} {b : β} (hab : R a b) :
    List.Forall₂ R (as.set idx a) (bs.set idx b) := by
  induction h generalizing idx with
  | nil => exact .nil
  | cons hhea htai ih =>
    cases idx with
    | zero => exact .cons hab htai
    | succ idx => exact .cons hhea (ih idx)

def Linked.Conforming (refines : Refines False driver) (session : Session driver)
    (reference : Reference H) (choices : List Bool) (call : Call H) : Prop :=
  reference.Accepts (session.call choices call).1 call ∧
    Linked refines (session.call choices call).2 (reference.next (session.call choices call).1 call)

section

variable (h : Linked refines session reference)

include h

variable (chs : List Bool)

open Session Reference

lemma Linked.beginWriteBlob (inst : Text) (dig : Digest H) :
    Conforming refines session reference chs (.beginWriteBlob inst dig) := by
  obtain ⟨res, t, hfin, hinv, hgrow, hcar, hans⟩ :=
    (refines.beginWriteBlob reference.contents inst dig session.state).finish_some h.inv id chs
  have hgro := h.grow hinv hgrow
  unfold Conforming call
  simp only [hfin]
  rcases hans.resolve_left id with ⟨attempt, rfl⟩ | ⟨rfl, hhas⟩
  · refine ⟨.inl rfl, hgro.inv, hgro.stored, ?_⟩
    exact rel_append hgro.attempts (.cons (hcar attempt rfl) .nil)
  · exact ⟨.inr ⟨rfl, hgro.has_iff.1 hhas⟩, hgro⟩

lemma Linked.write (idx : Nat) (batch : Bytes) :
    Conforming refines session reference chs (.write idx batch) := by
  unfold Conforming call Reference.Accepts Reference.next
  rcases h.attempt idx with ⟨attempt, inst, digest, content, hatt, hwri, hcar⟩ | ⟨hatt, hwri⟩ |
    ⟨hatt, hwri⟩
  · obtain ⟨⟨res, attempt'⟩, t, hfin, hinv, hgrow, hcarr, hans⟩ :=
      (refines.write reference.contents batch hcar).finish_some h.inv id chs
    have hgro := h.grow hinv hgrow
    have hok := hans.resolve_left id
    subst hok
    simp only [hatt, hwri, hfin]
    exact ⟨trivial, hgro.inv, hgro.stored, forall₂_set hgro.attempts idx (hcarr rfl)⟩
  · simpa only [hatt, hwri, true_and] using h
  · simpa only [hatt, hwri, true_and] using h

lemma Linked.commit (idx : Nat) : Conforming refines session reference chs (.commit idx) := by
  unfold Conforming call Reference.Accepts Reference.next
  rcases h.attempt idx with ⟨attempt, inst, digest, content, hatt, hwri, hcar⟩ | ⟨hatt, hwri⟩ |
    ⟨hatt, hwri⟩
  · -- the map with the new content
    let committed : Reference H :=
      { reference with committed := reference.committed ++ [(inst, digest, content)] }
    have hmon : ∀ inst digest content, reference.contents inst digest content →
        committed.contents inst digest content :=
      fun _ _ _ hcon => mem_append_left _ hcon
    have hcon : committed.contents inst digest content := mem_append_right _ (mem_singleton_self _)
    obtain ⟨res, t, hfin, hinv, hgro, hans⟩ :=
      (refines.commit hcar hcon).finish_some (refines.view.inv_mono hmon h.inv) id chs
    obtain ⟨rfl, hhas⟩ := hans.resolve_left id
    simp only [hatt, hwri, hfin]
    refine ⟨trivial, hinv, ?_, forall₂_set (h.attempts.imp fun _ _ => .mono hgro) idx trivial⟩
    rintro inst' digest' ⟨content', hcon'⟩
    rcases mem_append.1 hcon' with hold | hnew
    · exact refines.view.has_mono hgro (h.stored inst' digest' ⟨content', hold⟩)
    · cases mem_singleton.1 hnew
      exact hhas
  · simpa only [hatt, hwri, true_and] using h
  · simpa only [hatt, hwri, true_and] using h

lemma Linked.findMissingBlobs (inst : Text) (digs : List (Digest H)) :
    Conforming refines session reference chs (.findMissingBlobs inst digs) := by
  obtain ⟨res, t, hfin, hinv, hgro, hfou⟩ :=
    (refines.findMissingBlobs reference.contents inst digs session.state).finish_some h.inv id chs
  obtain ⟨missing, rfl⟩ := hfou.answers.resolve_left id
  unfold Conforming call
  simp only [hfin]
  refine ⟨⟨missing, rfl, fun digest => ⟨?_, ?_⟩⟩, h.grow hinv hgro⟩
  · intro hmis
    refine ⟨hfou.subset missing rfl digest hmis, fun hcom => ?_⟩
    exact hfou.found missing rfl digest hmis (h.has_iff.2 hcom)
  · rintro ⟨hdig, hnot⟩
    by_contra hmis
    exact hnot (hfou.committed missing rfl digest hdig hmis)

lemma Linked.readBlob (inst : Text) (dig : Digest H) {size : Nat} (hsiz : 0 < size) :
    Conforming refines session reference chs (.readBlob inst dig size) := by
  obtain ⟨res, t, hfin, hinv, hgro, hrea⟩ :=
    (refines.readBlob reference.contents inst dig (.full size) session.state
      (.inr hsiz)).finish_some h.inv id chs
  have hrea := hrea ⟨rfl, rfl, hsiz⟩
  obtain ⟨stream?, rfl, hfai⟩ := hrea.answers.resolve_left id
  unfold Conforming call
  simp only [hfin]
  cases stream? with
  | none => exact ⟨.inr ⟨rfl, fun hcom => hrea.found rfl (h.has_iff.2 hcom)⟩, h.grow hinv hgro⟩
  | some stream =>
    have hstr := hfai stream rfl
    have hok := ReadStream.consolidate_eq_ok.2 ⟨hstr, rfl⟩
    simp only [hok]
    exact ⟨.inl ⟨_, rfl, hrea.committed stream rfl hstr⟩, h.grow hinv hgro⟩

lemma Linked.call (call : Call H) (hval : call.Valid) : Conforming refines session reference chs call := by
  cases call with
  | beginWriteBlob inst digest => exact h.beginWriteBlob chs inst digest
  | write idx batch => exact h.write chs idx batch
  | commit idx => exact h.commit chs idx
  | findMissingBlobs inst digs => exact h.findMissingBlobs chs inst digs
  | readBlob inst digest maxBatchSize => exact h.readBlob chs inst digest hval

lemma Linked.conforms (calls : List (Call H × List Bool)) (hval : ∀ call ∈ calls, call.1.Valid) :
    session.Conforms reference calls := by
  induction calls generalizing session reference with
  | nil => trivial
  | cons call calls ih =>
    obtain ⟨hacc, hlin⟩ := h.call call.2 call.1 (hval call (.head _))
    exact ⟨hacc, ih hlin fun other hoth => hval other (mem_cons_of_mem call hoth)⟩

end

end

/-- A driver tree without faults answers every sequence of calls as the map does. -/
theorem exact_conforms [DecidableEq H] (config : Config H) (hexact : config.Exact)
    (calls : List (Call H × List Bool)) (hvalid : ∀ call ∈ calls, call.1.Valid) :
    (Session.init config.make).Conforms Reference.init calls := by
  have href : Refines False config.make := config.refines (.inr hexact)
  have hlin : Linked href (.init config.make) Reference.init := by
    refine ⟨href.inv_init _, ?_, .nil⟩
    rintro inst digest ⟨content, hcon⟩
    cases hcon
  exact hlin.conforms calls hvalid

theorem exact_conforms_readCache :
    let con : Config Nat :=
      .existenceCache 2 (.readCache (.redisDirect fun _ => none) (.chunking 2 (.leaf (steadyLeaf Nat))))
    let digest : Digest Nat := { hash := 0, sizeBytes := 3 }
    con.Exact ∧ (Session.init con.make).Conforms Reference.init
      [(.beginWriteBlob [] digest, []), (.write 0 [1, 2], []), (.write 0 [3], []), (.commit 0, []),
        (.findMissingBlobs [] [digest], []), (.readBlob [] digest 2, [])] := by
  intro con digest
  have hexa : con.Exact := ⟨fun _ => rfl, Nat.succ_pos 1, fun _ => rfl⟩
  refine ⟨hexa, exact_conforms con hexa _ ?_⟩
  intro call hcal
  simp only [mem_cons, not_mem_nil, or_false] at hcal
  rcases hcal with rfl | rfl | rfl | rfl | rfl | rfl
  all_goals first | trivial | exact Nat.succ_pos 1

def Session.after {driver : Driver H} (session : Session driver)
    (calls : List (Call H × List Bool)) : Session driver :=
  calls.foldl (fun session call => (session.call call.2 call.1).2) session

/-- Without a shard every blob is said to exist, with chunks of no size a write does not end, and a
digest with two contents may be read as either. -/
theorem degenerate_trees :
    let digest : Digest Nat := { hash := 0, sizeBytes := 1 }
    let leaf (overwrites : Bool) : Config Nat :=
      .leaf { checksExistence := false, overwrites := overwrites, faults := fun _ => none }
    let shar : Config Nat :=
      .sharded 0 nofun { replicas := fun _ => [], keyReplicas := 1, keyReplicas_pos := Nat.one_pos }
    let two : Config Nat := .sharded 2 (fun shard => leaf (shard == 1))
      { replicas := fun _ => [0, 1], keyReplicas := 2, keyReplicas_pos := Nat.two_pos }
    let twice := (Session.init two.make).after
      [(.beginWriteBlob [] digest, []), (.beginWriteBlob [] digest, []), (.write 0 [1], []),
        (.write 1 [2], []), (.commit 0, []), (.commit 1, [])]
    ¬(Session.init shar.make).Conforms Reference.init [(.beginWriteBlob [] digest, [])] ∧
      ¬(Session.init (Config.chunking 0 (leaf false)).make).Conforms Reference.init
        [(.beginWriteBlob [] digest, []), (.write 0 [1], [])] ∧
      (twice.call [] (.readBlob [] digest 1)).1 = .read (some [1]) ∧
      (twice.call [false, false, false, false] (.readBlob [] digest 1)).1 = .read (some [2]) := by
  intro digest leaf shar two twice
  refine ⟨?_, ?_, by decide, by decide⟩
  · rintro ⟨hbeg | ⟨-, content, hcon⟩, -⟩
    · exact absurd hbeg (by decide)
    · cases hcon
  · rintro ⟨-, hwri, -⟩
    have hans := hwri
    cases hans

end Toolchain.Storage
