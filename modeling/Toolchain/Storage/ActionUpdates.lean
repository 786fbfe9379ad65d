import Toolchain.Storage.ActionCache
import Toolchain.Storage.LocalStores

/-!
# ActionUpdates — what updates leave in the action cache

`update_action_result` writes the output to the CAS and the entry at the same time.  The first write
that fails drops the others, but the entry may be there by then (`update_all_or_nothing_iff`).  A local
store keeps the first entry and counts `AlreadyExists` as success, so that a later update is lost
(`read_your_update_iff`).

Models `storage/src/api/action_cache_service.rs`.
-/

namespace Toolchain.Storage

open Lib List Future

variable {H : Type}

/-- How a write to the action cache goes: the answers to its calls, and whether the last one puts
the entry in its place, whatever it answers. -/
structure CacheScript (H : Type) where
  (beginWrite write commit : Except (StreamingWriteError H) Unit)
  publishes : Bool

/-- An action cache that follows a script; its state is the entry of the action. -/
def scriptedCache (script : CacheScript H) : Driver H where
  State := Option Bytes
  Attempt := Bytes
  Task := Empty
  init := none
  Visible _ _ _ _ := False
  findMissingBlobs _ digests := .act fun entry => (.ok (if entry.isSome then [] else digests), entry)
  readBlob _ _ _ := .act fun entry => (.ok (entry.map fun data => ⟨[data], none⟩), entry)
  beginWriteBlob _ _ := reply (script.beginWrite.map fun _ => [])
  write content data := reply (script.write, content ++ data)
  commit content :=
    .act fun entry => (script.commit, if script.publishes then some content else entry)
  runTask := nofun

def CacheScript.Replaces (script : CacheScript H) (entry : Option Bytes) (data : Bytes) : Prop :=
  script.beginWrite = .ok () ∧ script.write = .ok () ∧ script.publishes = true ∧ entry ≠ some data

variable {script : CacheScript H} {entry ent : Option Bytes} {data : Bytes} {cas : Driver H} {inst : Text}
  {dig : Digest H} {writ writes : List (Digest H × Bytes)}
  {outcomes : Digest H × Bytes → Except (StorageError H) Unit}

/-! ## The update -/

section

variable (codec : Codec H)

def storedResult (result : ActionResult H) : ActionResult H where
  stdoutRaw := []
  stdoutDigest := (inlineOutput codec result.stdoutRaw result.stdoutDigest).1
  stderrRaw := []
  stderrDigest := (inlineOutput codec result.stderrRaw result.stderrDigest).1

def inlineWrites (result : ActionResult H) : List (Digest H × Bytes) :=
  (inlineOutput codec result.stdoutRaw result.stdoutDigest).2 ++
    (inlineOutput codec result.stderrRaw result.stderrDigest).2

def updateAnswer (stored : ActionResult H) :
    Except (StorageError H) (List Unit) → Except (UpdateActionStatus H) (ActionResult H)
  | .ok _ => .ok stored
  | .error error => .error (.internal error)

variable {codec}

lemma finish_update {actionCache : Driver H} {encode : ActionResult H → Bytes} {actionDigest : ApiDigest}
    (hdigest : Digest.tryFrom codec actionDigest = some dig) (result : ActionResult H)
    (choices : List Bool) (s : cas.State × actionCache.State) :
    (updateActionResult codec encode cas actionCache inst (some actionDigest) (some result)).finish
      choices s =
    (((writeAll cas actionCache inst (inlineWrites codec result) dig
    (encode (storedResult codec result))).finish choices s).1.map
      (updateAnswer (storedResult codec result)),
    ((writeAll cas actionCache inst (inlineWrites codec result) dig
    (encode (storedResult codec result))).finish choices s).2) := by
  unfold updateActionResult
  dsimp only
  rw [hdigest]
  exact finish_map _ _ choices s

end

/-! ## The entry -/

lemma finish_writeTo_cache (h : script.Replaces ent data) (s : cas.State × Option Bytes) :
    (writeTo cas (scriptedCache script) Lens.snd inst dig data).finish [] s =
    (some (StreamingWriteError.orOk script.commit), (s.1, some data)) := by
  obtain ⟨beginWrite, write, commit, pub⟩ := script
  obtain ⟨rfl, rfl, rfl, -⟩ := h
  rfl

lemma exists_finish_replaced (dig : Digest H) (h : script.Replaces ent data)
    (s : cas.State × Option Bytes) (hcas : ∀ write ∈ writ, ∀ t, ((cas.writeBlob inst write.1 write.2).map
    StreamingWriteError.orOk).Returns (outcomes write) t) :
    ∃ chs res t, (writeAll cas (scriptedCache script) inst writ dig data).finish chs
    s = (some res, t) ∧ t.2 = some data ∧
    ∀ val, res = .ok val → (∀ write ∈ writ, outcomes write = .ok ()) ∧
    StreamingWriteError.orOk script.commit = .ok () := by
  unfold writeAll
  -- the entry comes last in the list, and is written before everything in front of it
  induction writ with
  | nil =>
    have hrea : (.tryJoinAll [] : Future (cas.State × Option Bytes)
        (Except (StorageError H) (List Unit))).finish [] s = (some (.ok []), s) := rfl
    obtain ⟨chs, res, t, hfin, ht, hok⟩ := exists_finish_tryJoinAll hrea (finish_writeTo_cache h s)
    refine ⟨chs, res, t, hfin, ?_, fun val hval => ⟨nofun, ?_⟩⟩
    · rcases ht with rfl | ⟨-, _, ⟨⟩⟩
      rfl
    · obtain ⟨⟨_, hcom⟩, -⟩ := hok val hval
      exact hcom
  | cons write writ ih =>
    obtain ⟨chs, tail, t, hfin, hdat, hok⟩ := ih fun other hmem => hcas other (mem_cons_of_mem write hmem)
    -- a write to the CAS leaves the entry as it is
    have hwri : (writeTo cas (scriptedCache script) Lens.fst inst write.1 write.2).finish [] t =
        (some (outcomes write), _) :=
      Prod.ext ((hcas write (.head _) t.1).zoom.finish []) rfl
    have hoth : ((writeTo cas (scriptedCache script) Lens.fst inst write.1 write.2).finish [] t).2.2 =
        t.2 := finish_zoom_other (fun _ _ => rfl) _ [] t
    obtain ⟨chs', res, u, hfin', hu, hok'⟩ := exists_finish_tryJoinAll hfin hwri
    refine ⟨chs', res, u, hfin', ?_, fun val hval => ?_⟩
    · rcases hu with rfl | ⟨rfl, -⟩
      · exact hoth.trans hdat
      · exact hdat
    · obtain ⟨⟨_, hhea⟩, rest, htai⟩ := hok' val hval
      obtain ⟨hall, hcom⟩ := hok rest htai
      exact ⟨forall_mem_cons.2 ⟨hhea, hall⟩, hcom⟩

/-! ## Updates that fail -/

def entryContract {σ : Type} (p : Option Bytes → Prop) : Contract (σ × Option Bytes) where
  inv s := p s.2
  grows _ _ := True
  hangs := True
  refl _ := trivial
  trans _ _ := trivial

lemma meets_writeTo_cache {p : Option Bytes → Prop} (s : cas.State × Option Bytes)
    (hp : script.beginWrite = .ok () → script.write = .ok () → ∀ ent, p ent →
    p (if script.publishes then some data else ent)) :
    (writeTo cas (scriptedCache script) Lens.snd inst dig data).Meets (entryContract p)
    (fun res _ => script.beginWrite = .ok () → script.write = .ok () →
    res = StreamingWriteError.orOk script.commit) s := by
  obtain ⟨_ | _, _ | _, commit, pub⟩ := script
  · exact fun _ _ hinv => ⟨hinv, trivial, fun _ _ _ => nofun⟩
  · exact fun _ _ hinv => ⟨hinv, trivial, fun _ _ _ => nofun⟩
  · exact fun _ _ hinv => ⟨hinv, trivial, fun _ _ hinv => ⟨hinv, trivial, fun _ _ _ _ => nofun⟩⟩
  · exact fun _ _ hinv => ⟨hinv, trivial, fun _ _ hinv => ⟨hinv, trivial, fun _ _ hinv =>
      ⟨hp rfl rfl _ hinv, trivial, fun _ _ _ _ _ => rfl⟩⟩⟩

lemma entry_kept (h : ¬script.Replaces entry data) (c : cas.State) (chs : List Bool) :
    ((writeAll cas (scriptedCache script) inst writes dig data).finish chs (c, entry)).2.2 =
    entry := by
  have hmee : (writeAll cas (scriptedCache script) inst writes dig data).Meets
      (entryContract (· = entry)) (fun _ _ => True) (c, entry) := by
    refine (Future.Meets.tryJoinAll (p := fun _ _ _ => True) (forall₂_same.2 ?_)).mono
      fun _ _ _ _ _ => trivial
    intro future hfut
    rcases mem_append.1 hfut with hmem | hmem
    · obtain ⟨write, -, rfl⟩ := mem_map.1 hmem
      exact .zoom_of_forall trivial fun _ _ hinv => ⟨hinv, trivial⟩
    obtain rfl := mem_singleton.1 hmem
    refine (meets_writeTo_cache _ ?_).mono fun _ _ _ _ _ => trivial
    rintro hbeg hwri _ rfl
    split
    · rename_i hpub
      exact (not_not.1 fun hne => h ⟨hbeg, hwri, hpub, .symm hne⟩)
    · rfl
  exact (hmee.finish rfl chs).1

lemma not_error_of_ok (hbeg : script.beginWrite = .ok ()) (hwri : script.write = .ok ())
    (hcom : StreamingWriteError.orOk script.commit = .ok ())
    (hok : ∀ write ∈ writes, outcomes write = .ok ()) (s : cas.State × Option Bytes)
    (hcas : ∀ write ∈ writes, ∀ t, ((cas.writeBlob inst write.1 write.2).map
    StreamingWriteError.orOk).Returns (outcomes write) t) (chs : List Bool)
    (err : StorageError H) :
    ((writeAll cas (scriptedCache script) inst writes dig data).finish chs s).1 ≠ some (.error err) := by
  have hmee : (writeAll cas (scriptedCache script) inst writes dig data).Meets
      (entryContract fun _ => True) (fun res _ => ∀ e, res ≠ .error e) s := by
    refine (Future.Meets.tryJoinAll (p := fun _ res _ => res = .ok ())
      (forall₂_same.2 ?_)).mono fun res _ _ _ hres e he => ?_
    · intro future hfut
      rcases mem_append.1 hfut with hmem | hmem
      · obtain ⟨write, hmem', rfl⟩ := mem_map.1 hmem
        exact .zoom (hcas write hmem' s.1) (fun _ _ => trivial) (fun _ _ _ => trivial)
          (fun _ _ _ _ _ => ⟨trivial, trivial⟩) (fun _ => trivial)
          fun _ _ _ _ hres => hres.trans (hok write hmem')
      · obtain rfl := mem_singleton.1 hmem
        refine (meets_writeTo_cache s fun _ _ _ _ => trivial).mono fun _ _ _ _ hres => ?_
        exact (hres hbeg hwri).trans hcom
    · obtain ⟨_, -, hbad⟩ := hres.2 e he
      cases hbad
  exact fun hres => (hmee.finish trivial chs).2.2.1 _ hres err rfl

/-- On all schedules an update that fails leaves the entry as it was, exactly if the entry is not
replaced or no write fails. -/
theorem update_all_or_nothing_iff (codec : Codec H) (encode : ActionResult H → Bytes)
    (cas : Driver H) (script : CacheScript H) (inst : Text) (actionDigest : ApiDigest)
    (digest : Digest H) (hdigest : Digest.tryFrom codec actionDigest = some digest)
    (result : ActionResult H) (outcomes : Digest H × Bytes → Except (StorageError H) Unit)
    (hcas : ∀ write ∈ inlineWrites codec result, ∀ t, ((cas.writeBlob inst write.1 write.2).map
    StreamingWriteError.orOk).Returns (outcomes write) t) (c : cas.State) (entry : Option Bytes) :
    (∀ choices error, ((updateActionResult codec encode cas (scriptedCache script) inst
    (some actionDigest) (some result)).finish choices (c, entry)).1 = some (.error error) →
    ((updateActionResult codec encode cas (scriptedCache script) inst (some actionDigest)
    (some result)).finish choices (c, entry)).2.2 = entry) ↔
    ¬script.Replaces entry (encode (storedResult codec result)) ∨
    (∀ write ∈ inlineWrites codec result, outcomes write = .ok ()) ∧
    StreamingWriteError.orOk script.commit = .ok () := by
  simp only [finish_update hdigest]
  constructor
  · intro hkep
    by_contra hnot
    obtain ⟨hrep, hbad⟩ := not_or.1 hnot
    have hrep := not_not.1 hrep
    obtain ⟨choices, answer, t, hfin, hdat, hok⟩ :=
      exists_finish_replaced digest hrep (c, entry) hcas
    cases answer with
    | ok val => exact hbad (hok val rfl)
    | error error =>
      have hsam := hkep choices (.internal error)
        (Option.map_eq_some_iff.2 ⟨.error error, congrArg Prod.fst hfin, rfl⟩)
      have hent := congrArg (fun run => run.2.2) hfin
      exact hrep.2.2.2 (hsam.symm.trans (hent.trans hdat))
  · rintro hcon choices error herr
    by_cases hrep : script.Replaces entry (encode (storedResult codec result))
    · obtain ⟨hok, hcom⟩ := hcon.resolve_left (not_not.2 hrep)
      obtain ⟨answer, hres, hval⟩ := Option.map_eq_some_iff.1 herr
      cases answer with
      | ok val => cases hval
      | error error =>
        exact absurd hres (not_error_of_ok hrep.1 hrep.2.1 hcom hok (c, entry) hcas choices error)
    · exact entry_kept hrep c choices

def emptyResult : ActionResult Unit where
  stdoutRaw := []
  stdoutDigest := none
  stderrRaw := []
  stderrDigest := none

def steadyCache (publishes : Bool) : CacheScript Unit where
  beginWrite := .ok ()
  write := .ok ()
  commit := .ok ()
  publishes := publishes

def refusing : Script Unit where
  findMissing := .ok fun _ => true
  read := .ok none
  beginWrite := .error (.storageError (.unavailable []))
  write _ := .ok ()
  commit := .ok ()

def refusedUpdate (publishes : Bool) (choices : List Bool) :
    Option (Except (UpdateActionStatus Unit) (ActionResult Unit)) × (Unit × Option Bytes) :=
  (updateActionResult oneHashCodec (fun _ => [7]) (scripted refusing)
    (scriptedCache (steadyCache publishes)) [] (some ⟨[], 0⟩)
    (some { emptyResult with stdoutRaw := [1] })).finish choices ((), none)

theorem refusedUpdate_unpublished : (refusedUpdate false []).2.2 = none :=
  (update_all_or_nothing_iff oneHashCodec (fun _ => [7]) (scripted refusing) (steadyCache false) []
    ⟨[], 0⟩ ⟨(), 0⟩ rfl
    { emptyResult with stdoutRaw := [1] } (fun _ => .error (.unavailable []))
    (fun _ _ _ _ _ _ => ⟨trivial, trivial, fun _ _ _ => rfl⟩) () none).2
    (.inl fun h => nomatch h.2.2.1) [] (.internal (.unavailable [])) rfl

theorem refusedUpdate_published :
    refusedUpdate true [false, false, false, false, false, false] =
    (some (.error (.internal (.unavailable []))), ((), some [7])) := rfl

/-! ## The first write wins -/

/-- What a store has for a digest: whether it is visible in an instance, and a content. -/
structure Slot where
  visible : Bool
  blob : Option Bytes

namespace Slot

def content (slot : Slot) : Option Bytes :=
  if slot.visible then slot.blob else none

def write (slot : Slot) (data : Bytes) : Slot :=
  if slot.visible then slot else ⟨true, some (slot.blob.getD data)⟩

lemma forall_content_write {slot : Slot} {data : Bytes} {p : Bytes → Prop}
    (hblob : ∀ content ∈ slot.blob, p content)
    (hdata : p data) : ∀ content ∈ (slot.write data).content, p content := by
  obtain ⟨_ | _, _ | blob⟩ := slot <;> simp_all [write, content]

lemma write_write (slot : Slot) (data later : Bytes) :
    (slot.write data).write later = slot.write data := by
  unfold write
  split <;> simp [*]

/-- One slot changes, and once. -/
def contract {σ : Type} (slot : σ → Slot) (before after : Slot) : Contract σ where
  inv s := slot s = before ∨ slot s = after
  grows s t := slot s = after → slot t = after
  hangs := True
  refl _ := id
  trans h h' := h' ∘ h

end Slot

/-- A store that keeps the first content under a digest. -/
structure FirstWins (driver : Driver H) (inst : Text) (digest : Digest H) where
  slot : driver.State → Slot
  write : ∀ data s, ((driver.writeBlob inst digest data).map StreamingWriteError.orOk).Meets
    (Slot.contract slot (slot s) ((slot s).write data))
    (fun result t => result = .ok () → slot t = (slot s).write data) s
  read : ∀ s choices, (∀ content ∈ (slot s).content, content.length < 2 ^ 63) →
    ∃ result, (driver.readBlob inst digest (.full readBatchSize)).finish choices s = (some result, s) ∧
    (∀ content ∈ (slot s).content, ∃ stream, result = .ok (some stream) ∧
      stream.consolidate = .ok content) ∧
    ((slot s).content = none → ∀ stream, result ≠ .ok (some stream))

lemma meets_localWrite {σ : Type} (slot : σ → Slot) {data : Bytes} {s : σ}
    {begin' : σ → Except (StreamingWriteError H) (MemoryWriteAttempt H)}
    {commit : MemoryWriteAttempt H → σ → σ}
    (hbegin : ∀ t, (∃ error, begin' t = .error (.storageError error)) ∨
    (slot t).visible = true ∧ begin' t = .error .alreadyExists ∨
    (slot t).visible = false ∧ begin' t = .ok ⟨inst, dig, []⟩)
    (hcommit : ∀ t, (slot s).visible = false → slot t = slot s ∨ slot t = (slot s).write data →
    slot (commit ⟨inst, dig, data⟩ t) = (slot s).write data) :
    (((Future.act fun t => (begin' t, t)).andThen fun attempt =>
    Future.act fun t => (.ok (), commit { attempt with content := attempt.content ++ data } t)).map
    StreamingWriteError.orOk).Meets (Slot.contract slot (slot s) ((slot s).write data))
    (fun result t => result = .ok () → slot t = (slot s).write data) s := by
  refine @Meets.map _ _ _ _ (fun result t => StreamingWriteError.orOk result = .ok () →
    slot t = (slot s).write data) _ _ ?_ _ _ fun _ _ _ _ h => h
  refine @Meets.andThen _ _ _ _ _ _ _ _ (fun result t =>
    (∀ attempt, result = .ok attempt → attempt = ⟨inst, dig, []⟩ ∧ (slot s).visible = false) ∧
    (result = .error .alreadyExists → slot t = (slot s).write data)) _
    (.act fun t _ hinv => ⟨hinv, id, fun u hgrows hinv' => ?_⟩) ?_ ?_
  · rcases hbegin t with ⟨error, h⟩ | ⟨hvisible, h⟩ | ⟨hvisible, h⟩
    · simp [h]
    · simp only [h, reduceCtorEq, IsEmpty.forall_iff, implies_true, forall_const, true_and]
      rcases hinv with hbefore | hafter
      · -- a visible entry stays
        rw [hbefore] at hvisible
        have hsame : (slot s).write data = slot s := if_pos hvisible
        rcases hinv' with hslot | hslot
        · exact hslot.trans hsame.symm
        · exact hslot
      · exact hgrows hafter
    · refine ⟨?_, by simp [h]⟩
      rintro attempt hattempt
      refine ⟨Except.ok.inj (hattempt.symm.trans h), ?_⟩
      rcases hinv with hbefore | hafter
      · rwa [← hbefore]
      · rw [hafter, Slot.write] at hvisible
        split at hvisible
        · exact hvisible
        · cases hvisible
  · intro attempt t _ hinv hpost
    obtain ⟨rfl, hvisible⟩ := (hpost.value hinv).1 attempt rfl
    exact .act fun u _ hinv' => ⟨.inr (hcommit u hvisible hinv'), fun _ => hcommit u hvisible hinv',
      fun v hgrows _ _ => hgrows (hcommit u hvisible hinv')⟩
  · rintro (_ | error) t _ _ hpost hok
    · exact hpost.2 rfl
    · cases hok

/-! ### Local stores -/

section

variable [DecidableEq H] (empty : Digest H) (inst : Text) (digest : Digest H)

def memorySlot (inner : MemoryInner H) : Slot where
  visible := inner.visible inst digest
  blob := inner.blobs.lookup digest

lemma memorySlot_commit (data : Bytes) (inner : MemoryInner H) :
    memorySlot inst digest (inner.commit ⟨inst, digest, data⟩) =
    ⟨true, some ((inner.blobs.lookup digest).getD data)⟩ := by
  rw [memorySlot, inner.visible_commit, inner.lookup_commit]

def memoryFirstWins : FirstWins (memoryStorage empty) inst digest where
  slot := memorySlot inst digest
  write data s := by
    refine @meets_localWrite H inst digest _ (memorySlot inst digest) data s _
      (fun attempt inner => inner.commit attempt) (fun inner => inner.beginWriteBlob_cases inst digest) ?_
    intro inner hvisible hinv
    rw [memorySlot_commit]
    rw [Slot.write, if_neg (by simp [hvisible])] at hinv ⊢
    rcases hinv with hslot | hslot
    · rw [← hslot]
      rfl
    · have hblob : inner.blobs.lookup digest = _ := congrArg Slot.blob hslot
      rw [hblob]
      rfl
  read s choices hlength := by
    refine exists_finish_readWith (.ofWindow (.full readBatchSize)) ?_ ?_ choices
    · rcases s.readBlob_cases inst digest (.full readBatchSize) with ⟨hvisible, herror⟩ | hread
      · exact .inl ⟨if_neg (by simp [memorySlot, hvisible]), herror⟩
      · exact .inr hread
    · intro data hdata
      obtain ⟨chunks, hcollect, hflatten⟩ := collect_full (hlength data hdata)
        (show 1 ≤ readBatchSize by decide) (by decide)
      refine ⟨⟨chunks, none⟩, ?_, ReadStream.consolidate_eq_ok.2 ⟨rfl, hflatten.symm⟩⟩
      exact Option.map_eq_some_iff.2 ⟨chunks, hcollect, rfl⟩

def fileSlot (deployment : Deployment H) (process : Nat) (files : BlobFiles) : Slot where
  visible := (files.content deployment process inst digest).isSome
  blob := files.content deployment process inst digest

def fileFirstWins (deployment : Deployment H) (process : Nat) :
    FirstWins (fileBackedStorage deployment process empty) inst digest where
  slot := fileSlot inst digest deployment process
  write data s := by
    refine @meets_localWrite H inst digest _ (fileSlot inst digest deployment process) data s _
      (fun attempt files =>
        Function.update files (deployment.finalPath process attempt.inst attempt.digest)
      (some attempt.content)) (fun files => ?_) ?_
    · cases hfile : files.content deployment process inst digest <;> simp [fileSlot, hfile]
    · intro files hvisible _
      have hnone : s.content deployment process inst digest = none := Option.isNone_iff_eq_none.1
        (by simpa [fileSlot] using hvisible)
      simp [Slot.write, fileSlot, BlobFiles.content, show s _ = none from hnone]
  read s choices hlength := by
    refine exists_finish_readWith id (.inr ?_) ?_ choices
    · cases hfile : s.content deployment process inst digest <;> simp [Slot.content, fileSlot, hfile]
    · intro data _
      obtain ⟨stream, hstream, hdata⟩ := @fileStream_slice H (.full readBatchSize) data (by decide)
        (Nat.zero_le _) _ (Nat.lt_succ_self data.length)
      refine ⟨stream, hstream, hdata.trans ?_⟩
      rw [Window.slice_of_covers (.inr ⟨rfl, le_rfl⟩)]

end

/-! ### Updates -/

section

variable (codec : Codec H) (encode : ActionResult H → Bytes) (cas actionCache : Driver H) (inst : Text)
  (actionDigest : ApiDigest)

/-- Updates that returned `Ok`, one after the other. -/
def Updated : List (ActionResult H) → cas.State × actionCache.State → cas.State × actionCache.State → Prop
  | [], s, t => s = t
  | result :: results, s, t => ∃ choices stored u, (updateActionResult codec encode cas actionCache inst
      (some actionDigest) (some result)).finish choices s = (some (.ok stored), u) ∧ Updated results u t

variable {codec encode cas actionCache inst actionDigest} (first : FirstWins actionCache inst dig)

include first

lemma FirstWins.meets_writeAll (writes : List (Digest H × Bytes)) (data : Bytes)
    (s : cas.State × actionCache.State) : (writeAll cas actionCache inst writes dig data).Meets
    (Slot.contract (fun t => first.slot t.2) (first.slot s.2) ((first.slot s.2).write data))
    (fun result t => ∀ written, result = .ok written → first.slot t.2 = (first.slot s.2).write data)
      s := by
  let post : Except (StorageError H) Unit → cas.State × actionCache.State → Prop :=
    fun result t => result = .ok () → first.slot t.2 = (first.slot s.2).write data
  -- each write with its postcondition; the writes to the CAS have none
  refine (@Meets.tryJoinAll _ _ _ _ (writes.map (fun _ _ _ => True) ++ [post]) _ _ _ id
    (rel_append (forall₂_map_left_iff.2 (forall₂_map_right_iff.2 (forall₂_same.2 ?_)))
      (.cons ?_ .nil))).mono ?_
  · exact fun _ _ => .zoom_of_forall trivial fun _ _ hinv => ⟨hinv, id⟩
  · exact (first.write data s.2).zoom (fun _ h => h) (fun _ _ h => h) (fun _ _ _ h h' => ⟨h, h'⟩) id
      fun _ _ _ _ h => h
  · rintro result t - - ⟨hok, -⟩ written hwritten
    obtain ⟨_, -, hslot⟩ := exists_right_of_mem (hok written hwritten) (mem_append_right _ (.head _))
    exact hslot rfl

lemma FirstWins.slot_update (hdigest : Digest.tryFrom codec actionDigest = some dig)
    {result stored : ActionResult H} {choices : List Bool} {s t : cas.State × actionCache.State}
    (hupdate : (updateActionResult codec encode cas actionCache inst (some actionDigest)
    (some result)).finish choices s = (some (.ok stored), t)) :
    first.slot t.2 = (first.slot s.2).write (encode (storedResult codec result)) := by
  rw [finish_update hdigest] at hupdate
  obtain ⟨hanswer, rfl⟩ := Prod.ext_iff.1 hupdate
  obtain ⟨answer, hfinish, hanswer⟩ := Option.map_eq_some_iff.1 hanswer
  cases answer with
  | error error => cases hanswer
  | ok written =>
    exact ((first.meets_writeAll _ _ s).finish (.inl rfl) choices).2.2.1 _ hfinish written rfl

/-- The first of the updates is the only one that can change the slot. -/
lemma FirstWins.slot_updated (hdigest : Digest.tryFrom codec actionDigest = some dig)
    {result : ActionResult H} {later : List (ActionResult H)} {s t : cas.State × actionCache.State}
    (h : Updated codec encode cas actionCache inst actionDigest (result :: later) s t) :
    first.slot t.2 = (first.slot s.2).write (encode (storedResult codec result)) := by
  induction later generalizing result s with
  | nil =>
    obtain ⟨_, _, _, hupdate, rfl⟩ := h
    exact first.slot_update hdigest hupdate
  | cons next later ih =>
    obtain ⟨_, _, _, hupdate, hrest⟩ := h
    rw [ih hrest, first.slot_update hdigest hupdate, Slot.write_write]

end

/-! ### Reads -/

def CachedResult.bare (result : CachedResult) : CachedResult :=
  { result with stdoutRaw := [], stderrRaw := [] }

/-- The slot gives out `wanted` once `written` has been put there, if it was free. -/
def Slot.Answers (decode : Bytes → Option CachedResult) (written wanted : CachedResult)
    (slot : Slot) : Prop :=
  slot = ⟨false, none⟩ ∧ written.bare = wanted.bare ∨
    ∃ content ∈ slot.blob, (decode content).map CachedResult.bare = some wanted.bare

section

variable (codec : Codec H) (encode : ActionResult H → Bytes) (decode : Bytes → Option CachedResult)
  (decodeTree : Bytes → Option Tree) (cached : ActionResult H → CachedResult) (cas : Driver H)
    (inst : Text)
  (actionDigest : ApiDigest)

variable {codec encode decode decodeTree cached cas inst actionDigest} {actionCache : Driver H}

lemma FirstWins.finish_readEntry (first : FirstWins actionCache inst dig)
    {t : cas.State × actionCache.State}
    (hlength : ∀ content ∈ (first.slot t.2).content, content.length < 2 ^ 63) (choices : List Bool) :
    ∃ answer u, ((readEntry actionCache inst decode dig).zoom Lens.snd).finish choices t =
      (some answer, u) ∧
    ∀ result, answer = .ok result ↔ (first.slot t.2).content.bind decode = some result := by
  obtain ⟨reply, hread, hsome, hnone⟩ := first.read t.2 choices hlength
  have hfinish := finish_zoom (Lens.snd : Lens (cas.State × actionCache.State) _)
    (readEntry actionCache inst decode dig) choices t
  rw [readEntry, finish_map, show Lens.snd.get t = t.2 from rfl, hread] at hfinish
  refine ⟨_, _, Prod.ext hfinish.1 rfl, fun result => ?_⟩
  cases hcontent : (first.slot t.2).content with
  | none =>
    rcases reply with error | _ | stream
    · simp
    · simp
    · exact absurd rfl (hnone hcontent stream)
  | some content =>
    obtain ⟨stream, rfl, hstream⟩ := hsome content hcontent
    cases hdecode : decode content <;> simp [hstream, hdecode]

variable [DecidableEq H]

variable (codec decode decodeTree cas inst actionDigest) in
/-- Reads without a check of the CAS and without inlining return this result. -/
def GetReturns (actionCache : Driver H) (t : cas.State × actionCache.State)
    (result : CachedResult) : Prop :=
  ∀ probability choice limit choices, ((getActionResult codec decode decodeTree cas actionCache inst false
    probability choice limit (some actionDigest) false false).finish choices t).1 = some (.ok result.bare)

/-- A read returns what the slot has, without its raw output. -/
lemma FirstWins.getReturns_iff (first : FirstWins actionCache inst dig)
    (hdigest : Digest.tryFrom codec actionDigest = some dig) {t : cas.State × actionCache.State}
    (hlength : ∀ content ∈ (first.slot t.2).content, content.length < 2 ^ 63) (wanted : CachedResult) :
    GetReturns codec decode decodeTree cas inst actionDigest actionCache t wanted ↔
    ((first.slot t.2).content.bind decode).map CachedResult.bare = some wanted.bare := by
  have hrun : ∀ probability choice limit choices, ((getActionResult codec decode decodeTree cas
      actionCache inst false probability choice limit (some actionDigest) false false).finish
        choices t).1 =
      some (.ok wanted.bare) ↔ ((first.slot t.2).content.bind decode).map CachedResult.bare =
        some wanted.bare := by
    intro probability choice limit choices
    obtain ⟨answer, u, hentry, hanswer⟩ := first.finish_readEntry hlength choices
    unfold getActionResult
    rw [Option.bind_some, hdigest]
    obtain ⟨rest, hfinish⟩ := exists_finish_andThen hentry _
    rw [hfinish, Option.map_eq_some_iff]
    simp only [← hanswer]
    cases answer with
    | error error => simp
    | ok entry =>
      refine (Eq.congr_left (Returns.finish (a := .ok entry.bare) ?_ rest)).trans (by simp)
      rw [if_neg (by simp)]
      exact ⟨fun _ _ _ => rfl, fun _ _ _ => rfl⟩
  exact ⟨fun hget => (hrun 0 0 0 []).1 (hget 0 0 0 []), fun hslot _ _ _ _ => (hrun _ _ _ _).2 hslot⟩

lemma Slot.answers_iff {slot : Slot} {data : Bytes} {written : CachedResult}
    (hdecode : decode data = some written)
    (wanted : CachedResult) :
    ((slot.write data).content.bind decode).map CachedResult.bare = some wanted.bare ↔
    slot.Answers decode written wanted := by
  obtain ⟨_ | _, _ | content⟩ := slot <;> simp [Slot.write, Slot.content, Slot.Answers, hdecode]

lemma FirstWins.get_after_updates (first : FirstWins actionCache inst dig)
    (hdigest : Digest.tryFrom codec actionDigest = some dig) {result : ActionResult H}
      {later : List (ActionResult H)}
    (hdecode : decode (encode (storedResult codec result)) = some (cached (storedResult codec result)))
    (hlength : (encode (storedResult codec result)).length < 2 ^ 63) {s t : cas.State × actionCache.State}
    (hblob : ∀ content ∈ (first.slot s.2).blob, content.length < 2 ^ 63)
    (h : Updated codec encode cas actionCache inst actionDigest (result :: later) s t)
      (wanted : CachedResult) :
    GetReturns codec decode decodeTree cas inst actionDigest actionCache t wanted ↔
    (first.slot s.2).Answers decode (cached (storedResult codec result)) wanted := by
  have hslot := first.slot_updated hdigest h
  have hcontent := Slot.forall_content_write hblob hlength
  rw [← hslot] at hcontent
  rw [first.getReturns_iff hdigest hcontent, hslot, Slot.answers_iff hdecode]

/-- A read after updates that succeeded returns the result of the last one, exactly if nothing was stored
under the digest (in memory: in any instance) and the first update had the same result, or if what was
stored is the result. -/
theorem read_your_update_iff (codec : Codec H) (encode : ActionResult H → Bytes)
    (decode : Bytes → Option CachedResult) (decodeTree : Bytes → Option Tree)
    (cached : ActionResult H → CachedResult) (cas : Driver H) (inst : Text) (actionDigest : ApiDigest)
    (digest empty : Digest H) (hdigest : Digest.tryFrom codec actionDigest = some digest)
    (result : ActionResult H) (later : List (ActionResult H))
    (hdecode : ∀ update ∈ result :: later, decode (encode (storedResult codec update)) =
    some (cached (storedResult codec update)))
    (hlength : (encode (storedResult codec result)).length < 2 ^ 63) :
    (∀ s t, (∀ content ∈ s.2.blobs.lookup digest, content.length < 2 ^ 63) →
    Updated codec encode cas (memoryStorage empty) inst actionDigest (result :: later) s t →
    (GetReturns codec decode decodeTree cas inst actionDigest (memoryStorage empty) t
    (cached (storedResult codec (later.getLastD result))) ↔
    (memorySlot inst digest s.2).Answers decode (cached (storedResult codec result))
    (cached (storedResult codec (later.getLastD result))))) ∧
    ∀ (deployment : Deployment H) (process : Nat) (s t),
    (∀ content ∈ s.2.content deployment process inst digest, content.length < 2 ^ 63) →
    Updated codec encode cas (fileBackedStorage deployment process empty) inst actionDigest
      (result :: later) s t →
    (GetReturns codec decode decodeTree cas inst actionDigest
      (fileBackedStorage deployment process empty) t
    (cached (storedResult codec (later.getLastD result))) ↔
    (fileSlot inst digest deployment process s.2).Answers decode (cached (storedResult codec result))
    (cached (storedResult codec (later.getLastD result)))) := by
  have hfirst := hdecode result (.head _)
  constructor
  · intro s t hblob hupdated
    exact (memoryFirstWins empty inst digest).get_after_updates hdigest hfirst hlength hblob hupdated _
  · intro deployment process s t hblob hupdated
    exact (fileFirstWins empty inst digest deployment process).get_after_updates hdigest hfirst
      hlength hblob hupdated _

end

/-! ### Runs -/

def encodeSizes (result : ActionResult Unit) : Bytes :=
  (result.stdoutDigest.toList ++ result.stderrDigest.toList).map fun digest => UInt8.ofNat digest.sizeBytes

def decodeSizes : Bytes → Option CachedResult
  | [size] => some ⟨[], some ⟨[], size.toNat⟩, [], none, [], []⟩
  | _ => none

def printed (output : Bytes) : ActionResult Unit :=
  { emptyResult with stdoutRaw := output }

def sized (result : ActionResult Unit) : CachedResult :=
  ⟨[], result.stdoutDigest.map fun digest => ⟨[], digest.sizeBytes⟩, [], none, [], []⟩

def action : ApiDigest := ⟨"action".toList, 6⟩

/-- Two instances; the second has another action. -/
def twoInstances : Blobs Unit × MemoryInner Unit :=
  (oneByte, ⟨[(⟨(), 5⟩, [3])], [("a".toList, []), ("b".toList, [⟨(), 5⟩])]⟩)

def updateIn (inst : Text) (output : Bytes) (s : Blobs Unit × MemoryInner Unit) :
    Option (Except (UpdateActionStatus Unit) (ActionResult Unit)) × (Blobs Unit × MemoryInner Unit) :=
  (updateActionResult oneHashCodec encodeSizes (steadyLeaf Unit).driver (memoryStorage ⟨(), 0⟩) inst
    (some action)
    (some (printed output))).finish [] s

def getIn (inst : Text) (s : Blobs Unit × MemoryInner Unit) :
    Option (Except (GetActionStatus Unit) CachedResult) :=
  ((getActionResult oneHashCodec decodeSizes (fun _ => none) (steadyLeaf Unit).driver (memoryStorage ⟨(), 0⟩) inst
    false 0 0 0 (some action) false false).finish [] s).1

theorem read_your_update_twice :
    getIn "a".toList (updateIn "a".toList [2, 2] (updateIn "a".toList [1, 1] twoInstances).2).2 =
    some (.ok (sized (storedResult oneHashCodec (printed [2, 2])))) :=
  ((read_your_update_iff oneHashCodec encodeSizes decodeSizes (fun _ => none) sized (steadyLeaf Unit).driver "a".toList
    action ⟨(), 6⟩ ⟨(), 0⟩ rfl (printed [1, 1]) [printed [2, 2]]
    (forall_mem_cons.2 ⟨rfl, forall_mem_singleton.2 rfl⟩) (by decide)).1 twoInstances _ (by rintro _ ⟨⟩)
    ⟨[], _, _, rfl, [], _, _, rfl, rfl⟩).2 (.inl ⟨rfl, rfl⟩) 0 0 0 []

/-- A second update is lost, in the same instance and in another. -/
theorem update_lost :
    let first := updateIn "a".toList [1] twoInstances
    let second := updateIn "a".toList [1, 2] first.2
    let other := updateIn "b".toList [1, 2] first.2
    first.1 = some (.ok (storedResult oneHashCodec (printed [1]))) ∧
    second.1 = some (.ok (storedResult oneHashCodec (printed [1, 2]))) ∧
    other.1 = some (.ok (storedResult oneHashCodec (printed [1, 2]))) ∧
    getIn "a".toList second.2 = some (.ok (sized (storedResult oneHashCodec (printed [1])))) ∧
    getIn "b".toList other.2 = some (.ok (sized (storedResult oneHashCodec (printed [1])))) :=
  ⟨rfl, rfl, rfl, rfl, rfl⟩

end Toolchain.Storage
