import Toolchain.Lib.Run
import Toolchain.Storage.RedisChunked

/-!
# RedisUploads — a reader gets one upload or none

The chunks of an upload never change once its metadata is written (`Consistent`), and readers rely on no
more (`contract`).  So a reader that gets to the end has read all chunks of one published upload
(`stream_of_one_upload`).
-/

namespace Toolchain.Storage

open Lib List RedisStore RedisStorage RedisState UploadStage

variable {H : Type}

/-! ## What the keys of an upload hold -/

lemma RedisStore.set_eq_some {store : RedisStore} {key oth : Text} {val found : Bytes}
    (h : store.set key val oth = some found) :
    oth = key ∧ found = val ∨ oth ≠ key ∧ store oth = some found := by
  unfold set at h
  split at h
  · rename_i hkey
    exact .inl ⟨hkey, (Option.some.inj h).symm⟩
  · rename_i hkey
    exact .inr ⟨hkey, h⟩

lemma RedisStore.of_evict_eq_some {store : RedisStore} {key oth : Text} {found : Bytes}
    (h : store.evict key oth = some found) : store oth = some found := by
  unfold evict at h
  split at h
  · cases h
  · exact h

structure RedisWriteAttempt.Grows (attempt later : RedisWriteAttempt H) : Prop where
  inst : later.inst = attempt.inst
  uuid : later.uuid = attempt.uuid
  digest : later.digest = attempt.digest
  chunks : attempt.stage ≠ .writing → later.stage ≠ .writing ∧ later.chunks = attempt.chunks
  published : attempt.stage = .published → later.stage = .published

namespace RedisWriteAttempt.Grows

variable {att later latest : RedisWriteAttempt H}

lemma refl (att : RedisWriteAttempt H) : att.Grows att where
  inst := rfl
  uuid := rfl
  digest := rfl
  chunks h := ⟨h, rfl⟩
  published h := h

lemma trans (h : att.Grows later) (h' : later.Grows latest) : att.Grows latest where
  inst := h'.inst.trans h.inst
  uuid := h'.uuid.trans h.uuid
  digest := h'.digest.trans h.digest
  chunks hsta := by
    obtain ⟨hlat, hchu⟩ := h.chunks hsta
    obtain ⟨hlate, hchu'⟩ := h'.chunks hlat
    exact ⟨hlate, hchu'.trans hchu⟩
  published hsta := h'.published (h.published hsta)

end RedisWriteAttempt.Grows

variable {i : Nat} {inst' : Text} {stage : UploadStage}

namespace RedisStorage

variable (storage stor : RedisStorage H)

/-- Where a key of the upload still has a value, it is the chunk or the number of the chunks.  The
key after the last chunk may hold one that was not acknowledged. -/
structure Holds (store : RedisStore) (attempt : RedisWriteAttempt H) : Prop where
  chunk : ∀ {n value chunk}, store (storage.chunkKey attempt.inst attempt.uuid n) = some value →
    attempt.chunks[n]? = some chunk → value = chunk
  metadata : ∀ {value}, store (storage.metadataKey attempt.inst attempt.uuid) = some value →
    attempt.stage ≠ .writing ∧ value = storage.encodeMetadata attempt.chunks.length

structure Consistent (s : RedisState H) : Prop where
  uuid : ∀ {i : Nat} {attempt}, s.attempts[i]? = some attempt → attempt.uuid = storage.uuid i
  holds : ∀ {i : Nat} {attempt}, s.attempts[i]? = some attempt → storage.Holds s.store attempt
  unused : ∀ {i inst value}, s.attempts.length ≤ i →
    s.store (storage.metadataKey inst (storage.uuid i)) ≠ some value
  index : ∀ {inst digest value}, s.store (storage.indexMapKey inst digest) = some value →
    ∃ attempt ∈ s.attempts, attempt.inst = inst ∧ attempt.digest = digest ∧
      attempt.stage = .published ∧ value = storage.encodeUuid attempt.uuid

def contract : Contract (RedisState H) where
  inv := storage.Consistent
  grows s t := ∀ attempt ∈ s.attempts, ∃ later ∈ t.attempts, attempt.Grows later
  hangs := False
  refl _ attempt hattempt := ⟨attempt, hattempt, .refl attempt⟩
  trans h h' attempt hattempt := by
    obtain ⟨later, hlater, hgrows⟩ := h attempt hattempt
    obtain ⟨latest, hlatest, hgrows'⟩ := h' later hlater
    exact ⟨latest, hlatest, hgrows.trans hgrows'⟩

variable {storage stor} {s : RedisState H}

section

variable (h : stor.Consistent s)

include h

lemma Consistent.evict (key : Text) : stor.Consistent { s with store := s.store.evict key } where
  uuid := h.uuid
  holds hatt := ⟨fun hval hchu => (h.holds hatt).chunk (of_evict_eq_some hval) hchu,
    fun hval => (h.holds hatt).metadata (of_evict_eq_some hval)⟩
  unused hlen hval := h.unused hlen (of_evict_eq_some hval)
  index hval := h.index (of_evict_eq_some hval)

lemma Consistent.beginWriteBlob (inst : Text) (dig : Digest H) :
    stor.Consistent (stor.beginWriteBlob inst dig s) := by
  have hcas : ∀ {i : Nat} {att : RedisWriteAttempt H},
    (stor.beginWriteBlob inst dig s).attempts[i]? = some att →
      s.attempts[i]? = some att ∨ i = s.attempts.length ∧ att.uuid = stor.uuid i ∧ att.chunks = [] := by
    intro i att hatt
    rw [RedisStorage.beginWriteBlob, getElem?_append] at hatt
    split at hatt
    · exact .inl hatt
    rename_i hi
    rcases Nat.eq_zero_or_pos (i - s.attempts.length) with hzer | hpos
    · rw [hzer] at hatt
      cases hatt
      have hlen : i = s.attempts.length := by omega
      exact .inr ⟨hlen, by rw [hlen], rfl⟩
    · rw [getElem?_eq_none hpos] at hatt
      cases hatt
  refine ⟨?_, ?_, ?_, ?_⟩
  · intro i att hatt
    rcases hcas hatt with hatt | ⟨-, huui, -⟩
    · exact h.uuid hatt
    · exact huui
  · intro i att hatt
    rcases hcas hatt with hatt | ⟨hi, huui, hchun⟩
    · exact h.holds hatt
    refine ⟨?_, ?_⟩
    · intro n value chunk _ hchu
      rw [hchun] at hchu
      cases hchu
    · intro value hval
      rw [huui] at hval
      exact absurd hval (h.unused (Nat.le_of_eq hi.symm))
  · intro i inst value hlen
    simp only [RedisStorage.beginWriteBlob, length_append] at hlen
    exact h.unused (Nat.le_of_add_right_le hlen)
  · intro inst dig value hval
    obtain ⟨att, hatt, hres⟩ := h.index hval
    exact ⟨att, mem_append_left _ hatt, hres⟩

lemma Consistent.colon_not_mem {att : RedisWriteAttempt H} (hatt : s.attempts[i]? = some att) :
    ':' ∉ att.uuid := by
  rw [h.uuid hatt]
  exact stor.colon_not_mem_uuid i

end

def PartKey (storage : RedisStorage H) (inst uuid key : Text) : Prop :=
  ∃ part, (':' ∉ part ∧ '-' ∉ part) ∧ key = storage.dataMapKeyBase inst uuid ++ '-' :: part

lemma partKey_chunk (inst uuid : Text) (n : Nat) : stor.PartKey inst uuid (stor.chunkKey inst uuid n) :=
  ⟨decimal n, decimal_no_sep n, rfl⟩

lemma partKey_metadata (inst uuid : Text) : stor.PartKey inst uuid (stor.metadataKey inst uuid) :=
  ⟨"meta".toList, by decide, rfl⟩

lemma PartKey.ne_indexKey {inst uuid key : Text} {digest : Digest H}
    (h : stor.PartKey inst uuid key) (huui : ':' ∉ uuid) :
    key ≠ stor.indexMapKey inst' digest := by
  obtain ⟨part, hpar, rfl⟩ := h
  exact stor.dataKey_ne_indexKey huui hpar.1

variable {idx : Nat} {out : SetOutcome} {key : Text} {val : Bytes}
  {att later : RedisWriteAttempt H}

lemma send_store {oth : Text} {found : Bytes} (h : (s.send idx out key val later).store oth = some found) :
    out.executed = true ∧ oth = key ∧ found = val ∨ s.store oth = some found := by
  simp only [send] at h
  split at h
  · rename_i hexe
    rcases set_eq_some h with ⟨hkey, hval⟩ | ⟨-, hfou⟩
    · exact .inl ⟨hexe, hkey, hval⟩
    · exact .inr hfou
  · exact .inr h

lemma send_attempt {other : RedisWriteAttempt H} (hind : idx < s.attempts.length)
    (h : (s.send idx out key val later).attempts[i]? = some other) :
    i = idx ∧ other = later ∨ i ≠ idx ∧ s.attempts[i]? = some other := by
  simp only [send, getElem?_set] at h
  split at h
  · rename_i hi
    exact .inl ⟨hi.symm, (Option.some.inj h).symm⟩
  · rename_i hi
    exact .inr ⟨fun heq => hi heq.symm, h⟩

lemma send_grows (hatt : s.attempts[idx]? = some att) (hgro : att.Grows later) :
    stor.contract.grows s (s.send idx out key val later) := by
  intro other hoth
  obtain ⟨i, hi⟩ := mem_iff_getElem?.1 hoth
  by_cases hind : i = idx
  · subst hind
    cases hatt.symm.trans hi
    have hlen := (List.getElem?_eq_some_iff.1 hatt).1
    exact ⟨later, mem_of_getElem? (getElem?_set_self hlen), hgro⟩
  · refine ⟨other, mem_of_getElem? (i := i) ?_, .refl other⟩
    simp only [send]
    rwa [getElem?_set_ne (Ne.symm hind)]

lemma Consistent.send (h : stor.Consistent s) (hatt : s.attempts[idx]? = some att) (hgro : att.Grows later)
    (hkey : stor.PartKey att.inst att.uuid key ∨ key = stor.indexMapKey att.inst att.digest ∧
    val = stor.encodeUuid att.uuid ∧
    (out.executed = true → later.stage = .published))
    (hhol : stor.Holds (s.send idx out key val later).store later) :
    stor.Consistent (s.send idx out key val later) := by
  have hlen := (List.getElem?_eq_some_iff.1 hatt).1
  have hcol := h.colon_not_mem hatt
  -- the command changes no key of another upload
  have hfor : ∀ {inst uuid other found}, stor.PartKey inst uuid other → ':' ∉ uuid →
      uuid ≠ att.uuid → (s.send idx out key val later).store other = some found →
      s.store other = some found := by
    intro inst uuid other found hpar huui hne hfou
    rcases send_store hfou with ⟨-, rfl, -⟩ | hfou
    · rcases hkey with hkey | ⟨rfl, -, -⟩
      · obtain ⟨part, hpar, rfl⟩ := hpar
        obtain ⟨part', hpart', hkey⟩ := hkey
        exact absurd (stor.dataKey_inj huui hcol hpar hpart' hkey).2.1 hne
      · exact absurd rfl (hpar.ne_indexKey huui)
    · exact hfou
  refine ⟨?_, ?_, ?_, ?_⟩
  · intro i other hoth
    rcases send_attempt hlen hoth with ⟨rfl, rfl⟩ | ⟨-, hoth⟩
    · exact hgro.uuid.trans (h.uuid hatt)
    · exact h.uuid hoth
  · intro i other hoth
    rcases send_attempt hlen hoth with ⟨rfl, rfl⟩ | ⟨hi, hoth⟩
    · exact hhol
    have huui := h.colon_not_mem hoth
    have hne : other.uuid ≠ att.uuid := by
      rw [h.uuid hatt, h.uuid hoth]
      exact fun huui => hi (stor.uuid_injective huui)
    refine ⟨?_, ?_⟩
    · intro n found chunk hfou hchu
      exact (h.holds hoth).chunk (hfor (partKey_chunk _ _ n) huui hne hfou) hchu
    · intro found hfou
      exact (h.holds hoth).metadata (hfor (partKey_metadata _ _) huui hne hfou)
  · intro i inst found hi hfou
    have hi : s.attempts.length ≤ i := by simpa [RedisState.send] using hi
    have hne : stor.uuid i ≠ att.uuid := by
      rw [h.uuid hatt]
      intro huui
      have hind := stor.uuid_injective huui
      omega
    exact h.unused hi (hfor (partKey_metadata inst _) (stor.colon_not_mem_uuid i) hne hfou)
  · intro inst digest found hfou
    rcases send_store hfou with ⟨hexe, hsam, rfl⟩ | hfou
    · rcases hkey with hkey | ⟨rfl, rfl, hpub⟩
      · exact absurd hsam.symm (hkey.ne_indexKey hcol)
      obtain ⟨rfl, rfl⟩ := stor.indexKey_inj hsam
      have hmem := mem_of_getElem? (getElem?_set_self (a := later) hlen)
      exact ⟨later, hmem, hgro.inst, hgro.digest, hpub hexe, by rw [hgro.uuid]⟩
    · obtain ⟨other, hoth, rfl, rfl, hsta, rfl⟩ := h.index hfou
      have hlat : stor.contract.grows s (s.send idx out key val later) := send_grows hatt hgro
      obtain ⟨grown, hgrow, hgro'⟩ := hlat other hoth
      exact ⟨grown, hgrow, hgro'.inst, hgro'.digest, hgro'.published hsta, by rw [hgro'.uuid]⟩

def Keeps (storage : RedisStorage H) (s t : RedisState H) : Prop :=
  storage.Consistent t ∧ storage.contract.grows s t

lemma Consistent.keeps_self (h : stor.Consistent s) : stor.Keeps s s := ⟨h, stor.contract.refl s⟩

lemma Holds.write {data : Bytes} (h : stor.Holds s.store att) (hcol : ':' ∉ att.uuid)
    (hsta : att.stage = .writing) :
    stor.Holds (s.send idx out (stor.chunkKey att.inst att.uuid att.chunks.length) data later).store
    (if out = .ok then { att with chunks := att.chunks ++ [data] } else att) := by
  have hmet : ∀ {found},
    (s.send idx out (stor.chunkKey att.inst att.uuid att.chunks.length) data later).store
      (stor.metadataKey att.inst att.uuid) ≠ some found := by
    intro found hfou
    rcases send_store hfou with ⟨-, hkey, -⟩ | hfou
    · exact stor.chunkKey_ne_metadataKey hcol hcol hkey.symm
    · exact (h.metadata hfou).1 hsta
  by_cases hok : out = .ok
  · subst hok
    refine ⟨?_, fun hfou => absurd hfou hmet⟩
    intro n found chunk hfou hchu
    rcases set_eq_some hfou with ⟨hkey, rfl⟩ | ⟨hkey, hfou⟩
    · obtain ⟨-, rfl⟩ := stor.chunkKey_inj hcol hcol hkey
      simpa using hchu
    have hne : n ≠ att.chunks.length := by
      rintro rfl
      exact hkey rfl
    have hlt : n < att.chunks.length := by
      have hn := (List.getElem?_eq_some_iff.1 hchu).1
      simp only [if_true, length_append, length_singleton] at hn
      omega
    refine h.chunk hfou ?_
    simpa [getElem?_append_left hlt] using hchu
  · rw [if_neg hok]
    refine ⟨?_, fun hfou => absurd hfou hmet⟩
    intro n found chunk hfou hchu
    rcases send_store hfou with ⟨-, hkey, -⟩ | hfou
    · obtain ⟨-, rfl⟩ := stor.chunkKey_inj hcol hcol hkey
      simp at hchu
    · exact h.chunk hfou hchu

lemma Consistent.write (h : stor.Consistent s) (idx : Nat) (data : Bytes)
    (out : SetOutcome) : stor.Keeps s (stor.write idx data out s) := by
  unfold RedisStorage.write
  split
  · exact h.keeps_self
  rename_i att hatt
  split
  swap
  · exact h.keeps_self
  rename_i hsta
  have hgro : att.Grows (if out = .ok then { att with chunks := att.chunks ++ [data] } else att) := by
    by_cases hok : out = .ok
    · rw [if_pos hok]
      exact ⟨rfl, rfl, rfl, fun hne => absurd hsta hne, id⟩
    · rw [if_neg hok]
      exact .refl att
  refine ⟨?_, send_grows hatt hgro⟩
  exact h.send hatt hgro (.inl (partKey_chunk _ _ _)) ((h.holds hatt).write (h.colon_not_mem hatt) hsta)

/-- A command of `commit` sets the metadata of the upload, or its index. -/
def CommitKey (storage : RedisStorage H) (attempt : RedisWriteAttempt H) (key : Text)
    (value : Bytes) : Prop :=
  key = storage.metadataKey attempt.inst attempt.uuid ∧
    value = storage.encodeMetadata attempt.chunks.length ∨
    key = storage.indexMapKey attempt.inst attempt.digest

lemma Holds.commit (h : stor.Holds s.store att) (hcol : ':' ∉ att.uuid) (hsta : stage ≠ .writing)
    (hkey : stor.CommitKey att key val) :
    stor.Holds (s.send idx out key val later).store { att with stage := stage } := by
  refine ⟨?_, ?_⟩
  · intro n found chunk hfou hchu
    rcases send_store hfou with ⟨-, rfl, -⟩ | hfou
    · rcases hkey with ⟨hkey, -⟩ | hkey
      · exact absurd hkey (stor.chunkKey_ne_metadataKey hcol hcol)
      · exact absurd hkey ((partKey_chunk _ _ _).ne_indexKey hcol)
    · exact h.chunk hfou hchu
  · intro found hfou
    rcases send_store hfou with ⟨-, rfl, rfl⟩ | hfou
    · rcases hkey with ⟨-, hval⟩ | hkey
      · exact ⟨hsta, hval⟩
      · exact absurd hkey ((partKey_metadata _ _).ne_indexKey hcol)
    · exact ⟨hsta, (h.metadata hfou).2⟩

section Commit

variable (h : stor.Consistent s)

include h

lemma Consistent.commit (hatt : s.attempts[idx]? = some att) (hsta : stage ≠ .writing)
    (hpub : att.stage = .published → stage = .published) (hkey : stor.CommitKey att key val)
    (hind : key = stor.indexMapKey att.inst att.digest →
    val = stor.encodeUuid att.uuid ∧ (out.executed = true → stage = .published)) :
    stor.Keeps s (s.send idx out key val { att with stage := stage }) := by
  have hgro : att.Grows { att with stage := stage } := ⟨rfl, rfl, rfl, fun _ => ⟨hsta, rfl⟩, hpub⟩
  refine ⟨h.send hatt hgro ?_ ((h.holds hatt).commit (h.colon_not_mem hatt) hsta hkey),
    send_grows hatt hgro⟩
  rcases hkey with ⟨rfl, -⟩ | hkey
  · exact .inl (partKey_metadata _ _)
  · exact .inr ⟨hkey, hind hkey⟩

lemma Consistent.commitMetadata (idx : Nat) (out : SetOutcome) :
    stor.Keeps s (stor.commitMetadata idx out s) := by
  unfold RedisStorage.commitMetadata
  split
  · exact h.keeps_self
  rename_i att hatt
  have hsen : att.stage ≠ .published → stor.Keeps s
      (s.send idx out (stor.metadataKey att.inst att.uuid) (stor.encodeMetadata att.chunks.length)
      { att with stage := if out = .ok then .publishing else .committing }) := by
    intro hsta
    refine h.commit hatt ?_ (absurd · hsta) (.inl ⟨rfl, rfl⟩)
      (absurd · ((partKey_metadata _ _).ne_indexKey (h.colon_not_mem hatt)))
    split
    · exact nofun
    · exact nofun
  -- in both stages the command and what follows are the same
  split
  · rename_i hsta
    exact hsen (by rw [hsta]; exact nofun)
  · rename_i hsta
    exact hsen (by rw [hsta]; exact nofun)
  · exact h.keeps_self

lemma Consistent.commitIndex (idx : Nat) (out : SetOutcome) :
    stor.Keeps s (stor.commitIndex idx out s) := by
  unfold RedisStorage.commitIndex
  split
  · exact h.keeps_self
  rename_i att hatt
  have hsen : att.stage ≠ .writing → stor.Keeps s
      (s.send idx out (stor.indexMapKey att.inst att.digest) (stor.encodeUuid att.uuid)
      { att with stage := if out.executed then .published else att.stage }) := by
    intro hsta
    refine h.commit hatt ?_ (fun hpub => by rw [hpub, ite_self]) (.inr rfl) fun _ =>
      ⟨rfl, fun hexe => if_pos hexe⟩
    split
    · exact nofun
    · exact hsta
  split
  · rename_i hsta
    exact hsen (by rw [hsta]; exact nofun)
  · rename_i hsta
    exact hsen (by rw [hsta]; exact nofun)
  · exact h.keeps_self

end Commit

/-! ## What a reader gets -/

def OnOk {ε α : Type} (p : α → RedisState H → Prop) (result : Except ε α) (s : RedisState H) : Prop :=
  ∀ a, result = .ok a → p a s

lemma onOk_ok {ε α : Type} {p : α → RedisState H → Prop} {a : α} (h : p a s) :
    OnOk p (.ok a : Except ε α) s := by
  rintro _ ⟨⟩
  exact h

variable {faults : Nat → Option RedisError}

section Queries

variable {α : Type} {p : α → RedisState H → Prop}

lemma meets_look {f : RedisStore → Except RedisError α}
    (h : ∀ t, stor.contract.grows s t → stor.Consistent t →
    ∀ a, f t.store = .ok a → ∀ u, stor.contract.grows t u → p a u) :
    (Future.act fun s => (f s.store, s)).Meets stor.contract (OnOk p) s := by
  intro t ht hinv
  refine ⟨hinv, stor.contract.refl t, ?_⟩
  intro u hu _ a ha
  exact h t ht hinv a ha u hu

lemma meets_reply {res : Except RedisError α} (h : (Future.ready res).Meets stor.contract (OnOk p) s) :
    (reply faults res).Meets stor.contract (OnOk p) s := by
  intro t ht hinv
  refine ⟨⟨hinv.uuid, hinv.holds, hinv.unused, hinv.index⟩, fun att hatt => ⟨att, hatt, .refl att⟩, ?_⟩
  intro u hu hinvu
  have hres := h u (stor.contract.trans ht hu) hinvu
  cases hfau : faults t.replies with
  | none => simpa [hfau] using hres
  | some error => exact fun a ha => by simp [hfau] at ha

lemma meets_sendOneQuery {com : Future (RedisState H) (Except RedisError α)}
    (h : com.Meets stor.contract (OnOk p) s) :
    (sendOneQuery faults com).Meets stor.contract (OnOk p) s :=
  h.bind fun _ _ _ _ hres => meets_reply hres

lemma onOk_mapError {res : Except RedisError α} {u : RedisState H} (h : OnOk p res u) :
    OnOk p (res.mapError (RedisError.toStorageError (H := H))) u := by
  cases res with
  | error error => exact fun _ => nofun
  | ok a => exact onOk_ok (h a rfl)

lemma meets_redisQuery {com : Future (RedisState H) (Except RedisError α)}
    (h : com.Meets stor.contract (OnOk p) s) :
    (redisQuery faults com).Meets stor.contract (OnOk p) s := by
  refine (meets_sendOneQuery h).bind ?_
  rintro (error | a) t ht hinv hres
  · by_cases hret : (error.isConnectionDropped || error.isConnectionRefusal) = true
    · simp only [hret, if_true]
      exact (meets_sendOneQuery (h.grow ht)).map fun _ _ _ _ hsen => onOk_mapError hsen
    · simp only [hret]
      exact fun _ _ _ _ => nofun
  · exact fun u hu hinvu => onOk_ok (hres u hu hinvu a rfl)

lemma meets_connection : (getRedisConnection faults).Meets stor.contract (OnOk fun _ _ => True) s :=
  .map (meets_reply fun _ _ _ => onOk_ok trivial) fun _ _ _ _ hsen => onOk_mapError hsen

end Queries

def Published (s : RedisState H) (inst : Text) (digest : Digest H) (uuid : Text)
    (chunks : List Bytes) : Prop :=
  ∃ attempt ∈ s.attempts, attempt.inst = inst ∧ attempt.digest = digest ∧ attempt.uuid = uuid ∧
    attempt.stage = .published ∧ attempt.chunks = chunks

section Upload

variable {inst uuid : Text} {digest dig : Digest H} {chunks chs : List Bytes}

lemma Published.grow {t : RedisState H} (h : Published s inst digest uuid chunks)
    (hgro : storage.contract.grows s t) : Published t inst digest uuid chunks := by
  obtain ⟨attempt, hatt, rfl, rfl, rfl, hsta, rfl⟩ := h
  obtain ⟨later, hlat, hgro⟩ := hgro attempt hatt
  have hchu := (hgro.chunks (by rw [hsta]; exact nofun)).2
  exact ⟨later, hlat, hgro.inst, hgro.digest, hgro.uuid, hgro.published hsta, hchu⟩

lemma Published.holds (h : Published s inst digest uuid chunks) (hinv : storage.Consistent s) :
    ∃ attempt, attempt.inst = inst ∧ attempt.uuid = uuid ∧ attempt.chunks = chunks ∧
      storage.Holds s.store attempt := by
  obtain ⟨attempt, hatt, hins, -, huui, -, hchu⟩ := h
  obtain ⟨i, hi⟩ := mem_iff_getElem?.1 hatt
  exact ⟨attempt, hins, huui, hchu, hinv.holds hi⟩

lemma getUuid_eq (key : Text) : stor.getUuid key = Future.act fun s =>
    ((s.store key).elim (.ok none) fun val => (stor.decodeUuid val).map some, s) := by
  unfold getUuid
  congr 1
  funext s
  cases s.store key <;> rfl

lemma meets_getUuid (inst : Text) (dig : Digest H) :
    (stor.getUuid (stor.indexMapKey inst dig)).Meets stor.contract
    (OnOk fun uuid? t => ∀ uuid, uuid? = some uuid → ∃ chs, Published t inst dig uuid chs)
    s := by
  rw [getUuid_eq]
  refine meets_look (f := fun store => (store (stor.indexMapKey inst dig)).elim (.ok none)
    fun val => (stor.decodeUuid val).map some) ?_
  intro t _ hinv uuid? huui u hu uuid hsom
  subst hsom
  cases hval : t.store (stor.indexMapKey inst dig) with
  | none => simp [hval] at huui
  | some val =>
    obtain ⟨att, hatt, hins, hdig, hsta, rfl⟩ := hinv.index hval
    have hpub : Published t inst dig att.uuid att.chunks := ⟨att, hatt, hins, hdig, rfl, hsta, rfl⟩
    obtain ⟨i, hi⟩ := mem_iff_getElem?.1 hatt
    have hdec : stor.decodeUuid (stor.encodeUuid att.uuid) = .ok att.uuid := by
      rw [hinv.uuid hi]
      exact stor.decode_encodeUuid i
    simp only [hval, Option.elim_some, hdec] at huui
    cases huui
    exact ⟨att.chunks, hpub.grow hu⟩

lemma meets_getMetadata (h : Published s inst digest uuid chunks) :
    (getBytes (storage.metadataKey inst uuid)).Meets storage.contract (OnOk fun data? _ => ∀ data,
      data? = some data →
    storage.decodeMetadata data = some chunks.length) s := by
  refine meets_look (f := fun store => .ok (store (storage.metadataKey inst uuid))) ?_
  intro t ht hinv data? hdat _ _ data hsom
  subst hsom
  obtain ⟨attempt, rfl, rfl, rfl, hhol⟩ := (h.grow ht).holds hinv
  rw [(hhol.metadata (Except.ok.inj hdat)).2]
  exact storage.decode_encodeMetadata _

lemma meets_fetchChunk (h : Published s inst digest uuid chunks) {n : Nat} {chunk : Bytes}
    (hchu : chunks[n]? = some chunk) :
    (fetchChunk faults (storage.chunkKey inst uuid n)).Meets storage.contract
      (OnOk fun data _ => data = chunk) s := by
  refine meets_connection.andThen ?_ fun _ _ _ _ _ => nofun
  intro _ t ht _ _
  have hget : (getBytes (storage.chunkKey inst uuid n)).Meets storage.contract
      (OnOk fun data? _ => ∀ data, data? = some data → data = chunk) t := by
    refine meets_look (f := fun store => .ok (store (storage.chunkKey inst uuid n))) ?_
    intro u hu hinv data? hdat _ _ data hsom
    subst hsom
    obtain ⟨attempt, rfl, rfl, rfl, hhol⟩ := ((h.grow ht).grow hu).holds hinv
    exact hhol.chunk (Except.ok.inj hdat) hchu
  refine (meets_redisQuery hget).andThen ?_ fun _ _ _ _ _ => nofun
  rintro (_ | data) u _ hinv hdat
  · exact fun _ _ _ _ => nofun
  · exact fun v hv hinvv => onOk_ok (hdat v hv hinvv _ rfl data rfl)

lemma meets_readChunks (h : Published s inst dig uuid chs) (rem num : Nat)
    (hlen : num + rem = chs.length) :
    (stor.readChunks faults inst uuid rem num).Meets stor.contract
    (fun stream _ => stream.failure = none → stream.chunks = chs.drop num) s := by
  induction rem generalizing num s with
  | zero =>
    intro _ _ _ _
    rw [drop_of_length_le (by omega)]
  | succ rem ih =>
    have hlt : num < chs.length := by omega
    refine (meets_fetchChunk h (getElem?_eq_getElem hlt)).bind ?_
    rintro (error | chunk) t ht hinv hchu
    · exact fun _ _ _ => nofun
    obtain rfl := hchu.value hinv chunk rfl
    refine (ih (h.grow ht) (num + 1) (by omega)).map ?_
    intro stream u _ _ hstr hfai
    rw [drop_eq_getElem_cons hlt, ← hstr hfai]

lemma meets_existAll (keys : List Text) :
    (existAll keys).Meets stor.contract (OnOk fun _ _ => True) s := by
  induction keys generalizing s with
  | nil => exact fun _ _ _ _ _ => trivial
  | cons key keys ih =>
    have hfou : (Future.act fun s : RedisState H => ((s.store key).isSome, s)).Meets
        stor.contract (fun _ _ => True) s :=
      fun t _ hinv => ⟨hinv, stor.contract.refl t, fun _ _ _ => trivial⟩
    exact hfou.bind fun _ _ _ _ _ => ih.map fun _ _ _ _ _ _ _ => trivial

lemma meets_checkDigestDoesNotExist (inst : Text) (dig : Digest H) :
    (stor.checkDigestDoesNotExist faults inst dig).Meets stor.contract (OnOk fun _ _ => True) s := by
  have hdon : ∀ {res : Except (StorageError H) (Option (Digest H))} {t : RedisState H},
      (Future.ready res).Meets stor.contract (OnOk fun _ _ => True) t :=
    fun _ _ _ _ _ => trivial
  refine meets_connection.andThen ?_ fun _ _ _ _ _ => nofun
  intro _ t _ _ _
  refine (meets_redisQuery (meets_getUuid inst dig)).andThen ?_ fun _ _ _ _ _ => nofun
  rintro (_ | uuid) u _ hinv huui
  · exact hdon
  obtain ⟨chs, hpub⟩ := huui.value hinv _ rfl uuid rfl
  refine (meets_redisQuery (meets_getMetadata hpub)).andThen ?_ fun _ _ _ _ _ => nofun
  rintro (_ | data) v _ hinv hdat
  · exact hdon
  · simp only [hdat.value hinv _ rfl data rfl]
    refine (meets_redisQuery (meets_existAll _)).andThen ?_ fun _ _ _ _ _ => nofun
    exact fun _ _ _ _ _ => hdon

def Reads (inst : Text) (digest : Digest H)
    (result : Except (StorageError H) (Option (ReadStream H))) (s : RedisState H) : Prop :=
  ∀ stream, result = .ok (some stream) → stream.failure = none →
    ∃ uuid, Published s inst digest uuid stream.chunks

lemma meets_readBlob (inst : Text) (dig : Digest H) :
    (storage.readBlob faults inst dig).Meets storage.contract (Reads inst dig) s := by
  refine (meets_checkDigestDoesNotExist inst dig).andThen ?_ fun _ _ _ _ _ _ => nofun
  rintro (_ | missing) t _ _ _
  · refine meets_connection.andThen ?_ fun _ _ _ _ _ _ => nofun
    intro _ u _ _ _
    refine (meets_redisQuery (meets_getUuid inst dig)).andThen ?_ fun _ _ _ _ _ _ => nofun
    rintro (_ | uuid) v _ hinv huui
    · exact fun _ _ _ _ => nofun
    obtain ⟨chun, hpub⟩ := huui.value hinv _ rfl uuid rfl
    refine (meets_redisQuery (meets_getMetadata hpub)).andThen ?_ fun _ _ _ _ _ _ => nofun
    rintro (_ | data) w hw hinv hdat
    · exact fun _ _ _ _ => nofun
    simp only [hdat.value hinv _ rfl data rfl]
    have hpub := hpub.grow hw
    refine (meets_readChunks hpub chun.length 0 (Nat.zero_add _)).map ?_
    rintro stream x hx _ hstr _ ⟨⟩ hfai
    rw [hstr hfai]
    exact ⟨uuid, hpub.grow hx⟩
  · exact fun _ _ _ _ => nofun

end Upload

end RedisStorage

variable {system : RedisSystem H}

namespace RedisSystem

variable {stor : RedisStorage H} {faults : Nat → Option RedisError}

/-- The store is consistent, and every read will get the chunks of an upload. -/
structure Sound (storage : RedisStorage H) (system : RedisSystem H) : Prop where
  consistent : storage.Consistent system.state
  readers : ∀ reader ∈ system.readers,
    reader.2.Meets storage.contract (RedisStorage.Reads reader.1.1 reader.1.2) system.state

lemma sound_init : Sound stor init where
  consistent := ⟨nofun, nofun, nofun, nofun⟩
  readers _ := nofun

lemma Sound.keep (h : Sound stor system) {t : RedisState H}
    (hkee : stor.Keeps system.state t) : Sound stor { system with state := t } where
  consistent := hkee.1
  readers reader hrea := (h.readers reader hrea).grow hkee.2

lemma Sound.step (h : Sound stor system) (ev : RedisEvent H) :
    Sound stor (system.step stor faults ev) := by
  cases ev with
  | beginWriteBlob inst digest =>
    refine h.keep ⟨h.consistent.beginWriteBlob inst digest, ?_⟩
    intro attempt hatt
    exact ⟨attempt, mem_append_left _ hatt, .refl attempt⟩
  | write index data out => exact h.keep (h.consistent.write index data out)
  | commitMetadata index out => exact h.keep (h.consistent.commitMetadata index out)
  | commitIndex index out => exact h.keep (h.consistent.commitIndex index out)
  | evict key =>
    refine h.keep ⟨h.consistent.evict key, ?_⟩
    exact fun attempt hatt => ⟨attempt, hatt, .refl attempt⟩
  | readBlob inst digest =>
    refine ⟨h.consistent, ?_⟩
    intro rea hrea
    rcases mem_append.1 hrea with hrea | hrea
    · exact h.readers rea hrea
    · cases mem_singleton.1 hrea
      exact meets_readBlob inst digest
  | poll rea choi =>
    simp only [RedisSystem.step]
    split
    · exact h
    rename_i blob future hfut
    obtain ⟨hinv, hgro, hnex⟩ := (h.readers _ (mem_of_getElem? hfut)).poll h.consistent choi
    refine ⟨hinv, ?_⟩
    intro other hoth
    rcases mem_or_eq_of_mem_set hoth with hoth | rfl
    · exact (h.readers other hoth).grow hgro
    · exact hnex

/-- Whatever commands come in between, a stream that ends without an error yields all chunks of one
upload published for the digest. -/
theorem stream_of_one_upload (storage : RedisStorage H) (faults : Nat → Option RedisError)
    (events : List (RedisEvent H)) (inst : Text) (digest : Digest H) (stream : ReadStream H)
    (hread : ((inst, digest), .ready (.ok (some stream))) ∈
      (run (step storage faults) init events).readers)
    (hended : stream.failure = none) :
    ∃ attempt ∈ (run (step storage faults) init events).state.attempts,
    attempt.inst = inst ∧ attempt.digest = digest ∧ attempt.stage = .published ∧
      stream.chunks = attempt.chunks := by
  have hsou : Sound storage (run (step storage faults) init events) :=
    run_invariant (Sound storage) (fun _ event h => h.step event) events sound_init
  have hrea := (hsou.readers _ hread).value hsou.consistent
  obtain ⟨uuid, attempt, hatt, hins, hdig, -, hsta, hchu⟩ := hrea stream rfl hended
  exact ⟨attempt, hatt, hins, hdig, hsta, hchu.symm⟩

def abandonedRun : RedisSystem Sha256Hash :=
  run (step sha256Storage fun _ => none) init
    ([.beginWriteBlob [] ⟨zeroHash, 3⟩, .write 0 [7] .ok, .beginWriteBlob [] ⟨zeroHash, 3⟩,
      .write 1 [1, 2] .ok, .write 1 [3] .ok, .commitMetadata 1 .ok, .commitIndex 1 .ok,
      .readBlob [] ⟨zeroHash, 3⟩] ++ replicate 19 (.poll 0 true))

theorem stream_of_one_upload_abandoned :
    (([], ⟨zeroHash, 3⟩), .ready (.ok (some ⟨[[1, 2], [3]], none⟩))) ∈ abandonedRun.readers ∧
    ∃ attempt ∈ abandonedRun.state.attempts, attempt.inst = [] ∧ attempt.digest = ⟨zeroHash, 3⟩ ∧
    attempt.stage = .published ∧ [[1, 2], [3]] = attempt.chunks := by
  have hrea : abandonedRun.readers =
    [(([], ⟨zeroHash, 3⟩), .ready (.ok (some ⟨[[1, 2], [3]], none⟩)))] := by rfl
  have hread : (([], ⟨zeroHash, 3⟩), .ready (.ok (some ⟨[[1, 2], [3]], none⟩))) ∈
      abandonedRun.readers := by
    rw [hrea]
    exact mem_singleton_self _
  exact ⟨hread, stream_of_one_upload sha256Storage _ _ [] ⟨zeroHash, 3⟩ _ hread rfl⟩

end RedisSystem

end Toolchain.Storage
