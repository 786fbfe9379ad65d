import Toolchain.Storage.Composition

/-!
# Storage.Durability — what a driver promises for the store below it

A fast/slow storage rescues an error of one of two concurrent writes; it may do so only if the slow
store has the blob.  Over a store that only grows, what an existence cache remembers stays true.

Models `write_blob` of `storage/src/driver/fast_slow.rs` and `storage/src/driver/existence_cache.rs`.
-/

namespace Toolchain.Storage

open Lib List

variable {H : Type}

/-! ## A journal of a store -/

inductive Journal (H : Type)
  | committed (inst : Text) (digest : Digest H) (content : Bytes)
  | alreadyExists (inst : Text) (digest : Digest H)

namespace Journal

/-- What an answer says of the store: only a commit says something by its success. -/
def entries {α : Type} (inst : Text) (digest : Digest H) (onOk : List (Journal H)) :
    Except (StreamingWriteError H) α → List (Journal H)
  | .ok _ => onOk
  | .error .alreadyExists => [.alreadyExists inst digest]
  | .error (.storageError _) => []

def record {σ α : Type} (entries : List (Journal H)) (answer : α) :
    Future (σ × List (Journal H)) α :=
  .act fun state => (answer, (state.1, state.2 ++ entries))

end Journal

/-- A driver with a journal of what it committed and what it reported to exist. -/
def journaled (driver : Driver H) : Driver H where
  State := driver.State × List (Journal H)
  Attempt := driver.Attempt × Text × Digest H × Bytes
  Task := driver.Task
  init := (driver.init, [])
  Visible state := driver.Visible state.1
  findMissingBlobs inst digests := (driver.findMissingBlobs inst digests).zoom Lens.fst
  readBlob inst digest window := (driver.readBlob inst digest window).zoom Lens.fst
  beginWriteBlob inst digest :=
    ((driver.beginWriteBlob inst digest).zoom Lens.fst).bind fun result =>
      Journal.record (Journal.entries inst digest [] result) (result.map fun attempt =>
        (attempt, inst, digest, []))
  write attempt batch :=
    ((driver.write attempt.1 batch).zoom Lens.fst).bind fun result =>
      Journal.record (Journal.entries attempt.2.1 attempt.2.2.1 [] result.1)
        (result.1, result.2, attempt.2.1, attempt.2.2.1, attempt.2.2.2 ++ batch)
  commit attempt :=
    ((driver.commit attempt.1).zoom Lens.fst).bind fun result =>
      Journal.record (Journal.entries attempt.2.1 attempt.2.2.1
        [.committed attempt.2.1 attempt.2.2.1 attempt.2.2.2] result) result
  runTask task := (driver.runTask task).zoom Lens.fst

/-- The store committed the content under the digest, or reported that the digest exists. -/
def Journal.Holds (inst : Text) (digest : Digest H) (content : Bytes) (journal : List (Journal H)) :
    Prop :=
  .committed inst digest content ∈ journal ∨ .alreadyExists inst digest ∈ journal

def journalContract (σ : Type) (H : Type) : Contract (σ × List (Journal H)) where
  inv _ := True
  grows s t := s.2 ⊆ t.2
  hangs := True
  refl s := Subset.refl s.2
  trans := Subset.trans

section Journaled

variable {σ α β : Type} {s : σ × List (Journal H)} {inst : Text}
  {digest dig : Digest H} {cont : Bytes}

lemma meets_record (fut : Future σ α) (ents : α → List (Journal H)) (ans : α → β) :
    ((fut.zoom Lens.fst).bind fun a => Journal.record (ents a) (ans a)).Meets
    (journalContract σ H) (fun b t => ∃ a, b = ans a ∧ ents a ⊆ t.2) s := by
  have hzoo : (fut.zoom Lens.fst).Meets (journalContract σ H) (fun _ _ => True) s :=
    Future.Meets.zoom_of_forall trivial fun t _ _ => ⟨trivial, Subset.refl t.2⟩
  refine hzoo.bind ?_
  intro a t _ _ _
  refine Future.Meets.act ?_
  intro u _ _
  refine ⟨trivial, subset_append_left u.2 _, ?_⟩
  intro v hv _
  exact ⟨a, rfl, fun _ h => hv (mem_append_right u.2 h)⟩

/-- What is reported to exist is in the journal, and so is what was committed. -/
def Journal.Justifies (inst : Text) (digest : Digest H) (content : Bytes)
    (result : Except (StreamingWriteError H) Unit) (journal : List (Journal H)) : Prop :=
  (∃ error, result = .error (.storageError error)) ∨ Holds inst digest content journal

lemma Journal.justifies_error {err : StreamingWriteError H} {onOk journal : List (Journal H)}
    (h : entries inst dig onOk (.error err : Except _ α) ⊆ journal) :
    Justifies inst dig cont (.error err) journal := by
  cases err with
  | alreadyExists => exact .inr (.inr (h (.head _)))
  | storageError err => exact .inl ⟨err, rfl⟩

open Journal

lemma journaled_writeBlob (drv : Driver H) (s : drv.State × List (Journal H)) :
    ((journaled drv).writeBlob inst dig cont).Meets (journalContract drv.State H)
    (fun res t => Journal.Justifies inst dig cont res t.2) s := by
  refine (meets_record (drv.beginWriteBlob inst dig) (entries inst dig []) _).andThen ?_ ?_
  · intro attempt t _ _ hbeg
    obtain ⟨begun, hatt, -⟩ := hbeg.value trivial
    cases begun with
    | error error => cases hatt
    | ok inner =>
      cases hatt
      refine (meets_record (drv.write inner cont) (fun res => entries inst dig [] res.1) _).bind ?_
      intro written u _ _ hwri
      obtain ⟨⟨res, after⟩, rfl, hent⟩ := hwri.value trivial
      cases res with
      | error error => exact fun v hv _ => justifies_error fun _ h => hv (hent h)
      | ok _ =>
        refine (meets_record (drv.commit after) (entries inst dig [.committed inst dig cont]) _).mono ?_
        intro res v _ _ hcom
        obtain ⟨res, rfl, hent⟩ := hcom
        cases res with
        | error error => exact justifies_error hent
        | ok _ => exact .inr (.inl (hent (.head _)))
  · rintro error t - - ⟨begun, hbeg, hent⟩
    cases begun with
    | ok inner => cases hbeg
    | error error =>
      cases hbeg
      exact justifies_error hent

end Journaled

def fastSlowContract (σ τ H : Type) : Contract (σ × τ × List (Journal H)) where
  inv _ := True
  grows s t := s.2.2 ⊆ t.2.2
  hangs := True
  refl s := Subset.refl s.2.2
  trans := Subset.trans

/-- A fast/slow storage reports success only if the slow store has committed the content or has said
that it exists, whatever the two stores answer and in whatever order. -/
theorem fastSlow_write_durable (fast : SmallDriver H) (slow : Driver H) (inst : Text)
    (digest : Digest H) (content : Bytes)
    (s : fast.State × slow.State × List (Journal H)) (choices : List Bool)
    (hok : (((fastSlow fast (journaled slow)).writeBlob inst digest content).finish choices s).1 =
      some (.ok ())) :
    Journal.Holds inst digest content
    (((fastSlow fast (journaled slow)).writeBlob inst digest content).finish choices s).2.2.2 := by
  -- an error of the fast store is never the one that is rescued
  have hfas : (((fast.writeBlob inst digest content).zoom Lens.fst).map
      (Except.mapError StreamingWriteError.storageError)).Meets (fastSlowContract _ _ H)
      (fun res _ => res ≠ .error .alreadyExists) s := by
    refine (Future.Meets.zoom_of_forall trivial fun t _ _ => ⟨trivial, Subset.refl t.2.2⟩).map ?_
    rintro (error | _) t - - -
    · simp [Except.mapError]
    · simp [Except.mapError]
  have hslo : (((journaled slow).writeBlob inst digest content).zoom Lens.snd).Meets
    (fastSlowContract _ _ H)
      (fun res t => Journal.Justifies inst digest content res t.2.2) s :=
    (journaled_writeBlob slow s.2).zoom (fun _ _ => trivial) (fun _ _ h => h)
      (fun _ _ _ _ h => ⟨trivial, h⟩) id (fun _ _ _ _ h => h)
  have hjoi := hfas.tryJoin hslo (r := fun res t =>
    (∃ error, res = .error (.storageError error)) ∨ Journal.Holds inst digest content t.2.2) ?_ ?_ ?_
  · have hwri : ((fastSlow fast (journaled slow)).writeBlob inst digest content).Meets
      (fastSlowContract _ _ H)
        (fun res t => res = .ok () → Journal.Holds inst digest content t.2.2) s := by
      refine hjoi.map ?_
      rintro res t - - (⟨error, rfl⟩ | hhol)
      · intro hres
        cases hres
      · exact fun _ => hhol
    exact (hwri.finish trivial choices).2.2.1 _ hok rfl
  · intro _ _ t _ _ _ hjus
    exact .inr (hjus.resolve_left (by simp))
  · rintro (_ | error) t - - hne
    · exact absurd rfl hne
    · exact .inl ⟨error, rfl⟩
  · rintro error t - - (⟨failure, hfai⟩ | hhol)
    · cases hfai
      exact .inl ⟨failure, rfl⟩
    · exact .inr hhol

/-- The slow store has the blob, and answers so. -/
theorem fastSlow_write_again : Journal.Holds [] ⟨(), 2⟩ [1, 2]
    (((fastSlow (steadyLeaf Unit).smallDriver (journaled (steadyLeaf Unit).driver)).writeBlob []
      ⟨(), 2⟩ [1, 2]).finish []
    (⟨0, []⟩, ⟨0, [(([], ⟨(), 2⟩), [1, 2])]⟩, [])).2.2.2 :=
  fastSlow_write_durable (steadyLeaf Unit).smallDriver (steadyLeaf Unit).driver [] ⟨(), 2⟩ [1, 2]
    (⟨0, []⟩, ⟨0, [(([], ⟨(), 2⟩), [1, 2])]⟩, []) [] rfl

/-! ## Existence cache -/

/-- An answer of `find_missing_blobs`: what is not missing is there when the call returns, and what is
missing was so at some moment of the call. -/
def Reports {σ : Type} (c : Contract σ) (has : σ → Text → Digest H → Prop) (inst : Text)
    (digests : List (Digest H)) (s : σ) (result : Except (StorageError H) (List (Digest H))) (t : σ) :
    Prop :=
  ∀ missing, result = .ok missing → (∀ digest ∈ digests, digest ∉ missing → has t inst digest) ∧
      ∃ u, c.grows s u ∧ c.grows u t ∧ ∀ digest ∈ missing, ¬has u inst digest

/-- A store that never deletes a blob; what its steps keep is its own. -/
structure GrowingStore (driver : Driver H) where
  contract : Contract driver.State
  has : driver.State → Text → Digest H → Prop
  has_mono : ∀ {s t inst digest}, contract.grows s t → has s inst digest → has t inst digest
  findMissingBlobs : ∀ inst digests s, (driver.findMissingBlobs inst digests).Meets contract
    (Reports contract has inst digests s) s

section ExistenceCache

variable [DecidableEq H]

def Leaf.growingContract (leaf : Leaf H) : Contract leaf.driver.State where
  inv _ := True
  grows s t := ∀ inst digest, s.find? inst digest ≠ none → t.find? inst digest ≠ none
  hangs := False
  refl _ _ _ := id
  trans h h' inst digest hfound := h' inst digest (h inst digest hfound)

lemma Leaf.answers (leaf : Leaf H) (inst : Text) (digs : List (Digest H)) (s : Blobs H) :
    (leaf.findMissingBlobs inst digs).Meets leaf.growingContract
    (Reports leaf.growingContract (fun t inst digest => t.find? inst digest ≠ none) inst digs s) s := by
  refine Future.Meets.act fun t hst _ => ?_
  dsimp only
  split
  · exact ⟨trivial, fun _ _ => id, fun _ _ _ => by simp [Reports]⟩
  refine ⟨trivial, fun _ _ => id, ?_⟩
  rintro u htu _ _ ⟨⟩
  -- the query is made at `t`
  refine ⟨?_, t, hst, htu, ?_⟩
  · intro digest hdig hmis
    exact htu inst digest fun h => hmis (mem_filter.2 ⟨hdig, by simpa using h⟩)
  · intro digest hmis hfou
    exact hfou (Option.isNone_iff_eq_none.1 (mem_filter.1 hmis).2)

def Leaf.growing (leaf : Leaf H) : GrowingStore leaf.driver where
  contract := leaf.growingContract
  has s inst digest := s.find? inst digest ≠ none
  has_mono hgrows := hgrows _ _
  findMissingBlobs := leaf.answers

variable {underlying : Driver H} (store : GrowingStore underlying)

/-- Everything in the cache is in the store. -/
def GrowingStore.cached : Contract (underlying.State × Cache H) where
  inv s := store.contract.inv s.1 ∧ ∀ key ∈ s.2, store.has s.1 key.1 key.2
  grows s t := store.contract.grows s.1 t.1
  hangs := store.contract.hangs
  refl s := store.contract.refl s.1
  trans := store.contract.trans

omit [DecidableEq H] in
lemma GrowingStore.meets_zoom {α : Type} {fut : Future underlying.State α}
    {post : α → underlying.State → Prop} {s : underlying.State × Cache H}
    (h : fut.Meets store.contract post s.1) :
    (fut.zoom Lens.fst).Meets store.cached (fun a t => post a t.1) s := by
  refine h.zoom (fun _ hinv => hinv.1) (fun _ _ hgro => hgro) ?_ id (fun _ _ _ _ hpos => hpos)
  intro t x hinv hpar hgro
  exact ⟨⟨hpar, fun key hkey => store.has_mono hgro (hinv.2 key hkey)⟩, hgro⟩

/-- Over a growing store the cache answers as the store does, and every call on the store through the
cache keeps the contract that the answers rely on. -/
theorem existenceCache_invisible (maxEntries : Nat) (inst : Text) (digests : List (Digest H))
    (s : underlying.State × Cache H) :
    ((existenceCache maxEntries underlying).findMissingBlobs inst digests).Meets store.cached
    (Reports store.cached (fun t => store.has t.1) inst digests s) s ∧
    (store.contract.inv underlying.init → store.cached.inv (existenceCache maxEntries underlying).init) ∧
    ∀ (α : Type) (future : Future underlying.State α) (post : α → underlying.State → Prop),
    future.Meets store.contract post s.1 →
      (future.zoom Lens.fst).Meets store.cached (fun a t => post a t.1) s := by
  refine ⟨?_, fun hini => ⟨hini, fun _ hkey => absurd hkey not_mem_nil⟩, fun _ _ _ => store.meets_zoom⟩
  have hfil : (Future.act fun state : underlying.State × Cache H =>
      (digests.filter fun digest => (inst, digest) ∉ state.2, state)).Meets store.cached
      (fun unknown t => ∀ digest ∈ digests, digest ∉ unknown → store.has t.1 inst digest) s := by
    refine Future.Meets.act fun t _ hinv => ⟨hinv, store.cached.refl t, ?_⟩
    intro u hgro _ digest hdig hunk
    have hcac : (inst, digest) ∈ t.2 := by
      by_contra hnot
      exact hunk (mem_filter.2 ⟨hdig, by simpa using hnot⟩)
    exact store.has_mono hgro (hinv.2 _ hcac)
  refine hfil.bind ?_
  intro unknown t hst hinv hkno
  by_cases hemp : unknown.isEmpty = true
  · -- everything is in the cache
    rw [if_pos hemp]
    rintro u hu hinvu _ ⟨⟩
    refine ⟨fun digest hdig _ => ?_, u, store.cached.trans hst hu, store.cached.refl u, by simp⟩
    exact hkno u hu hinvu digest hdig (by simp [isEmpty_iff.1 hemp])
  · rw [if_neg hemp]
    refine (store.meets_zoom (store.findMissingBlobs inst unknown t.1)).andThen ?_ fun _ _ _ _
      _ => by simp [Reports]
    intro missing u htu hinvu hans
    refine Future.Meets.act fun v huv hinvv => ⟨⟨hinvv.1, ?_⟩, store.cached.refl v, ?_⟩
    · -- what is put into the cache was not missing
      intro key hkey
      rcases Cache.mem_foldl_put hkey with hkey | ⟨hins, hpre⟩
      · exact hinvv.2 key hkey
      · obtain ⟨hunk, hmis⟩ := mem_filter.1 hpre
        rw [hins]
        exact (hans v huv hinvv _ rfl).1 key.2 hunk (by simpa using hmis)
    · rintro w hvw hinvw _ ⟨⟩
      have huw := store.cached.trans huv hvw
      obtain ⟨hpre, q, htq, hqw, hmis⟩ := hans w huw hinvw _ rfl
      refine ⟨fun digest hdig hnot => ?_, (q, []), store.contract.trans hst htq, hqw, hmis⟩
      by_cases hunk : digest ∈ unknown
      · exact hpre digest hunk hnot
      · exact hkno w (store.cached.trans htu huw) hinvw digest hdig hunk

end ExistenceCache

end Toolchain.Storage
