import Toolchain.Lib.Run
import Toolchain.Storage.Api
import Toolchain.Storage.Config

/-!
# Integrity — every blob in the CAS has the content that its digest says

The digest of a write is verified once, at the top of the driver tree, and every tree refines the
committed contents.  So the contents of all leaves match their digests, whichever calls fail or are
dropped.
-/

namespace Toolchain.Storage

open Lib List

variable {H : Type} [DecidableEq H]

def Matches (sha256 : Bytes → H) : Contents H :=
  fun _ digest content => content.length = digest.sizeBytes ∧ sha256 content = digest.hash

/-! ## The verifier -/

variable (inst : Text) (dig : Digest H) (codec : Codec H)

variable (msgs : List (Except Text WriteRequest))

section

variable {sha256 : Bytes → H} {underlying : Driver H} (refines : Refines True underlying)

def VerifierCarries (s : underlying.State) (attempt : VerifierAttempt H underlying.Attempt) : Prop :=
  (∃ inst, refines.carries s attempt.underlying inst attempt.expectedDigest attempt.hasher) ∧
    attempt.written = attempt.hasher.length

variable {refines} {s : underlying.State}

lemma verifier_begin (dig : Digest H) :
    ((writeDigestVerifier sha256 underlying).beginWriteBlob inst dig).Meets
    (refines.view.contract True (Matches sha256))
    (fun res t => ∀ attempt, res = .ok attempt → VerifierCarries refines t attempt) s := by
  refine (refines.beginWriteBlob (Matches sha256) inst dig s).map ?_
  rintro (error | attempt) t - - ⟨hcar, -⟩
  · exact nofun
  · rintro _ ⟨⟩
    exact ⟨⟨inst, hcar attempt rfl⟩, rfl⟩

variable {att : VerifierAttempt H underlying.Attempt}

lemma verifier_write (batch : Bytes) (hcar : VerifierCarries refines s att) :
    ((writeDigestVerifier sha256 underlying).write att batch).Meets
      (refines.view.contract True (Matches sha256))
    (fun res t => res.1 = .ok () → VerifierCarries refines t res.2) s := by
  obtain ⟨⟨inst, hcar⟩, hwri⟩ := hcar
  refine (refines.write (Matches sha256) batch hcar).map ?_
  rintro ⟨res, attempt'⟩ t - - ⟨hcarr, -⟩ hok
  exact ⟨⟨inst, hcarr hok⟩, by simp [hwri]⟩

lemma verifier_commit (hcar : VerifierCarries refines s att) :
    ((writeDigestVerifier sha256 underlying).commit att).Meets
    (refines.view.contract True (Matches sha256)) (fun _ _ => True) s := by
  obtain ⟨⟨inst, hcar⟩, hwri⟩ := hcar
  simp only [writeDigestVerifier]
  split
  · exact fun _ _ _ => trivial
  split
  · exact fun _ _ _ => trivial
  rename_i hsiz hhas
  have hmat : Matches sha256 inst att.expectedDigest att.hasher := by
    refine ⟨?_, ?_⟩
    · rw [← hwri]
      exact not_not.1 hsiz
    · exact congrArg Digest.hash (not_not.1 hhas)
  exact (refines.commit hcar hmat).mono fun _ _ _ _ _ => trivial

lemma verifier_writeThen {α : Type} {batch : Bytes} {k : VerifierAttempt H underlying.Attempt →
      Future underlying.State (Except (StreamingWriteError H) α)}
    (hcar : VerifierCarries refines s att)
    (hk : ∀ att t, VerifierCarries refines t att →
    (k att).Meets (refines.view.contract True (Matches sha256)) (fun _ _ => True) t) :
    ((writeDigestVerifier sha256 underlying).writeThen att batch k).Meets
    (refines.view.contract True (Matches sha256)) (fun _ _ => True) s := by
  refine (verifier_write batch hcar).bind ?_
  rintro ⟨res, attempt'⟩ t - hinv hwri
  cases res with
  | ok _ => exact hk attempt' t (hwri.value hinv rfl)
  | error error => exact fun _ _ _ => trivial

lemma verifier_writeBlob (dig : Digest H) (cont : Bytes) :
    ((writeDigestVerifier sha256 underlying).writeBlob inst dig cont).Meets
    (refines.view.contract True (Matches sha256)) (fun _ _ => True) s := by
  refine (verifier_begin inst dig).andThen ?_ fun _ _ _ _ _ => trivial
  intro att t _ hinv hbeg
  exact verifier_writeThen (hbeg.value hinv att rfl) fun _ _ => verifier_commit

/-! ## The handlers -/

lemma meets_writeMessages (size : Int) (hcar : VerifierCarries refines s att) :
    (writeMessages (writeDigestVerifier sha256 underlying) dig msgs size
    att).Meets (refines.view.contract True (Matches sha256)) (fun _ _ => True) s := by
  induction msgs generalizing size att s with
  | nil => exact fun _ _ _ => trivial
  | cons msg msgs ih =>
    cases msg with
    | error stat => exact fun _ _ _ => trivial
    | ok msg =>
      -- what follows the data of the message
      have hnex (next : Int) : ∀ (att : VerifierAttempt H underlying.Attempt) (t : underlying.State),
          VerifierCarries refines t att → (if msg.finishWrite then
            finishWrite (writeDigestVerifier sha256 underlying) dig next att
          else
            writeMessages (writeDigestVerifier sha256 underlying) dig msgs next att).Meets
            (refines.view.contract True (Matches sha256)) (fun _ _ => True) t := by
        intro att t hcar
        split
        · unfold finishWrite
          split
          · exact fun _ _ _ => trivial
          · exact (verifier_commit hcar).andThen (fun _ _ _ _ _ _ _ _ => trivial) fun _ _ _ _ _ => trivial
        · exact ih _ hcar
      simp only [writeMessages]
      split
      · exact fun _ _ _ => trivial
      · split
        · exact hnex _ att s hcar
        · exact verifier_writeThen hcar (hnex _)

lemma meets_byteStreamWrite : (byteStreamWrite codec (writeDigestVerifier sha256 underlying) msgs).Meets
    (refines.view.contract True (Matches sha256)) (fun _ _ => True) s := by
  unfold byteStreamWrite
  split
  · exact fun _ _ _ => trivial
  · exact fun _ _ _ => trivial
  split
  · exact fun _ _ _ => trivial
  split
  · exact fun _ _ _ => trivial
  rename_i msg rest _ par _ _ digest _
  have hwri : (((writeDigestVerifier sha256 underlying).beginWriteBlob par.instanceName
      digest).andThen fun att => writeMessages (writeDigestVerifier sha256 underlying)
      digest (.ok msg :: rest) 0 att).Meets
      (refines.view.contract True (Matches sha256)) (fun _ _ => True) s := by
    refine (verifier_begin par.instanceName digest).andThen ?_ fun _ _ _ _ _ => trivial
    intro att t _ hinv hbeg
    exact meets_writeMessages digest _ 0 (hbeg.value hinv att rfl)
  exact hwri.map fun _ _ _ _ _ => trivial

lemma meets_batchUpdateBlobs (inst : Text) (rqs : List (Option ApiDigest × Bytes)) :
    (batchUpdateBlobs codec (writeDigestVerifier sha256 underlying) inst rqs).Meets
    (refines.view.contract True (Matches sha256)) (fun _ _ => True) s := by
  refine (Future.Meets.joinAll (p := fun _ _ _ => True) ?_).mono fun _ _ _ _ _ => trivial
  rintro ⟨apiDigest, data⟩ -
  unfold updateBlob
  split
  · exact fun _ _ _ => trivial
  · split
    · exact fun _ _ _ => trivial
    · exact (verifier_writeBlob inst _ data).map fun _ _ _ _ _ => trivial

end

variable (enc : ActionResult H → Bytes)

namespace StorageServer

variable (codec : Codec H) {underlying : Driver H} (refines : Refines True underlying)
  (actionCache : Driver H)

def contract : Contract (underlying.State × actionCache.State) where
  inv s := refines.view.inv (Matches codec.sha256) s.1
  grows s t := refines.view.grows s.1 t.1
  hangs := True
  refl s := refines.view.refl s.1
  trans := refines.view.trans

variable {codec refines actionCache} {α : Type} {s : underlying.State × actionCache.State}

omit [DecidableEq H] in
lemma meets_cas {fut : Future underlying.State α} {p : α → underlying.State → Prop}
    (h : fut.Meets (refines.view.contract True (Matches codec.sha256)) p s.1) :
    (fut.zoom Lens.fst).Meets (contract codec refines actionCache) (fun _ _ => True) s :=
  h.zoom (fun _ hinv => hinv) (fun _ _ hgro => hgro) (fun _ _ _ hpar hgro => ⟨hpar, hgro⟩) id
    (fun _ _ _ _ _ => trivial)

omit [DecidableEq H] in
lemma meets_actionCache (fut : Future actionCache.State α) :
    (fut.zoom Lens.snd).Meets (contract codec refines actionCache) (fun _ _ => True) s :=
  Future.Meets.zoom_of_forall trivial fun t _ hinv => ⟨hinv, refines.view.refl t.1⟩

lemma meets_writeAll (writ : List (Digest H × Bytes)) (dig : Digest H) (enc : Bytes) :
    (writeAll (writeDigestVerifier codec.sha256 underlying) actionCache inst writ dig
    enc).Meets (contract codec refines actionCache) (fun _ _ => True) s := by
  refine (Future.Meets.tryJoinAll (p := fun _ _ _ => True) (forall₂_same.2 ?_)).mono
    fun _ _ _ _ _ => trivial
  intro future hfut
  rcases mem_append.1 hfut with hfut | hfut
  · obtain ⟨write, -, rfl⟩ := mem_map.1 hfut
    have hwri : ((writeDigestVerifier codec.sha256 underlying).writeBlob inst write.1
        write.2).Meets (refines.view.contract True (Matches codec.sha256)) (fun _ _ => True) s.1 :=
      verifier_writeBlob inst write.1 write.2
    exact meets_cas (p := fun _ _ => True) (hwri.map fun _ _ _ _ _ => trivial)
  · cases mem_singleton.1 hfut
    exact meets_actionCache _

lemma meets_updateResult (inst : Text) (dig : Option ApiDigest) (acti : Option (ActionResult H)) :
    (updateActionResult codec enc (writeDigestVerifier codec.sha256 underlying)
    actionCache inst dig acti).Meets (contract codec refines actionCache)
    (fun _ _ => True) s := by
  unfold updateActionResult
  split
  · exact fun _ _ _ => trivial
  split
  · exact fun _ _ _ => trivial
  · exact fun _ _ _ => trivial
  · exact (meets_writeAll inst _ _ _).map fun _ _ _ _ _ => trivial

lemma meets_handle (rq : Request H) :
    (handle codec (writeDigestVerifier codec.sha256 underlying) actionCache enc rq).Meets
    (contract codec refines actionCache) (fun _ _ => True) s := by
  cases rq with
  | write msgs => exact (meets_cas (meets_byteStreamWrite codec msgs)).map fun _ _ _ _ _ => trivial
  | batchUpdateBlobs inst rqs =>
    exact (meets_cas (meets_batchUpdateBlobs codec inst rqs)).map fun _ _ _ _ _ => trivial
  | findMissingBlobs inst digs =>
    rw [handle]
    split
    · exact fun _ _ _ => trivial
    · exact (meets_cas (refines.findMissingBlobs _ inst _ s.1)).map fun _ _ _ _ _ => trivial
  | readBlob inst digest win =>
    rw [handle]
    split
    · exact fun _ _ _ => trivial
    · exact (meets_cas (refines.readBlob _ inst _ win s.1 (.inl trivial))).map fun _ _ _ _ _ => trivial
  | updateActionResult inst dig acti =>
    exact (meets_updateResult enc inst dig acti).map fun _ _ _ _ _ => trivial

structure Sound (refines : Refines True underlying)
    (server : StorageServer (writeDigestVerifier codec.sha256 underlying) actionCache) : Prop where
  inv : refines.view.inv (Matches codec.sha256) server.state.1
  running : ∀ future ∈ server.running,
    future.Meets (contract codec refines actionCache) (fun _ _ => True) server.state

section

variable {ser : StorageServer (writeDigestVerifier codec.sha256 underlying) actionCache}
  (h : Sound refines ser)

include h

lemma Sound.start
    {fut : Future ((writeDigestVerifier codec.sha256 underlying).State × actionCache.State) Unit}
    (hfut : fut.Meets (contract codec refines actionCache) (fun _ _ => True) ser.state) :
    Sound refines { ser with running := ser.running ++ [fut] } := by
  refine ⟨h.inv, ?_⟩
  intro future' hfut'
  rcases mem_append.1 hfut' with hfut' | hfut'
  · exact h.running future' hfut'
  · cases mem_singleton.1 hfut'
    exact hfut

lemma Sound.step (enc : ActionResult H → Bytes)
    (ev : ServerEvent (writeDigestVerifier codec.sha256 underlying) actionCache) :
    Sound refines (step codec _ actionCache enc ser ev) := by
  cases ev with
  | request request => exact h.start (meets_handle enc request)
  | background task =>
    rcases task with task | task
    · exact h.start (meets_cas (refines.runTask _ task ser.state.1))
    · exact h.start (meets_actionCache (actionCache.runTask task))
  | poll idx choi =>
    rw [StorageServer.step]
    split
    · exact h
    rename_i future hfut
    have hmee := h.running future (mem_of_getElem? hfut)
    obtain ⟨hinv, hgro, hnex⟩ := hmee.poll h.inv choi
    refine ⟨hinv, ?_⟩
    -- the other requests go on from the state that this one has left
    intro future' hfut'
    rcases mem_or_eq_of_mem_set hfut' with hfut' | rfl
    · exact (h.running future' hfut').grow hgro
    · exact hnex
  | drop idx => exact ⟨h.inv, fun future hfut => h.running future (mem_of_mem_eraseIdx hfut)⟩

end

/-- Whatever the server is asked, in whatever order its requests run, are dropped and fail: every
blob in a leaf of the CAS matches its digest. -/
theorem cas_integrity (codec : Codec H) (config : Config H) (actionCache : Driver H)
    (encode : ActionResult H → Bytes)
    (events : List (ServerEvent (makeStorage codec.sha256 config true) actionCache)) (inst : Text)
    (digest : Digest H) (content : Bytes)
    (hvisible : (makeStorage codec.sha256 config true).Visible
    (run (step codec _ actionCache encode) (init _ actionCache) events).state.1 inst digest content) :
    content.length = digest.sizeBytes ∧ codec.sha256 content = digest.hash := by
  have href := config.refines (.inl trivial)
  have hini : Sound href (init (writeDigestVerifier codec.sha256 config.make) actionCache) :=
    ⟨href.inv_init _, fun _ => nofun⟩
  have hsou := run_invariant (Sound href) (fun _ event h => h.step encode event) events hini
  exact href.visible hsou.inv hvisible

/-- A digest is the length of its content. -/
def lengthCodec : Codec Nat where
  sha256 := length
  parseHash _ := some 2

def cachedSplit : Config Nat :=
  .existenceCache 8 (.sizeSplit 4 (.leaf (steadyLeaf Nat)) (.metered (.leaf (steadyLeaf Nat))))

def uploads : List (ServerEvent (makeStorage lengthCodec.sha256 cachedSplit true)
    (steadyLeaf Nat).driver) :=
  .request (.batchUpdateBlobs [] [(some ⟨[], 2⟩, [7, 8])]) :: replicate 8 (.poll 0 false)

def afterUploads := (run (step lengthCodec _ _ fun _ => []) (init _ _) uploads).state.1

lemma visible_afterUploads :
    (makeStorage lengthCodec.sha256 cachedSplit true).Visible afterUploads [] ⟨2, 2⟩ [7, 8] := by
  have hfin : Blobs.find? (H := Nat) afterUploads.1.1 [] ⟨2, 2⟩ = some [7, 8] := by decide +kernel
  exact .inl hfin

theorem cas_integrity_batchUpdateBlobs :
    (makeStorage lengthCodec.sha256 cachedSplit true).Visible afterUploads [] ⟨2, 2⟩ [7, 8] ∧
    [7, 8].length = 2 ∧ lengthCodec.sha256 [7, 8] = 2 :=
  ⟨visible_afterUploads,
    cas_integrity lengthCodec cachedSplit _ _ uploads [] ⟨2, 2⟩ [7, 8] visible_afterUploads⟩

end StorageServer

end Toolchain.Storage
