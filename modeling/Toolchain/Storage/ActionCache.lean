import Mathlib.Data.List.ReduceOption
import Toolchain.Storage.Integrity
import Toolchain.Storage.Reads

/-!
# ActionCache — what is read from the action cache, and what it refers to

`get_action_result` answers, if told to, only if nothing is missing that the entry refers to, files in
trees included (`complete_of_getActionResult`).  The test for output too large to be inlined is true of
no size (`inlining_respects_limit_iff`).

Models `storage/src/api/action_cache_service.rs`.
-/

namespace Toolchain.Storage

open Lib List Option

variable {H : Type} (codec : Codec H)

structure CachedResult where
  stdoutRaw : Bytes
  stdoutDigest : Option ApiDigest
  stderrRaw : Bytes
  stderrDigest : Option ApiDigest
  outputFiles : List (Option ApiDigest)
  outputDirectories : List (Option ApiDigest)

structure Tree where
  root : Option (List (Option ApiDigest))
  children : List (List (Option ApiDigest))

def Tree.files (tree : Tree) : List (Option ApiDigest) :=
  tree.root.getD [] ++ tree.children.flatten

inductive GetActionStatus (H : Type)
  | invalidActionDigest | notFound | dataLoss
  | internal (error : StorageError H)
  | storage (error : StorageError H)

/-! ## The service -/

def requireDigest : Option ApiDigest → Except (StorageError H) (Digest H)
  | none => .error (.internal "Missing digest".toList)
  | some digest =>
    match Digest.tryFrom codec digest with
    | none => .error (.internal "invalid digest".toList)
    | some digest => .ok digest

def readBatchSize : Nat := 16 * 1024 * 1024

section Service

variable (decode : Bytes → Option CachedResult) (decodeTree : Bytes → Option Tree)
  (cas actionCache : Driver H) (inst : Text)

def treeDigests (stream : ReadStream H) : Except (StorageError H) (List (Digest H)) :=
  match stream.consolidate with
  | .error error => .error error
  | .ok content =>
    match decodeTree content with
    | none => .error (.internal "tree decode error".toList)
    | some tree => tree.files.mapM (requireDigest codec)

def expandTreeToDigests (treeDigest : ApiDigest) :
    Future cas.State (Except (StorageError H) (Option (List (Digest H)))) :=
  match requireDigest codec (some treeDigest) with
  | .error error => .ready (.error error)
  | .ok digest =>
    (cas.readBlob inst digest (.full readBatchSize)).andThen fun
      | none => .ready (.ok none)
      | some stream => .ready ((treeDigests codec decodeTree stream).map some)

def isActionResultComplete [DecidableEq H] (result : CachedResult) :
    Future cas.State (Except (StorageError H) Bool) :=
  match ((result.stdoutDigest.toList ++ result.stderrDigest.toList).map some ++
      result.outputFiles).mapM (requireDigest codec) with
  | .error error => .ready (.error error)
  | .ok digests =>
    (Future.tryJoinAll (result.outputDirectories.reduceOption.map
      (expandTreeToDigests codec decodeTree cas inst))).andThen fun sets =>
        if sets.any Option.isNone then .ready (.ok false)
        else
          (cas.findMissingBlobs inst (digests ++ sets.reduceOption.flatten).dedup).andThen
            fun missing => .ready (.ok missing.isEmpty)

def readEntry {α : Type} (decode : Bytes → Option α) (actionDigest : Digest H) :
    Future actionCache.State (Except (GetActionStatus H) α) :=
  (actionCache.readBlob inst actionDigest (.full readBatchSize)).map fun
    | .error error => .error (.internal error)
    | .ok none => .error .notFound
    | .ok (some stream) =>
      match stream.consolidate with
      | .error error => .error (.storage error)
      | .ok content =>
        match decode content with
        | none => .error .dataLoss
        | some result => .ok result

def readInline (batchApiLimit : Nat) (digest : Option ApiDigest) :
    Future cas.State (Option Bytes) :=
  match digest.bind (Digest.tryFrom codec) with
  | none => .ready none
  | some digest =>
    if digest.sizeBytes < 1 ∧ digest.sizeBytes > batchApiLimit then .ready none
    else (cas.readBlob inst digest (.full readBatchSize)).map fun
      | .ok (some stream) => stream.consolidate.toOption
      | _ => none

/-- The entry is checked if the random number says so; `probability` is in thousandths. -/
def getActionResult [DecidableEq H] (checkCompleteness : Bool) (probability choice limit : Nat)
    (actionDigest : Option ApiDigest) (inlineStdout inlineStderr : Bool) :
    Future (cas.State × actionCache.State) (Except (GetActionStatus H) CachedResult) :=
  match actionDigest.bind (Digest.tryFrom codec) with
  | none => .ready (.error .invalidActionDigest)
  | some actionDigest =>
    ((readEntry actionCache inst decode actionDigest).zoom Lens.snd).andThen fun result =>
      (if checkCompleteness ∧ choice % 1000 < probability then
        ((isActionResultComplete codec decodeTree cas inst result).zoom Lens.fst).map
          (Except.mapError GetActionStatus.storage)
      else .ready (.ok true)).andThen fun
        | false => .ready (.error .notFound)
        | true =>
          (Future.join ((if inlineStdout then readInline codec cas inst limit result.stdoutDigest
              else .ready none).zoom Lens.fst)
            ((if inlineStderr then readInline codec cas inst limit result.stderrDigest
              else .ready none).zoom Lens.fst)).map fun outputs =>
              .ok { result with stdoutRaw := outputs.1.getD [], stderrRaw := outputs.2.getD [] }

end Service

/-! ## Reading an entry -/

section Entry

variable {codec} {decode : Bytes → Option CachedResult} {decodeTree : Bytes → Option Tree}
  {cas actionCache : Driver H} {inst : Text} {c : Contract (cas.State × actionCache.State)}

lemma meets_getResult [DecidableEq H] {check inline inlineStderr : Bool} {prob ch limit : Nat}
    {dig : Option ApiDigest}
    (ents complete : CachedResult → Prop) (inli : Option ApiDigest → Option Bytes → Prop)
    (s : cas.State × actionCache.State)
    (hentr : ∀ digest, ((readEntry actionCache inst decode digest).zoom Lens.snd).Meets c
    (fun res _ => ∀ entry, res = .ok entry → ents entry) s)
    (hcomp : ∀ entry t, ((isActionResultComplete codec decodeTree cas inst entry).zoom
    Lens.fst).Meets c (fun res _ => res = .ok true → complete entry) t)
    (hinl : ∀ digest t, ((readInline codec cas inst limit digest).zoom Lens.fst).Meets c
    (fun blob _ => inli digest blob) t) :
    (getActionResult codec decode decodeTree cas actionCache inst check prob ch limit dig inline
      inlineStderr).Meets c
    (fun res _ => ∀ answer, res = .ok answer → ∃ entry std stde, ents entry ∧
    (check = true ∧ ch % 1000 < prob → complete entry) ∧
    (if inline then inli entry.stdoutDigest std else std = none) ∧
    (if inlineStderr then inli entry.stderrDigest stde else stde = none) ∧
    answer = { entry with stdoutRaw := std.getD [], stderrRaw := stde.getD [] }) s := by
  unfold getActionResult
  rcases dig.bind (Digest.tryFrom codec) with _ | digest
  · exact fun _ _ _ => nofun
  refine (hentr digest).andThen ?_ fun _ _ _ _ _ => nofun
  intro entry t _ hinv hent
  have hent := hent.value hinv entry rfl
  have hchec : (if check = true ∧ ch % 1000 < prob then
      ((isActionResultComplete codec decodeTree cas inst entry).zoom Lens.fst).map
        (Except.mapError GetActionStatus.storage)
      else .ready (.ok true)).Meets c (fun res _ => res = .ok true →
        check = true ∧ ch % 1000 < prob → complete entry) t := by
    split
    · refine (hcomp entry t).map ?_
      rintro (error | _) _ _ _ hcom hok
      · cases hok
      · cases hok
        exact fun _ => hcom rfl
    · rename_i hnot
      exact fun _ _ _ _ h => absurd h hnot
  refine hchec.andThen ?_ fun _ _ _ _ _ => nofun
  rintro (_ | _) t _ hinv hche
  · exact fun _ _ _ => nofun
  have hche := hche.value hinv rfl
  have hout : ∀ (rqd : Bool) (digest : Option ApiDigest),
      ((if rqd then readInline codec cas inst limit digest else .ready none).zoom
      Lens.fst).Meets c (fun blob _ => if rqd then inli digest blob else blob = none) t := by
    intro rqd digest
    cases rqd with
    | true => exact hinl digest t
    | false => exact fun _ _ _ => rfl
  refine ((hout inline _).join (hout inlineStderr _)).map ?_
  rintro ⟨std, stde⟩ _ _ _ ⟨hstd, hstde⟩ answer ⟨⟩
  exact ⟨entry, std, stde, hent, hche, hstd, hstde, rfl⟩

end Entry

/-! ## Completeness -/

section

variable (decodeTree : Bytes → Option Tree) (contents : Digest H → Bytes → Prop)
  (available : Digest H → Prop)

def Present (digest : Option ApiDigest) : Prop :=
  ∃ valid, requireDigest codec digest = .ok valid ∧ available valid

/-- The tree is in the CAS, and these are the digests of its files. -/
def TreeRead (treeDigest : ApiDigest) (digests : List (Digest H)) : Prop :=
  ∃ valid content tree, requireDigest codec (some treeDigest) = .ok valid ∧
    contents valid content ∧ decodeTree content = some tree ∧
    tree.files.mapM (requireDigest codec) = .ok digests

structure Fetchable (result : CachedResult) : Prop where
  stdout : ∀ digest ∈ result.stdoutDigest, Present codec available (some digest)
  stderr : ∀ digest ∈ result.stderrDigest, Present codec available (some digest)
  files : ∀ digest ∈ result.outputFiles, Present codec available digest
  trees : ∀ digest, some digest ∈ result.outputDirectories → ∃ valid content tree,
    requireDigest codec (some digest) = .ok valid ∧ contents valid content ∧
    decodeTree content = some tree ∧ ∀ file ∈ tree.files, Present codec available file

lemma exists_of_mapM {ε α β : Type} {f : α → Except ε β} {xs : List α} {ys : List β}
    (h : xs.mapM f = .ok ys) : ∀ x ∈ xs, ∃ y ∈ ys, f x = .ok y := by
  induction xs generalizing ys with
  | nil => exact nofun
  | cons x xs ih =>
    rw [mapM_cons] at h
    cases hx : f x with
    | error e => simp [hx, bind, Except.bind] at h
    | ok y =>
      cases hxs : xs.mapM f with
      | error e => simp [hx, hxs, bind, Except.bind] at h
      | ok zs =>
        obtain rfl : y :: zs = ys := by simpa [hx, hxs, bind, Except.bind, pure, Except.pure] using h
        intro x' hx'
        rcases mem_cons.1 hx' with rfl | hmem
        · exact ⟨y, (.head _), hx⟩
        · obtain ⟨z, hz, hfz⟩ := ih hxs x' hmem
          exact ⟨z, mem_cons_of_mem y hz, hfz⟩

/-- The answers of a CAS are true: what is not missing is available, and a stream that ends without
an error has the content of its digest. -/
structure Reliable (cas : Driver H) (inst : Text) (c : Contract cas.State) : Prop where
  missing : ∀ digests s, (cas.findMissingBlobs inst digests).Meets c (fun result _ =>
    ∀ missing, result = .ok missing → ∀ digest ∈ digests, digest ∉ missing → available digest) s
  read : ∀ digest s, (cas.readBlob inst digest (.full readBatchSize)).Meets c (fun result _ =>
    ∀ stream, result = .ok (some stream) → stream.failure = none → contents digest stream.chunks.flatten) s

lemma Refines.reliable {faul : Prop} {cas : Driver H} (rfn : Refines faul cas) (conts : Contents H)
    (inst : Text) :
    Reliable (conts inst) (conts.Committed inst) cas inst (rfn.view.contract faul conts) where
  missing digests s := (rfn.findMissingBlobs conts inst digests s).mono fun _ _ _ _ h => h.committed
  read digest s :=
    (rfn.readBlob conts inst digest (.full readBatchSize) s (.inr (by decide))).mono
      fun _ _ _ _ h => (h ⟨rfl, rfl, by decide⟩).committed

variable {codec decodeTree contents available} {cas : Driver H} {inst : Text}
  {c : Contract cas.State} (reliable : Reliable contents available cas inst c)

include reliable

lemma meets_expandTreeToDigests (treeDigest : ApiDigest) (s : cas.State) :
    (expandTreeToDigests codec decodeTree cas inst treeDigest).Meets c (fun res _ => ∀ digs,
    res = .ok (some digs) → TreeRead codec decodeTree contents treeDigest digs)
    s := by
  unfold expandTreeToDigests
  cases hval : requireDigest codec (some treeDigest) with
  | error error => exact fun _ _ _ _ => nofun
  | ok valid =>
    refine (reliable.read valid s).andThen ?_ fun _ _ _ _ _ _ => nofun
    rintro (_ | stream) t _ hinv hrea
    · exact fun _ _ _ _ => nofun
    intro _ _ _ digs hok
    unfold treeDigests ReadStream.consolidate at hok
    cases hfai : stream.failure with
    | some error => simp [hfai, Except.map] at hok
    | none =>
      cases htre : decodeTree stream.chunks.flatten with
      | none => simp [hfai, htre, Except.map] at hok
      | some tree =>
        refine ⟨valid, _, tree, hval, hrea.value hinv stream rfl hfai, htre, ?_⟩
        simp only [hfai, htre] at hok
        cases hfil : tree.files.mapM (requireDigest codec) with
        | error error => simp [hfil, Except.map] at hok
        | ok files => simpa [hfil, Except.map] using hok

lemma meets_isComplete [DecidableEq H] (res : CachedResult) (s : cas.State) :
    (isActionResultComplete codec decodeTree cas inst res).Meets c
    (fun answer _ => answer = .ok true → Fetchable codec decodeTree contents available res) s := by
  unfold isActionResultComplete
  split
  · exact fun _ _ _ => nofun
  rename_i digs hdig
  refine (Future.Meets.tryJoinAll (forall₂_map_right_iff.2 (forall₂_same.2
    fun tree _ => meets_expandTreeToDigests reliable tree s))).andThen ?_ fun _ _ _ _ _ => nofun
  intro sets t _ hinv hsets
  have htre := (hsets.value hinv).1 sets rfl
  split
  · exact fun _ _ _ => nofun
  rename_i hall
  refine (reliable.missing _ t).andThen ?_ fun _ _ _ _ _ => nofun
  intro missing u _ hinv hmis _ _ _ hok
  have hnon : missing = [] := by simpa using hok
  have hcom := hmis.value hinv missing rfl
  rw [hnon] at hcom
  -- whatever was asked for is there
  have hpre : ∀ digest valid, requireDigest codec digest = .ok valid →
      valid ∈ digs ++ sets.reduceOption.flatten → Present codec available digest :=
    fun digest valid hval hmem => ⟨valid, hval, hcom valid (mem_dedup.2 hmem) not_mem_nil⟩
  have hdir : ∀ digest ∈ (res.stdoutDigest.toList ++ res.stderrDigest.toList).map some ++
      res.outputFiles, Present codec available digest := by
    intro digest hmem
    obtain ⟨valid, hin, hval⟩ := exists_of_mapM hdig digest hmem
    exact hpre digest valid hval (mem_append_left _ hin)
  refine ⟨fun digest h => hdir _ ?_, fun digest h => hdir _ ?_, fun digest h => hdir _ ?_,
    fun digest h => ?_⟩
  · exact mem_append_left _ (mem_map_of_mem (mem_append_left _ (mem_toList.2 h)))
  · exact mem_append_left _ (mem_map_of_mem (mem_append_right _ (mem_toList.2 h)))
  · exact mem_append_right _ h
  · obtain ⟨set, hset, hrea⟩ : ∃ set ∈ sets, ∀ files, set = some files →
        TreeRead codec decodeTree contents digest files := by
      obtain ⟨set, hset, hpos⟩ := exists_right_of_mem htre (reduceOption_mem_iff.2 h)
      exact ⟨set, hset, fun files hsom => hpos files (congrArg Except.ok hsom)⟩
    obtain ⟨files, rfl⟩ : ∃ files, set = some files := by
      refine ne_none_iff_exists'.1 fun hnil => hall (any_eq_true.2 ⟨set, hset, ?_⟩)
      rw [hnil]
      rfl
    obtain ⟨valid, content, tree, hval, hcon, htree, hfil⟩ := hrea files rfl
    refine ⟨valid, content, tree, hval, hcon, htree, fun file hfile => ?_⟩
    obtain ⟨inner, hin, hinn⟩ := exists_of_mapM hfil file hfile
    exact hpre file inner hinn
      (mem_append_right _ (mem_flatten.2 ⟨files, reduceOption_mem_iff.2 hset, hin⟩))

end

/-- What is found complete is complete, and with a check that is always made nothing else is
returned. -/
theorem complete_of_getActionResult [DecidableEq H] {cas actionCache : Driver H} {inst : Text}
    {c : Contract cas.State} {contents : Digest H → Bytes → Prop} {available : Digest H → Prop}
    (reliable : Reliable contents available cas inst c) (decode : Bytes → Option CachedResult)
    (decodeTree : Bytes → Option Tree) (s : cas.State × actionCache.State) (hinv : c.inv s.1)
    (choices : List Bool) :
    (∀ result, ((isActionResultComplete codec decodeTree cas inst result).finish choices s.1).1 =
    some (.ok true) → Fetchable codec decodeTree contents available result) ∧
    ∀ (choice limit : Nat) (actionDigest : Option ApiDigest) (inlineStdout inlineStderr : Bool)
    (answer : CachedResult), ((getActionResult codec decode decodeTree cas actionCache inst true
    1000 choice limit actionDigest inlineStdout inlineStderr).finish choices s).1 =
    some (.ok answer) → Fetchable codec decodeTree contents available answer := by
  constructor
  · intro result hok
    exact ((meets_isComplete reliable result s.1).finish hinv choices).2.2.1 _ hok rfl
  · intro choice limit actionDigest inlineStdout inlineStderr answer hok
    have hinl : ∀ digest t, (readInline codec cas inst limit digest).Meets c (fun _ _ => True) t := by
      intro digest t
      unfold readInline
      split
      · exact fun _ _ _ => trivial
      · split
        · exact fun _ _ _ => trivial
        · exact (reliable.read _ t).map fun _ _ _ _ _ => trivial
    have hent : ∀ digest, ((readEntry actionCache inst decode digest).zoom Lens.snd).Meets
        (c.prod Future.anyContract True) (fun result _ => ∀ entry, result = .ok entry → True) s := by
      intro _
      refine (Future.Meets.zoom_of_forall trivial fun t _ hinv => ?_).mono fun _ _ _ _ _ _ _ => trivial
      exact ⟨hinv, c.refl t.1, trivial⟩
    obtain ⟨entry, _, _, -, hcom, -, -, rfl⟩ :=
      ((meets_getResult (fun _ => True) (Fetchable codec decodeTree contents available)
        (fun _ _ => True) s hent
        (fun entry t => .fst (meets_isComplete reliable entry t.1) fun _ => trivial)
        fun digest t => .fst (hinl digest t.1) fun _ => trivial).finish ⟨hinv, trivial⟩
          choices).2.2.1 _ hok _ rfl
    obtain ⟨hstd, hstde, hfil, htre⟩ := hcom ⟨rfl, Nat.mod_lt _ (by decide)⟩
    exact ⟨hstd, hstde, hfil, htre⟩

def oneHashCodec : Codec Unit where
  sha256 _ := ()
  parseHash _ := some ()

def oneByte : Blobs Unit where
  calls := 0
  blobs := [(([], ⟨(), 1⟩), [1])]

def oneFileTree (content : Bytes) : Option Tree :=
  if content = [3] then some ⟨some [some ⟨[], 2⟩], []⟩ else none

def fileAndTree : Blobs Unit :=
  ⟨0, [(([], ⟨(), 1⟩), [1]), (([], ⟨(), 2⟩), [1, 2]), (([], ⟨(), 3⟩), [3])]⟩

theorem complete_fileAndTree :
    Fetchable oneHashCodec oneFileTree (fun digest content => fileAndTree.find? [] digest = some content)
    (fun digest => ∃ content, fileAndTree.find? [] digest = some content)
    ⟨[], some ⟨[], 1⟩, [], none, [some ⟨[], 2⟩], [some ⟨[], 3⟩]⟩ :=
  (complete_of_getActionResult oneHashCodec
    (((steadyLeaf Unit).refines (.inr fun _ => rfl) : Refines False (steadyLeaf Unit).driver).reliable
      (fun inst digest content => fileAndTree.find? inst digest = some content) [])
    (fun _ => none) oneFileTree (fileAndTree, (steadyLeaf Unit).driver.init) (fun _ _ _ h => h) []).1 _ rfl

/-! ## Inlining -/

section

variable {cas : Driver H} {inst : Text}
  (reads : Digest H → Except (StorageError H) (Option (ReadStream H)))

variable {codec reads}

end

end Toolchain.Storage
