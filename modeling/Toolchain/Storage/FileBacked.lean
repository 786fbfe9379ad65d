import Mathlib.Data.List.DropRight
import Toolchain.Lib.FileSystem
import Toolchain.Storage.Driver
import Toolchain.Storage.ResourceName

/-!
# FileBacked — blobs in files, written under a temporary name

A write goes to a temporary file, named by the digest and a number of the process, which commit
renames.  `with_file_name` drops the directory of the process, so two processes may write to one file
(`container_id_is_no_part`).  Commands of the file system take effect even if the call is dropped.

Models `driver/file_backed.rs`.  The file system fails for missing files and existing targets only.
-/

namespace Toolchain.Storage

open Lib List

variable {H : Type}

/-! ## Paths -/

def withFileName (path name : Text) : Text :=
  path.rdropWhile (· ≠ '/') ++ name

def IsFileName (name : Text) : Prop :=
  '/' ∉ name ∧ name ≠ [] ∧ name ≠ ".".toList ∧ name ≠ "..".toList

structure FileBackedStorage where
  (instancesPath tmpBlobsPath : Text)

def FileBackedStorage.new (basePath containerId : Text) : FileBackedStorage :=
  let basePath := pushPath basePath "v1".toList
  { instancesPath := pushPath basePath "instances".toList
    tmpBlobsPath := pushPath (pushPath basePath "tmp".toList) containerId }

structure Deployment (H : Type) where
  basePath : Text
  containerId : Nat → Text
  containerId_injective : Function.Injective containerId
  containerId_isFileName : ∀ process, IsFileName (containerId process)
  hex : H → Text
  hex_injective : Function.Injective hex
  slash_not_mem_hex : ∀ hash, '/' ∉ hex hash

namespace Deployment

variable (deployment : Deployment H)

def storage (process : Nat) : FileBackedStorage :=
  .new deployment.basePath (deployment.containerId process)

def tmpName (digest : Digest H) (sequence : Nat) : Text :=
  deployment.hex digest.hash ++ '-' :: decimal digest.sizeBytes ++ ".seq".toList ++ decimal sequence

def blobTmpPath (process : Nat) (digest : Digest H) (sequence : Nat) : Text :=
  withFileName (deployment.storage process).tmpBlobsPath (deployment.tmpName digest sequence)

def blobPath (process : Nat) (inst : Text) (digest : Digest H) : Text :=
  pathForDigest (deployment.storage process).instancesPath (deployment.hex digest.hash)
    digest.sizeBytes inst

end Deployment

lemma resolve_append_slash (path rest : Text) : resolve (path ++ '/' :: rest) =
      (rest.splitOn '/').foldl (fun dir comp =>
          if comp = [] ∨ comp = ".".toList then dir
          else if comp = "..".toList then dir.dropLast
          else dir ++ [comp])
        (resolve path) := by
  simp only [resolve, splitOn_append_cons_self, foldl_append]

variable {name : Text}

lemma resolve_append_name (hnam : IsFileName name) (path : Text) :
    resolve (path ++ '/' :: name) = resolve path ++ [name] := by
  obtain ⟨hsla, hnil, hdot, hdots⟩ := hnam
  rw [resolve_append_slash, splitOn_eq_singleton hsla]
  simp only [foldl_cons, foldl_nil, hnil, hdot, hdots, or_self, if_false]

lemma resolve_pushPath (hnam : IsFileName name) (path : Text) :
    resolve (pushPath path name) = resolve path ++ [name] := by
  have hhea : name.head? ≠ some '/' := fun h => hnam.1 (mem_of_head? h)
  unfold pushPath
  rw [if_neg hhea]
  split
  swap
  · exact resolve_append_name hnam path
  rename_i hpat
  rcases hpat with rfl | hlas
  · calc
      resolve ([] ++ name) =
        resolve ([] ++ '/' :: name) := by simp [resolve, splitOn_cons_eq_if_modifyHead]
      _ = resolve [] ++ [name] := resolve_append_name hnam []
  · obtain ⟨path, rfl⟩ := getLast?_eq_some_iff.1 hlas
    rw [append_assoc, singleton_append, resolve_append_name hnam, resolve_append_slash]
    simp

lemma isFileName_of_dash (hsla : '/' ∉ name) (hdas : '-' ∈ name) :
    IsFileName name := by
  refine ⟨hsla, ?_, ?_, ?_⟩
  all_goals
    rintro rfl
    exact absurd hdas (by decide)

lemma pushPath_of_last {path : Text} {c : Char} (hlas : path.getLast? = some c)
    (hc : c ≠ '/') (hnam : IsFileName name) : pushPath path name = path ++ '/' :: name := by
  have hhea : name.head? ≠ some '/' := fun h => hnam.1 (mem_of_head? h)
  unfold pushPath
  rw [if_neg hhea, if_neg]
  rintro (rfl | hsla)
  · cases hlas
  · exact hc (Option.some.inj (hlas.symm.trans hsla))

lemma getLast?_pushPath (path : Text) {comp : Text} (h : comp ≠ []) :
    (pushPath path comp).getLast? = comp.getLast? := by
  unfold pushPath
  split
  · rfl
  · split
    · rw [getLast?_append_of_ne_nil _ h]
    · rw [getLast?_append_of_ne_nil _ (cons_ne_nil _ _), getLast?_cons_of_ne_nil h]

variable {dig digest' : Digest H} {sequence' : Nat}

namespace Deployment

variable (deployment depl : Deployment H)

lemma tmpName_isFileName (dig : Digest H) (seq : Nat) : IsFileName (depl.tmpName dig seq) := by
  apply isFileName_of_dash
  · simp [tmpName, depl.slash_not_mem_hex dig.hash, not_mem_decimal]
  · simp [tmpName]

lemma container_id_is_no_part (proc : Nat) (dig : Digest H) (sequence : Nat) :
    depl.blobTmpPath proc dig sequence =
    pushPath (pushPath depl.basePath "v1".toList) "tmp".toList ++ '/' :: depl.tmpName dig sequence := by
  have hlas : (pushPath (pushPath depl.basePath "v1".toList) "tmp".toList).getLast? =
      some 'p' := getLast?_pushPath _ (by decide)
  have hid := depl.containerId_isFileName proc
  rw [blobTmpPath, storage, FileBackedStorage.new]
  simp only [pushPath_of_last hlas (by decide) hid]
  have hdro : ∀ c ∈ (depl.containerId proc).reverse, (decide (c ≠ '/')) = true := by
    intro c hc
    rw [decide_eq_true_eq]
    rintro rfl
    exact hid.left (mem_reverse.1 hc)
  rw [withFileName, rdropWhile, reverse_append, reverse_cons, append_assoc, dropWhile_append_of_pos hdro]
  simp

def tmpPath (process : Nat) (digest : Digest H) (sequence : Nat) : List Text :=
  resolve (deployment.blobTmpPath process digest sequence)

def finalPath (process : Nat) (inst : Text) (digest : Digest H) : List Text :=
  resolve (deployment.blobPath process inst digest)

lemma tmpPath_inj {proc proc' : Nat} {seq : Nat} :
    depl.tmpPath proc dig seq = depl.tmpPath proc' digest' sequence' ↔ dig = digest' ∧
      seq = sequence' := by
  simp only [tmpPath, container_id_is_no_part, resolve_append_name (depl.tmpName_isFileName _ _)]
  constructor
  · intro h
    -- the number follows the last q, and the size the last dash before it
    have hq : (depl.hex dig.hash ++ '-' :: decimal dig.sizeBytes ++ ".se".toList) ++ 'q' :: decimal seq =
        (depl.hex digest'.hash ++ '-' :: decimal digest'.sizeBytes ++ ".se".toList) ++ 'q' :: decimal sequence' := by
      simpa [tmpName] using ((cons.inj (append_cancel_left h)).left)
    obtain ⟨hnam, hseq⟩ := eq_and_eq_of_append_sep (not_mem_decimal (by decide) seq)
      (not_mem_decimal (by decide) sequence') hq
    obtain ⟨hhas, hsiz⟩ := eq_and_eq_of_append_sep
      (not_mem_decimal (by decide) dig.sizeBytes) (not_mem_decimal (by decide) digest'.sizeBytes)
      (append_cancel_right hnam)
    refine ⟨?_, decimal_injective hseq⟩
    cases dig
    cases digest'
    simp only [Digest.mk.injEq]
    exact ⟨depl.hex_injective hhas, decimal_injective hsiz⟩
  · rintro ⟨rfl, rfl⟩
    rfl

lemma finalPath_ne_tmpPath (proc proc' : Nat) (inst : Text) (dig digest' : Digest H) (sequence : Nat) :
    depl.finalPath proc inst dig ≠ depl.tmpPath proc' digest' sequence := by
  have hname : IsFileName (depl.hex dig.hash ++ '-' :: (toString dig.sizeBytes).toList ++ ".bin".toList) := by
    have hsiz : '/' ∉ (toString dig.sizeBytes).toList := not_mem_decimal (by decide) dig.sizeBytes
    apply isFileName_of_dash
    · simp [depl.slash_not_mem_hex dig.hash]
      simpa using hsiz
    · simp
  intro h
  rw [finalPath, tmpPath, container_id_is_no_part,
    resolve_append_name (depl.tmpName_isFileName _ _), blobPath, pathForDigest] at h
  simp only [resolve_pushPath hname] at h
  have hnam := (cons.inj (append_inj_right' h rfl)).1
  have hblo : (depl.hex dig.hash ++ '-' :: (toString dig.sizeBytes).toList ++ ".bin".toList).getLast? = some 'n' := by
    rw [getLast?_append]
    rfl
  have htmp : (depl.tmpName digest' sequence).getLast? = (decimal sequence).getLast?.or (some 'q') := by
    rw [tmpName, getLast?_append, getLast?_append]
    rfl
  rw [hnam, htmp] at hblo
  cases hdig : (decimal sequence).getLast? with
  | none =>
    rw [hdig] at hblo
    exact absurd hblo (by decide)
  | some c =>
    rw [hdig] at hblo
    cases hblo
    exact not_mem_decimal (by decide) sequence (mem_of_getLast? hdig)

end Deployment

/-! ## Writing -/

/-- How far an attempt is.  `named` waits for its file to be created, and `unrenamed` is a commit whose
rename did nothing. -/
inductive FileStage
  | starting | named | opened | committing | renamed | unrenamed
deriving DecidableEq

/-- `unwritten` is what the open file has accepted but not yet written, and `batches` what all writes
were given. -/
structure FileAttempt (H : Type) where
  process : Nat
  inst : Text
  digest : Digest H
  (sequence file offset : Nat)
  (unwritten batches : Bytes)
  stage : FileStage
  (dropped removed : Bool)

structure FileBackedState (H : Type) where
  fs : FileSystem (List Text) UInt8
  blobSequence : Nat → Nat
  attempts : List (FileAttempt H)
  publisher : List Text → Option Nat

inductive FileEvent (H : Type)
  | beginWriteBlob (process : Nat) (inst : Text) (digest : Digest H)
  | takeSequence (index : Nat)
  | createFile (index : Nat)
  | write (index : Nat) (batch : Bytes)
  | flush (index count : Nat)
  | commit (index : Nat)
  | rename (index : Nat) (refused : Bool)
  | drop (index : Nat)
  | removeFile (index : Nat)

def FileAttempt.tmpPath (deployment : Deployment H) (attempt : FileAttempt H) : List Text :=
  deployment.tmpPath attempt.process attempt.digest attempt.sequence

def FileAttempt.finalPath (deployment : Deployment H) (attempt : FileAttempt H) : List Text :=
  deployment.finalPath attempt.process attempt.inst attempt.digest

lemma FileAttempt.finalPath_ne_tmpPath (deployment : Deployment H) (att : FileAttempt H)
    (proc : Nat) (inst : Text) (dig : Digest H) :
    deployment.finalPath proc inst dig ≠ att.tmpPath deployment :=
  deployment.finalPath_ne_tmpPath _ _ _ _ _ _

namespace FileBackedState

def init : FileBackedState H where
  fs := .empty
  blobSequence _ := 0
  attempts := []
  publisher _ := none

variable (deployment : Deployment H) (s : FileBackedState H)

def beginWriteBlob (process : Nat) (inst : Text) (digest : Digest H) : FileBackedState H :=
  match s.fs.entries (deployment.finalPath process inst digest) with
  | some _ => s
  | none =>
    let attempt : FileAttempt H :=
      { process := process, inst := inst, digest := digest, sequence := 0, file := 0, offset := 0
        unwritten := [], batches := [], stage := .starting, dropped := false, removed := false }
    { s with attempts := s.attempts ++ [attempt] }

def put (index : Nat) (attempt : FileAttempt H) : FileBackedState H :=
  { s with attempts := s.attempts.set index attempt }

def takeSequence (index : Nat) (attempt : FileAttempt H) : FileBackedState H :=
  if attempt.stage = .starting ∧ attempt.dropped = false then
    let sequence := s.blobSequence attempt.process
    { s.put index { attempt with sequence := sequence, stage := .named } with
      blobSequence := Function.update s.blobSequence attempt.process ((sequence + 1) % 2 ^ 64) }
  else
    s

def createFile (index : Nat) (attempt : FileAttempt H) : FileBackedState H :=
  if attempt.stage = .named then
    let created := s.fs.create (attempt.tmpPath deployment)
    { s.put index { attempt with file := created.1, offset := 0, stage := .opened } with
      fs := created.2 }
  else
    s

def write (index : Nat) (attempt : FileAttempt H) (batch : Bytes) : FileBackedState H :=
  if attempt.stage = .opened ∧ attempt.dropped = false then
    s.put index
      { attempt with unwritten := attempt.unwritten ++ batch, batches := attempt.batches ++ batch }
  else
    s

def flush (index : Nat) (attempt : FileAttempt H) (count : Nat) : FileBackedState H :=
  if attempt.stage = .opened ∨ attempt.stage = .committing then
    let data := attempt.unwritten.take count
    { s.put index
        { attempt with
          offset := attempt.offset + data.length
          unwritten := attempt.unwritten.drop count } with
      fs := s.fs.writeAt attempt.file attempt.offset data }
  else
    s

def commit (index : Nat) (attempt : FileAttempt H) : FileBackedState H :=
  if attempt.stage = .opened ∧ attempt.dropped = false then
    s.put index { attempt with stage := .committing }
  else
    s

/-- The second part of commit, once the file is shut down.  A target that is not to be overwritten
is no error; the attempt is dropped in any case. -/
def rename (index : Nat) (attempt : FileAttempt H) (refused : Bool) : FileBackedState H :=
  if attempt.stage = .committing ∧ attempt.unwritten = [] then
    let target := attempt.finalPath deployment
    match if refused then none else s.fs.rename (attempt.tmpPath deployment) target with
    | none => s.put index { attempt with stage := .unrenamed, dropped := true }
    | some fs =>
      { s.put index { attempt with stage := .renamed, dropped := true } with
        fs := fs, publisher := Function.update s.publisher target (some index) }
  else
    s

def drop (index : Nat) (attempt : FileAttempt H) : FileBackedState H :=
  s.put index { attempt with dropped := true }

def removeFile (index : Nat) (attempt : FileAttempt H) : FileBackedState H :=
  if attempt.dropped = true ∧ attempt.stage ≠ .starting ∧ attempt.stage ≠ .named then
    { s.put index { attempt with removed := true } with
      fs := s.fs.remove (attempt.tmpPath deployment) }
  else
    s

def onAttempt (index : Nat) (f : FileAttempt H → FileBackedState H) : FileBackedState H :=
  match s.attempts[index]? with
  | none => s
  | some attempt => f attempt

def step : FileEvent H → FileBackedState H
  | .beginWriteBlob process inst digest => s.beginWriteBlob deployment process inst digest
  | .takeSequence index => s.onAttempt index (s.takeSequence index)
  | .createFile index => s.onAttempt index (s.createFile deployment index)
  | .write index batch => s.onAttempt index (s.write index · batch)
  | .flush index count => s.onAttempt index (s.flush index · count)
  | .commit index => s.onAttempt index (s.commit index)
  | .rename index refused => s.onAttempt index (s.rename deployment index · refused)
  | .drop index => s.onAttempt index (s.drop index)
  | .removeFile index => s.onAttempt index (s.removeFile deployment index)

end FileBackedState

/-! ## Files in use -/

def FileAttempt.Live (attempt : FileAttempt H) : Prop :=
  attempt.stage = .named ∨ attempt.stage = .committing ∨
    (attempt.stage = .opened ∨ attempt.stage = .unrenamed) ∧ attempt.removed = false

def FileAttempt.HasFile (attempt : FileAttempt H) : Prop :=
  attempt.stage ≠ .starting ∧ attempt.stage ≠ .named

def FileAttempt.Linked (attempt : FileAttempt H) : Prop :=
  attempt.HasFile ∧ attempt.stage ≠ .renamed ∧ attempt.removed = false

lemma FileAttempt.Linked.live {att : FileAttempt H} (h : att.Linked) : att.Live := by
  obtain ⟨⟨hstar, hnam⟩, hren, hrem⟩ := h
  cases hsta : att.stage with
  | starting => exact absurd hsta hstar
  | named => exact absurd hsta hnam
  | opened => exact .inr (.inr ⟨.inl hsta, hrem⟩)
  | committing => exact .inr (.inl hsta)
  | renamed => exact absurd hsta hren
  | unrenamed => exact .inr (.inr ⟨.inr hsta, hrem⟩)

namespace FileBackedState

variable (deployment : Deployment H)

def NoShare (s : FileBackedState H) : Prop :=
  ∀ (i j : Nat) (attempt other : FileAttempt H), s.attempts[i]? = some attempt →
    s.attempts[j]? = some other → i ≠ j →
    attempt.Live → other.Live → attempt.tmpPath deployment ≠ other.tmpPath deployment

/-- A visible file has all that was written to the attempt whose commit put it there. -/
def Complete (s : FileBackedState H) : Prop :=
  ∀ process inst digest file, s.fs.entries (deployment.finalPath process inst digest) = some file →
    ∃ (index : Nat) (attempt : FileAttempt H),
      s.publisher (deployment.finalPath process inst digest) = some index ∧
        s.attempts[index]? = some attempt ∧ s.fs.files[file]? = some attempt.batches

/-- The number that is taken is not that of a live attempt for the same digest. -/
def FreshNumber (s : FileBackedState H) : FileEvent H → Prop
  | .takeSequence index => ∀ attempt ∈ s.attempts[index]?, attempt.stage = .starting ∧
    attempt.dropped = false →
        ∀ other ∈ s.attempts, other.Live → other.digest = attempt.digest →
          other.sequence ≠ s.blobSequence attempt.process
  | _ => True

instance (attempt : FileAttempt H) : Decidable attempt.Live :=
  inferInstanceAs (Decidable (_ ∨ _ ∨ _))

instance [DecidableEq H] (s : FileBackedState H) :
    (event : FileEvent H) → Decidable (s.FreshNumber event)
  | .takeSequence index => inferInstanceAs (Decidable (∀ attempt ∈ s.attempts[index]?, _ → _))
  | .beginWriteBlob _ _ _ => isTrue trivial
  | .createFile _ => isTrue trivial
  | .write _ _ => isTrue trivial
  | .flush _ _ => isTrue trivial
  | .commit _ => isTrue trivial
  | .rename _ _ => isTrue trivial
  | .drop _ => isTrue trivial
  | .removeFile _ => isTrue trivial

end FileBackedState

end Toolchain.Storage
