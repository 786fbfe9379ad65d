import Toolchain.Lib.Run
import Toolchain.Storage.FileBacked

/-!
# TemporaryFiles — when a visible blob is complete

As long as no number is taken that a live attempt has for the same digest, no two attempts share a file,
and every visible blob is complete (`complete_of_fresh_numbers`).  Two processes, which count for
themselves, do not keep to that (`truncated_by_other_process`).
-/

namespace Toolchain.Storage

open Lib List Option FileBackedState FileSystem Function

variable {H : Type}

variable {i : Nat} {t : FileBackedState H}

namespace FileBackedState

variable (deployment depl : Deployment H)

/-- What is known of an attempt by itself: its file has what was written so far, and nothing is
missing when it has been renamed. -/
structure Tidy (fs : FileSystem (List Text) UInt8) (attempt : FileAttempt H) : Prop where
  content : attempt.HasFile → ∃ content, fs.files[attempt.file]? = some content ∧
    content ++ attempt.unwritten = attempt.batches ∧ attempt.offset = content.length
  blank : ¬attempt.HasFile → attempt.unwritten = [] ∧ attempt.batches = [] ∧ attempt.removed = false
  finished : attempt.stage = .renamed → attempt.unwritten = []
  removed : attempt.removed = true → attempt.dropped = true

/-- Two attempts have files and live names of their own. -/
structure Apart (attempt other : FileAttempt H) : Prop where
  names : attempt.Live → other.Live → ¬(attempt.digest = other.digest ∧ attempt.sequence = other.sequence)
  files : attempt.HasFile → other.HasFile → attempt.file ≠ other.file

def Owns (digest : Digest H) (sequence file : Nat) (attempt : FileAttempt H) : Prop :=
  attempt.Linked ∧ attempt.digest = digest ∧ attempt.sequence = sequence ∧ attempt.file = file

/-- A temporary path leads to the file of a live attempt, and a blob's path to a renamed one. -/
structure Sound (s : FileBackedState H) : Prop where
  tidy : ∀ {i : Nat} {attempt}, s.attempts[i]? = some attempt → Tidy s.fs attempt
  apart : ∀ {i j : Nat} {attempt other}, s.attempts[i]? = some attempt →
    s.attempts[j]? = some other → i ≠ j → Apart attempt other
  owner : ∀ {process digest sequence file},
    s.fs.entries (deployment.tmpPath process digest sequence) = some file →
    ∃ (i : Nat) (attempt : FileAttempt H), s.attempts[i]? = some attempt ∧
      Owns digest sequence file attempt
  visible : ∀ {process inst digest file}, s.fs.entries (deployment.finalPath process inst digest) =
    some file →
    ∃ (index : Nat) (attempt : FileAttempt H),
      s.publisher (deployment.finalPath process inst digest) = some index ∧
        s.attempts[index]? = some attempt ∧ attempt.stage = .renamed ∧ attempt.file = file

variable {deployment depl} {s : FileBackedState H}

lemma sound_init : (init : FileBackedState H).Sound deployment := ⟨nofun, nofun, nofun, nofun⟩

lemma Sound.noShare (h : s.Sound deployment) : s.NoShare deployment := by
  intro i j attempt other hatt hoth hne hliv hlive' hpat
  exact (h.apart hatt hoth hne).names hliv hlive' (deployment.tmpPath_inj.1 hpat)

lemma hasFile_of_renamed {att : FileAttempt H} (h : att.stage = .renamed) :
    att.HasFile := by
  constructor
  · rw [h]
    exact nofun
  · rw [h]
    exact nofun

lemma Sound.complete (h : s.Sound deployment) : s.Complete deployment := by
  intro proc inst digest file hfil
  obtain ⟨index, attempt, hpub, hatt, hsta, rfl⟩ := h.visible hfil
  obtain ⟨content, hcon, hbat, -⟩ := (h.tidy hatt).content (hasFile_of_renamed hsta)
  rw [(h.tidy hatt).finished hsta, append_nil] at hbat
  exact ⟨index, attempt, hpub, hatt, hbat ▸ hcon⟩

/-! ## The steps -/

variable {index idx : Nat} {attempt att later : FileAttempt H}

lemma put_cases {other : FileAttempt H} (h : (s.attempts.set idx later)[i]? = some other) :
    i = idx ∧ other = later ∨ i ≠ idx ∧ s.attempts[i]? = some other := by
  rw [getElem?_set] at h
  split at h
  · rename_i hi
    split at h
    · exact .inl ⟨hi.symm, (some.inj h).symm⟩
    · cases h
  · rename_i hi
    exact .inr ⟨fun heq => hi heq.symm, h⟩

lemma put_self (hatt : s.attempts[idx]? = some att) : (s.attempts.set idx later)[idx]? = some later :=
  getElem?_set_self (List.getElem?_eq_some_iff.1 hatt).1

lemma put_of_ne (hne : i ≠ idx) : (s.attempts.set idx later)[i]? = s.attempts[i]? :=
  getElem?_set_ne (.symm hne)

lemma Apart.symm {other : FileAttempt H} (h : Apart att other) : Apart other att where
  names hliv hlive' heq := h.names hlive' hliv ⟨heq.1.symm, heq.2.symm⟩
  files hhas hhas' := (h.files hhas' hhas).symm

lemma entries_update_none {proc : Nat} {dig : Digest H} {seq file : Nat}
    (hfil : Function.update s.fs.entries (att.tmpPath deployment) none
      (deployment.tmpPath proc dig seq) = some file) :
    s.fs.entries (deployment.tmpPath proc dig seq) = some file ∧ ¬Owns dig seq file att := by
  by_cases hpat : deployment.tmpPath proc dig seq = att.tmpPath deployment
  · rw [hpat, update_self] at hfil
    cases hfil
  · rw [update_of_ne hpat] at hfil
    exact ⟨hfil, fun howns => hpat (deployment.tmpPath_inj.2 ⟨howns.2.1.symm, howns.2.2.1.symm⟩)⟩

structure Same (attempt later : FileAttempt H) : Prop where
  digest : later.digest = attempt.digest
  sequence : later.sequence = attempt.sequence
  file : later.file = attempt.file
  live : later.Live → attempt.Live
  hasFile : later.HasFile → attempt.HasFile
  linked : attempt.Linked → later.Linked
  renamed : attempt.stage = .renamed → later.stage = .renamed

lemma Same.apart {other : FileAttempt H} (hsam : Same att later) (h : Apart att other) :
    Apart later other where
  names hliv := by
    rw [hsam.digest, hsam.sequence]
    exact h.names (hsam.live hliv)
  files hhas := by
    rw [hsam.file]
    exact h.files (hsam.hasFile hhas)

section

variable (h : s.Sound deployment)

include h

section

variable (hatt : s.attempts[idx]? = some att)

include hatt

/-- A step of one attempt.  What its paths led to before is still there, unless it was its own. -/
lemma Sound.update (hset : t.attempts = s.attempts.set idx later)
    (hfil : ∀ {i : Nat} {other}, i ≠ idx → s.attempts[i]? = some other → other.HasFile →
    t.fs.files[other.file]? = s.fs.files[other.file]?)
    (htid : Tidy t.fs later)
    (hapa : ∀ {i : Nat} {other}, i ≠ idx → s.attempts[i]? = some other → Apart later other)
    (hown : ∀ {process digest sequence file},
      t.fs.entries (deployment.tmpPath process digest sequence) = some file →
    Owns digest sequence file later ∨
    s.fs.entries (deployment.tmpPath process digest sequence) = some file ∧ ¬Owns digest sequence file att)
    (hvis : ∀ {process inst digest file},
      t.fs.entries (deployment.finalPath process inst digest) = some file →
    t.publisher (deployment.finalPath process inst digest) = some idx ∧ later.stage = .renamed ∧
      later.file = file ∨
    s.fs.entries (deployment.finalPath process inst digest) = some file ∧
    t.publisher (deployment.finalPath process inst digest) =
      s.publisher (deployment.finalPath process inst digest) ∧
    (att.stage = .renamed → later.stage = .renamed ∧ later.file = att.file)) :
    t.Sound deployment := by
  refine ⟨?_, ?_, ?_, ?_⟩
  · intro i other hoth
    rw [hset] at hoth
    rcases put_cases hoth with ⟨-, rfl⟩ | ⟨hne, hoth⟩
    · exact htid
    have hold := h.tidy hoth
    refine ⟨?_, hold.blank, hold.finished, hold.removed⟩
    intro hhas
    rw [hfil hne hoth hhas]
    exact hold.content hhas
  · intro i j first second hfir hsec hne
    rw [hset] at hfir hsec
    rcases put_cases hfir with ⟨rfl, rfl⟩ | ⟨hi, hold⟩
    · rcases put_cases hsec with ⟨rfl, rfl⟩ | ⟨hj, hold'⟩
      · exact absurd rfl hne
      · exact hapa hj hold'
    · rcases put_cases hsec with ⟨rfl, rfl⟩ | ⟨hj, hold'⟩
      · exact (hapa hi hold).symm
      · exact h.apart hold hold' hne
  · intro proc digest seq file hfile
    rw [hset]
    rcases hown hfile with hlat | ⟨hold, hnot⟩
    · exact ⟨idx, later, put_self hatt, hlat⟩
    obtain ⟨i, owner, howner, howns⟩ := h.owner hold
    refine ⟨i, owner, (put_of_ne ?_).trans howner, howns⟩
    rintro rfl
    cases hatt.symm.trans howner
    exact hnot howns
  · intro proc inst digest file hfile
    rw [hset]
    rcases hvis hfile with ⟨hind, hren⟩ | ⟨hold, hpub, hren⟩
    · exact ⟨idx, later, hind, put_self hatt, hren⟩
    obtain ⟨i, owner, hind, howner, hsta, rfl⟩ := h.visible hold
    by_cases hi : i = idx
    · subst hi
      cases hatt.symm.trans howner
      exact ⟨i, later, hpub.trans hind, put_self hatt, hren hsta⟩
    · exact ⟨i, owner, hpub.trans hind, (put_of_ne hi).trans howner, hsta, rfl⟩

lemma Sound.quiet (hset : t.attempts = s.attempts.set idx later) (hent : t.fs.entries = s.fs.entries)
    (hpub : t.publisher = s.publisher) (hsam : Same att later)
    (hfil : ∀ {i : Nat} {other}, i ≠ idx → s.attempts[i]? = some other → other.HasFile →
    t.fs.files[other.file]? = s.fs.files[other.file]?)
    (htid : Tidy t.fs later) : t.Sound deployment := by
  refine h.update hatt hset hfil htid (fun hne hoth => hsam.apart (h.apart hatt hoth hne.symm)) ?_ ?_
  · intro proc digest seq file hfile
    by_cases howns : Owns digest seq file att
    · obtain ⟨hlin, rfl, rfl, rfl⟩ := howns
      exact .inl ⟨hsam.linked hlin, hsam.digest, hsam.sequence, hsam.file⟩
    · exact .inr ⟨hent ▸ hfile, howns⟩
  · intro proc inst digest file hfile
    exact .inr ⟨hent ▸ hfile, hpub ▸ rfl, fun hren => ⟨hsam.renamed hren, hsam.file⟩⟩

lemma Sound.write (batch : Bytes) : (s.write idx att batch).Sound deployment := by
  unfold FileBackedState.write
  split
  swap
  · exact h
  rename_i hsta
  have hhas : att.HasFile := by
    rw [FileAttempt.HasFile, hsta.1]
    exact ⟨nofun, nofun⟩
  obtain ⟨content, hcon, hbat, hoff⟩ := (h.tidy hatt).content hhas
  refine h.quiet hatt rfl rfl rfl ⟨rfl, rfl, rfl, id, id, id, id⟩ (fun _ _ _ => rfl) ?_
  refine ⟨fun _ => ⟨content, hcon, ?_, hoff⟩, fun hnon => absurd hhas hnon, ?_, (h.tidy hatt).removed⟩
  · rw [← hbat, append_assoc]
  · intro hren
    exact nomatch hsta.1.symm.trans hren

lemma Sound.flush
    (count : Nat) : (s.flush idx att count).Sound deployment := by
  unfold FileBackedState.flush
  split
  swap
  · exact h
  rename_i hsta
  have hhas : att.HasFile := by
    rcases hsta with hsta | hsta
    all_goals
      rw [FileAttempt.HasFile, hsta]
      exact ⟨nofun, nofun⟩
  obtain ⟨content, hcon, hbat, hoff⟩ := (h.tidy hatt).content hhas
  refine h.quiet hatt rfl rfl rfl ⟨rfl, rfl, rfl, id, id, id, id⟩ ?_ ?_
  · intro i other hne hoth hhas'
    simp [writeAt, ((h.apart hoth hatt hne).files hhas' hhas).symm]
  · refine ⟨fun _ => ⟨content ++ att.unwritten.take count, ?_, ?_, ?_⟩,
      fun hnon => absurd hhas hnon, ?_, (h.tidy hatt).removed⟩
    · rw [hoff]
      simp [writeAt, hcon, splice]
    · rwa [append_assoc, take_append_drop]
    · rw [hoff, length_append]
    · intro hren
      rcases hsta with hsta | hsta
      · exact nomatch hsta.symm.trans hren
      · exact nomatch hsta.symm.trans hren

lemma Sound.commit : (s.commit idx att).Sound deployment := by
  unfold FileBackedState.commit
  split
  swap
  · exact h
  rename_i hsta
  have hhas : att.HasFile := by
    rw [FileAttempt.HasFile, hsta.1]
    exact ⟨by simp, by simp⟩
  -- an attempt that was not dropped has not been removed
  have hliv : att.Live := by
    refine .inr (.inr ⟨.inl hsta.1, ?_⟩)
    cases hrem : att.removed with
    | false => rfl
    | true => simp [(h.tidy hatt).removed hrem] at hsta
  have hfil : FileAttempt.HasFile { att with stage := .committing } := ⟨by simp, by simp⟩
  have hsam : Same att { att with stage := .committing } :=
    ⟨rfl, rfl, rfl, fun _ => hliv, fun _ => hhas, fun hlin => ⟨hfil, by simp, hlin.2.2⟩,
      fun hren => by simp [hren] at hsta⟩
  refine h.quiet hatt rfl rfl rfl hsam (fun _ _ _ => rfl) ?_
  exact ⟨fun _ => (h.tidy hatt).content hhas, fun hnon => absurd hfil hnon, by simp, (h.tidy hatt).removed⟩

lemma Sound.drop : (s.drop idx att).Sound deployment := by
  have hold := h.tidy hatt
  exact h.quiet hatt rfl rfl rfl ⟨rfl, rfl, rfl, id, id, id, id⟩ (fun _ _ _ => rfl)
    ⟨hold.content, hold.blank, hold.finished, fun _ => rfl⟩

end

lemma Sound.beginWriteBlob (proc : Nat) (inst : Text)
    (dig : Digest H) : (s.beginWriteBlob depl proc inst dig).Sound deployment := by
  unfold FileBackedState.beginWriteBlob
  split
  · exact h
  -- the new attempt has neither a name nor a file
  have hcas : ∀ {atts : List (FileAttempt H)} {new other : FileAttempt H} {i : Nat},
      (atts ++ [new])[i]? = some other → atts[i]? = some other ∨ other = new := by
    intro atts new other i hoth
    rw [getElem?_append] at hoth
    split at hoth
    · exact .inl hoth
    · exact .inr (mem_singleton.1 (mem_of_getElem? hoth))
  have hold : ∀ {atts : List (FileAttempt H)} {new other : FileAttempt H} {i : Nat},
      atts[i]? = some other → (atts ++ [new])[i]? = some other := by
    intro atts new other i hoth
    rwa [getElem?_append_left (List.getElem?_eq_some_iff.1 hoth).1]
  have hnew : ∀ {new other : FileAttempt H}, new.stage = .starting → Apart new other := by
    intro new other hsta
    refine ⟨fun hliv => ?_, fun hhas => absurd hsta hhas.1⟩
    rcases hliv with hliv | hliv | ⟨hliv | hliv, -⟩
    all_goals exact nomatch hsta.symm.trans hliv
  refine ⟨?_, ?_, ?_, ?_⟩
  · intro i other hoth
    rcases hcas hoth with hoth | rfl
    · exact h.tidy hoth
    · exact ⟨fun hhas => absurd rfl hhas.1, fun _ => ⟨rfl, rfl, rfl⟩, nofun, nofun⟩
  · intro i j first second hfir hsec hne
    rcases hcas hfir with hfir | rfl
    · rcases hcas hsec with hsec | rfl
      · exact h.apart hfir hsec hne
      · exact (hnew rfl).symm
    · exact hnew rfl
  · intro proc dig seq file hfil
    obtain ⟨i, owner, hown, hres⟩ := h.owner hfil
    exact ⟨i, owner, hold hown, hres⟩
  · intro proc inst dig file hfil
    obtain ⟨i, owner, hind, hown, hres⟩ := h.visible hfil
    exact ⟨i, owner, hind, hold hown, hres⟩

lemma Sound.takeSequence (hatt : s.attempts[index]? = some att)
    (hfre : s.FreshNumber (.takeSequence index)) :
    (s.takeSequence index att).Sound deployment := by
  unfold FileBackedState.takeSequence
  split
  swap
  · exact h
  rename_i hsta
  have hnon : ¬att.HasFile := fun hhas => hhas.1 hsta.1
  have hbla := (h.tidy hatt).blank hnon
  refine h.update hatt rfl (fun _ _ _ => rfl) ?_ ?_ ?_ ?_
  · exact ⟨fun hhas => absurd rfl hhas.2, fun _ => hbla, nofun, (h.tidy hatt).removed⟩
  · intro i other hne hoth
    refine ⟨?_, fun hhas => absurd rfl hhas.2⟩
    rintro - hliv ⟨hdig, hseq⟩
    exact hfre att hatt hsta other (mem_of_getElem? hoth) hliv hdig.symm hseq.symm
  · exact fun hfil => .inr ⟨hfil, fun howns => hnon howns.1.1⟩
  · exact fun hfil => .inr ⟨hfil, rfl, fun hren => absurd (hasFile_of_renamed hren) hnon⟩

lemma Sound.createFile (hatt : s.attempts[index]? = some att) :
    (s.createFile deployment index att).Sound deployment := by
  unfold FileBackedState.createFile
  split
  swap
  · exact h
  rename_i hsta
  have hnon : ¬att.HasFile := fun hhas => hhas.2 hsta
  have hliv : att.Live := .inl hsta
  obtain ⟨hunw, hbat, hrem⟩ := (h.tidy hatt).blank hnon
  have hfre : s.fs.entries (att.tmpPath deployment) = none := by
    cases hent : s.fs.entries (att.tmpPath deployment) with
    | none => rfl
    | some file =>
      obtain ⟨i, owner, hown, hlin, hdig, hseq, -⟩ := h.owner hent
      refine absurd ⟨hdig, hseq⟩ ((h.apart hown hatt ?_).names hlin.live hliv)
      rintro rfl
      cases hatt.symm.trans hown
      exact hnon hlin.1
  have hlen : ∀ {i : Nat} {owner : FileAttempt H}, s.attempts[i]? = some owner →
      owner.HasFile → owner.file < s.fs.files.length := by
    intro i owner hown hhas
    obtain ⟨content, hcon, -⟩ := (h.tidy hown).content hhas
    exact (List.getElem?_eq_some_iff.1 hcon).1
  simp only [create_new hfre]
  refine h.update hatt rfl ?_ ?_ ?_ ?_ ?_
  · intro i other _ hoth hhas
    exact getElem?_append_left (hlen hoth hhas)
  · refine ⟨fun _ => ⟨[], by simp, ?_, rfl⟩, fun hhas => absurd ⟨nofun, nofun⟩ hhas, nofun,
      (h.tidy hatt).removed⟩
    simpa [hunw] using hbat.symm
  · intro i other hne hoth
    exact ⟨fun _ => (h.apart hatt hoth hne.symm).names hliv, fun _ hhas => Nat.ne_of_gt (hlen hoth hhas)⟩
  · intro proc digest seq file hfil
    have hfil : Function.update s.fs.entries (att.tmpPath deployment)
        (some s.fs.files.length) (deployment.tmpPath proc digest seq) = some file := hfil
    by_cases hpat : deployment.tmpPath proc digest seq = att.tmpPath deployment
    · obtain ⟨rfl, rfl⟩ := deployment.tmpPath_inj.1 hpat
      rw [hpat, Function.update_self] at hfil
      exact .inl ⟨⟨⟨nofun, nofun⟩, nofun, hrem⟩, rfl, rfl, some.inj hfil⟩
    · rw [update_of_ne hpat] at hfil
      exact .inr ⟨hfil, fun howns => hnon howns.1.1⟩
  · intro proc inst digest file hfil
    have hfil : Function.update s.fs.entries (att.tmpPath deployment)
        (some s.fs.files.length) (deployment.finalPath proc inst digest) = some file := hfil
    rw [update_of_ne (att.finalPath_ne_tmpPath deployment _ _ _)] at hfil
    exact .inr ⟨hfil, rfl, fun hren => absurd (hasFile_of_renamed hren) hnon⟩

lemma Sound.unrenamed (hatt : s.attempts[idx]? = some att) (hsta : att.stage = .committing) :
    (s.put idx { att with stage := .unrenamed, dropped := true }).Sound deployment := by
  have hhas : att.HasFile := by
    rw [FileAttempt.HasFile, hsta]
    exact ⟨nofun, nofun⟩
  have hsam : Same att { att with stage := .unrenamed, dropped := true } :=
    ⟨rfl, rfl, rfl, fun _ => .inr (.inl hsta), fun _ => hhas, fun hlin =>
      ⟨⟨nofun, nofun⟩, nofun, hlin.2.2⟩,
      fun hren => nomatch hsta.symm.trans hren⟩
  refine h.quiet hatt rfl rfl rfl hsam (fun _ _ _ => rfl) ?_
  exact ⟨fun _ => (h.tidy hatt).content hhas, fun hnon => absurd ⟨nofun, nofun⟩ hnon, nofun, fun _ => rfl⟩

lemma Sound.rename (hatt : s.attempts[index]? = some att)
    (ref : Bool) : (s.rename deployment index att ref).Sound deployment := by
  unfold FileBackedState.rename
  split
  swap
  · exact h
  rename_i hsta
  dsimp only
  split
  · exact h.unrenamed hatt hsta.1
  rename_i fs hfs
  have hhas : att.HasFile := by
    rw [FileAttempt.HasFile, hsta.1]
    exact ⟨nofun, nofun⟩
  have hliv : att.Live := .inr (.inl hsta.1)
  have hrena : s.fs.rename (att.tmpPath deployment) (att.finalPath deployment) =
      some fs := by
    cases ref with
    | true => cases hfs
    | false => exact hfs
  obtain ⟨file, hent, rfl⟩ := map_eq_some_iff.1 hrena
  obtain rfl : att.file = file := by
    obtain ⟨i, owner, hown, hlin, hdig, hseq, rfl⟩ := h.owner hent
    by_cases hi : i = index
    · subst hi
      cases hatt.symm.trans hown
      rfl
    · exact absurd ⟨hdig, hseq⟩ ((h.apart hown hatt hi).names hlin.live hliv)
  refine h.update hatt rfl (fun _ _ _ => rfl) ?_ ?_ ?_ ?_
  · exact ⟨fun _ => (h.tidy hatt).content hhas, fun hnon => absurd ⟨nofun, nofun⟩ hnon, fun _ =>
      hsta.2, fun _ => rfl⟩
  · intro i other hne hoth
    refine ⟨?_, fun _ => (h.apart hatt hoth hne.symm).files hhas⟩
    rintro (hnam | hcom | ⟨hope | hunr, -⟩)
    · cases hnam
    · cases hcom
    · cases hope
    · cases hunr
  · intro proc digest seq found hfou
    have hfou : Function.update (Function.update s.fs.entries (att.tmpPath deployment) none)
        (att.finalPath deployment) (some att.file)
        (deployment.tmpPath proc digest seq) = some found := hfou
    have hne : deployment.tmpPath proc digest seq ≠ att.finalPath deployment :=
      (deployment.finalPath_ne_tmpPath _ _ _ _ _ _).symm
    rw [update_of_ne hne] at hfou
    exact .inr (entries_update_none hfou)
  · intro proc inst digest found hfou
    have hfou : Function.update (Function.update s.fs.entries (att.tmpPath deployment) none)
        (att.finalPath deployment) (some att.file)
        (deployment.finalPath proc inst digest) = some found := hfou
    by_cases hpat : deployment.finalPath proc inst digest = att.finalPath deployment
    · rw [hpat, update_self] at hfou
      refine .inl ⟨?_, rfl, some.inj hfou⟩
      rw [hpat]
      exact update_self ..
    · rw [update_of_ne hpat, update_of_ne (att.finalPath_ne_tmpPath deployment _ _ _)] at hfou
      exact .inr ⟨hfou, update_of_ne hpat _ _, fun hren => nomatch hsta.1.symm.trans hren⟩

lemma Sound.removeFile (hatt : s.attempts[idx]? = some att) :
    (s.removeFile deployment idx att).Sound deployment := by
  unfold FileBackedState.removeFile
  split
  swap
  · exact h
  rename_i hsta
  have hold := h.tidy hatt
  have hhas : att.HasFile := hsta.2
  -- only a commit whose rename is under way is still live
  have hliv : { att with removed := true }.Live → att.Live := by
    rintro (hnam | hcom | ⟨-, hrem⟩)
    · exact .inl hnam
    · exact .inr (.inl hcom)
    · cases hrem
  refine h.update hatt rfl (fun _ _ _ => rfl) ?_ ?_ ?_ ?_
  · exact ⟨hold.content, fun hnon => absurd hhas hnon, hold.finished, fun _ => hsta.1⟩
  · intro i other hne hoth
    have hapa := h.apart hatt hoth hne.symm
    exact ⟨fun hlat => hapa.names (hliv hlat), fun _ => hapa.files hhas⟩
  · exact fun hfile => .inr (entries_update_none hfile)
  · intro proc inst digest file hfile
    have hfile : Function.update s.fs.entries (att.tmpPath deployment) none
        (deployment.finalPath proc inst digest) = some file := hfile
    rw [update_of_ne (att.finalPath_ne_tmpPath deployment _ _ _)] at hfile
    exact .inr ⟨hfile, rfl, fun hren => ⟨hren, rfl⟩⟩

lemma Sound.onAttempt {f : FileAttempt H → FileBackedState H}
    (hf : ∀ att, s.attempts[idx]? = some att → (f att).Sound deployment) :
    (s.onAttempt idx f).Sound deployment := by
  unfold FileBackedState.onAttempt
  split
  · exact h
  · rename_i att hatt
    exact hf att hatt

lemma Sound.step (ev : FileEvent H) (hfre : s.FreshNumber ev) :
    (s.step deployment ev).Sound deployment := by
  cases ev with
  | beginWriteBlob proc inst digest => exact h.beginWriteBlob proc inst digest
  | takeSequence idx => exact h.onAttempt fun _ hatt => h.takeSequence hatt hfre
  | createFile idx => exact h.onAttempt fun _ hatt => h.createFile hatt
  | write idx batch => exact h.onAttempt fun _ hatt => h.write hatt batch
  | flush idx count => exact h.onAttempt fun _ hatt => h.flush hatt count
  | commit idx => exact h.onAttempt fun _ hatt => h.commit hatt
  | rename idx ref => exact h.onAttempt fun _ hatt => h.rename hatt ref
  | drop idx => exact h.onAttempt fun _ hatt => h.drop hatt
  | removeFile idx => exact h.onAttempt fun _ hatt => h.removeFile hatt

end

lemma freshNumber_of_noShare {event : FileEvent H} (hsha : (s.step depl event).NoShare depl) :
    s.FreshNumber event := by
  cases event with
  | takeSequence idx =>
    intro attempt hatt hsta other hoth hliv hdig hseq
    have hatt : s.attempts[idx]? = some attempt := hatt
    obtain ⟨j, hj⟩ := mem_iff_getElem?.1 hoth
    have hne : idx ≠ j := by
      rintro rfl
      cases hatt.symm.trans hj
      rcases hliv with hnam | hcom | ⟨hope | hunr, -⟩
      · exact nomatch hsta.1.symm.trans hnam
      · exact nomatch hsta.1.symm.trans hcom
      · exact nomatch hsta.1.symm.trans hope
      · exact nomatch hsta.1.symm.trans hunr
    have hste : (s.step depl (.takeSequence idx)).attempts = s.attempts.set idx
        { attempt with sequence := s.blobSequence attempt.process, stage := .named } := by
      simp [step, onAttempt, hatt, takeSequence, hsta, put]
    refine hsha idx j
      { attempt with sequence := s.blobSequence attempt.process, stage := .named } other ?_ ?_ hne
      (.inl rfl) hliv (depl.tmpPath_inj.2 ⟨hdig.symm, hseq.symm⟩)
    · rw [hste]
      exact put_self hatt
    · rwa [hste, put_of_ne hne.symm]
  | _ => trivial

/-- The temporary paths of live attempts stay distinct exactly if every number that is taken is one
that no live attempt has for the digest, and then all visible files are complete. -/
theorem complete_of_fresh_numbers (deployment : Deployment H) (events : List (FileEvent H)) :
    ((∀ t ∈ trace (step deployment) init events, t.NoShare deployment) ↔
    Guarded (step deployment) FreshNumber init events) ∧
    (Guarded (step deployment) FreshNumber init events →
    ∀ t ∈ trace (step deployment) init events, t.Complete deployment) := by
  constructor
  · exact forall_trace_iff_guarded (Sound deployment) (fun _ event h => h.step event)
      (fun _ h => h.noShare) (fun _ _ _ hsha => freshNumber_of_noShare hsha) sound_init
  · intro hgua t ht
    exact (forall_trace_of_guarded (Sound deployment) (fun _ event h => h.step event) sound_init
      hgua t ht).complete

def pods : Deployment Unit where
  basePath := "/".toList
  containerId process := "ns-".toList ++ decimal process
  containerId_injective _ _ h := decimal_injective (append_cancel_left h)
  containerId_isFileName process := by
    apply isFileName_of_dash
    · simp [not_mem_decimal]
    · simp
  hex _ := "abcdef".toList
  hex_injective _ _ _ := rfl
  slash_not_mem_hex _ := by decide

theorem complete_of_fresh_numbers_pods :
    let events : List (FileEvent Unit) :=
      [.beginWriteBlob 0 [] ⟨(), 3⟩, .takeSequence 0, .createFile 0, .write 0 [1, 2, 3],
        .beginWriteBlob 1 [] ⟨(), 4⟩, .takeSequence 1, .createFile 1, .flush 0 3, .commit 0,
        .rename 0 false]
    Guarded (step pods) FreshNumber init events ∧ (∀ t ∈ trace (step pods) init events, t.NoShare pods) ∧
      ∀ t ∈ trace (step pods) init events, t.Complete pods := by
  intro events
  have hgua : Guarded (step pods) FreshNumber init events := by decide +kernel
  have hres := complete_of_fresh_numbers pods events
  exact ⟨hgua, hres.1.2 hgua, hres.2 hgua⟩

/-- One process writes all of a blob and another one begins to write the same blob, before the
first commits. -/
def truncatedRun : FileBackedState Unit :=
  run (step pods) init [.beginWriteBlob 0 [] ⟨(), 3⟩, .takeSequence 0, .createFile 0,
    .write 0 [1, 2, 3], .flush 0 3,
      .beginWriteBlob 1 [] ⟨(), 3⟩, .takeSequence 1, .createFile 1, .commit 0, .rename 0 false]

theorem truncated_by_other_process :
    pods.containerId 0 ≠ pods.containerId 1 ∧
      truncatedRun.fs.entries (pods.finalPath 0 [] ⟨(), 3⟩) = some 0 ∧
    truncatedRun.fs.files[0]? = some [] ∧ ¬truncatedRun.Complete pods := by
  have hent : truncatedRun.fs.entries (pods.finalPath 0 [] ⟨(), 3⟩) = some 0 := by decide +kernel
  have hfil : truncatedRun.fs.files[0]? = some [] := by decide +kernel
  have hpub : truncatedRun.publisher (pods.finalPath 0 [] ⟨(), 3⟩) = some 0 := by
    decide +kernel
  have hbat : truncatedRun.attempts[0]?.map FileAttempt.batches = some [1, 2, 3] := by
    decide +kernel
  refine ⟨by decide +kernel, hent, hfil, ?_⟩
  intro hcom
  obtain ⟨index, attempt, hind, hatt, hcon⟩ := hcom 0 [] ⟨(), 3⟩ 0 hent
  cases hpub.symm.trans hind
  have hemp := (some.inj (hfil.symm.trans hcon)).symm
  simp [hatt, hemp] at hbat

end FileBackedState

end Toolchain.Storage
