import Toolchain.Storage.Refinement

/-!
# Composition — a driver refines the committed contents if its parts do

One construction for each adapter and combinator, from the obligations of its parts.
-/

namespace Toolchain.Storage

open Lib List View

variable {H : Type} {faulty : Prop}

variable {dig : Digest H} {cont : Bytes}

variable {conts : Contents H} {inst : Text}

namespace Refines

variable {driver : Driver H} (refines : Refines faulty driver)

lemma meets_writeThen {α : Type} {s : driver.State} {att : driver.Attempt} {batch : Bytes}
    {k : driver.Attempt → Future driver.State (Except (StreamingWriteError H) α)}
    {post : Except (StreamingWriteError H) α → driver.State → Prop}
    (hcar : refines.carries s att inst dig cont)
    (hok : ∀ att t, refines.carries t att inst dig (cont ++ batch) →
    (k att).Meets (refines.view.contract faulty conts) post t)
    (herr : faulty → ∀ error t, post (.error error) t) :
    (driver.writeThen att batch k).Meets (refines.view.contract faulty conts) post s := by
  refine (refines.write conts batch hcar).bind ?_
  rintro ⟨res, attempt'⟩ t - hinv hwri
  obtain ⟨hcarr, hfau⟩ := hwri.value hinv
  cases res with
  | ok _ => exact hok attempt' t (hcarr rfl)
  | error error => exact fun u _ _ => herr (hfau.resolve_right nofun) error u

lemma meets_writeBlob (s : driver.State) (hcon : conts inst dig cont) :
    (driver.writeBlob inst dig cont).Meets (refines.view.contract faulty conts) (fun res t => faulty ∨
    (res = .ok () ∨ res = .error .alreadyExists) ∧ refines.view.has t inst dig) s := by
  refine (refines.beginWriteBlob conts inst dig s).andThen ?_ ?_
  · intro attempt t _ hinv hbeg
    have hcar := (hbeg.value hinv).1 attempt rfl
    refine refines.meets_writeThen hcar ?_ fun hfau _ _ => .inl hfau
    intro attempt u hcar
    refine (refines.commit hcar hcon).mono ?_
    intro res v _ _ hcom
    exact hcom.imp id fun h => ⟨.inl h.1, h.2⟩
  · rintro error t - - ⟨-, hfau | ⟨_, hok⟩ | ⟨hexi, hhas⟩⟩
    · exact .inl hfau
    · cases hok
    · cases hexi
      exact .inr ⟨.inr rfl, hhas⟩

end Refines

/-! ## Adapters -/

variable {strm : ReadStream H}

section

lemma Reads.faulty_of_consolidate {stor : Prop} {err : StorageError H}
    (h : Reads faulty conts inst stor dig (.ok (some strm)))
    (herr : strm.consolidate = .error err) : faulty := by
  refine h.answers.resolve_right ?_
  rintro ⟨_, ⟨⟩, hfai⟩
  have hok := ReadStream.consolidate_eq_ok.2 ⟨hfai strm rfl, rfl⟩
  rw [herr] at hok
  cases hok

def smallBlobStorageAdapterRefines {inner : SmallDriver H} (refines : SmallRefines faulty inner) :
    Refines faulty (smallBlobStorageAdapter inner) where
  view := refines.view
  carries _ attempt inst digest content :=
    attempt.inst = inst ∧ attempt.digest = digest ∧ attempt.content.bytes = content
  carries_mono _ h := h
  inv_init := refines.inv_init
  visible := refines.visible
  findMissingBlobs := refines.findMissingBlobs
  readBlob contents inst digest window s _ := by
    refine (refines.readBlob contents inst digest s).map ?_
    rintro (error | content?) t - - ⟨hcommitted, hfound, hanswers⟩ hfull
    · exact .failed (hanswers.resolve_right nofun)
    cases content? with
    | none => exact .absent (hfound rfl)
    | some content =>
      simp only [smallWindow_full hfull]
      refine ⟨?_, nofun, .inr ⟨_, rfl, ?_⟩⟩
      · rintro _ ⟨⟩ _
        simpa using hcommitted content rfl
      · rintro _ ⟨⟩
        rfl
  beginWriteBlob contents inst digest s := by
    intro _ _ _
    refine ⟨?_, .inr (.inl ⟨_, rfl⟩)⟩
    rintro _ ⟨⟩
    exact ⟨rfl, rfl, rfl⟩
  write contents batch hcarries := by
    intro _ _ _
    obtain ⟨rfl, rfl, rfl⟩ := hcarries
    exact ⟨fun _ => ⟨rfl, rfl, Content.bytes_add _ batch⟩, .inr rfl⟩
  commit hcarries hcontent := by
    obtain ⟨rfl, rfl, rfl⟩ := hcarries
    refine (refines.writeBlob _ hcontent).map ?_
    intro result t _ _ hwrite
    refine hwrite.imp id ?_
    rintro ⟨rfl, hhas⟩
    exact ⟨rfl, hhas⟩
  runTask := refines.runTask

def blobStorageAdapterRefines {inner : Driver H} (refines : Refines faulty inner) :
    SmallRefines faulty (blobStorageAdapter inner) where
  view := refines.view
  inv_init := refines.inv_init
  visible := refines.visible
  findMissingBlobs := refines.findMissingBlobs
  readBlob contents inst digest s := by
    have hfull : (Window.full maxBatchTotalSizeBytes).IsFull := ⟨rfl, rfl, by decide⟩
    refine (refines.readBlob contents inst digest _ s (.inr (by decide))).map ?_
    intro result t _ _ hread
    have hread := hread hfull
    rcases result with error | _ | stream
    · exact .failed hread.faulty_of_error
    · exact .absent (hread.found rfl)
    cases hstream : stream.consolidate with
    | ok content =>
      obtain ⟨hfailure, rfl⟩ := ReadStream.consolidate_eq_ok.1 hstream
      simp only [hstream, Except.map]
      exact .present (hread.committed stream rfl hfailure)
    | error error =>
      simp only [hstream, Except.map]
      exact .failed (hread.faulty_of_consolidate hstream)
  writeBlob s hcontent := by
    refine (refines.meets_writeBlob s hcontent).map ?_
    intro result t _ _ hwrite
    refine hwrite.imp id ?_
    rintro ⟨rfl | rfl, hhas⟩
    · exact ⟨rfl, hhas⟩
    · exact ⟨rfl, hhas⟩
  runTask := refines.runTask

end

/-! ## Size split -/

lemma FindsMissing.append {p : Digest H → Bool}
    {stor stored1 stored2 : Digest H → Prop} {digs missing1 missing2 : List (Digest H)}
    (hfir : FindsMissing faulty conts inst stored1 (digs.filter p) (.ok missing1))
    (hsec : FindsMissing faulty conts inst stored2 (digs.filter fun d => !p d) (.ok missing2))
    (hsto1 : ∀ digest, p digest = true → stor digest → stored1 digest)
    (hsto2 : ∀ digest, p digest = false → stor digest → stored2 digest) :
    FindsMissing faulty conts inst stor digs (.ok (missing1 ++ missing2)) where
  subset := by
    rintro _ ⟨⟩ digest hdig
    rcases mem_append.1 hdig with h | h
    · exact (mem_filter.1 (hfir.subset _ rfl digest h)).1
    · exact (mem_filter.1 (hsec.subset _ rfl digest h)).1
  committed := by
    rintro _ ⟨⟩ digest hdig hmis
    rw [mem_append, not_or] at hmis
    by_cases hp : p digest = true
    · exact hfir.committed _ rfl digest (mem_filter.2 ⟨hdig, hp⟩) hmis.1
    · exact hsec.committed _ rfl digest (mem_filter.2 ⟨hdig, by simpa using hp⟩) hmis.2
  found := by
    rintro _ ⟨⟩ digest hdig hsto
    rcases mem_append.1 hdig with h | h
    · have hp := (mem_filter.1 (hfir.subset _ rfl digest h)).2
      exact hfir.found _ rfl digest h (hsto1 digest hp hsto)
    · have hp := (mem_filter.1 (hsec.subset _ rfl digest h)).2
      exact hsec.found _ rfl digest h (hsto2 digest (by simpa using hp) hsto)
  answers := .inr ⟨_, rfl⟩

variable {digest : Digest H}

section SizeSplit

variable {splitSize : Nat} {storage1 storage2 : Driver H} (first : Refines faulty storage1)
  (second : Refines faulty storage2)

def splitView (splitSize : Nat) : View H (storage1.State × storage2.State) :=
  first.view.pair second.view fun digest => decide (digest.sizeBytes < splitSize)

def SplitCarries (splitSize : Nat) (s : storage1.State × storage2.State)
    (attempt : storage1.Attempt ⊕ storage2.Attempt) (inst : Text) (digest : Digest H)
    (content : Bytes) : Prop :=
  match attempt with
  | .inl attempt => digest.sizeBytes < splitSize ∧ first.carries s.1 attempt inst digest content
  | .inr attempt => ¬digest.sizeBytes < splitSize ∧ second.carries s.2 attempt inst digest content

variable {first second}

lemma splitView_has_of_lt {s : storage1.State × storage2.State} {inst : Text}
    (hsiz : digest.sizeBytes < splitSize) :
    (splitView first second splitSize).has s inst digest ↔ first.view.has s.1 inst digest := by
  simp [splitView, pair, hsiz]

lemma splitView_has_of_not_lt {s : storage1.State × storage2.State} {inst : Text}
    (hsiz : ¬digest.sizeBytes < splitSize) :
    (splitView first second splitSize).has s inst digest ↔ second.view.has s.2 inst digest := by
  simp [splitView, pair, hsiz]

variable (first second)

def sizeSplitRefines (splitSize : Nat) : Refines faulty (sizeSplit splitSize storage1 storage2) where
  view := splitView first second splitSize
  carries := SplitCarries first second splitSize
  carries_mono := by
    rintro s t (attempt | attempt) inst digest content hgrows ⟨hsize, hcarries⟩
    · exact ⟨hsize, first.carries_mono hgrows.1 hcarries⟩
    · exact ⟨hsize, second.carries_mono hgrows.2 hcarries⟩
  inv_init contents := ⟨first.inv_init contents, second.inv_init contents⟩
  visible hinv := by
    rintro (hvisible | hvisible)
    · exact first.visible hinv.1 hvisible
    · exact second.visible hinv.2 hvisible
  findMissingBlobs contents inst digests s := by
    have hfirst := first.findMissingBlobs contents inst (digests.filter fun digest =>
      digest.sizeBytes < splitSize) s.1
    have hsecond := second.findMissingBlobs contents inst
      (digests.filter fun digest => ¬digest.sizeBytes < splitSize) s.2
    refine Future.Meets.map ((meets_fst hfirst).tryJoin (meets_snd hsecond) ?_ ?_ ?_) fun _ _ _ _
      hresult => hresult
    · intro missing1 missing2 t _ _ h1 h2
      refine FindsMissing.append h1 (by simpa only [decide_not] using h2) ?_ ?_
      · intro digest hsize hhas
        exact (splitView_has_of_lt (of_decide_eq_true hsize)).1 hhas
      · intro digest hsize hhas
        exact (splitView_has_of_not_lt (of_decide_eq_false hsize)).1 hhas
    · rintro error t - - ⟨-, -, -, hanswers⟩
      exact Leaf.findsMissing_error (hanswers.resolve_right nofun)
    · rintro error t - - ⟨-, -, -, hanswers⟩
      exact Leaf.findsMissing_error (hanswers.resolve_right nofun)
  readBlob contents inst digest window s hwindow := by
    simp only [sizeSplit]
    split
    · rename_i hsize
      refine (meets_fst (first.readBlob contents inst digest window s.1 hwindow)).mono ?_
      intro result t _ _ hread hfull
      exact (hread hfull).weaken (splitView_has_of_lt hsize).1
    · rename_i hsize
      refine (meets_snd (second.readBlob contents inst digest window s.2 hwindow)).mono ?_
      intro result t _ _ hread hfull
      exact (hread hfull).weaken (splitView_has_of_not_lt hsize).1
  beginWriteBlob contents inst digest s := by
    simp only [sizeSplit]
    split
    · rename_i hsize
      refine (meets_fst (first.beginWriteBlob contents inst digest s.1)).map ?_
      intro result t _ _ hbegun
      exact begun_map hbegun (fun _ hcarries => ⟨hsize, hcarries⟩) (splitView_has_of_lt hsize).2
    · rename_i hsize
      refine (meets_snd (second.beginWriteBlob contents inst digest s.2)).map ?_
      intro result t _ _ hbegun
      exact begun_map hbegun (fun _ hcarries => ⟨hsize, hcarries⟩) (splitView_has_of_not_lt hsize).2
  write {inst digest content s attempt} contents batch hcarries := by
    rcases attempt with attempt | attempt
    · refine (meets_fst (first.write contents batch hcarries.2)).map ?_
      rintro ⟨result, attempt'⟩ t - - ⟨hcarried, hanswers⟩
      exact ⟨fun hok => ⟨hcarries.1, hcarried hok⟩, hanswers⟩
    · refine (meets_snd (second.write contents batch hcarries.2)).map ?_
      rintro ⟨result, attempt'⟩ t - - ⟨hcarried, hanswers⟩
      exact ⟨fun hok => ⟨hcarries.1, hcarried hok⟩, hanswers⟩
  commit {contents inst digest content s attempt} hcarries hcontent := by
    rcases attempt with attempt | attempt
    · refine (meets_fst (first.commit hcarries.2 hcontent)).mono ?_
      intro result t _ _ hcommit
      exact hcommit.imp id (.imp id (splitView_has_of_lt hcarries.1).2)
    · refine (meets_snd (second.commit hcarries.2 hcontent)).mono ?_
      intro result t _ _ hcommit
      exact hcommit.imp id (.imp id (splitView_has_of_not_lt hcarries.1).2)
  runTask contents task s := by
    rcases task with task | task
    · exact meets_fst (first.runTask contents task s.1)
    · exact meets_snd (second.runTask contents task s.2)

end SizeSplit

/-! ## Fast and slow storage -/

section

variable {fast : SmallDriver H} {slow : Driver H} (fastRefines : SmallRefines faulty fast)
  (slowRefines : Refines faulty slow)

def fastSlowView : View H (fast.State × slow.State) :=
  fastRefines.view.pair slowRefines.view fun _ => false

variable {fastRefines slowRefines}

lemma fastSlowView_has {s : fast.State × slow.State} :
    (fastSlowView fastRefines slowRefines).has s inst digest ↔ slowRefines.view.has s.2 inst digest := by
  simp [fastSlowView, pair]

lemma fastSlow_findMissing (conts : Contents H) (inst : Text) (digs : List (Digest H))
    (s : fast.State × slow.State) :
    ((fastSlow fast slow).findMissingBlobs inst digs).Meets
    ((fastSlowView fastRefines slowRefines).contract faulty conts)
    (fun res _ => FindsMissing faulty conts inst ((fastSlowView fastRefines slowRefines).has s inst)
      digs res) s := by
  refine (meets_fst (fastRefines.findMissingBlobs conts inst digs s.1)).andThen ?_ ?_
  · intro missingFromFast t hgro hinv hfas
    have hfas := hfas.value hinv
    refine (meets_snd (slowRefines.findMissingBlobs conts inst missingFromFast t.2)).mono ?_
    intro res u _ _ hslo
    refine ⟨?_, ?_, ?_, hslo.answers⟩
    · intro missing hmis digest hdig
      exact hfas.subset _ rfl digest (hslo.subset missing hmis digest hdig)
    · intro missing hmis digest hdig hfou
      by_cases hfro : digest ∈ missingFromFast
      · exact hslo.committed missing hmis digest hfro hfou
      · exact hfas.committed _ rfl digest hdig hfro
    · intro missing hmis digest hdig hsto
      refine hslo.found missing hmis digest hdig ?_
      exact slowRefines.view.has_mono hgro.2 (fastSlowView_has.1 hsto)
  · rintro error t - - ⟨-, -, -, hans⟩
    exact Leaf.findsMissing_error (hans.resolve_right nofun)

lemma meets_readSlow (conts : Contents H) (inst : Text) (dig : Digest H) (s : fast.State × slow.State) :
    (readSlow fast slow inst dig).Meets ((fastSlowView fastRefines slowRefines).contract faulty conts)
    (fun res _ => ReadsSmall faulty conts inst (slowRefines.view.has s.2 inst dig) dig res) s := by
  have hful : (Window.full slowBatchSize).IsFull := ⟨rfl, rfl, by decide⟩
  refine (meets_snd (slowRefines.readBlob conts inst dig _ s.2 (.inr hful.maxBatchSize))).andThen ?_ ?_
  · rintro (_ | stream) t - hinv hslo
    · exact fun u hu hinv => .absent ((hslo u hu hinv hful).found rfl)
    have hslo := hslo.value hinv hful
    cases hstr : stream.consolidate with
    | error error =>
      simp only [hstr]
      have hfau : faulty := hslo.faulty_of_consolidate hstr
      exact fun _ _ _ => .failed hfau
    | ok content =>
      simp only [hstr]
      obtain ⟨hfai, rfl⟩ := ReadStream.consolidate_eq_ok.1 hstr
      have hcon := hslo.committed stream rfl hfai
      refine (meets_fst (fastRefines.writeBlob t.1 hcon)).andThen ?_ ?_
      · exact fun _ _ _ _ _ _ _ _ => .present hcon
      · intro error u _ _ hwri
        have hfau : faulty := hwri.resolve_right fun h => nomatch h.1
        exact .failed hfau
  · intro error t _ _ hslo
    exact .failed (hslo hful).faulty_of_error

lemma fastSlow_writeBlob (s : fast.State × slow.State) (hcon : conts inst dig cont) :
    ((fastSlow fast slow).writeBlob inst dig cont).Meets
      ((fastSlowView fastRefines slowRefines).contract faulty conts)
    (fun res t => faulty ∨ res = .ok () ∧ (fastSlowView fastRefines slowRefines).has t inst dig) s := by
  have hfas : (((fast.writeBlob inst dig cont).zoom Lens.fst).map
      (Except.mapError StreamingWriteError.storageError)).Meets
      ((fastSlowView fastRefines slowRefines).contract faulty conts)
      (fun res _ => faulty ∨ res = .ok ()) s := by
    refine (meets_fst (fastRefines.writeBlob s.1 hcon)).map ?_
    rintro res t - - (hfau | ⟨rfl, -⟩)
    · exact .inl hfau
    · exact .inr rfl
  have hjoi := hfas.tryJoin (meets_snd (slowRefines.meets_writeBlob s.2 hcon))
    (r := fun res t => faulty ∨ ((∃ units, res = .ok units) ∨ res = .error .alreadyExists) ∧
        slowRefines.view.has t.2 inst dig)
    (fun _ _ _ _ _ _ hslo => hslo.imp id fun h => ⟨.inl ⟨_, rfl⟩, h.2⟩)
    (fun _ _ _ _ hfas => .inl (hfas.resolve_right nofun))
    (fun error _ _ _ hslo => hslo.imp id fun h =>
      ⟨.inr (by rcases h.1 with h | h <;> cases h; rfl), h.2⟩)
  refine hjoi.map ?_
  intro res t _ _ hres
  refine hres.imp id ?_
  rintro ⟨⟨_, rfl⟩ | rfl, hhas⟩
  · exact ⟨rfl, fastSlowView_has.2 hhas⟩
  · exact ⟨rfl, fastSlowView_has.2 hhas⟩

variable (fastRefines slowRefines)

def fastSlowRefines : SmallRefines faulty (fastSlow fast slow) where
  view := fastSlowView fastRefines slowRefines
  inv_init contents := ⟨fastRefines.inv_init contents, slowRefines.inv_init contents⟩
  visible hinv := by
    rintro (hvisible | hvisible)
    · exact fastRefines.visible hinv.1 hvisible
    · exact slowRefines.visible hinv.2 hvisible
  findMissingBlobs := fastSlow_findMissing
  readBlob contents inst digest s := by
    refine (meets_fst (fastRefines.readBlob contents inst digest s.1)).bind ?_
    intro result t hgrows hinv hfast
    have hslow : (readSlow fast slow inst digest).Meets
        ((fastSlowView fastRefines slowRefines).contract faulty contents)
        (fun result _ => ReadsSmall faulty contents inst
        ((fastSlowView fastRefines slowRefines).has s inst digest) digest result) t := by
      refine (meets_readSlow contents inst digest t).mono ?_
      intro result u _ _ hread
      refine ⟨hread.committed, fun hnone hstored => hread.found hnone ?_, hread.answers⟩
      exact slowRefines.view.has_mono hgrows.2 (fastSlowView_has.1 hstored)
    rcases result with error | _ | content
    · exact hslow
    · exact hslow
    · have hcommitted := (hfast.value hinv).committed content rfl
      exact fun _ _ _ => .present hcommitted
  writeBlob := fastSlow_writeBlob
  runTask contents task s := by
    rcases task with task | task
    · exact meets_fst (fastRefines.runTask contents task s.1)
    · exact meets_snd (slowRefines.runTask contents task s.2)

end

/-! ## Existence cache -/

section

variable [DecidableEq H]

lemma Cache.mem_foldl_put {maxEntries : Nat} {present : List (Digest H)} {cache : Cache H}
    {key : Text × Digest H}
    (h : key ∈ present.foldl (fun cache digest => cache.put maxEntries (inst, digest)) cache) :
    key ∈ cache ∨ key.1 = inst ∧ key.2 ∈ present := by
  induction present generalizing cache with
  | nil => exact .inl h
  | cons digest present ih =>
    rcases ih h with hcac | ⟨hins, hpre⟩
    · rcases mem_cons.1 (mem_of_mem_take hcac) with rfl | hcac
      · exact .inr ⟨rfl, (.head _)⟩
      · exact .inl (mem_of_mem_erase hcac)
    · exact .inr ⟨hins, mem_cons_of_mem digest hpre⟩

variable {underlying : Driver H} (refines : Refines faulty underlying)

def existenceCacheView : View H (underlying.State × Cache H) :=
  refines.view.extend (fun contents cache => ∀ key ∈ cache, contents.Committed key.1 key.2)
    fun h hcache key hkey => (hcache key hkey).imp (h key.1 key.2)

lemma existenceCache_findMissing (maxEntries : Nat) (conts : Contents H) (inst : Text)
    (digs : List (Digest H)) (s : underlying.State × Cache H) :
    ((existenceCache maxEntries underlying).findMissingBlobs inst digs).Meets
    ((existenceCacheView refines).contract faulty conts)
    (fun res _ => FindsMissing faulty conts inst ((existenceCacheView refines).has s inst) digs res)
      s := by
  have hfil : (Future.act fun state : underlying.State × Cache H =>
      (digs.filter fun digest => (inst, digest) ∉ state.2, state)).Meets
      ((existenceCacheView refines).contract faulty conts)
      (fun unknown _ => (∀ digest ∈ unknown, digest ∈ digs) ∧
        ∀ digest ∈ digs, digest ∉ unknown → conts.Committed inst digest) s := by
    refine Future.Meets.act ?_
    intro t _ hinv
    refine ⟨hinv, (existenceCacheView refines).refl t, fun _ _ _ => ⟨?_, ?_⟩⟩
    · exact fun digest hdig => (mem_filter.1 hdig).1
    · intro digest hdig hunk
      have hcac : (inst, digest) ∈ t.2 := by
        by_contra hnot
        exact hunk (mem_filter.2 ⟨hdig, by simpa using hnot⟩)
      exact hinv.2 _ hcac
  refine hfil.bind ?_
  intro unknown t hgro hinv hunk
  obtain ⟨hsub, hkno⟩ := hunk.value hinv
  by_cases hemp : unknown.isEmpty = true
  · -- everything is in the cache
    rw [if_pos hemp]
    intro _ _ _
    refine ⟨?_, ?_, ?_, .inr ⟨_, rfl⟩⟩
    · rintro _ ⟨⟩
      exact fun _ => nofun
    · rintro _ ⟨⟩ digest hdig _
      exact hkno digest hdig (by simp [isEmpty_iff.1 hemp])
    · rintro _ ⟨⟩
      exact fun _ => nofun
  · rw [if_neg hemp]
    refine (meets_extend (refines.findMissingBlobs conts inst unknown t.1)).andThen ?_ ?_
    · intro missing u hgro' hinv' hfou
      have hfou := hfou.value hinv'
      refine Future.Meets.act ?_
      intro v _ hinvv
      refine ⟨⟨hinvv.1, ?_⟩, (existenceCacheView refines).refl v, fun _ _ _ => ?_⟩
      · -- what is put into the cache was not missing
        intro key hkey
        rcases Cache.mem_foldl_put hkey with hkey | ⟨hins, hpre⟩
        · exact hinvv.2 key hkey
        · obtain ⟨hunk, hmis⟩ := mem_filter.1 hpre
          rw [hins]
          exact hfou.committed _ rfl key.2 hunk (by simpa using hmis)
      · refine ⟨?_, ?_, ?_, .inr ⟨_, rfl⟩⟩
        · rintro _ ⟨⟩ digest hdig
          exact hsub digest (hfou.subset _ rfl digest hdig)
        · rintro _ ⟨⟩ digest hdig hmis
          by_cases hin : digest ∈ unknown
          · exact hfou.committed _ rfl digest hin hmis
          · exact hkno digest hdig hin
        · rintro _ ⟨⟩ digest hdig hsto
          exact hfou.found _ rfl digest hdig (refines.view.has_mono hgro hsto)
    · rintro error u - - ⟨-, -, -, hans⟩
      exact Leaf.findsMissing_error (hans.resolve_right nofun)

def existenceCacheRefines (maxEntries : Nat) :
    Refines faulty (existenceCache maxEntries underlying) where
  view := existenceCacheView refines
  carries s := refines.carries s.1
  carries_mono := refines.carries_mono
  inv_init contents := ⟨refines.inv_init contents, nofun⟩
  visible hinv := refines.visible hinv.1
  findMissingBlobs := existenceCache_findMissing refines maxEntries
  readBlob contents inst digest window s hwindow :=
    meets_extend (refines.readBlob contents inst digest window s.1 hwindow)
  beginWriteBlob contents inst digest s := meets_extend (refines.beginWriteBlob contents inst digest s.1)
  write contents batch hcarries := meets_extend (refines.write contents batch hcarries)
  commit hcarries hcontent := meets_extend (refines.commit hcarries hcontent)
  runTask contents task s := meets_extend (refines.runTask contents task s.1)

end

/-! ## Metering -/

section

variable {inner : Driver H} (refines : Refines faulty inner)

def meteredView : View H (inner.State × List UsageReport) :=
  refines.view.extend (fun _ _ => True) fun _ _ => trivial

variable {refines}

lemma meets_sendReport {s : inner.State × List UsageReport} (rep : UsageReport) :
    (sendReport rep).Meets ((meteredView refines).contract faulty conts) (fun _ _ => True) s :=
  .act fun t _ hinv => ⟨⟨hinv.1, trivial⟩, refines.view.refl t.1, fun _ _ _ => trivial⟩

variable (refines)

def meteredRefines : Refines faulty (metered inner) where
  view := meteredView refines
  carries s attempt := refines.carries s.1 attempt.2
  carries_mono := refines.carries_mono
  inv_init contents := ⟨refines.inv_init contents, trivial⟩
  visible hinv := refines.visible hinv.1
  findMissingBlobs contents inst digests s :=
    meets_extend (refines.findMissingBlobs contents inst digests s.1)
  readBlob contents inst digest window s hwindow := by
    refine (meets_extend (refines.readBlob contents inst digest window s.1 hwindow)).andThen
      ?_ (fun _ _ _ _ hread => hread)
    rintro (_ | stream) t - - hread
    · exact hread
    refine Future.Meets.act ?_
    intro u hu hinv
    exact ⟨⟨hinv.1, trivial⟩, refines.view.refl u.1, fun v hv hinvv =>
      hread v (refines.view.trans hu hv) hinvv⟩
  beginWriteBlob contents inst digest s := by
    refine (meets_extend (refines.beginWriteBlob contents inst digest s.1)).map ?_
    intro result t _ _ hbegun
    exact begun_map hbegun (fun _ hcarries => hcarries) id
  write contents batch hcarries := by
    refine (meets_sendReport _).bind ?_
    intro _ t hgrows _ _
    exact (meets_extend (refines.write contents batch (refines.carries_mono hgrows hcarries))).map
      fun _ _ _ _ hwrite => hwrite
  commit hcarries hcontent := by
    refine (meets_extend (refines.commit hcarries hcontent)).bind ?_
    intro result t _ _ hcommit
    exact (meets_sendReport _).map fun _ u hu hinv _ => hcommit u hu hinv
  runTask contents task s := meets_extend (refines.runTask contents task s.1)

end

/-! ## Chunking -/

section

lemma rechunk_flatten {chunkSize : Nat} (hsiz : 0 < chunkSize) (hfai : strm.failure = none) :
    (rechunk chunkSize strm).chunks.flatten = strm.chunks.flatten := by
  have hfil := fillAll_flatten chunkSize [] strm.chunks hsiz
  rw [nil_append] at hfil
  simp only [rechunk, hfai, Option.isSome_none, Bool.false_or]
  split
  · rename_i hemp
    rw [isEmpty_iff.1 hemp, append_nil] at hfil
    exact hfil
  · simpa using hfil

variable {underlying : Driver H} (refines : Refines faulty underlying)

variable {s : underlying.State}

lemma meets_store (chs : List Bytes) {att : underlying.Attempt}
    (hcar : refines.carries s att inst dig cont) :
    (storeChunks underlying chs att).Meets (refines.view.contract faulty conts) (fun res t =>
    (res.1 = .ok () → refines.carries t res.2 inst dig (cont ++ chs.flatten)) ∧
      (faulty ∨ res.1 = .ok ())) s := by
  induction chs generalizing cont att s with
  | nil =>
    intro t hgro _
    refine ⟨fun _ => ?_, .inr rfl⟩
    simpa using refines.carries_mono hgro hcar
  | cons chunk chs ih =>
    refine (refines.write conts chunk hcar).bind ?_
    rintro ⟨res, attempt'⟩ t - hinv hwri
    obtain ⟨hcarr, hans⟩ := hwri.value hinv
    cases res with
    | ok _ => simpa using ih (hcarr rfl)
    | error error => exact fun _ _ _ => ⟨nofun, .inl (hans.resolve_right nofun)⟩

def ChunkingCarries (writeChunkSize : Nat) (s : underlying.State)
    (attempt : ChunkingAttempt underlying.Attempt) (inst : Text) (digest : Digest H)
    (content : Bytes) : Prop :=
  ∃ stored, refines.carries s attempt.underlying inst digest stored ∧
    content = stored ++ attempt.buffer ∧ (attempt.buffer.length < writeChunkSize ∨ attempt.buffer = [])

variable {wsize : Nat}

lemma fill_buffer {buf data : Bytes} (hbuf : buf.length < wsize ∨ buf = [])
    (hdat : ¬(wsize = 0 ∧ data ≠ [])) :
    (fill wsize data.length buf data).1.flatten ++ (fill wsize data.length buf data).2 = buf ++ data ∧
    ((fill wsize data.length buf data).2.length < wsize ∨ (fill wsize data.length buf data).2 = []) := by
  by_cases hsiz : buf.length < wsize
  · exact ⟨fill_flatten _ _ _ _ hsiz (Nat.le_refl _), .inl (fill_rest_lt _ _ _ _ hsiz)⟩
  have hnil : buf = [] := hbuf.resolve_left hsiz
  subst hnil
  have hzer : wsize = 0 := Nat.le_zero.1 (Nat.le_of_not_lt hsiz)
  have hnod : data = [] := by
    by_contra hne
    exact hdat ⟨hzer, hne⟩
  subst hnod
  exact ⟨rfl, .inr rfl⟩

lemma chunking_write (hsiz : faulty ∨ 0 < wsize)
    {att : ChunkingAttempt underlying.Attempt} (conts : Contents H) (data : Bytes)
    (hcar : ChunkingCarries refines wsize s att inst dig cont) :
    ((chunking wsize underlying).write att data).Meets (refines.view.contract faulty conts)
    (fun res t => (res.1 = .ok () → ChunkingCarries refines wsize t res.2 inst dig (cont ++ data)) ∧
    (faulty ∨ res.1 = .ok ())) s := by
  obtain ⟨stor, hsto, rfl, hbuf⟩ := hcar
  by_cases hloo : wsize = 0 ∧ data ≠ []
  · simp only [chunking, if_pos hloo]
    have hfau : faulty := hsiz.resolve_right (by omega)
    exact fun _ _ _ => hfau
  simp only [chunking, if_neg hloo]
  obtain ⟨hfil, hres⟩ := fill_buffer hbuf hloo
  refine (meets_store refines _ hsto).map ?_
  rintro ⟨res, attempt'⟩ t - - ⟨hcarr, hans⟩
  cases res with
  | ok _ =>
    refine ⟨fun _ => ⟨_, hcarr rfl, ?_, hres⟩, .inr rfl⟩
    simp only [append_assoc]
    rw [hfil]
  | error error => exact ⟨nofun, .inl (hans.resolve_right nofun)⟩

def chunkingRefines {writeChunkSize : Nat} (hsize : faulty ∨ 0 < writeChunkSize) :
    Refines faulty (chunking writeChunkSize underlying) where
  view := refines.view
  carries := ChunkingCarries refines writeChunkSize
  carries_mono := by
    rintro s t attempt inst digest content hgrows ⟨stored, hstored, hrest⟩
    exact ⟨stored, refines.carries_mono hgrows hstored, hrest⟩
  inv_init := refines.inv_init
  visible := refines.visible
  findMissingBlobs := refines.findMissingBlobs
  readBlob contents inst digest window s hwindow := by
    refine (refines.readBlob contents inst digest window s hwindow).andThen ?_ (fun _ _ _ _ hread => hread)
    rintro (_ | stream) t - hinv hread
    · exact hread
    by_cases hloop : window.maxBatchSize = 0 ∧ stream.chunks.flatten ≠ []
    · simp only [if_pos hloop]
      have hfaulty : faulty := hwindow.resolve_right (by omega)
      exact fun _ _ _ => hfaulty
    simp only [if_neg hloop]
    intro u hu hinvu hfull
    obtain ⟨hcommitted, -, hanswers⟩ := hread u hu hinvu hfull
    refine ⟨?_, nofun, hanswers.imp id ?_⟩
    · rintro _ ⟨⟩ hfailure
      have hfailure : stream.failure = none := hfailure
      rw [rechunk_flatten hfull.maxBatchSize hfailure]
      exact hcommitted stream rfl hfailure
    · rintro ⟨_, ⟨⟩, hfailure⟩
      refine ⟨_, rfl, ?_⟩
      rintro _ ⟨⟩
      exact hfailure stream rfl
  beginWriteBlob contents inst digest s := by
    refine (refines.beginWriteBlob contents inst digest s).map ?_
    intro result t _ _ hbegun
    exact begun_map hbegun (fun _ hcarries => ⟨[], hcarries, rfl, .inr rfl⟩) id
  write := chunking_write refines hsize
  commit {contents inst digest content s attempt} hcarries hcontent := by
    obtain ⟨stored, hstored, rfl, -⟩ := hcarries
    by_cases hempty : attempt.buffer.isEmpty = true
    · simp only [chunking, if_pos hempty]
      rw [isEmpty_iff.1 hempty, append_nil] at hcontent
      exact refines.commit hstored hcontent
    · simp only [chunking, if_neg hempty]
      refine refines.meets_writeThen hstored ?_ fun hfaulty _ _ => .inl hfaulty
      intro attempt' t hcarries
      exact refines.commit hcarries hcontent
  runTask := refines.runTask

end

end Toolchain.Storage
