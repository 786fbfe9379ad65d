import Mathlib.Data.Set.Basic
import Toolchain.Storage.Sharding

/-!
# ShardOutcomes — what a sharded request makes of the answers of the shards

Each shard answers in a fixed way and at its own time.  `find_missing_blobs` is exact as long as every
digest has a shard that answers (`findMissingBlobs_exact`); a read believes content or a hard error,
whichever is first (`readBlob_outcome_iff`); a write drops a shard that has the blob as one that failed
(`upload_succeeds_iff`).
-/

namespace Toolchain.Storage

open Lib List Sharding

/-- How a shard answers the calls of one request: which digests it misses, what it reads, and what
becomes of a write, whose batches are counted. -/
structure Script (H : Type) where
  findMissing : Except (StorageError H) (Digest H → Bool)
  read : Except (StorageError H) (Option (ReadStream H))
  beginWrite : Except (StreamingWriteError H) Unit
  write : Nat → Except (StreamingWriteError H) Unit
  commit : Except (StreamingWriteError H) Unit

def reply {σ α : Type} (answer : α) : Future σ α :=
  .act fun state => (answer, state)

def scripted {H : Type} (script : Script H) : Driver H where
  State := Unit
  Attempt := Nat
  Task := Empty
  init := ()
  Visible _ _ _ _ := False
  findMissingBlobs _ digests := reply (script.findMissing.map fun isMissing => digests.filter isMissing)
  readBlob _ _ _ := reply script.read
  beginWriteBlob _ _ := reply (script.beginWrite.map fun _ => 0)
  write batches _ := reply (script.write batches, batches + 1)
  commit _ := reply script.commit
  runTask := nofun

namespace Sharding

variable {H : Type} {n : Nat} {scripts scr : Fin n → Script H} {ring : Ring H n}

abbrev scriptedShards (scripts : Fin n → Script H) : Fin n → Driver H :=
  fun shard => scripted (scripts shard)

lemma returns_reply {α : Type} (shard : Fin n) (ans : α) (s : State (scriptedShards scr)) :
    (on shard (reply ans)).Returns ans s :=
  fun _ _ _ => ⟨trivial, trivial, fun _ _ _ => rfl⟩

def emptyShard : Script Unit where
  findMissing := .ok fun _ => true
  read := .ok none
  beginWrite := .ok ()
  write := fun _ => .ok ()
  commit := .ok ()

def twoShards (first second : Script Unit) : Fin 2 → Script Unit :=
  fun shard => if shard = 0 then first else second

def bothShards : Ring Unit 2 where
  replicas := fun _ => [0, 1]
  keyReplicas := 2
  keyReplicas_pos := Nat.succ_pos 1

/-! ## Missing blobs -/

def asSet (result : Except (StorageError H) (List (Digest H))) :
    Except (StorageError H) (Set (Digest H)) :=
  result.map fun missing => { digest | digest ∈ missing }

section FindMissing

variable [DecidableEq H] {digs : List (Digest H)} {dig : Digest H} {order : List (Fin n)}

variable (scripts ring) in
def askedResults (order : List (Fin n)) (digests : List (Digest H)) :
    List (Fin n × Except (StorageError H) (List (Digest H))) :=
  (order.filter fun shard => !(ring.digestsFor digests shard).isEmpty).map fun shard =>
    (shard, (scripts shard).findMissing.map fun isMissing =>
      (ring.digestsFor digests shard).filter isMissing)

lemma returns_findMissing (order : List (Fin n)) (inst : Text) (digs : List (Digest H))
    (s : State (scriptedShards scr)) :
    (findMissingBlobs (scriptedShards scr) ring order inst digs).Returns
    (ring.merge digs (askedResults scr ring order digs)) s := by
  refine (Future.Returns.joinAll _ fun shard _ => ?_).map (ring.merge digs)
  exact (returns_reply shard _ s).map _

section

variable (hord : ∀ shard, shard ∈ order)

include hord

lemma exists_vote_iff (hdig : dig ∈ digs) (present : Bool) :
    (∃ res ∈ askedResults scr ring order digs, ring.vote digs dig res = some present) ↔
    ∃ shard ∈ ring.storagesForDigest dig, ∃ is, (scr shard).findMissing = .ok is ∧ is dig = !present := by
  constructor
  · rintro ⟨res, hres, hvot⟩
    obtain ⟨shard, hsha, rfl⟩ := mem_map.1 hres
    obtain ⟨missing, hmis, hask, rfl⟩ := (vote_eq_some ring).1 hvot
    refine ⟨shard, (mem_digestsFor.1 hask).2, ?_⟩
    dsimp only at hmis hask
    cases hscr : (scr shard).findMissing with
    | error error =>
      rw [hscr] at hmis
      cases hmis
    | ok is =>
      rw [hscr] at hmis
      cases hmis
      exact ⟨is, rfl, by simp [hask]⟩
  · rintro ⟨shard, hsha, is, hscr, hans⟩
    have hask := mem_digestsFor.2 ⟨hdig, hsha⟩
    refine ⟨_, mem_map_of_mem (mem_filter.2 ⟨hord shard, ?_⟩), ?_⟩
    · simpa [List.isEmpty_iff] using ne_nil_of_mem hask
    · refine (vote_eq_some ring).2 ⟨_, by rw [hscr]; rfl, hask, ?_⟩
      simp [hask, hans]

lemma answer_isNone_iff (hdig : dig ∈ digs) :
    (ring.answer digs (askedResults scr ring order digs) dig).isNone ↔
    ¬∃ shard ∈ ring.storagesForDigest dig, ∃ isMissing, (scr shard).findMissing = .ok isMissing := by
  rw [Option.isNone_iff_eq_none, answer_eq_none]
  constructor
  · rintro hnon ⟨shard, hsha, isMissing, hscr⟩
    obtain ⟨res, hres, hvot⟩ :=
      (exists_vote_iff hord hdig (!isMissing dig)).2 ⟨shard, hsha, isMissing, hscr, by simp⟩
    rw [hnon res hres] at hvot
    cases hvot
  · intro hnon res hres
    cases hvot : ring.vote digs dig res with
    | none => rfl
    | some pres =>
      obtain ⟨shard, hsha, isMissing, hscr, -⟩ := (exists_vote_iff hord hdig pres).1 ⟨res, hres, hvot⟩
      exact absurd ⟨shard, hsha, isMissing, hscr⟩ hnon

lemma merge_exists_ok_iff : (∃ missing, ring.merge digs (askedResults scr ring order digs) = .ok missing) ↔
    ∀ dig ∈ digs, ∃ shard ∈ ring.storagesForDigest dig, ∃ isMissing, (scr shard).findMissing =
      .ok isMissing := by
  have hmer : (∃ missing, ring.merge digs (askedResults scr ring order digs) = .ok missing) ↔
      ∀ dig ∈ digs, ¬(ring.answer digs (askedResults scr ring order digs) dig).isNone := by
    rw [Ring.merge]
    split_ifs with hany
    · simpa using hany
    · simpa using hany
  rw [hmer]
  exact forall₂_congr fun dig hdig => by rw [answer_isNone_iff hord hdig, not_not]

lemma merge_eq_ok {missing : List (Digest H)}
    (h : ring.merge digs (askedResults scr ring order digs) = .ok missing) :
    missing.Nodup ∧ ∀ dig, dig ∈ missing ↔ dig ∈ digs ∧ ∀ shard ∈ ring.storagesForDigest dig, ∀ isMissing,
    (scr shard).findMissing = .ok isMissing → isMissing dig = true := by
  have hans := (merge_exists_ok_iff hord).1 ⟨missing, h⟩
  rw [Ring.merge] at h
  split at h
  · cases h
  cases h
  refine ⟨(nodup_dedup digs).filter _, fun dig => ?_⟩
  rw [mem_filter, mem_dedup, decide_eq_true_eq]
  refine and_congr_right fun hdig => ?_
  have hsom : ring.answer digs (askedResults scr ring order digs) dig ≠ none := by
    intro hnon
    exact (answer_isNone_iff hord hdig).1 (Option.isNone_iff_eq_none.2 hnon) (hans dig hdig)
  have hpre : ring.answer digs (askedResults scr ring order digs) dig = some true ↔
      ∃ shard ∈ ring.storagesForDigest dig, ∃ is, (scr shard).findMissing = .ok is ∧ is dig = false := by
    rw [answer_eq_true, exists_vote_iff hord hdig]
    rfl
  have hfal : ring.answer digs (askedResults scr ring order digs) dig = some false ↔
      ¬ring.answer digs (askedResults scr ring order digs) dig = some true := by
    rcases hans : ring.answer digs (askedResults scr ring order digs) dig with _ | _ | _
    · exact absurd hans hsom
    · simp
    · simp
  rw [hfal, hpre]
  simp

end

lemma merge_eq_error {ress : List (Fin n × Except (StorageError H) (List (Digest H)))}
    {err : StorageError H} (h : ring.merge digs ress = .error err) :
    err = .unavailable "Not enough shards were available to answer query.".toList := by
  rw [Ring.merge] at h
  split at h
  · cases h
    rfl
  · cases h

lemma asSet_merge_eq {order' : List (Fin n)} (hord : ∀ shard, shard ∈ order)
    (hord' : ∀ shard, shard ∈ order') :
    asSet (ring.merge digs (askedResults scr ring order digs)) =
    asSet (ring.merge digs (askedResults scr ring order' digs)) := by
  have hok : (∃ missing, ring.merge digs (askedResults scr ring order digs) = .ok missing) ↔
      ∃ missing, ring.merge digs (askedResults scr ring order' digs) = .ok missing :=
    (merge_exists_ok_iff hord).trans (merge_exists_ok_iff hord').symm
  cases hres : ring.merge digs (askedResults scr ring order digs) with
  | error error =>
    cases hres' : ring.merge digs (askedResults scr ring order' digs) with
    | error error' => rw [merge_eq_error hres, merge_eq_error hres']
    | ok missing =>
      obtain ⟨missing, hmis⟩ := hok.2 ⟨missing, hres'⟩
      rw [hres] at hmis
      cases hmis
  | ok missing =>
    obtain ⟨missing', hmis'⟩ := hok.1 ⟨missing, hres⟩
    rw [hmis']
    refine congrArg Except.ok (Set.ext fun dig => ?_)
    change dig ∈ missing ↔ dig ∈ missing'
    rw [(merge_eq_ok hord hres).2, (merge_eq_ok hord' hmis').2]

/-- On every schedule a query succeeds exactly if every digest has a shard that answers; then it lists,
once each, the digests that all of these lack. -/
theorem findMissingBlobs_exact (scripts : Fin n → Script H) (ring : Ring H n) (inst : Text)
    (digests : List (Digest H)) (order : List (Fin n)) (horder : order.Perm (List.finRange n))
    (s : State (scriptedShards scripts)) :
    ∃ result, (∀ choices, ((findMissingBlobs (scriptedShards scripts) ring order inst digests).finish
    choices s).1 = some result) ∧
    ((∃ missing, result = .ok missing) ↔ ∀ digest ∈ digests,
      ∃ shard ∈ ring.storagesForDigest digest, ∃ isMissing,
    (scripts shard).findMissing = .ok isMissing) ∧
    (∀ missing, result = .ok missing → missing.Nodup ∧ ∀ digest, digest ∈ missing ↔
    digest ∈ digests ∧ ∀ shard ∈ ring.storagesForDigest digest, ∀ isMissing,
    (scripts shard).findMissing = .ok isMissing → isMissing digest = true) ∧
    ∀ order' : List (Fin n), order'.Perm (List.finRange n) → ∃ result',
    (∀ choices, ((findMissingBlobs (scriptedShards scripts) ring order' inst digests).finish
    choices s).1 = some result') ∧ asSet result' = asSet result := by
  have hmem (shard : Fin n) := horder.mem_iff.2 (mem_finRange shard)
  refine ⟨_, (returns_findMissing order inst digests s).finish, merge_exists_ok_iff hmem,
    fun missing => merge_eq_ok hmem, ?_⟩
  intro order' horder'
  have hmem' (shard : Fin n) := horder'.mem_iff.2 (mem_finRange shard)
  exact ⟨_, (returns_findMissing order' inst digests s).finish, asSet_merge_eq hmem' hmem⟩

end FindMissing

theorem findMissingBlobs_one_left :
    ∃ missing, ((findMissingBlobs (scriptedShards (twoShards emptyShard
    { emptyShard with findMissing := .error (.unavailable []) })) bothShards [1, 0] []
    [⟨(), 3⟩, ⟨(), 3⟩]).finish [] fun _ => ()).1 =
    some (.ok missing) ∧ ⟨(), 3⟩ ∈ missing := by
  obtain ⟨res, hfin, hok, hmis, -⟩ := findMissingBlobs_exact (twoShards emptyShard
    { emptyShard with findMissing := .error (.unavailable []) }) bothShards []
    [⟨(), 3⟩, ⟨(), 3⟩] [1, 0] (by decide) fun _ => ()
  obtain ⟨missing, rfl⟩ := hok.2 fun _ _ => ⟨0, (.head _), _, rfl⟩
  refine ⟨missing, hfin [], ((hmis missing rfl).2 _).2 ⟨by decide, ?_⟩⟩
  intro shard _ is hscr
  match shard with
  | 0 =>
    obtain rfl := Except.ok.inj hscr
    rfl
  | 1 => cases hscr

/-! ## Reads -/

variable {shard : Fin n}

variable (inst : Text)

section

def hasContent : Except (StorageError H) (Option (ReadStream H)) → Bool
  | .ok (some _) => true
  | _ => false

def isSurfaced : Except (StorageError H) (Option (ReadStream H)) → Bool
  | .ok _ => false
  | .error (.unavailable _) => false
  | .error _ => true

def isAbsent : Except (StorageError H) (Option (ReadStream H)) → Bool
  | .ok none => true
  | _ => false

inductive ReadOutcome (H : Type)
  | content (bytes : Except (StorageError H) Bytes)
  | absent | error

def readOutcome : Except (StorageError H) (Option (ReadStream H)) → ReadOutcome H
  | .ok (some stream) => .content stream.consolidate
  | .ok none => .absent
  | .error _ => .error

lemma decisive_eq_true_iff (res : Except (StorageError H) (Option (ReadStream H))) :
    decisive res = true ↔ hasContent res = true ∨ isSurfaced res = true := by
  unfold decisive hasContent isSurfaced
  split <;> simp

variable (scripts) in
def undecided (order : List (Fin n)) : Except (StorageError H) (Option (ReadStream H)) :=
  if order.any fun shard => isAbsent (scripts shard).read then .ok none else noShards

variable (scripts) in
/-- What a read of some shards may return: a result that decides, or the common one if there is
none. -/
def MayRead (order : List (Fin n)) (result : Except (StorageError H) (Option (ReadStream H))) :
    Prop :=
  (decisive result = true ∧ ∃ shard ∈ order, (scripts shard).read = result) ∨
    (∀ shard ∈ order, decisive (scripts shard).read = false) ∧ result = undecided scripts order

lemma mergeReads_undecided (order : List (Fin n)) (h : decisive (scr shard).read = false) :
    mergeReads (scr shard).read (undecided scr order) = undecided scr (shard :: order) := by
  unfold undecided
  rw [any_cons]
  rcases hrea : (scr shard).read with error | _ | stream
  · rw [hrea] at h
    cases error with
    | unavailable msg =>
      cases order.any fun shard => isAbsent (scr shard).read with
      | true | false => rfl
    | _ => cases h
  · rfl
  · rw [hrea] at h
    cases h

variable {result res : Except (StorageError H) (Option (ReadStream H))} {order : List (Fin n)}

lemma mayRead_cons (hdec : decisive result = true)
    (h : MayRead scripts order result) : MayRead scripts (shard :: order) result := by
  rcases h with ⟨-, shard', hmem, hrea⟩ | ⟨-, rfl⟩
  · exact .inl ⟨hdec, shard', mem_cons_of_mem shard hmem, hrea⟩
  · -- the common result does not decide
    unfold undecided at hdec
    split at hdec <;> cases hdec

lemma meets_readShards (dig : Digest H) (win : Window) (order : List (Fin n))
    (s : State (scriptedShards scr)) :
    (Future.raceAll decisive mergeReads noShards (order.map fun shard =>
    on shard ((scriptedShards scr shard).readBlob inst dig win))).Meets
    Future.anyContract (fun res _ => MayRead scr order res) s := by
  induction order with
  | nil => exact fun _ _ _ => .inr ⟨by simp, rfl⟩
  | cons shard order ih =>
    refine .race (returns_reply shard (scr shard).read s) ih ?_ ?_ ?_
    · rintro _ _ - - hdec rfl
      exact .inl ⟨hdec, shard, (.head _), rfl⟩
    · exact fun _ _ _ _ hdec hrea => mayRead_cons hdec hrea
    · rintro _ second _ - - hfir hsec rfl hrea
      rcases hrea with ⟨hdec, -⟩ | ⟨hall, rfl⟩
      · rw [hsec] at hdec
        cases hdec
      · exact .inr ⟨forall_mem_cons.2 ⟨hfir, hall⟩, mergeReads_undecided order hfir⟩

variable (scripts ring) in
def readResult (inst : Text) (digest : Digest H) (window : Window)
    (s : State (scriptedShards scripts)) (choices : List Bool) :
    Option (Except (StorageError H) (Option (ReadStream H))) :=
  ((readBlob (scriptedShards scripts) ring inst digest window).finish choices s).1

lemma exists_readResult (dig : Digest H) (win : Window) (s : State (scriptedShards scripts))
    (chs : List Bool) :
    ∃ result, readResult scripts ring inst dig win s chs = some result ∧
    MayRead scripts (ring.storagesForDigest dig) result := by
  obtain ⟨result, t, hfin, hrea⟩ :=
    (meets_readShards inst dig win (ring.storagesForDigest dig) s).exists_finish chs
  exact ⟨result, congrArg Prod.fst hfin, hrea⟩

lemma exists_schedule {dig : Digest H} (win : Window) (s : State (scriptedShards scripts))
    (h : MayRead scripts (ring.storagesForDigest dig) result) :
    ∃ chs, readResult scripts ring inst dig win s chs = some result := by
  rcases h with ⟨hdec, shard, hsha, rfl⟩ | ⟨hall, rfl⟩
  · -- the shard is ready before the others
    have hrac : ∃ chs, (readBlob (scriptedShards scripts) ring inst dig win).finish
        chs s = (some (scripts shard).read, ((on shard (reply (scripts shard).read)).finish [] s).2) :=
      Future.exists_finish_raceAll (mem_map_of_mem hsha) rfl hdec
    obtain ⟨chs, hfin⟩ := hrac
    exact ⟨chs, congrArg Prod.fst hfin⟩
  · obtain ⟨result, hres, hrea⟩ := exists_readResult inst dig win s []
    refine ⟨[], hres.trans ?_⟩
    rcases hrea with ⟨hdec, shard, hsha, rfl⟩ | ⟨-, rfl⟩
    · rw [hall shard hsha] at hdec
      cases hdec
    · rfl

lemma same_on_schedules_iff {γ : Type} (see : Except (StorageError H) (Option (ReadStream H)) → γ)
    (inst : Text) (dig : Digest H) (win : Window) (s : State (scriptedShards scripts)) :
    (∀ chs chs', (readResult scripts ring inst dig win s chs).map see =
    (readResult scripts ring inst dig win s chs').map see) ↔
    ∀ res result', MayRead scripts (ring.storagesForDigest dig) res →
    MayRead scripts (ring.storagesForDigest dig) result' → see res = see result' := by
  constructor
  · intro hsam res result' hres hres'
    obtain ⟨chs, hcho⟩ := exists_schedule inst win s hres
    obtain ⟨chs', hcho'⟩ := exists_schedule inst win s hres'
    have hsee := hsam chs chs'
    rw [hcho, hcho'] at hsee
    exact Option.some.inj hsee
  · intro hsam chs chs'
    obtain ⟨res, hres, hrea⟩ := exists_readResult inst dig win s chs
    obtain ⟨result', hres', hread'⟩ := exists_readResult inst dig win s chs'
    rw [hres, hres', Option.map_some, Option.map_some, hsam res result' hrea hread']

lemma MayRead.eq_or_decisive {res res' : Except (StorageError H) (Option (ReadStream H))}
    (h : MayRead scr order res) (h' : MayRead scr order res') :
    res = res' ∨ ∃ shard ∈ order, ∃ shard' ∈ order, decisive (scr shard).read = true ∧
    decisive (scr shard').read = true ∧ res = (scr shard).read ∧ res' = (scr shard').read := by
  rcases h with ⟨hdec, shard, hsha, rfl⟩ | ⟨hall, rfl⟩ <;> rcases h' with
    ⟨hdec', shard', hsha', rfl⟩ | ⟨hall', rfl⟩
  · exact .inr ⟨shard, hsha, shard', hsha', hdec, hdec', rfl, rfl⟩
  · rw [hall' shard hsha] at hdec
    cases hdec
  · rw [hall shard' hsha'] at hdec'
    cases hdec'
  · exact .inl rfl

variable (scripts) in
/-- One shard has content, and another fails with an error other than unavailability. -/
def Mixed (order : List (Fin n)) : Prop :=
  (∃ shard ∈ order, hasContent (scripts shard).read = true) ∧ ∃ shard ∈ order,
    isSurfaced (scripts shard).read = true

def readValue (result : Except (StorageError H) (Option (ReadStream H))) :
    Except (StorageError H) (Option (Except (StorageError H) Bytes)) :=
  result.map (Option.map ReadStream.consolidate)

lemma hasContent_iff : hasContent res = true ↔ ∃ stream, res = .ok (some stream) := by
  rcases res with error | _ | stream
  · simp [hasContent]
  · simp [hasContent]
  · simp [hasContent]

lemma exists_error_of_isSurfaced (h : isSurfaced res = true) : ∃ error, res = .error error := by
  rcases res with error | stream?
  · exact ⟨error, rfl⟩
  · cases h

lemma same_result_iff {γ : Type} {see : Except (StorageError H) (Option (ReadStream H)) → γ}
    (hsee : ∀ stream error, see (.ok (some stream)) ≠ see (.error error))
    (hsame : ∀ shard ∈ order, ∀ shard' ∈ order, ∀ stream stream',
      (scr shard).read = .ok (some stream) → (scr shard').read = .ok (some stream') →
      see (.ok (some stream)) = see (.ok (some stream'))) :
    (∀ res res', MayRead scr order res → MayRead scr order res' → see res = see res') ↔
    ¬Mixed scr order ∧ ∀ shard ∈ order, ∀ shard' ∈ order, isSurfaced (scr shard).read = true →
    isSurfaced (scr shard').read = true → see (scr shard).read = see (scr shard').read := by
  constructor
  · intro h
    have hdec : ∀ shard ∈ order, ∀ shard' ∈ order, decisive (scr shard).read = true →
        decisive (scr shard').read = true → see (scr shard).read = see (scr shard').read :=
      fun shard hsha shard' hsha' hdec hdec' =>
        h _ _ (.inl ⟨hdec, shard, hsha, rfl⟩) (.inl ⟨hdec', shard', hsha', rfl⟩)
    simp only [decisive_eq_true_iff] at hdec
    refine ⟨?_, fun shard hsha shard' hsha' hfai hfai' =>
      hdec shard hsha shard' hsha' (.inr hfai) (.inr hfai')⟩
    rintro ⟨⟨shard, hsha, hfou⟩, shard', hsha', hfai⟩
    have hsam := hdec shard hsha shard' hsha' (.inl hfou) (.inr hfai)
    obtain ⟨stream, hstr⟩ := hasContent_iff.1 hfou
    obtain ⟨error, herr⟩ := exists_error_of_isSurfaced hfai
    rw [hstr, herr] at hsam
    exact hsee stream error hsam
  · rintro ⟨hmix, hsur⟩ res res' hres hres'
    rcases hres.eq_or_decisive hres' with rfl | ⟨shard, hsha, shard', hsha', hdec, hdec', rfl, rfl⟩
    · rfl
    rw [decisive_eq_true_iff] at hdec hdec'
    rcases hdec with hfou | hfai <;> rcases hdec' with hfou' | hfai'
    · obtain ⟨stream, hstr⟩ := hasContent_iff.1 hfou
      obtain ⟨stream', hstr'⟩ := hasContent_iff.1 hfou'
      rw [hstr, hstr']
      exact hsame shard hsha shard' hsha' stream stream' hstr hstr'
    · exact absurd ⟨⟨shard, hsha, hfou⟩, shard', hsha', hfai'⟩ hmix
    · exact absurd ⟨⟨shard', hsha', hfou'⟩, shard, hsha, hfai⟩ hmix
    · exact hsur shard hsha shard' hsha' hfai hfai'

end

/-- A read of shards with the same content has one outcome on all schedules exactly if not one has
content while another fails with an error other than unavailability, and one error exactly if there are
no two such errors. -/
theorem readBlob_outcome_iff (scripts : Fin n → Script H) (ring : Ring H n) (inst : Text)
    (digest : Digest H) (window : Window) (s : State (scriptedShards scripts))
    (hcontent : ∀ shard ∈ ring.storagesForDigest digest, ∀ shard' ∈ ring.storagesForDigest digest,
      ∀ stream stream',
    (scripts shard).read = .ok (some stream) → (scripts shard').read = .ok (some stream') →
    stream.consolidate = stream'.consolidate) :
    (∀ choices, ∃ result, readResult scripts ring inst digest window s choices = some result) ∧
    ((∀ choices choices', (readResult scripts ring inst digest window s choices).map readOutcome =
    (readResult scripts ring inst digest window s choices').map readOutcome) ↔
    ¬Mixed scripts (ring.storagesForDigest digest)) ∧
    ((∀ choices choices', (readResult scripts ring inst digest window s choices).map readValue =
    (readResult scripts ring inst digest window s choices').map readValue) ↔
    ¬Mixed scripts (ring.storagesForDigest digest) ∧
    ∀ shard ∈ ring.storagesForDigest digest, ∀ shard' ∈ ring.storagesForDigest digest,
    isSurfaced (scripts shard).read = true → isSurfaced (scripts shard').read = true →
    (scripts shard).read = (scripts shard').read) := by
  refine ⟨fun choices => ?_, ?_, ?_⟩
  · obtain ⟨result, hres, -⟩ := exists_readResult inst digest window s choices
    exact ⟨result, hres⟩
  · rw [same_on_schedules_iff, same_result_iff (by simp [readOutcome])]
    · refine and_iff_left fun shard _ shard' _ hfai hfai' => ?_
      obtain ⟨error, herr⟩ := exists_error_of_isSurfaced hfai
      obtain ⟨error', herr'⟩ := exists_error_of_isSurfaced hfai'
      rw [herr, herr', readOutcome, readOutcome]
    · intro shard hsha shard' hsha' stream stream' hstr hstr'
      exact congrArg ReadOutcome.content (hcontent shard hsha shard' hsha' stream stream' hstr hstr')
  · rw [same_on_schedules_iff, same_result_iff (by simp [readValue, Except.map])]
    · refine and_congr_right fun _ => forall₂_congr fun shard _ => forall₂_congr fun shard' _ =>
        forall₂_congr fun hfai hfai' => ?_
      obtain ⟨error, herr⟩ := exists_error_of_isSurfaced hfai
      obtain ⟨error', herr'⟩ := exists_error_of_isSurfaced hfai'
      simp [herr, herr', readValue, Except.map]
    · intro shard hsha shard' hsha' stream stream' hstr hstr'
      exact congrArg (fun bytes => Except.ok (some bytes))
        (hcontent shard hsha shard' hsha' stream stream' hstr hstr')

def blobShard : Script Unit where
  findMissing := .ok fun _ => false
  read := .ok (some ⟨[[1]], none⟩)
  beginWrite := .error .alreadyExists
  write := fun _ => .ok ()
  commit := .ok ()

theorem readBlob_one_of_two :
    (readResult (twoShards emptyShard blobShard) bothShards [] ⟨(), 1⟩
    (.full 1) (fun _ => ()) [true, false]).map readOutcome = some (.content (.ok [1])) := by
  have hsam := (readBlob_outcome_iff (twoShards emptyShard blobShard) bothShards []
    ⟨(), 1⟩ (.full 1) (fun _ => ()) ?_).2.1.2 ?_
  · exact (hsam [true, false] []).trans rfl
  · intro shard _ shard' _ stream stream' hstr hstream'
    match shard, shard' with
    | 0, _ => cases hstr
    | 1, 0 => cases hstream'
    | 1, 1 => rw [Option.some.inj (Except.ok.inj (hstr.symm.trans hstream'))]
  · rintro ⟨-, shard, -, hsur⟩
    match shard with
    | 0 => cases hsur
    | 1 => cases hsur

theorem readBlob_first_wins :
    (readResult (twoShards blobShard { emptyShard with read := .error (.internal []) }) bothShards []
    ⟨(), 1⟩ (.full 1) (fun _ => ()) []).map readOutcome =
    some (.content (.ok [1])) ∧
    (readResult (twoShards blobShard { emptyShard with read := .error (.internal []) }) bothShards []
    ⟨(), 1⟩ (.full 1) (fun _ => ())
    [false, true, false, false, true, false]).map readOutcome = some .error :=
  ⟨rfl, rfl⟩

/-! ## Writes -/

section

variable [DecidableEq H] {inst : Text} {dig : Digest H}

variable (scripts) in
def took (batches : Nat) (shard : Fin n) : Bool :=
  isOk (scripts shard).beginWrite && (List.range batches).all fun batch =>
    isOk ((scripts shard).write batch)

variable (bats : Nat)

omit [DecidableEq H] in
lemma took_succ : took scr (bats + 1) = fun shard =>
    isOk ((scr shard).write bats) && took scr bats shard := by
  funext shard
  simp [took, range_succ, ← Bool.and_assoc, Bool.and_comm]

variable (scripts) in
def attemptsOf (batches : Nat) (order : List (Fin n)) : List (Attempt (scriptedShards scripts)) :=
  order.map fun shard => ⟨shard, batches⟩

variable (order : List (Fin n))

omit [DecidableEq H] in
lemma filterMap_beginWrite : (order.map fun shard => (scr shard).beginWrite.map fun _ =>
    (⟨shard, (0 : Nat)⟩ : Attempt (scriptedShards scr))).filterMap Except.toOption =
    attemptsOf scr 0 (order.filter (took scr 0)) := by
  induction order with
  | nil => rfl
  | cons shard order ih =>
    rw [map_cons, filterMap_cons, filter_cons, ih]
    cases hbeg : (scr shard).beginWrite with
    | error error => simp [took, hbeg, isOk, Except.map, Except.toOption]
    | ok _ => simp [took, hbeg, isOk, Except.map, Except.toOption, attemptsOf]

lemma returns_begin (s : State (scriptedShards scr)) :
    ((sharded (scriptedShards scr) ring).beginWriteBlob inst dig).Returns
      (if (ring.storagesForDigest dig).all fun shard =>
          isAlreadyExists (scr shard).beginWrite then .error .alreadyExists
        else .ok (attemptsOf scr 0 ((ring.storagesForDigest dig).filter (took scr 0)))) s := by
  have hall : ((ring.storagesForDigest dig).map fun shard =>
      (scr shard).beginWrite.map fun _ =>
        (⟨shard, (0 : Nat)⟩ : Attempt (scriptedShards scr))).all isAlreadyExists =
      (ring.storagesForDigest dig).all fun shard =>
        isAlreadyExists (scr shard).beginWrite := by
    rw [all_map]
    refine congrArg _ (funext fun shard => ?_)
    rcases hbeg : (scr shard).beginWrite with (_ | error) | _ <;> simp [hbeg, Except.map, isAlreadyExists]
  rw [← hall, ← filterMap_beginWrite]
  refine (Future.Returns.joinAll _ fun shard _ => ?_).map _
  have hval : ((scr shard).beginWrite.map fun _ =>
      (⟨shard, (0 : Nat)⟩ : Attempt (scriptedShards scr))) =
      ((scr shard).beginWrite.map fun _ => (0 : Nat)).map fun attempt =>
        (⟨shard, attempt⟩ : Attempt (scriptedShards scr)) := by
    cases (scr shard).beginWrite with
    | error error | ok _ => rfl
  rw [hval]
  exact (returns_reply shard _ s).map _

lemma returns_write (batch : Bytes) (s : State (scriptedShards scr)) :
    ((sharded (scriptedShards scr) ring).write
    (attemptsOf scr bats (order.filter (took scr bats))) batch).Returns
    (.ok (), attemptsOf scr (bats + 1) (order.filter (took scr (bats + 1)))) s := by
  let answer (shard : Fin n) : Except (StreamingWriteError H) Unit × Attempt (scriptedShards scr) :=
    ((scr shard).write bats, ⟨shard, bats + 1⟩)
  have hlef : (((order.filter (took scr bats)).map answer).filter fun res =>
      isOk res.1).map Prod.snd = attemptsOf scr (bats + 1) (order.filter (took scr (bats + 1))) := by
    rw [filter_map, map_map, filter_filter, attemptsOf, took_succ]
    rfl
  rw [← hlef, ← write_removes]
  change (write _ _ _).Returns _ s
  rw [write, attemptsOf, map_map]
  refine (Future.Returns.joinAll answer fun shard _ => ?_).map _
  exact (returns_reply shard ((scr shard).write bats, bats + 1) s).map _

lemma returns_store (chs : List Bytes) (s : State (scriptedShards scr)) :
    (storeChunks (sharded (scriptedShards scr) ring) chs
      (attemptsOf scr bats (order.filter (took scr bats)))).Returns
    (.ok (), attemptsOf scr (bats + chs.length) (order.filter (took scr (bats + chs.length)))) s := by
  induction chs generalizing bats s with
  | nil => exact fun _ _ _ => rfl
  | cons chunk chs ih =>
    refine (returns_write bats order chunk s).bind fun t => ?_
    have hres := ih (bats + 1) t
    rwa [Nat.add_assoc, Nat.add_comm 1] at hres

variable (scripts ring) in
def uploadResult (digest : Digest H) (batches : Nat) : Except (StreamingWriteError H) Unit :=
  if (ring.storagesForDigest digest).all fun shard => isAlreadyExists (scripts shard).beginWrite then
    .error .alreadyExists
  else
    committed (((ring.storagesForDigest digest).filter (took scripts batches)).map fun shard =>
      (scripts shard).commit)

lemma returns_upload (bats : List Bytes) (s : State (scriptedShards scr)) :
    ((sharded (scriptedShards scr) ring).upload inst dig bats).Returns
      (uploadResult scr ring dig bats.length) s := by
  refine (returns_begin s).bind fun t => ?_
  rw [uploadResult]
  split_ifs
  · exact fun _ _ _ => rfl
  · refine (returns_store 0 _ bats t).bind fun u => ?_
    rw [Nat.zero_add]
    change (commit _ _).Returns _ u
    rw [commit, attemptsOf, map_map]
    exact (Future.Returns.joinAll _ fun shard _ => returns_reply shard (scr shard).commit u).map _

/-! ### Success -/

def Succeeds (result : Except (StreamingWriteError H) Unit) : Prop :=
  result = .ok () ∨ result = .error .alreadyExists

omit [DecidableEq H] in
lemma succeeds_committed_iff (ress : List (Except (StreamingWriteError H) Unit)) :
    Succeeds (committed ress) ↔
    (∃ res ∈ ress, res = .ok ()) ∨ ress.getLast? = some (.error .alreadyExists) := by
  have hany : ress.any isOk = true ↔ ∃ res ∈ ress, res = .ok () := by
    rw [any_eq_true]
    exact exists_congr fun res => and_congr_right fun _ =>
      isOk_iff.trans ⟨fun ⟨_, h⟩ => h, fun h => ⟨(), h⟩⟩
  rw [← hany, committed]
  by_cases hok : ress.any isOk = true
  · simp [hok, Succeeds]
  rw [if_neg hok, or_iff_right hok]
  -- all are errors, and the last one is kept
  rcases eq_nil_or_concat ress with rfl | ⟨bef, last, rfl⟩
  · simp [Succeeds]
  · cases last with
    | ok _ => simp [isOk] at hok
    | error error => simp [Succeeds]

end

/-- A write succeeds on every schedule if and only if all shards have the blob, or one takes all batches
and commits, or the last that takes all batches finds the blob stored. -/
theorem upload_succeeds_iff [DecidableEq H] (scripts : Fin n → Script H) (ring : Ring H n)
    (inst : Text) (digest : Digest H) (batches : List Bytes) (choices : List Bool)
    (s : State (scriptedShards scripts)) :
    ∃ result,
      (((sharded (scriptedShards scripts) ring).upload inst digest batches).finish choices s).1 =
        some result ∧
    (Succeeds result ↔ (∀ shard ∈ ring.storagesForDigest digest,
      (scripts shard).beginWrite = .error .alreadyExists) ∨
    (∃ shard ∈ ring.storagesForDigest digest,
    took scripts batches.length shard = true ∧ (scripts shard).commit = .ok ()) ∨
    ∃ shard, ((ring.storagesForDigest digest).filter (took scripts batches.length)).getLast? =
    some shard ∧ (scripts shard).commit = .error .alreadyExists) := by
  refine ⟨_, (returns_upload batches s).finish choices, ?_⟩
  have hall : ((ring.storagesForDigest digest).all fun shard =>
      isAlreadyExists (scripts shard).beginWrite) = true ↔
      ∀ shard ∈ ring.storagesForDigest digest, (scripts shard).beginWrite = .error .alreadyExists := by
    rw [all_eq_true]
    refine forall_congr' fun shard => imp_congr_right fun _ => ?_
    rcases (scripts shard).beginWrite with (_ | error) | _ <;> simp [isAlreadyExists]
  rw [uploadResult, ← hall]
  split_ifs with hexi
  · simp [Succeeds, hexi]
  rw [succeeds_committed_iff, or_iff_right hexi]
  refine or_congr ?_ ?_
  · simp [and_assoc]
  · rw [getLast?_map, Option.map_eq_some_iff]

theorem upload_fails_although_stored :
    (((sharded (scriptedShards (twoShards blobShard
    { emptyShard with beginWrite := .error (.storageError (.unavailable [])) }))
    bothShards).upload [] ⟨(), 1⟩ [[1]]).finish [] fun _ => ()).1 =
    some (.error (.storageError (.unavailable "All shards returned errors during write.".toList))) :=
  rfl

end Sharding

end Toolchain.Storage
