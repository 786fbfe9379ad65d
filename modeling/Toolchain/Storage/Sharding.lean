import Mathlib.Data.List.Induction
import Toolchain.Storage.Composition

/-!
# Sharding — writes to all shards of a digest, reads from any of them

The shards that fail are removed by their positions, the last first, so exactly those that took every
batch are left (`write_removes`).
-/

namespace Toolchain.Storage

open Lib List Storage.Ring Sharding

namespace Sharding

/-! ## Removal by position -/

section

variable {α β : Type}

lemma foldl_eraseIdx_succ (indi : List Nat) (a : α) (l : List α) :
    (indi.map Nat.succ).foldl eraseIdx (a :: l) = a :: indi.foldl eraseIdx l := by
  induction indi generalizing l with
  | nil => rfl
  | cons idx indi ih => exact ih (l.eraseIdx idx)

lemma indicesToRemove_cons {ε : Type} (res : Except ε α) (ress : List (Except ε α)) :
    indicesToRemove (res :: ress) =
    (if isOk res then [] else [0]) ++ (indicesToRemove ress).map Nat.succ := by
  have hshi : (fun ent : Except ε α × Nat => if isOk ent.1 then none else some (ent.2 + 1)) =
      fun ent => (if isOk ent.1 then none else some ent.2).map Nat.succ := by
    funext ent
    split
    · rfl
    · rfl
  have htai : (ress.zipIdx 1).filterMap (fun ent => if isOk ent.1 then none else some ent.2) =
      (indicesToRemove ress).map Nat.succ := by
    rw [zipIdx_succ, filterMap_map, indicesToRemove, map_filterMap]
    exact congrArg (filterMap · ress.zipIdx) hshi
  rw [← htai, indicesToRemove, zipIdx_cons, filterMap_cons]
  cases isOk res with
  | true | false => rfl

lemma write_removes {ε : Type} (ress : List (Except ε α × β)) :
    (indicesToRemove (ress.map Prod.fst)).reverse.foldl eraseIdx (ress.map Prod.snd) =
    (ress.filter fun res => isOk res.1).map Prod.snd := by
  induction ress with
  | nil => rfl
  | cons res ress ih =>
    rw [map_cons, map_cons, indicesToRemove_cons, reverse_append,
      foldl_append, ← map_reverse, foldl_eraseIdx_succ, ih, filter_cons]
    cases isOk res.1 with
    | true | false => rfl

lemma toOption_eq_some {ε : Type} {res : Except ε α} {a : α} : res.toOption = some a ↔ res = .ok a := by
  cases res with
  | ok a | error e => simp [Except.toOption]

lemma isOk_iff {ε : Type} {res : Except ε α} : isOk res = true ↔ ∃ a, res = .ok a := by
  cases res with
  | ok a | error e => simp [isOk]

end

/-! ## The answers of the shards -/

section

variable {H : Type} [DecidableEq H] {n : Nat} (ring : Ring H n)

variable {ress : List (Fin n × Except (StorageError H) (List (Digest H)))}
  {digs : List (Digest H)} {dig : Digest H}

lemma vote_eq_some {pres : Bool} {res : Fin n × Except (StorageError H) (List (Digest H))} :
    ring.vote digs dig res = some pres ↔ ∃ missing, res.2 = .ok missing ∧
      dig ∈ ring.digestsFor digs res.1 ∧
    pres = decide (dig ∉ missing) := by
  unfold vote
  cases res.2 with
  | error error => simp
  | ok missing =>
    by_cases hask : dig ∈ ring.digestsFor digs res.1
    · simp [eq_comm]
    · simp [hask]

lemma answer_eq (digs : List (Digest H)) (dig : Digest H)
    (ress : List (Fin n × Except (StorageError H) (List (Digest H)))) :
    ring.answer digs ress dig = (if (ress.filterMap (ring.vote digs dig)).isEmpty then none
    else some ((ress.filterMap (ring.vote digs dig)).any id)) := by
  -- from the last result on, since the loop adds at the end
  induction ress using reverseRecOn with
  | nil => rfl
  | append_singleton ress res ih =>
    unfold answer at ih ⊢
    rw [foldl_append, ih, filterMap_append]
    cases hvot : ring.vote digs dig res with
    | none =>
      rw [filterMap_cons_none hvot, filterMap_nil, append_nil]
      simp [hvot]
    | some here =>
      rw [filterMap_cons_some hvot, filterMap_nil]
      by_cases hemp : ress.filterMap (ring.vote digs dig) = []
      · simp [hvot, hemp]
      · simp only [foldl_cons, foldl_nil, hvot, List.isEmpty_iff, hemp,
          if_false, append_eq_nil_iff, false_and, any_append]
        simp

lemma answer_eq_none :
    ring.answer digs ress dig = none ↔ ∀ result ∈ ress, ring.vote digs dig result = none := by
  rw [answer_eq, ← filterMap_eq_nil_iff]
  cases ress.filterMap (ring.vote digs dig) with
  | nil | cons vote votes => simp

lemma answer_eq_true :
    ring.answer digs ress dig = some true ↔ ∃ res ∈ ress, ring.vote digs dig res = some true := by
  rw [answer_eq, ← mem_filterMap]
  cases ress.filterMap (ring.vote digs dig) with
  | nil | cons vote votes => simp

lemma answer_eq_false (h : ring.answer digs ress dig = some false) :
    ∃ res ∈ ress, ring.vote digs dig res = some false := by
  rw [answer_eq] at h
  rw [← mem_filterMap]
  cases hvot : ress.filterMap (ring.vote digs dig) with
  | nil => simp [hvot] at h
  | cons vote votes =>
    obtain rfl : vote = false := by simp_all
    exact .head _

end

/-! ## Refinement -/

section

variable {H : Type} {faulty : Prop} {n : Nat} {shards : Fin n → Driver H}
  (refines rfn : (shard : Fin n) → Refines faulty (shards shard)) (ring : Ring H n)

def shardsView : View H (State shards) :=
  View.family (fun shard => (refines shard).view) ring.storagesForDigest

def ShardCarries (s : State shards) (attempt : Attempt shards) (inst : Text) (digest : Digest H)
    (content : Bytes) : Prop :=
  (refines attempt.1).carries (s attempt.1) attempt.2 inst digest content

/-- The attempts left carry the whole content.  Without faults there is one, or every shard has the
digest already. -/
structure ShardsCarry (s : State shards) (attempts : List (Attempt shards)) (inst : Text)
    (digest : Digest H) (content : Bytes) : Prop where
  carries : ∀ attempt ∈ attempts, ShardCarries refines s attempt inst digest content
  covers : faulty ∨ attempts ≠ [] ∧ ∀ shard ∈ ring.storagesForDigest digest,
    (∃ attempt ∈ attempts, attempt.1 = shard) ∨ (refines shard).view.has (s shard) inst digest

variable {ring}

lemma storages_ne_nil {dig : Digest H} (h : ring.replicas dig ≠ []) : ring.storagesForDigest dig ≠ [] := by
  have hpos := ring.keyReplicas_pos
  intro hnil
  rcases take_eq_nil_iff.1 hnil with hzer | hnil
  · omega
  · exact h hnil

variable {refines rfn}

lemma meets_on {α : Type} {conts : Contents H} {shard : Fin n}
    {fut : Future (shards shard).State α} {p : α → (shards shard).State → Prop}
    {s : State shards} (h : fut.Meets ((rfn shard).view.contract faulty conts) p (s shard)) :
    (on shard fut).Meets ((shardsView rfn ring).contract faulty conts) (fun a t => p a (t shard)) s :=
  .member (c := fun i => (rfn i).view.contract faulty conts) h id

/-- As of one shard, but a missing blob is missing in one of them only, and if there were none nothing
was available. -/
structure ReadsAny (contents : Contents H) (inst : Text) (s : State shards)
    (refines : (shard : Fin n) → Refines faulty (shards shard)) (order : List (Fin n))
    (digest : Digest H) (result : Except (StorageError H) (Option (ReadStream H))) : Prop where
  committed : ∀ stream, result = .ok (some stream) → stream.failure = none →
    contents inst digest stream.chunks.flatten
  found : result = .ok none → ∃ shard ∈ order, ¬(refines shard).view.has (s shard) inst digest
  answers : faulty ∨ order = [] ∧ result = noShards ∨ ∃ stream?, result = .ok stream? ∧
    ∀ stream, stream? = some stream → stream.failure = none

namespace ReadsAny

variable {conts : Contents H} {inst : Text} {s : State shards} {shard : Fin n}
  {order : List (Fin n)} {dig : Digest H}
  {first second : Except (StorageError H) (Option (ReadStream H))}

lemma cons (h : ReadsAny conts inst s rfn order dig second) (hdec : decisive second = true) :
    ReadsAny conts inst s rfn (shard :: order) dig second where
  committed := h.committed
  found hnon := by
    obtain ⟨shard', hsha', hmis⟩ := h.found hnon
    exact ⟨shard', mem_cons_of_mem shard hsha', hmis⟩
  answers := by
    rcases h.answers with hfau | ⟨-, rfl⟩ | hok
    · exact .inl hfau
    · cases hdec
    · exact .inr (.inr hok)

lemma failed {err : StorageError H} (hfau : faulty) : ReadsAny conts inst s rfn order dig (.error err) :=
  ⟨nofun, nofun, .inl hfau⟩

lemma absent (hmis : ∃ shard ∈ order, ¬(rfn shard).view.has (s shard) inst dig) :
    ReadsAny conts inst s rfn order dig (.ok none) :=
  ⟨nofun, fun _ => hmis, .inr (.inr ⟨none, rfl, nofun⟩)⟩

lemma merge (hfir : Reads faulty conts inst ((rfn shard).view.has (s shard) inst dig) dig first)
    (hsec : ReadsAny conts inst s rfn order dig second)
    (hfir' : decisive first = false) (hsec' : decisive second = false) :
    ReadsAny conts inst s rfn (shard :: order) dig (mergeReads first second) := by
  rcases first with error | _ | stream
  · have hfau : faulty := hfir.faulty_of_error
    rcases second with error' | _ | stream
    · exact failed hfau
    · obtain ⟨shard', hsha', hmis⟩ := hsec.found rfl
      exact absent ⟨shard', mem_cons_of_mem shard hsha', hmis⟩
    · cases hsec'
  · exact absent ⟨shard, (.head _), hfir.found rfl⟩
  · cases hfir'

end ReadsAny

lemma meets_readAny (conts : Contents H) (inst : Text) (dig : Digest H) (win : Window)
    (s : State shards) (hwin : faulty ∨ 0 < win.maxBatchSize) (order : List (Fin n)) :
    (Future.raceAll decisive mergeReads noShards (order.map fun shard =>
    on shard ((shards shard).readBlob inst dig win))).Meets
    ((shardsView rfn ring).contract faulty conts)
    (fun res _ => win.IsFull → ReadsAny conts inst s rfn order dig res) s := by
  induction order with
  | nil => exact fun _ _ _ _ => ⟨nofun, nofun, .inr (.inl ⟨rfl, rfl⟩)⟩
  | cons shard order ih =>
    refine .race (meets_on ((rfn shard).readBlob conts inst dig win (s shard) hwin)) ih ?_ ?_ ?_
    · intro _ _ _ _ _ hread hful
      obtain ⟨hcom, hfou, hans⟩ := hread hful
      exact ⟨hcom, fun hnon => ⟨shard, .head _, hfou hnon⟩, hans.imp id .inr⟩
    · exact fun _ _ _ _ hdec hrea hful => (hrea hful).cons hdec
    · exact fun _ _ _ _ _ hfir hsec hread hrea hful => .merge (hread hful) (hrea hful) hfir hsec

section

variable (hrin : faulty ∨ ∀ dig, ring.replicas dig ≠ []) (conts : Contents H) (inst : Text)
  (dig : Digest H)

include hrin conts inst dig

lemma meets_readBlob (win : Window) (s : State shards) (hwin : faulty ∨ 0 < win.maxBatchSize) :
    (readBlob shards ring inst dig win).Meets ((shardsView rfn ring).contract faulty conts)
    (fun res _ => win.IsFull →
      Reads faulty conts inst ((shardsView rfn ring).has s inst dig) dig res) s := by
  refine (meets_readAny conts inst dig win s hwin (ring.storagesForDigest dig)).mono ?_
  intro res t _ _ hrea hful
  have hrea := hrea hful
  refine ⟨hrea.committed, ?_, ?_⟩
  · intro hnon hsto
    obtain ⟨shard, hsha, hmis⟩ := hrea.found hnon
    exact hmis (hsto.2 shard hsha)
  · rcases hrea.answers with hfau | ⟨hnil, -⟩ | hok
    · exact .inl hfau
    · refine hrin.imp id fun hne => ?_
      exact absurd hnil (storages_ne_nil (hne dig))
    · exact .inr hok

lemma meets_begin (s : State shards) :
    (beginWriteBlob shards ring inst dig).Meets ((shardsView rfn ring).contract faulty conts)
      (fun result t =>
    (∀ attempts, result = .ok attempts → ShardsCarry rfn ring t attempts inst dig []) ∧
    (faulty ∨ (∃ attempts, result = .ok attempts) ∨
    result = .error .alreadyExists ∧ (shardsView rfn ring).has t inst dig)) s := by
  refine .map (.joinAll (p := fun shard result t =>
    (∀ attempt, result = .ok attempt → attempt.1 = shard ∧ ShardCarries rfn t attempt inst dig []) ∧
    (faulty ∨ (∃ attempt, result = .ok attempt) ∨
      result = .error .alreadyExists ∧ (rfn shard).view.has (t shard) inst dig)) ?_) ?_
  · intro shard _
    refine (meets_on ((rfn shard).beginWriteBlob conts inst dig (s shard))).map ?_
    intro result t _ _ hbeg
    exact begun_map hbeg (fun _ hcar => ⟨rfl, hcar⟩) id
  · intro results t _ _ hresu
    by_cases hall : results.all isAlreadyExists = true
    · rw [if_pos hall]
      refine ⟨nofun, ?_⟩
      by_cases hfau : faulty
      · exact .inl hfau
      have hne := storages_ne_nil (hrin.resolve_left hfau dig)
      refine .inr (.inr ⟨rfl, hne, ?_⟩)
      intro shard hsha
      obtain ⟨result, hres, -, hans⟩ := exists_right_of_mem hresu hsha
      have hexi := all_eq_true.1 hall result hres
      rcases hans.resolve_left hfau with ⟨attempt, rfl⟩ | ⟨-, hhas⟩
      · cases hexi
      · exact hhas
    · rw [if_neg hall]
      refine ⟨?_, .inr (.inl ⟨_, rfl⟩)⟩
      rintro _ ⟨⟩
      refine ⟨?_, ?_⟩
      · intro attempt hatt
        obtain ⟨result, hres, hok⟩ := mem_filterMap.1 hatt
        obtain ⟨shard, -, hcar, -⟩ := exists_left_of_mem hresu hres
        exact (hcar attempt (toOption_eq_some.1 hok)).2
      · by_cases hfau : faulty
        · exact .inl hfau
        refine .inr ⟨?_, ?_⟩
        · -- one of the shards did not have the digest, so it has begun
          obtain ⟨result, hres, hnot⟩ : ∃ result ∈ results, ¬isAlreadyExists result = true := by
            simpa using hall
          obtain ⟨shard, -, -, hans⟩ := exists_left_of_mem hresu hres
          rcases hans.resolve_left hfau with ⟨attempt, rfl⟩ | ⟨rfl, -⟩
          · exact ne_nil_of_mem (mem_filterMap.2 ⟨_, hres, rfl⟩)
          · exact absurd rfl hnot
        · intro shard hsha
          obtain ⟨result, hres, hcar, hans⟩ := exists_right_of_mem hresu hsha
          rcases hans.resolve_left hfau with ⟨attempt, rfl⟩ | ⟨-, hhas⟩
          · exact .inl ⟨attempt, mem_filterMap.2 ⟨_, hres, rfl⟩, (hcar attempt rfl).1⟩
          · exact .inr hhas

end

lemma meets_write {inst : Text} {dig : Digest H} {cont : Bytes} {s : State shards}
    {att : List (Attempt shards)} (conts : Contents H) (batch : Bytes)
    (hcarr : ShardsCarry rfn ring s att inst dig cont) :
    (write shards att batch).Meets ((shardsView rfn ring).contract faulty conts) (fun res t =>
    (res.1 = .ok () → ShardsCarry rfn ring t res.2 inst dig (cont ++ batch)) ∧
      (faulty ∨ res.1 = .ok ())) s := by
  refine .map (.joinAll (p := fun attempt res t =>
    res.2.1 = attempt.1 ∧ (res.1 = .ok () → ShardCarries rfn t res.2 inst dig (cont ++ batch)) ∧
        (faulty ∨ res.1 = .ok ())) ?_) ?_
  · intro attempt hatt
    have hcar := hcarr.carries attempt hatt
    refine (meets_on ((rfn attempt.1).write conts batch hcar)).map ?_
    rintro ⟨res, attempt'⟩ t - - ⟨hcar, hans⟩
    exact ⟨rfl, hcar, hans⟩
  · intro results t hgro _ hresu
    refine ⟨fun _ => ?_, .inr rfl⟩
    dsimp only
    rw [write_removes]
    refine ⟨?_, ?_⟩
    · intro attempt hatt
      obtain ⟨res, hres, rfl⟩ := mem_map.1 hatt
      obtain ⟨hres, hok⟩ := mem_filter.1 hres
      obtain ⟨_, -, -, hcar, -⟩ := exists_left_of_mem hresu hres
      obtain ⟨_, hok⟩ := isOk_iff.1 hok
      exact hcar hok
    · by_cases hfau : faulty
      · exact .inl hfau
      obtain ⟨hne, hcov⟩ := hcarr.covers.resolve_left hfau
      -- no shard fails, so none is removed
      have hkep : ∀ attempt ∈ att, ∃ attempt' ∈
          (results.filter fun res => isOk res.1).map Prod.snd, attempt'.1 = attempt.1 := by
        intro attempt hatt
        obtain ⟨res, hres, hsha, -, hansw⟩ := exists_right_of_mem hresu hatt
        have hok := isOk_iff.2 ⟨(), hansw.resolve_left hfau⟩
        exact ⟨res.2, mem_map.2 ⟨res, mem_filter.2 ⟨hres, hok⟩, rfl⟩, hsha⟩
      refine .inr ⟨?_, ?_⟩
      · obtain ⟨attempt, hatt⟩ := exists_mem_of_ne_nil _ hne
        obtain ⟨attempt', hatt', -⟩ := hkep attempt hatt
        exact ne_nil_of_mem hatt'
      · intro shard hsha
        rcases hcov shard hsha with ⟨attempt, hatt, rfl⟩ | hhas
        · exact .inl (hkep attempt hatt)
        · exact .inr ((rfn shard).view.has_mono (hgro shard) hhas)

lemma meets_commit (hrin : faulty ∨ ∀ dig, ring.replicas dig ≠ [])
    {conts : Contents H} {inst : Text} {dig : Digest H} {cont : Bytes}
    {s : State shards} {att : List (Attempt shards)}
    (hcar : ShardsCarry rfn ring s att inst dig cont)
    (hcon : conts inst dig cont) :
    (commit shards att).Meets ((shardsView rfn ring).contract faulty conts)
    (fun res t => faulty ∨ res = .ok () ∧ (shardsView rfn ring).has t inst dig) s := by
  refine .map (.joinAll (p := fun attempt res t => faulty ∨
    res = .ok () ∧ (rfn attempt.1).view.has (t attempt.1) inst dig) ?_) ?_
  · intro attempt hatt
    have hcarr := hcar.carries attempt hatt
    exact meets_on ((rfn attempt.1).commit hcarr hcon)
  · intro results t hgro _ hres
    by_cases hfau : faulty
    · exact .inl hfau
    obtain ⟨hne, hcov⟩ := hcar.covers.resolve_left hfau
    have hsto := storages_ne_nil (hrin.resolve_left hfau dig)
    refine .inr ⟨?_, hsto, ?_⟩
    · obtain ⟨attempt, hatt⟩ := exists_mem_of_ne_nil _ hne
      obtain ⟨res, hresu, hans⟩ := exists_right_of_mem hres hatt
      obtain ⟨rfl, -⟩ := hans.resolve_left hfau
      exact if_pos (any_eq_true.2 ⟨_, hresu, rfl⟩)
    · intro shard hsha
      rcases hcov shard hsha with ⟨attempt, hatt, rfl⟩ | hhas
      · obtain ⟨res, -, hans⟩ := exists_right_of_mem hres hatt
        exact (hans.resolve_left hfau).2
      · exact (rfn shard).view.has_mono (hgro shard) hhas

variable [DecidableEq H]

lemma mem_digestsFor {dig : List (Digest H)} {digest : Digest H} {shard : Fin n} :
    digest ∈ ring.digestsFor dig shard ↔ digest ∈ dig ∧ shard ∈ ring.storagesForDigest digest := by
  simp [digestsFor]

lemma meets_findMissing (hrin : faulty ∨ ∀ digest, ring.replicas digest ≠ [])
    (conts : Contents H) (inst : Text) (digs : List (Digest H)) (s : State shards) :
    (findMissingBlobs shards ring (finRange n) inst digs).Meets
      ((shardsView rfn ring).contract faulty conts)
    (fun res _ => FindsMissing faulty conts inst ((shardsView rfn ring).has s inst) digs res) s := by
  refine .map (.joinAll (p := fun shard res _ => res.1 = shard ∧
    FindsMissing faulty conts inst ((rfn shard).view.has (s shard) inst)
      (ring.digestsFor digs shard) res.2) ?_) ?_
  · intro shard _
    refine (meets_on ((rfn shard).findMissingBlobs conts inst _ (s shard))).map ?_
    exact fun _ _ _ _ hfou => ⟨rfl, hfou⟩
  · intro results t _ _ hresu
    have hfou : ∀ res ∈ results, FindsMissing faulty conts inst
        ((rfn res.1).view.has (s res.1) inst) (ring.digestsFor digs res.1)
        res.2 := by
      intro res hres
      obtain ⟨shard, -, rfl, hfou⟩ := exists_left_of_mem hresu hres
      exact hfou
    by_cases hnon : digs.any (fun digest => (ring.answer digs results digest).isNone) = true
    · -- a digest without an answer
      rw [Ring.merge, if_pos hnon]
      refine Leaf.findsMissing_error ?_
      obtain ⟨digest, hdig, hisn⟩ := any_eq_true.1 hnon
      by_contra hfau
      have hne := storages_ne_nil (hrin.resolve_left hfau digest)
      obtain ⟨shard, hsha⟩ := exists_mem_of_ne_nil _ hne
      have hask := mem_digestsFor.2 ⟨hdig, hsha⟩
      obtain ⟨res, hres, rfl, hans⟩ := exists_right_of_mem hresu
        (mem_filter.2 ⟨mem_finRange shard, by simpa using ne_nil_of_mem hask⟩)
      obtain ⟨missing, hok⟩ := hans.answers.resolve_left hfau
      have hvot := (vote_eq_some ring).2 ⟨missing, hok, hask, rfl⟩
      rw [(answer_eq_none ring).1 (Option.isNone_iff_eq_none.1 hisn) res hres] at hvot
      cases hvot
    · rw [Ring.merge, if_neg hnon]
      refine ⟨?_, ?_, ?_, .inr ⟨_, rfl⟩⟩
      · rintro _ ⟨⟩ digest hdig
        exact mem_dedup.1 (mem_filter.1 hdig).1
      · rintro _ ⟨⟩ digest hdig hmis
        -- the answer is there and is not negative
        have htru : ring.answer digs results digest = some true := by
          cases hans : ring.answer digs results digest with
          | none => exact absurd (any_eq_true.2 ⟨digest, hdig, by simp [hans]⟩) hnon
          | some pres =>
            cases pres with
            | true => rfl
            | false => exact absurd (mem_filter.2 ⟨mem_dedup.2 hdig, by simp [hans]⟩) hmis
        obtain ⟨res, hres, hvot⟩ := (answer_eq_true ring).1 htru
        obtain ⟨missing, hok, hask, hpre⟩ := (vote_eq_some ring).1 hvot
        exact (hfou res hres).committed missing hok digest hask (of_decide_eq_true hpre.symm)
      · rintro _ ⟨⟩ digest hdig hsto
        have hfal := of_decide_eq_true (mem_filter.1 hdig).2
        obtain ⟨res, hres, hvot⟩ := answer_eq_false ring hfal
        obtain ⟨missing, hok, hask, hpre⟩ := (vote_eq_some ring).1 hvot
        have hmis : digest ∈ missing := by simpa using hpre.symm
        exact (hfou res hres).found missing hok digest hmis (hsto.2 res.1 (mem_digestsFor.1 hask).2)

variable (refines ring) in
/-- Shards refine the committed contents together; they are exact if every digest has a shard. -/
def shardedRefines (hring : faulty ∨ ∀ digest, ring.replicas digest ≠ []) :
    Refines faulty (sharded shards ring) where
  view := shardsView refines ring
  carries := ShardsCarry refines ring
  carries_mono := by
    rintro s t attempts inst digest content hgrows ⟨hcarries, hcovers⟩
    refine ⟨?_, hcovers.imp id (.imp id ?_)⟩
    · intro attempt hattempt
      exact (refines attempt.1).carries_mono (hgrows attempt.1) (hcarries attempt hattempt)
    · intro hcovers shard hshard
      exact (hcovers shard hshard).imp id ((refines shard).view.has_mono (hgrows shard))
  inv_init contents shard := (refines shard).inv_init contents
  visible := by
    rintro contents s inst digest content hinv ⟨shard, hvisible⟩
    exact (refines shard).visible (hinv shard) hvisible
  findMissingBlobs := meets_findMissing hring
  readBlob := meets_readBlob hring
  beginWriteBlob := meets_begin hring
  write := meets_write
  commit := meets_commit hring
  runTask contents task s := meets_on ((refines task.1).runTask contents task.2 (s task.1))

end

end Sharding

/-! ## Uploads to shards that may fail -/

open Lib

variable {H : Type}

def Driver.upload (driver : Driver H) (inst : Text) (digest : Digest H) (batches : List Bytes) :
    Future driver.State (Except (StreamingWriteError H) Unit) :=
  (driver.beginWriteBlob inst digest).andThen fun attempt =>
    (storeChunks driver batches attempt).bind fun
      | (.ok (), attempt) => driver.commit attempt
      | (.error error, _) => .ready (.error error)

/-- What was committed: for each call of `commit` the batches that its attempt had received, and
how many of the calls succeeded. -/
structure CommitLog where
  called : List (List Bytes)
  succeeded : Nat

/-- A driver that records the batches an attempt receives successfully, and the calls of
`commit`. -/
def recorded (driver : Driver H) : Driver H where
  State := driver.State × CommitLog
  Attempt := driver.Attempt × List Bytes
  Task := driver.Task
  init := (driver.init, { called := [], succeeded := 0 })
  Visible state := driver.Visible state.1
  findMissingBlobs inst digests := (driver.findMissingBlobs inst digests).zoom Lens.fst
  readBlob inst digest window := (driver.readBlob inst digest window).zoom Lens.fst
  beginWriteBlob inst digest :=
    ((driver.beginWriteBlob inst digest).zoom Lens.fst).map (Except.map fun attempt => (attempt, []))
  write attempt batch :=
    ((driver.write attempt.1 batch).zoom Lens.fst).map fun result =>
      (result.1, (result.2, if Sharding.isOk result.1 then attempt.2 ++ [batch] else attempt.2))
  commit attempt :=
    (Future.act fun state : driver.State × CommitLog =>
      ((), (state.1, { state.2 with called := state.2.called ++ [attempt.2] }))).bind fun _ =>
        ((driver.commit attempt.1).zoom Lens.fst).bind fun result =>
          .act fun state => (result, (state.1, { state.2 with
              succeeded := state.2.succeeded + if Sharding.isOk result then 1 else 0 }))
  runTask task := (driver.runTask task).zoom Lens.fst

namespace recorded

variable {drv : Driver H} {bats : List Bytes}

def contract (driver : Driver H) (batches : List Bytes) : Contract (recorded driver).State where
  inv s := ∀ received ∈ s.2.called, received = batches
  grows s t := s.2.succeeded ≤ t.2.succeeded
  hangs := True
  refl _ := Nat.le_refl _
  trans := Nat.le_trans

lemma meets_zoom {α : Type} (fut : Future drv.State α) (s : drv.State × CommitLog) :
    (fut.zoom Lens.fst).Meets (contract drv bats) (fun _ _ => True) s :=
  Future.Meets.zoom_of_forall trivial fun _ _ hinv => ⟨hinv, Nat.le_refl _⟩

lemma meets_begin (inst : Text) (dig : Digest H) (s : (recorded drv).State) :
    ((recorded drv).beginWriteBlob inst dig).Meets (contract drv bats)
    (fun res _ => ∀ attempt, res = .ok attempt → attempt.2 = []) s := by
  refine (meets_zoom _ s).map ?_
  rintro (error | attempt) t - - -
  · exact nofun
  · rintro _ ⟨⟩
    rfl

lemma meets_write (att : (recorded drv).Attempt) (batch : Bytes) (s : (recorded drv).State) :
    ((recorded drv).write att batch).Meets (contract drv bats)
    (fun res _ => res.1 = .ok () → res.2.2 = att.2 ++ [batch]) s := by
  refine (meets_zoom _ s).map ?_
  rintro ⟨res, attempt'⟩ t - - - rfl
  rfl

lemma meets_commit {att : (recorded drv).Attempt} (hatt : att.2 = bats) (s : (recorded drv).State) :
    ((recorded drv).commit att).Meets (contract drv bats) (fun res t => res = .ok () →
      0 < t.2.succeeded) s := by
  have hcal : (Future.act fun state : drv.State × CommitLog =>
      ((), (state.1, { state.2 with called := state.2.called ++ [att.2] }))).Meets
      (contract drv bats) (fun _ _ => True) s := by
    refine Future.Meets.act ?_
    intro t _ hinv
    refine ⟨?_, Nat.le_refl _, fun _ _ _ => trivial⟩
    intro rec hrec
    rcases mem_append.1 hrec with h | h
    · exact hinv rec h
    · rw [mem_singleton.1 h, hatt]
  refine hcal.bind ?_
  intro _ t _ _ _
  refine (meets_zoom _ t).bind ?_
  intro res u _ _ _
  refine Future.Meets.act ?_
  intro v _ hinv
  refine ⟨hinv, Nat.le_add_right _ _, ?_⟩
  rintro w hw - rfl
  exact Nat.lt_of_lt_of_le (Nat.succ_pos _) hw

end recorded

section Upload

variable [DecidableEq H] {n : Nat} (shards : Fin n → Driver H) (ring : Ring H n)

abbrev recordedShards : Driver H := sharded (fun shard => recorded (shards shard)) ring

def recordedContract (batches : List Bytes) : Contract (recordedShards shards ring).State :=
  Contract.family (fun shard => recorded.contract (shards shard) batches) True

variable {shards ring} {bats : List Bytes}

def Received (attempts : List (Sharding.Attempt fun shard => recorded (shards shard)))
    (received : List Bytes) : Prop :=
  ∀ attempt ∈ attempts, attempt.2.2 = received

lemma meets_recorded {α : Type} {shard : Fin n} {fut : Future (recorded (shards shard)).State α}
    {p : α → (recorded (shards shard)).State → Prop} {s : (recordedShards shards ring).State}
    (h : fut.Meets (recorded.contract (shards shard) bats) p (s shard)) :
    (on shard fut).Meets (recordedContract shards ring bats) (fun a t => p a (t shard)) s :=
  .member (c := fun shard => recorded.contract (shards shard) bats) h id

lemma received_begin (inst : Text) (dig : Digest H) (s : (recordedShards shards ring).State) :
    ((recordedShards shards ring).beginWriteBlob inst dig).Meets (recordedContract shards ring bats)
    (fun res _ => ∀ att, res = .ok att → Received att []) s := by
  refine .map (.joinAll (p := fun _ res _ =>
    ∀ attempt : Sharding.Attempt fun shard => recorded (shards shard), res = .ok attempt →
      attempt.2.2 = []) ?_) ?_
  · intro shard _
    refine (meets_recorded (recorded.meets_begin inst dig (s shard))).map ?_
    rintro (error | attempt) t - - hbeg
    · exact nofun
    · rintro _ ⟨⟩
      exact hbeg attempt rfl
  · intro results t _ _ hres att hatt attempt hatte
    split at hatt
    · cases hatt
    cases hatt
    obtain ⟨res, hresu, hok⟩ := mem_filterMap.1 hatte
    obtain ⟨_, -, hbeg⟩ := exists_left_of_mem hres hresu
    exact hbeg attempt (toOption_eq_some.1 hok)

variable {atts : List (Sharding.Attempt fun shard => recorded (shards shard))}

lemma received_write {rec : List Bytes} (hatte : Received atts rec)
    (batch : Bytes) (s : (recordedShards shards ring).State) :
    ((recordedShards shards ring).write atts batch).Meets (recordedContract shards ring bats)
    (fun res _ => Received res.2 (rec ++ [batch])) s := by
  refine .map (.joinAll (p := fun _ res _ => res.1 = .ok () → res.2.2.2 = rec ++ [batch]) ?_) ?_
  · intro attempt hatt
    refine (meets_recorded (recorded.meets_write attempt.2 batch (s attempt.1))).map ?_
    intro res t _ _ hwri hok
    rw [← hatte attempt hatt]
    exact hwri hok
  · intro results t _ _ hresu attempt hatt
    dsimp only at hatt
    rw [write_removes] at hatt
    obtain ⟨res, hres, rfl⟩ := mem_map.1 hatt
    obtain ⟨hres, hok⟩ := mem_filter.1 hres
    obtain ⟨_, -, hwri⟩ := exists_left_of_mem hresu hres
    obtain ⟨_, hok⟩ := isOk_iff.1 hok
    exact hwri hok

lemma received_store {rec : List Bytes} (hatt : Received atts rec)
    (chs : List Bytes) (s : (recordedShards shards ring).State) :
    (storeChunks (recordedShards shards ring) chs atts).Meets (recordedContract shards ring bats)
    (fun res _ => res.1 = .ok () → Received res.2 (rec ++ chs)) s := by
  induction chs generalizing atts rec s with
  | nil =>
    intro _ _ _ _
    simpa using hatt
  | cons chunk chs ih =>
    refine (received_write hatt chunk s).bind ?_
    rintro ⟨res, atts'⟩ t - hinv hwri
    cases res with
    | ok _ => simpa using ih (hwri.value hinv) t
    | error error => exact fun _ _ _ => nofun

lemma received_commit (hatt : Received atts bats) (s : (recordedShards shards ring).State) :
    ((recordedShards shards ring).commit atts).Meets (recordedContract shards ring bats)
    (fun res t => res = .ok () → ∃ shard, 0 < (t shard).2.succeeded) s := by
  refine .map (.joinAll (p := fun attempt res t => res = .ok () → 0 < (t attempt.1).2.succeeded) ?_) ?_
  · intro attempt hatte
    exact meets_recorded (recorded.meets_commit (hatt attempt hatte) (s attempt.1))
  · intro results t _ _ hres hok
    have hany : results.any isOk = true := by
      by_contra hnot
      rw [committed, if_neg hnot] at hok
      split at hok
      · cases hok
      · cases hok
    obtain ⟨res, hresu, hisO⟩ := any_eq_true.1 hany
    obtain ⟨attempt, -, hcom⟩ := exists_left_of_mem hres hresu
    obtain ⟨_, hok⟩ := isOk_iff.1 hisO
    exact ⟨attempt.1, hcom hok⟩

/-- A shard whose commit was called has received every batch once and in order, and an upload succeeds
only if the commit of some shard has. -/
theorem upload_whole_and_durable (shards : Fin n → Driver H) (ring : Ring H n) (inst : Text)
    (digest : Digest H) (batches : List Bytes) (s : Sharding.State shards) (choices : List Bool) :
    let run := ((recordedShards shards ring).upload inst digest batches).polls choices
      fun shard => (s shard, { called := [], succeeded := 0 })
    (∀ shard, ∀ received ∈ (run.2 shard).2.called, received = batches) ∧
      (run.1 = .ready (.ok ()) → ∃ shard, 0 < (run.2 shard).2.succeeded) := by
  intro run
  have hmee : ((recordedShards shards ring).upload inst digest batches).Meets
    (recordedContract shards ring batches)
      (fun res t => res = .ok () → ∃ shard, 0 < (t shard).2.succeeded)
      fun shard => (s shard, { called := [], succeeded := 0 }) := by
    refine (received_begin inst digest _).andThen ?_ fun _ _ _ _ _ => nofun
    intro att t _ hinv hbeg
    refine (received_store (hbeg.value hinv att rfl) batches t).bind ?_
    rintro ⟨res, attempts'⟩ u - hinvu hsto
    cases res with
    | ok _ => exact received_commit (hsto.value hinvu rfl) u
    | error error => exact fun _ _ _ => nofun
  obtain ⟨hinv, -, hend⟩ := hmee.polls (fun _ => nofun) choices
  refine ⟨hinv, fun hrea => ?_⟩
  rw [show run.1 = _ from hrea] at hend
  exact hend.value hinv rfl

end Upload

end Toolchain.Storage
