import Toolchain.Storage.Combinators

/-!
# DarkLaunchWrites — which of two backends refuses a write

The dark launch reads from one backend and writes to both.  An error with which the secondary refuses to
begin a write is returned, `AlreadyExists` among them: the caller takes that for success, and the
primary never gets the blob (`beginWriteBlob_lost`).  The backends are any drivers of which it is known
when they refuse a write.
-/

namespace Toolchain.Storage.DarkLaunch

open Lib Future

variable {H : Type}

/-- A driver as a backend: in which states it holds a digest, refuses a write of it because it
exists, and accepts one.  It may do neither and answer with another error. -/
structure Backend (driver : Driver H) where
  (holds refuses accepts : driver.State → Text → Digest H → Prop)
  holds_of_refuses : ∀ {s inst digest}, refuses s inst digest → holds s inst digest
  beginWriteBlob : ∀ inst digest choices s, ∃ result,
    ((driver.beginWriteBlob inst digest).finish choices s).1 = some result ∧
      (result = .error .alreadyExists ↔ refuses s inst digest) ∧
      ((∃ attempt, result = .ok attempt) ↔ accepts s inst digest)
  readBlob : ∀ inst digest (window : Window) choices s, 0 < window.maxBatchSize →
    holds s inst digest → ∃ stream,
      ((driver.readBlob inst digest window).finish choices s).1 = some (.ok (some stream))

variable {storage1 storage2 : Driver H} (first : Backend storage1) (second : Backend storage2)

/-! ## The two sides -/

def chooseStorage (storage2InstanceNames : List Text) (inst : Text) : StorageChoice :=
  if storage2InstanceNames.contains inst then .storage2 else .storage1

def StorageChoice.other : StorageChoice → StorageChoice
  | .storage1 => .storage2
  | .storage2 => .storage1

def Holds (s : State storage1 storage2) (inst : Text) (digest : Digest H) : StorageChoice → Prop
  | .storage1 => first.holds s.state1 inst digest
  | .storage2 => second.holds s.state2 inst digest

def Refuses (s : State storage1 storage2) (inst : Text) (digest : Digest H) : StorageChoice → Prop
  | .storage1 => first.refuses s.state1 inst digest
  | .storage2 => second.refuses s.state2 inst digest

def Accepts (s : State storage1 storage2) (inst : Text) (digest : Digest H) : StorageChoice → Prop
  | .storage1 => first.accepts s.state1 inst digest
  | .storage2 => second.accepts s.state2 inst digest

variable {first second} {s : State storage1 storage2} {inst : Text} {digest dig : Digest H}

lemma Refuses.holds {choice : StorageChoice} (h : Refuses first second s inst dig choice) :
    Holds first second s inst dig choice := by
  cases choice with
  | storage1 => exact first.holds_of_refuses h
  | storage2 => exact second.holds_of_refuses h

lemma map_eq_exists_iff {α β : Type} {f : α → β} {res : Except (StreamingWriteError H) α} :
    res.map f = .error .alreadyExists ↔ res = .error .alreadyExists := by
  cases res with
  | ok a | error error => simp [Except.map]

lemma exists_map_eq_ok_iff {α β : Type} {f : α → β} {res : Except (StreamingWriteError H) α} :
    (∃ b, res.map f = .ok b) ↔ ∃ a, res = .ok a := by
  cases res with
  | ok a | error error => simp [Except.map]

variable (first second) in
lemma finish_beginSide (inst : Text) (dig : Digest H) (ch : StorageChoice)
    (chs : List Bool) (s : State storage1 storage2) :
    ∃ res t, (beginSide inst dig ch).finish chs s = (some res, t) ∧
    (res = .error .alreadyExists ↔ Refuses first second s inst dig ch) ∧
    ((∃ side, res = .ok side) ↔ Accepts first second s inst dig ch) ∧
    (Refuses first second t inst dig ch.other ↔ Refuses first second s inst dig ch.other) := by
  cases ch with
  | storage1 =>
    obtain ⟨res, hres, href, hacc⟩ := first.beginWriteBlob inst dig chs s.state1
    refine ⟨res.map .inl, (((storage1.beginWriteBlob inst dig).zoom lens1).finish chs s).2, ?_,
      map_eq_exists_iff.trans href, exists_map_eq_ok_iff.trans hacc, ?_⟩
    · have hzoo := (finish_zoom lens1 (storage1.beginWriteBlob inst dig) chs s).1
      rw [beginSide, finish_map, hzoo.trans hres]
      rfl
    · have hkep : ((((storage1.beginWriteBlob inst dig).zoom lens1).finish chs s).2 :
          State storage1 storage2).state2 = s.state2 :=
        finish_zoom_other (fun _ _ => rfl) _ chs s
      simp only [StorageChoice.other, Refuses, hkep]
  | storage2 =>
    obtain ⟨res, hres, href, hacc⟩ := second.beginWriteBlob inst dig chs s.state2
    refine ⟨res.map .inr, (((storage2.beginWriteBlob inst dig).zoom lens2).finish chs s).2, ?_,
      map_eq_exists_iff.trans href, exists_map_eq_ok_iff.trans hacc, ?_⟩
    · have hzoo := (finish_zoom lens2 (storage2.beginWriteBlob inst dig) chs s).1
      rw [beginSide, finish_map, hzoo.trans hres]
      rfl
    · have hkep : ((((storage2.beginWriteBlob inst dig).zoom lens2).finish chs s).2 :
          State storage1 storage2).state1 = s.state1 :=
        finish_zoom_other (fun _ _ => rfl) _ chs s
      simp only [StorageChoice.other, Refuses, hkep]

/-! ## Both sides -/

variable {storage2InstanceNames : List Text} {writeToSecondary : Bool}

variable (storage1 storage2) in
def beginSides (writeToSecondary : Bool) (inst : Text) (digest : Digest H)
    (choice other : StorageChoice) :
    Future (State storage1 storage2) (Except (StreamingWriteError H) (Attempt storage1 storage2)) :=
  (beginSide inst digest choice).andThen fun primary =>
    if writeToSecondary then
      (beginSide inst digest other).andThen fun secondary =>
        .ready (.ok { primary := primary,
                      secondary := some ({ attempt := secondary, sawError := false }, []) })
    else
      .ready (.ok { primary := primary, secondary := none })

lemma begin_eq (storage2InstanceNames : List Text) (sec : Bool)
    (storage1 storage2 : Driver H) (inst : Text) (dig : Digest H) :
    (darkLaunch storage2InstanceNames sec storage1 storage2).beginWriteBlob inst dig =
    beginSides storage1 storage2 sec inst dig (chooseStorage storage2InstanceNames inst)
    (chooseStorage storage2InstanceNames inst).other := by
  have hoth : (chooseStorage storage2InstanceNames inst).other =
      if storage2InstanceNames.contains inst then .storage1 else .storage2 := by
    rw [chooseStorage]
    split
    · rfl
    · rfl
  rw [hoth]
  rfl

variable (first second) in
lemma finish_sides_eq_exists_iff (ch : StorageChoice) (chs : List Bool) :
    ((beginSides storage1 storage2 writeToSecondary inst dig ch ch.other).finish
    chs s).1 = some (.error .alreadyExists) ↔
    Refuses first second s inst dig ch ∨ Accepts first second s inst dig ch ∧ writeToSecondary = true ∧
    Refuses first second s inst dig ch.other := by
  obtain ⟨res, t, hfin, href, hacc, hoth⟩ := finish_beginSide first second inst dig ch chs s
  obtain ⟨rest, hres⟩ := exists_finish_andThen hfin _
  rw [beginSides, hres, ← href, ← hacc, ← hoth]
  cases res with
  | error error => simp
  | ok prim =>
    cases writeToSecondary with
    | false => simp [finish]
    | true =>
      obtain ⟨result', u, hfin', href', -⟩ := finish_beginSide first second inst dig ch.other rest t
      obtain ⟨rest', hrest'⟩ := exists_finish_andThen hfin' _
      simp only [if_true]
      rw [hrest', ← href']
      cases result' with
      | error error => simp
      | ok sec => simp [finish]

variable (first second) in
lemma finish_begin_eq_exists_iff (chs : List Bool) :
    (((darkLaunch storage2InstanceNames writeToSecondary storage1 storage2).beginWriteBlob
    inst dig).finish chs s).1 = some (.error .alreadyExists) ↔
    Refuses first second s inst dig (chooseStorage storage2InstanceNames inst) ∨
    Accepts first second s inst dig (chooseStorage storage2InstanceNames inst) ∧ writeToSecondary = true ∧
    Refuses first second s inst dig (chooseStorage storage2InstanceNames inst).other := by
  rw [begin_eq]
  exact finish_sides_eq_exists_iff first second _ chs

lemma exists_finish_readBlob (h : Holds first second s inst dig (chooseStorage storage2InstanceNames inst))
    (win : Window) (hbat : 0 < win.maxBatchSize) (chs : List Bool) :
    ∃ stream, (((darkLaunch storage2InstanceNames writeToSecondary storage1 storage2).readBlob
    inst dig win).finish chs s).1 = some (.ok (some stream)) := by
  change ∃ stream, ((match chooseStorage storage2InstanceNames inst with
    | .storage1 => (storage1.readBlob inst dig win).zoom lens1
    | .storage2 => (storage2.readBlob inst dig win).zoom lens2 : Future _ _).finish chs s).1 =
      some (.ok (some stream))
  generalize chooseStorage storage2InstanceNames inst = choice at h
  cases choice with
  | storage1 =>
    obtain ⟨stream, hrea⟩ := first.readBlob inst dig win chs s.state1 hbat h
    exact ⟨stream, (finish_zoom lens1 _ chs s).1.trans hrea⟩
  | storage2 =>
    obtain ⟨stream, hrea⟩ := second.readBlob inst dig win chs s.state2 hbat h
    exact ⟨stream, (finish_zoom lens2 _ chs s).1.trans hrea⟩

variable (first second) in
/-- `AlreadyExists` says that the blob is where it is read from, unless the backend of the reads lacks
and accepts it while the other refuses it. -/
theorem beginWriteBlob_alreadyExists_iff (storage2InstanceNames : List Text)
    (writeToSecondary : Bool) (s : State storage1 storage2) (inst : Text) (digest : Digest H) :
    (∀ choices, (((darkLaunch storage2InstanceNames writeToSecondary storage1 storage2).beginWriteBlob
    inst digest).finish choices s).1 = some (.error .alreadyExists) →
    Holds first second s inst digest (chooseStorage storage2InstanceNames inst) ∧ ∀ later,
    (Holds first second s inst digest (chooseStorage storage2InstanceNames inst) →
    Holds first second later inst digest (chooseStorage storage2InstanceNames inst)) →
    ∀ (window : Window) (choices' : List Bool), 0 < window.maxBatchSize → ∃ stream,
    (((darkLaunch storage2InstanceNames writeToSecondary storage1 storage2).readBlob
    inst digest window).finish choices' later).1 = some (.ok (some stream))) ↔
    Holds first second s inst digest (chooseStorage storage2InstanceNames inst) ∨
    ¬ (Accepts first second s inst digest (chooseStorage storage2InstanceNames inst) ∧
      writeToSecondary = true ∧
    Refuses first second s inst digest (chooseStorage storage2InstanceNames inst).other) := by
  constructor
  · intro hexa
    refine or_iff_not_imp_right.mpr fun hlos => ?_
    -- whatever the schedule, the other backend turns the write away
    exact (hexa [] ((finish_begin_eq_exists_iff first second []).mpr (.inr (not_not.mp hlos)))).1
  · intro hwhe choices hexi
    have hhol : Holds first second s inst digest (chooseStorage storage2InstanceNames inst) := by
      rcases (finish_begin_eq_exists_iff first second choices).mp hexi with
        href | hlos
      · exact href.holds
      · exact hwhe.resolve_right (not_not.mpr hlos)
    exact ⟨hhol, fun later hkep window choices' hbat =>
      exists_finish_readBlob (hkep hhol) window hbat choices'⟩

/-! ## Leaves as backends -/

section

variable [DecidableEq H]

lemma finish_begin_steadyLeaf (inst : Text) (digest : Digest H) (chs : List Bool) (st : Blobs H) :
    (((steadyLeaf H).beginWriteBlob inst digest).finish chs st).1 =
    some (if (st.find? inst digest).isSome then .error .alreadyExists
    else .ok { inst := inst, digest := digest, content := [] }) := by
  have hfin : Blobs.find? { st with calls := st.calls + 1 } inst digest = st.find? inst digest := rfl
  simp only [steadyLeaf, Leaf.beginWriteBlob, Leaf.call, act, finish, Bool.true_and, hfin]
  split
  · rfl
  · rfl

lemma finish_readBlob_steadyLeaf {st : Blobs H} {inst : Text} {digest : Digest H}
    {content : Bytes} (hcon : st.find? inst digest = some content) {win : Window}
    (hbat : 0 < win.maxBatchSize) (chs : List Bool) :
    (((steadyLeaf H).readBlob inst digest win).finish chs st).1 =
      some (.ok (some (Leaf.stream win content none))) := by
  have hfin : Blobs.find? { st with calls := st.calls + 1 } inst digest = st.find? inst digest := rfl
  simp only [steadyLeaf, Leaf.readBlob, Leaf.call, Future.act, Future.bind, hfin, hcon,
    Nat.ne_of_gt hbat, if_false, finish]

def leafBackend : Backend (steadyLeaf H).driver where
  holds := fun (state : Blobs H) inst digest => (state.find? inst digest).isSome = true
  refuses := fun (state : Blobs H) inst digest => (state.find? inst digest).isSome = true
  accepts := fun (state : Blobs H) inst digest => (state.find? inst digest).isSome = false
  holds_of_refuses h := h
  beginWriteBlob inst digest choices := fun (state : Blobs H) => by
    refine ⟨_, finish_begin_steadyLeaf inst digest choices state, ?_⟩
    cases (state.find? inst digest).isSome with
    | false => exact ⟨⟨nofun, nofun⟩, fun _ => rfl, fun _ => ⟨_, rfl⟩⟩
    | true =>
      refine ⟨⟨fun _ => rfl, fun _ => rfl⟩, ⟨fun haccepted => ?_, nofun⟩⟩
      obtain ⟨attempt, hattempt⟩ := haccepted
      cases hattempt
  readBlob inst digest window choices := fun (state : Blobs H) hbatch hholds => by
    obtain ⟨content, hcontent⟩ := Option.isSome_iff_exists.mp hholds
    exact ⟨_, finish_readBlob_steadyLeaf hcontent hbatch choices⟩

end

def secondOnly : State (steadyLeaf Nat).driver (steadyLeaf Nat).driver where
  state1 := ({ calls := 0, blobs := [] } : Blobs Nat)
  state2 := ({ calls := 0, blobs := [(("main".toList, { hash := 7, sizeBytes := 1 }), [1])] } : Blobs Nat)
  pending := []

/-- With writes to both backends, the client is told that the blob exists, and it is not found. -/
theorem beginWriteBlob_lost :
    ¬ Holds leafBackend leafBackend secondOnly "main".toList { hash := 7, sizeBytes := 1 }
    (chooseStorage [] "main".toList) ∧
    (((darkLaunch [] true (steadyLeaf Nat).driver (steadyLeaf Nat).driver).beginWriteBlob
    "main".toList { hash := 7, sizeBytes := 1 }).finish [] secondOnly).1 = some (.error .alreadyExists) ∧
    (((darkLaunch [] true (steadyLeaf Nat).driver (steadyLeaf Nat).driver).readBlob
    "main".toList { hash := 7, sizeBytes := 1 } (.full 4)).finish []
    (((darkLaunch [] true (steadyLeaf Nat).driver (steadyLeaf Nat).driver).beginWriteBlob
    "main".toList { hash := 7, sizeBytes := 1 }).finish [] secondOnly).2).1 =
    some (.ok none) := by
  refine ⟨?_, rfl, rfl⟩
  intro hhol
  exact Bool.false_ne_true hhol

end Toolchain.Storage.DarkLaunch
