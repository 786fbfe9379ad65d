import Toolchain.Storage.Composition

/-!
# Dark launch — what the background task of a write may commit

The background task, with what is still in its channel, carries the content of the primary attempt,
unless it has seen an error, after which it never commits.  So a task left behind by a commit commits
that content or nothing.
-/

namespace Toolchain.Storage
namespace DarkLaunch

open Lib

variable {H : Type} {faulty : Prop} {storage1 storage2 : Driver H}
  (first : Refines faulty storage1) (second : Refines faulty storage2)

/-! ## The state and the attempts -/

def SideCarries (s : State storage1 storage2) (side : Side storage1 storage2) (inst : Text)
    (digest : Digest H) (content : Bytes) : Prop :=
  match side with
  | .inl attempt => first.carries s.state1 attempt inst digest content
  | .inr attempt => second.carries s.state2 attempt inst digest content

/-- A background task carries a content together with its channel, or has seen an error. -/
def SecondaryCarries (s : State storage1 storage2) (task : SecondaryWrite storage1 storage2)
    (inst : Text) (digest : Digest H) (content : Bytes) : Prop :=
  task.1.sawError = true ∨ ∃ stored, SideCarries first second s task.1.attempt inst digest stored ∧
      content = stored ++ task.2.flatten

def Grows (s t : State storage1 storage2) : Prop :=
  first.view.grows s.state1 t.state1 ∧ second.view.grows s.state2 t.state2

section Mono

variable {first second} {s t : State storage1 storage2} {inst : Text} {dig : Digest H}
  {content : Bytes}

lemma SideCarries.mono {side : Side storage1 storage2} (hgro : Grows first second s t)
    (h : SideCarries first second s side inst dig content) :
    SideCarries first second t side inst dig content := by
  cases side with
  | inl attempt => exact first.carries_mono hgro.1 h
  | inr attempt => exact second.carries_mono hgro.2 h

lemma SecondaryCarries.mono {task : SecondaryWrite storage1 storage2} (hgro : Grows first second s t)
    (h : SecondaryCarries first second s task inst dig content) :
    SecondaryCarries first second t task inst dig content := by
  refine h.imp id ?_
  rintro ⟨stor, hsto, hcon⟩
  exact ⟨stor, hsto.mono hgro, hcon⟩

end Mono

/-- The tasks left behind carry committed contents.  Which of the two storages has a digest depends
on the instance and the background, so nothing is said to be stored. -/
def view : View H (State storage1 storage2) where
  inv contents s := first.view.inv contents s.state1 ∧ second.view.inv contents s.state2 ∧
    ∀ task ∈ s.pending, ∃ inst digest content,
      contents inst digest content ∧ SecondaryCarries first second s task inst digest content
  grows := Grows first second
  has _ _ _ := False
  refl s := ⟨first.view.refl s.state1, second.view.refl s.state2⟩
  trans h h' := ⟨first.view.trans h.1 h'.1, second.view.trans h.2 h'.2⟩
  inv_mono h hinv := by
    refine ⟨first.view.inv_mono h hinv.1, second.view.inv_mono h hinv.2.1, ?_⟩
    intro task htask
    obtain ⟨inst, digest, content, hcontent, hcarries⟩ := hinv.2.2 task htask
    exact ⟨inst, digest, content, h inst digest content hcontent, hcarries⟩
  has_mono _ := id
  committed_of_has _ := False.elim

variable {first second} {conts : Contents H}

variable {s : State storage1 storage2} {digest dig : Digest H} {cont : Bytes}
  {task : Secondary storage1 storage2} {inst : Text}

lemma meets_lens1 {α : Type} {fut : Future storage1.State α} {p : α → storage1.State → Prop}
    (h : fut.Meets (first.view.contract faulty conts) p s.state1) :
    (fut.zoom lens1).Meets ((view first second).contract faulty conts) (fun a t => p a t.state1) s := by
  refine h.zoom (fun _ hinv => hinv.1) (fun _ _ hgro => hgro.1) ?_ id (fun _ _ _ _ hpos => hpos)
  intro t x hinv hpar hgro
  have hgrow : Grows first second t (lens1.set x t) := ⟨hgro, second.view.refl t.state2⟩
  refine ⟨⟨hpar, hinv.2.1, ?_⟩, hgrow⟩
  intro task htas
  obtain ⟨inst, dig, cont, hcon, hcar⟩ := hinv.2.2 task htas
  exact ⟨inst, dig, cont, hcon, hcar.mono hgrow⟩

lemma meets_lens2 {α : Type} {fut : Future storage2.State α} {p : α → storage2.State → Prop}
    (h : fut.Meets (second.view.contract faulty conts) p s.state2) :
    (fut.zoom lens2).Meets ((view first second).contract faulty conts) (fun a t => p a t.state2) s := by
  refine h.zoom (fun _ hinv => hinv.2.1) (fun _ _ hgro => hgro.2) ?_ id (fun _ _ _ _ hpos => hpos)
  intro t x hinv hpar hgro
  have hgrow : Grows first second t (lens2.set x t) := ⟨first.view.refl t.state1, hgro⟩
  refine ⟨⟨hinv.1, hpar, ?_⟩, hgrow⟩
  intro task htas
  obtain ⟨inst, dig, cont, hcon, hcar⟩ := hinv.2.2 task htas
  exact ⟨inst, dig, cont, hcon, hcar.mono hgrow⟩

/-! ## The two sides of a write -/

lemma meets_beginSide (inst : Text) (dig : Digest H) (ch : StorageChoice) (s : State storage1 storage2) :
    (beginSide inst dig ch).Meets ((view first second).contract faulty conts)
    (fun res t => ∀ side, res = .ok side → SideCarries first second t side inst dig []) s := by
  cases ch with
  | storage1 =>
    refine (meets_lens1 (first.beginWriteBlob conts inst dig s.state1)).map ?_
    rintro (error | attempt) t - - ⟨hcar, -⟩
    · exact nofun
    · rintro _ ⟨⟩
      exact hcar attempt rfl
  | storage2 =>
    refine (meets_lens2 (second.beginWriteBlob conts inst dig s.state2)).map ?_
    rintro (error | attempt) t - - ⟨hcar, -⟩
    · exact nofun
    · rintro _ ⟨⟩
      exact hcar attempt rfl

lemma meets_writeSide {side : Side storage1 storage2} (batch : Bytes)
    (hcar : SideCarries first second s side inst dig cont) :
    (writeSide side batch).Meets ((view first second).contract faulty conts) (fun res t => res.1 = .ok () →
    SideCarries first second t res.2 inst dig (cont ++ batch)) s := by
  cases side with
  | inl attempt => exact (meets_lens1 (first.write conts batch hcar)).map fun _ _ _ _ hwri => hwri.1
  | inr attempt => exact (meets_lens2 (second.write conts batch hcar)).map fun _ _ _ _ hwri => hwri.1

lemma meets_commitSide {side : Side storage1 storage2}
    (hcar : SideCarries first second s side inst dig cont)
    (hcon : conts inst dig cont) :
    (commitSide side).Meets ((view first second).contract faulty conts) (fun _ _ => True) s := by
  cases side with
  | inl attempt => exact (meets_lens1 (first.commit hcar hcon)).mono fun _ _ _ _ _ => trivial
  | inr attempt => exact (meets_lens2 (second.commit hcar hcon)).mono fun _ _ _ _ _ => trivial

/-! ## The background task -/

lemma meets_process {batch : Bytes} {queue : List Bytes}
    (hcar : SecondaryCarries first second s (task, batch :: queue) inst dig cont) :
    (process task batch).Meets ((view first second).contract faulty conts)
    (fun task t => SecondaryCarries first second t (task, queue) inst dig cont) s := by
  unfold process
  split
  · rename_i hsaw
    exact fun _ _ _ => .inl hsaw
  rename_i hsaw
  obtain ⟨stor, hsto, hcon⟩ := hcar.resolve_left hsaw
  refine (meets_writeSide batch hsto).map ?_
  rintro ⟨res, side⟩ t - - hwri
  cases res with
  | ok _ => exact .inr ⟨stor ++ batch, hwri rfl, by simpa using hcon⟩
  | error error => exact .inl rfl

section

variable (queue : List Bytes) (hcar : SecondaryCarries first second s (task, queue) inst dig cont)

include queue hcar

lemma meets_progress : (progress queue task).Meets ((view first second).contract faulty conts)
    (fun task t => SecondaryCarries first second t task inst dig cont) s := by
  induction queue generalizing task s with
  | nil => exact fun _ hgro _ => hcar.mono hgro
  | cons batch queue ih =>
    refine ⟨fun _ hgro _ => hcar.mono hgro, (meets_process hcar).bind ?_⟩
    intro task' t _ hinv htas
    exact ih (htas.value hinv)

lemma meets_drain : (drain queue task).Meets ((view first second).contract faulty conts)
    (fun task t => SecondaryCarries first second t (task, []) inst dig cont) s := by
  induction queue generalizing task s with
  | nil => exact fun _ hgro _ => hcar.mono hgro
  | cons batch queue ih =>
    refine (meets_process hcar).bind ?_
    intro task' t _ hinv htas
    exact ih (htas.value hinv)

end

lemma meets_runPending (idx : Nat) (s : State storage1 storage2) :
    (runPending idx).Meets ((view first second).contract faulty conts) (fun _ _ => True) s := by
  have htak : (Future.act fun state : State storage1 storage2 =>
      (state.pending[idx]?, { state with pending := state.pending.eraseIdx idx })).Meets
      ((view first second).contract faulty conts)
      (fun task? t => ∀ task, task? = some task → ∃ inst dig cont,
        conts inst dig cont ∧ SecondaryCarries first second t task inst dig cont)
      s := by
    refine Future.Meets.act ?_
    intro t _ hinv
    refine ⟨⟨hinv.1, hinv.2.1, ?_⟩, (view first second).refl t, ?_⟩
    · intro task htas
      exact hinv.2.2 task (List.mem_of_mem_eraseIdx htas)
    · intro u hgro _ task htas
      obtain ⟨inst, dig, cont, hcon, hcar⟩ := hinv.2.2 task (List.mem_of_getElem? htas)
      exact ⟨inst, dig, cont, hcon, hcar.mono hgro⟩
  refine htak.bind ?_
  rintro (_ | task) t - hinv htas
  · exact fun _ _ _ => trivial
  · obtain ⟨inst, dig, cont, hcon, hcar⟩ := htas.value hinv task rfl
    refine (meets_drain task.2 hcar).bind ?_
    intro task' t _ hinv htas
    split
    · exact fun _ _ _ => trivial
    rename_i hsaw
    obtain ⟨stored, hsto, hcon'⟩ := (htas.value hinv).resolve_left hsaw
    have hsam : cont = stored := by simpa using hcon'
    subst hsam
    exact (meets_commitSide hsto hcon).map fun _ _ _ _ _ => trivial

/-! ## The driver -/

/-- Both attempts of a write carry what was written, the secondary one with its channel. -/
structure Carries (first : Refines faulty storage1) (second : Refines faulty storage2)
    (s : State storage1 storage2) (attempt : Attempt storage1 storage2) (inst : Text)
    (digest : Digest H) (content : Bytes) : Prop where
  primary : SideCarries first second s attempt.primary inst digest content
  secondary : ∀ task, attempt.secondary = some task →
    SecondaryCarries first second s task inst digest content

lemma meets_write (hfau : faulty) {att : Attempt storage1 storage2} (conts : Contents H)
    (batch : Bytes) (hcar : Carries first second s att inst dig cont) :
    (write att batch).Meets ((view first second).contract faulty conts) (fun res t =>
    (res.1 = .ok () → Carries first second t res.2 inst dig (cont ++ batch)) ∧
      (faulty ∨ res.1 = .ok ())) s := by
  obtain ⟨side, sec⟩ := att
  rcases sec with _ | ⟨task, queue⟩
  · refine (meets_writeSide batch hcar.primary).map ?_
    intro res t _ _ hwri
    exact ⟨fun hok => ⟨hwri hok, nofun⟩, .inl hfau⟩
  have hque : SecondaryCarries first second s (task, queue ++ [batch]) inst dig (cont ++ batch) := by
    refine (hcar.secondary _ rfl).imp id ?_
    rintro ⟨stor, hsto, rfl⟩
    exact ⟨stor, hsto, by simp⟩
  refine ((meets_writeSide batch hcar.primary).join (meets_progress (queue ++ [batch]) hque)).map ?_
  intro results t _ _ hres
  refine ⟨fun hok => ⟨hres.1 hok, ?_⟩, .inl hfau⟩
  rintro _ ⟨⟩
  exact hres.2

lemma meets_commit (hfau : faulty) {att : Attempt storage1 storage2}
    {conts : Contents H} (hcar : Carries first second s att inst dig cont)
    (hcon : conts inst dig cont) :
    (commit att).Meets ((view first second).contract faulty conts)
    (fun res t => faulty ∨ res = .ok () ∧ (view first second).has t inst dig) s := by
  have hlea : (Future.act fun state : State storage1 storage2 =>
      ((), { state with pending := state.pending ++ att.secondary.toList })).Meets
      ((view first second).contract faulty conts)
      (fun _ t => SideCarries first second t att.primary inst dig cont) s := by
    refine Future.Meets.act ?_
    intro t hgro hinv
    refine ⟨⟨hinv.1, hinv.2.1, ?_⟩, (view first second).refl t, ?_⟩
    · intro task htas
      rcases List.mem_append.1 htas with htas | htas
      · exact hinv.2.2 task htas
      · have hsec := hcar.secondary task (by simpa using htas)
        exact ⟨inst, dig, cont, hcon, hsec.mono hgro⟩
    · intro u hu _
      exact hcar.primary.mono ((view first second).trans hgro hu)
  refine hlea.bind ?_
  intro _ t _ hinv hpri
  exact (meets_commitSide (hpri.value hinv) hcon).mono fun _ _ _ _ _ => .inl hfau

end DarkLaunch

open Lib

/-- The dark launch commits the same content to both storages.  It is not exact: a read may come
before the background task. -/
def darkLaunchRefines {H : Type} {faulty : Prop} {storage1 storage2 : Driver H} (hfaulty : faulty)
    (first : Refines faulty storage1) (second : Refines faulty storage2)
    (storage2InstanceNames : List Text) (writeToSecondary : Bool) :
    Refines faulty (darkLaunch storage2InstanceNames writeToSecondary storage1 storage2) where
  view := DarkLaunch.view first second
  carries := DarkLaunch.Carries first second
  carries_mono hgrows h := ⟨h.primary.mono hgrows, fun task htask => (h.secondary task htask).mono hgrows⟩
  inv_init contents := ⟨first.inv_init contents, second.inv_init contents, nofun⟩
  visible hinv := by
    rintro (hvisible | hvisible)
    · exact first.visible hinv.1 hvisible
    · exact second.visible hinv.2.1 hvisible
  findMissingBlobs contents inst digests s := by
    dsimp only [darkLaunch]
    split
    · refine (DarkLaunch.meets_lens1 (first.findMissingBlobs contents inst digests s.state1)).mono ?_
      exact fun _ _ _ _ h => ⟨h.subset, h.committed, fun _ _ _ _ => id, h.answers⟩
    · refine (DarkLaunch.meets_lens2 (second.findMissingBlobs contents inst digests s.state2)).mono ?_
      exact fun _ _ _ _ h => ⟨h.subset, h.committed, fun _ _ _ _ => id, h.answers⟩
  readBlob contents inst digest window s hwindow := by
    dsimp only [darkLaunch]
    split
    · refine (DarkLaunch.meets_lens1 (first.readBlob contents inst digest window s.state1 hwindow)).mono ?_
      exact fun _ _ _ _ h hfull => (h hfull).weaken False.elim
    · refine (DarkLaunch.meets_lens2 (second.readBlob contents inst digest window s.state2 hwindow)).mono ?_
      exact fun _ _ _ _ h hfull => (h hfull).weaken False.elim
  beginWriteBlob contents inst digest s := by
    refine (DarkLaunch.meets_beginSide inst digest _ s).andThen ?_ fun _ _ _ _ _ => ⟨nofun, .inl hfaulty⟩
    intro primary t _ _ hprimary
    split
    · refine (DarkLaunch.meets_beginSide inst digest _ t).andThen ?_ fun _ _ _ _ _ => ⟨nofun, .inl hfaulty⟩
      intro secondary u hu _ hsecondary v hv hinv
      refine ⟨?_, .inl hfaulty⟩
      rintro _ ⟨⟩
      refine ⟨hprimary v ((DarkLaunch.view first second).trans hu hv) hinv primary rfl, ?_⟩
      rintro _ ⟨⟩
      exact .inr ⟨[], hsecondary v hv hinv secondary rfl, rfl⟩
    · intro u hu hinv
      refine ⟨?_, .inl hfaulty⟩
      rintro _ ⟨⟩
      exact ⟨hprimary u hu hinv primary rfl, nofun⟩
  write := DarkLaunch.meets_write hfaulty
  commit := DarkLaunch.meets_commit hfaulty
  runTask contents task s := by
    rcases task with index | task | task
    · exact DarkLaunch.meets_runPending index s
    · exact DarkLaunch.meets_lens1 (first.runTask contents task s.state1)
    · exact DarkLaunch.meets_lens2 (second.runTask contents task s.state2)

end Toolchain.Storage
