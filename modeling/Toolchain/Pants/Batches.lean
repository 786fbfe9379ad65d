import Toolchain.Pants.Reporter

/-!
# Pants.Batches — builds that are uploaded in batches

A batch has the builds of two directories under one key, and each directory is read from its newest file up
to the first that does not fit.  After a batch has failed,
  the check of earlier calls no longer holds it back.

Models `local_store.py` and `state.py` of `pants/buildsense`.
-/

namespace Toolchain.Pants

open Lib List Entry Option BuildState

def Entry.size? (self : Entry) : Option Nat :=
  match self.content with
  | .directory => none
  | .file bytes => some bytes.length

mutual

/-- A document as `json.dumps` prints it. -/
def Json.print : Json → String
  | .null => "null"
  | .bool value => toString value
  | .number value => toString value
  | .string value => "\"" ++ value ++ "\""
  | .array items => "[" ++ ", ".intercalate (printItems items) ++ "]"
  | .object fields => "\x7b" ++ ", ".intercalate (printFields fields) ++ "\x7d"

def printItems : List Json → List String
  | [] => []
  | item :: items => item.print :: printItems items

def printFields : List (String × Json) → List String
  | [] => []
  | (key, value) :: fields => ("\"" ++ key ++ "\": " ++ value.print) :: printFields fields

end

namespace LocalBuildsStore

/-- The builds in a batch document. -/
def stagedBuilds : Json → List (String × Json)
  | .object [_, (_, .object builds)] => builds
  | _ => []

variable (codec : JsonCodec) (self : LocalBuildsStore)

def queued : List Entry :=
  (self.buildQueue ++ self.buildStats).filter (·.size?.isSome)

def newestFits (entries : List Entry) : Bool :=
  ((entries.insertionSort fun a b => b.sortKey ≤ a.sortKey).filterMap size?).head?.any
    (· ≤ self.maxBatchSize)

def HasSmallFile : Prop :=
  ∃ entry ∈ self.queued, ∃ size ∈ entry.size?, size ≤ self.maxBatchSize

/-- Every file that `_create_batch` unlinks is in the document that it stages, under its run id. -/
def LosesNone : Prop :=
  ∀ name now batch store, self.createBatch codec name now = .ok (some batch, store) →
    ∃ json ∈ self.batchedData codec, batch.path.content = .file (codec.dumps json) ∧ ∀ entry ∈ self.queued,
      entry ∉ store.queued → ∃ build ∈ entry.load codec, (entry.stem, build) ∈ stagedBuilds json

def BlocksNone : Prop :=
  self.uploadStaging = [] → self.HasSmallFile →
    ∀ name now, ∃ batch store, self.getUploadBatch codec name now = .ok (some batch, store)

variable {codec self} {files : List Entry}

lemma takeFiles_sublist (limit total : Nat) (ent : List Entry) :
    (takeFiles limit total ent).Sublist (ent.filter (·.size?.isSome)) := by
  induction ent generalizing total with
  | nil => exact .slnil
  | cons entry rest ih =>
    cases hcon : entry.content with
    | directory => simpa [takeFiles, size?, hcon] using ih total
    | file bytes =>
      simp only [takeFiles, size?, hcon, filter_cons, isSome_some, if_true]
      split
      · exact nil_sublist _
      · exact (ih _).cons_cons entry

lemma getFilesForBatch_eq_nil (ent : List Entry) :
    self.getFilesForBatch ent = [] ↔ self.newestFits ent = false := by
  rw [getFilesForBatch, newestFits]
  induction ent.insertionSort fun a b => b.sortKey ≤ a.sortKey with
  | nil => simp [takeFiles]
  | cons entry rest ih =>
    cases hcon : entry.content with
    | directory => simpa [takeFiles, size?, hcon] using ih
    | file bytes => simp [takeFiles, size?, hcon]

lemma filesInBatch_subperm : self.filesInBatch <+~ self.queued := by
  have hdir (entries : List Entry) : self.getFilesForBatch entries <+~ entries.filter (·.size?.isSome) :=
    (takeFiles_sublist ..).subperm.trans ((perm_insertionSort _ entries).filter _).subperm
  obtain ⟨old, hold, holsu⟩ := hdir self.buildQueue
  obtain ⟨new, hnew, hnesu⟩ := hdir self.buildStats
  rw [queued, filter_append]
  exact ⟨old ++ new, hold.append hnew, holsu.append hnesu⟩

lemma mem_loadFiles {buil : List (String × Json)} (h : loadFiles codec files = some buil)
    {runId : String} {build : Json} :
    (runId, build) ∈ buil ↔ ∃ entry ∈ files, entry.stem = runId ∧ entry.load codec = some build := by
  induction files generalizing buil with
  | nil =>
    cases h
    simp
  | cons entry files ih =>
    unfold loadFiles at h ih
    rw [mapM_cons] at h
    cases hloa : entry.load codec with
    | none => simp [hloa] at h
    | some json =>
      simp only [hloa, map_some, bind_eq_bind, bind_some] at h
      obtain ⟨rest, hres, heq⟩ := bind_eq_some_iff.1 h
      cases heq
      simp [ih hres, hloa, eq_comm]

lemma stagedBuilds_batchJson (builds : List (String × Json)) :
    stagedBuilds (batchJson builds) = builds := by
  cases builds with
  | nil | cons build builds => rfl

lemma createBatch_of_ne_nil {json : Json} (hdat : self.batchedData codec = some json)
    (hne : self.filesInBatch ≠ []) (name : String) (now : Nat) :
    ∃ batch store, self.createBatch codec name now = .ok (some batch, store) ∧
    batch.path.content = .file (codec.dumps json) ∧
    ∀ entry ∈ self.queued, entry ∉ store.queued ↔ entry ∈ self.filesInBatch := by
  refine ⟨_, _, by simp [createBatch, hdat, hne]; exact ⟨rfl, rfl⟩, rfl, ?_⟩
  intro entry hent
  simp only [queued, mem_filter, mem_append, Bool.not_eq_true', decide_eq_false_iff_not] at hent ⊢
  tauto

section

variable (hjson : ∀ entry ∈ self.queued, (entry.load codec).isSome = true)

include hjson

lemma losesNone_iff (hdis : (self.queued.map (·.stem)).Nodup) : self.LosesNone codec ↔
    ¬(self.newestFits self.buildQueue = true ∧ self.newestFits self.buildStats = true) := by
  have hload (entry : Entry) (hent : entry ∈ self.filesInBatch) :=
    hjson entry (filesInBatch_subperm.subset hent)
  obtain ⟨old, hold⟩ := loadFiles_isSome fun entry hent => hload entry (mem_append_left _ hent)
  obtain ⟨new, hnew⟩ := loadFiles_isSome fun entry hent => hload entry (mem_append_right _ hent)
  have hdata : self.batchedData codec = some (batchJson (if new.isEmpty then old else new)) := by
    rw [batchedData, hold, hnew]
    rfl
  simp only [← Bool.not_eq_false, ← getFilesForBatch_eq_nil]
  constructor
  · rintro h ⟨ne, hnewNe⟩
    obtain ⟨entry, hent⟩ := exists_mem_of_ne_nil _ ne
    obtain ⟨other, hoth⟩ := exists_mem_of_ne_nil _ hnewNe
    have hmem : entry ∈ self.filesInBatch := mem_append_left _ hent
    obtain ⟨build, hbui⟩ := isSome_iff_exists.1 (hload other (mem_append_right _ hoth))
    have hne : new ≠ [] := ne_nil_of_mem ((mem_loadFiles hnew).2 ⟨other, hoth, rfl, hbui⟩)
    obtain ⟨batch, store, heq, -, hgone⟩ := createBatch_of_ne_nil hdata (ne_nil_of_mem hmem) "" 0
    obtain ⟨json, hbat, -, hkept⟩ := h "" 0 batch store heq
    have hqueued := filesInBatch_subperm.subset hmem
    obtain ⟨build, -, hst⟩ := hkept entry hqueued ((hgone entry hqueued).2 hmem)
    -- the document has the files of the second directory only
    rw [← some.inj (hdata.symm.trans hbat), stagedBuilds_batchJson, isEmpty_eq_false_iff.2 hne,
      if_neg Bool.false_ne_true] at hst
    obtain ⟨found, hfo, hstem, -⟩ := (mem_loadFiles hnew).1 hst
    obtain ⟨files, hperm, hsub⟩ := @filesInBatch_subperm self
    have hnodup := (hperm.map (·.stem)).nodup_iff.1 (hdis.sublist (hsub.map _))
    rw [filesInBatch, map_append, nodup_append] at hnodup
    exact hnodup.2.2 _ (mem_map_of_mem hent) _ (mem_map_of_mem hfo) hstem.symm
  · intro h name now batch store heq
    have hall : loadFiles codec self.filesInBatch = some (if new.isEmpty then old else new) := by
      rcases not_and_or.1 h with hnil | hnil
      · rw [not_not.1 hnil] at hold
        cases hold
        rw [filesInBatch, not_not.1 hnil, nil_append, hnew]
        cases new with
        | nil | cons build rest => rfl
      · rw [not_not.1 hnil] at hnew
        cases hnew
        rwa [filesInBatch, not_not.1 hnil, append_nil]
    by_cases hne : self.filesInBatch = []
    · simp [createBatch, hdata, hne] at heq
    obtain ⟨made, left, hmade, hco, hgone⟩ := createBatch_of_ne_nil hdata hne name now
    cases heq.symm.trans hmade
    refine ⟨_, hdata, hco, fun entry hent hun => ?_⟩
    have hmem := (hgone entry hent).1 hun
    obtain ⟨build, hbui⟩ := isSome_iff_exists.1 (hload entry hmem)
    rw [stagedBuilds_batchJson]
    exact ⟨build, hbui, (mem_loadFiles hall).2 ⟨entry, hmem, rfl, hbui⟩⟩

lemma blocksNone_iff : self.BlocksNone codec ↔ (self.uploadStaging = [] → self.HasSmallFile →
    self.enabled = true ∧
      (self.newestFits self.buildQueue = true ∨ self.newestFits self.buildStats = true)) := by
  obtain ⟨json, hdata⟩ := batchedData_isSome fun entry hent =>
    hjson entry (filesInBatch_subperm.subset hent)
  have hne : (self.newestFits self.buildQueue = true ∨ self.newestFits self.buildStats = true) ↔
      self.filesInBatch ≠ [] := by
    simp only [← Bool.not_eq_false, ← getFilesForBatch_eq_nil, filesInBatch, Ne, append_eq_nil_iff]
    tauto
  rw [BlocksNone, hne]
  refine forall_congr' fun hst => forall_congr' fun _ => ?_
  simp only [getUploadBatch, hst]
  constructor
  · intro h
    obtain ⟨batch, store, heq⟩ := h "" 0
    split at heq
    · rename_i hena
      exact ⟨hena, fun hnil => by simp [createBatch, hdata, hnil] at heq⟩
    · cases heq
  · rintro ⟨hena, hfil⟩ name now
    obtain ⟨batch, store, heq, -⟩ := createBatch_of_ne_nil hdata hfil name now
    exact ⟨batch, store, by rwa [if_pos hena]⟩

end

/-- Batching loses none and blocks none just if not both directories have a newest file that fits, and one
has if some file fits. -/
theorem batching_iff (hdistinct : (self.queued.map (·.stem)).Nodup)
    (hjson : ∀ entry ∈ self.queued, (entry.load codec).isSome = true) :
    self.LosesNone codec ∧ self.BlocksNone codec ↔
    ¬(self.newestFits self.buildQueue = true ∧ self.newestFits self.buildStats = true) ∧
    (self.uploadStaging = [] → self.HasSmallFile → self.enabled = true ∧
    (self.newestFits self.buildQueue = true ∨ self.newestFits self.buildStats = true)) :=
  and_congr (losesNone_iff hjson hdistinct) (blocksNone_iff hjson)

/-- The bytes of a text in ASCII. -/
def asciiBytes (text : String) : List UInt8 :=
  text.toList.map fun c => UInt8.ofNat c.toNat

/-- JSON of which only the empty object is read, with blanks anywhere; nothing is escaped. -/
def asciiJson : JsonCodec where
  loads bytes := if bytes.filter (· ≠ 32) = asciiBytes "\x7b\x7d" then some (.object []) else none
  dumps json := asciiBytes json.print
  readText bytes :=
    if bytes.all (· < 128) then
      some (String.ofList (bytes.map fun byte => Char.ofNat byte.toNat))
    else
      none

/-- A file with the empty object and blanks in it. -/
def emptyBuild (stem : String) (modified : Nat) (blanks : Nat) : Entry :=
  ⟨stem, modified, .file (asciiBytes "\x7b\x7d" ++ replicate blanks 32)⟩

def storeWith (legacy builds staged : List Entry) : LocalBuildsStore where
  enabled := true
  maxBatchSize := 100
  buildQueue := legacy
  buildStats := builds
  uploadStaging := staged

theorem batching_one_directory :
    (storeWith [] [emptyBuild "run" 0 0] []).LosesNone asciiJson ∧
    (storeWith [] [emptyBuild "run" 0 0] []).BlocksNone asciiJson :=
  (batching_iff (by decide) (by decide)).2 ⟨by decide +kernel, fun _ _ => by decide +kernel⟩

/-- An old build is replaced by those of the other directory, and a large build holds back an older one. -/
theorem batching_loses_and_blocks :
    ¬(storeWith [emptyBuild "legacy" 0 0] [emptyBuild "run" 0 0] []).LosesNone asciiJson ∧
    ¬(storeWith [] [emptyBuild "large" 60 99, emptyBuild "small" 0 0] []).BlocksNone asciiJson := by
  rw [losesNone_iff (by decide) (by decide), blocksNone_iff (by decide)]
  refine ⟨by decide +kernel, fun h => ?_⟩
  have hfit := (h rfl ⟨emptyBuild "small" 0 0, by decide, 2, rfl, by decide⟩).2
  revert hfit
  decide +kernel

/-! ## Sending batches -/

def uploads (codec : JsonCodec) (self : LocalBuildsStore) (surroundings : Surroundings) : Bool :=
  match self.getUploadBatch codec surroundings.batchName surroundings.now with
  | .ok (some batch, _) => (batch.getBatchedData codec).isSome
  | _ => false

end LocalBuildsStore

namespace Reporter

variable {C : Type} (plugin : Plugin C) (self : Reporter C) (s : Reporter C × List (Bool × ClientReply))

/-- The reply to a request that the next statement receives, and whether the request is `submit_batch`. -/
def reply? : ReporterEvent → Option (Bool × ClientReply)
  | .thread surroundings =>
    match self.thread with
    | .maybeGetConfig => if self.state.askedForConfig then none else some (false, surroundings.reply)
    | .maybeSendInitialReport =>
      if self.state.sentInitialReport || self.state.initialReport.isNone then none else some
        (false, surroundings.reply)
    | .submitWorkunits _ | .submitRunEnd _ _ _ | .uploadArtifacts _ => some (false, surroundings.reply)
    | .submitBatch _ => some (true, surroundings.reply)
    | _ => none
  | _ => none

/-- A step, with all replies of the run so far. -/
def observe (event : ReporterEvent) : Reporter C × List (Bool × ClientReply) :=
  (s.1.step plugin event, s.2 ++ (s.1.reply? event).toList)

/-- When `submit_batch` is called, some call has succeeded, and no `submit_batch` has failed. -/
def BacksOff : Prop :=
  ∀ batch, s.1.thread = .submitBatch batch → (∃ isBatch response, (isBatch, .accepted response) ∈ s.2) ∧
    ∀ reply, (true, reply) ∈ s.2 → reply.response?.isSome = true

def FindsNoneAfterFailure : ReporterEvent → Prop
  | .thread surroundings =>
    s.1.state.submitBatches = true ∨ ∀ operation, s.1.thread = .maybeSendBatchedBuilds operation →
      s.1.state.localStore.uploads plugin.codec surroundings = false
  | _ => True

/-- The two flags say what the replies have been. -/
structure Tallied : Prop where
  failed : s.1.state.submitBatches = true ↔ ∀ reply, (true, reply) ∈ s.2 → reply.response?.isSome = true
  called : 0 < s.1.state.successfulCalls → ∃ isBatch response, (isBatch, .accepted response) ∈ s.2
  submitting : ∀ batch, s.1.thread = .submitBatch batch → s.1.state.submitBatches = true ∧ 0 <
    s.1.state.successfulCalls

variable {plugin self s} {env : Surroundings}

lemma advanceMain_keeps : self.advanceMain.thread = self.thread ∧
    self.advanceMain.state.submitBatches = self.state.submitBatches ∧
    self.advanceMain.state.successfulCalls = self.state.successfulCalls := by
  unfold advanceMain queueWorkunits submitFinalReport queueInitialReport
  split <;> (repeat' split) <;> simp_all only [and_self] <;> grind

lemma Tallied.next {rep new : List (Bool × ClientReply)} {after : Reporter C} (h : Tallied (self, rep))
    (hsub : after.state.submitBatches = self.state.submitBatches)
    (hcal : 0 < after.state.successfulCalls → 0 < self.state.successfulCalls ∨
      ∃ res, (false, .accepted res) ∈ new)
    (hthr : ∀ batch, after.thread = .submitBatch batch →
    after.state.submitBatches = true ∧ 0 < after.state.successfulCalls := by simp)
    (hnew : ∀ reply, (true, reply) ∉ new := by simp [reply?]) : Tallied (after, rep ++ new) := by
  refine ⟨?_, ?_, hthr⟩
  · simp only [hsub, mem_append, hnew, or_false]
    exact h.failed
  · intro hpos
    obtain hpos | ⟨res, hmem⟩ := hcal hpos
    · obtain ⟨isBatch, res, hold⟩ := h.called hpos
      exact ⟨isBatch, res, mem_append_left _ hold⟩
    · exact ⟨false, res, mem_append_right _ hmem⟩

lemma Tallied.submitBatch {rep : List (Bool × ClientReply)} (h : Tallied (self, rep)) {batch : BatchedData}
    (hpoi : self.thread = .submitBatch batch) (rpl : ClientReply) :
    Tallied (self.submitBatch batch rpl, rep ++ [(true, rpl)]) := by
  obtain ⟨htru, hpos⟩ := h.submitting batch hpoi
  obtain ⟨isBatch, res, hmem⟩ := h.called hpos
  refine ⟨?_, fun _ => ⟨isBatch, res, mem_append_left _ hmem⟩, nofun⟩
  simp only [Reporter.submitBatch, mem_append, mem_singleton, Prod.mk.injEq, true_and]
  split
  · rename_i hsom
    exact ⟨fun _ reply hrep => hrep.elim (h.failed.1 htru reply) (· ▸ hsom), fun _ => htru⟩
  · rename_i hfai
    exact ⟨nofun, fun hall => absurd (hall rpl (.inr rfl)) hfai⟩

lemma tallied_thread (h : Tallied s) (hnon : FindsNoneAfterFailure plugin s (.thread env)) :
    Tallied (observe plugin s (.thread env)) := by
  -- only a reply changes the number of successful calls
  have hcou (hpos : 0 < env.reply.count s.1.state.successfulCalls) : 0 < s.1.state.successfulCalls ∨
      ∃ res, (false, .accepted res) ∈ [(false, env.reply)] := by
    cases hrep : env.reply with
    | accepted res => exact .inr ⟨res, .head _⟩
    | failed | unsent => simp_all [ClientReply.count]
  unfold observe
  simp only [step, advanceThread, reply?]
  cases hpoi : s.1.thread with
  | submitBatch batch => exact h.submitBatch hpoi env.reply
  | loop | sendReport | emptyQueue op data | emptyLastQueue data | storeBuild runId stats | ended | raised error =>
    simp only [reportLoop, sendReport, sendWorkunits, prepareFinalReport, storeBuild]
    repeat' split
    all_goals exact h.next rfl .inl (by simp [hpoi])
  | maybeGetConfig =>
    simp only [maybeGetConfig]
    split
    · exact h.next rfl .inl
    · refine h.next rfl ?_
      split <;> simp_all
  | maybeSendInitialReport =>
    simp only [maybeSendInitialReport]
    split
    · exact h.next rfl .inl
    · split <;> exact h.next rfl hcou
  | submitWorkunits workunits | uploadArtifacts artifacts => exact h.next rfl hcou
  | submitRunEnd runId stats artifacts =>
    simp only [submitRunEnd]
    repeat' split
    all_goals exact h.next rfl hcou
  | maybeSendBatchedBuilds op =>
    simp only [maybeSendBatchedBuilds]
    split
    · exact h.next rfl .inl
    rename_i hsen
    split
    · exact h.next rfl .inl
    · exact h.next rfl .inl
    rename_i batch store hok
    refine h.next rfl .inl fun _ hbat => ?_
    have hupl : s.1.state.localStore.uploads plugin.codec env = true := by
      simp only [LocalBuildsStore.uploads, hok]
      cases htex : batch.getBatchedData plugin.codec with
      | none => simp [htex] at hbat
      | some text => rfl
    -- a batch has not failed yet, or there would be none to upload
    have htru := hnon.resolve_right fun hnot => by simp [hnot op hpoi] at hupl
    have hman : 2 < s.1.state.successfulCalls := by simpa [htru, hasSuccessfulCalls] using hsen
    exact ⟨htru, Nat.zero_lt_of_lt hman⟩

lemma tallied_observe (event : ReporterEvent) (h : Tallied s)
    (hnon : FindsNoneAfterFailure plugin s event) :
    Tallied (observe plugin s event) := by
  cases event with
  | callback callback =>
    simp only [observe, step]
    split <;> exact h.next rfl .inl h.submitting
  | main =>
    obtain ⟨hthr, hsub, hcal⟩ := @advanceMain_keeps _ s.1
    exact h.next hsub (hcal ▸ .inl) (by simpa only [step, hthr, hsub, hcal] using h.submitting)
  | files queue stats staging => exact h.next rfl .inl h.submitting
  | thread env => exact tallied_thread h hnon

lemma exists_submitBatch {op : ReportOperation} (hpoi : self.thread = .maybeSendBatchedBuilds op)
    (hsub : self.state.submitBatches = false)
      (hupl : self.state.localStore.uploads plugin.codec env = true) :
    ∃ batch, (self.advanceThread plugin env).thread = .submitBatch batch := by
  simp only [advanceThread, hpoi, maybeSendBatchedBuilds, hsub, Bool.and_false, Bool.false_eq_true,
    if_false]
  simp only [LocalBuildsStore.uploads] at hupl
  split at hupl
  · rename_i batch store hok
    obtain ⟨text, htex⟩ := isSome_iff_exists.1 hupl
    exact ⟨batch, by simp [hok, htex]⟩
  · cases hupl

/-- The thread backs off just if, once a batch has failed, it never finds one to upload. -/
theorem backsOff_iff (plugin : Plugin C) (localStore : LocalBuildsStore) (events : List ReporterEvent) :
    (∀ s ∈ trace (observe plugin) (init localStore, []) events, BacksOff s) ↔
    Guarded (observe plugin) (FindsNoneAfterFailure plugin) (init localStore, []) events := by
  apply forall_trace_iff_guarded Tallied
  · intro s event
    exact tallied_observe event
  · intro s h batch hbat
    obtain ⟨hsub, hpos⟩ := h.submitting batch hbat
    exact ⟨h.called hpos, h.failed.1 hsub⟩
  · intro s event h hbac
    cases event with
    | callback callback | main | files queue stats staging => trivial
    | thread env =>
      refine or_iff_not_imp_left.2 fun hsub op hpoi => Bool.eq_false_iff.2 fun hupl => hsub (h.failed.2 ?_)
      obtain ⟨batch, hbat⟩ := exists_submitBatch hpoi (Bool.eq_false_iff.2 hsub) hupl
      intro reply hmem
      exact (hbac batch hbat).2 reply (mem_append_left _ hmem)
  · exact ⟨by simp [init], nofun, nofun⟩

/-! ## A batch that is turned away -/

def callbackOf (finished : Bool) : Callback where
  startedWorkunits := [("span", .null)]
  completedWorkunits := []
  runTrackerInfo :=
    { hasEnded := finished, runId := "run", named := by decide, buildStats := [], hasLogFile := true }
  finished := finished
  timestamp := 1

/-- Statements of the thread that meet the same reply. -/
def repeated (statements : Nat) (reply : ClientReply) : List ReporterEvent :=
  replicate statements (.thread
    { authAvailable := true, reply := reply, now := 0, batchName := "batch", logFile := some [] })

def report : List ReporterEvent :=
  [.callback (callbackOf false), .main, .main]

def send (statements : Nat) : List ReporterEvent :=
  repeated statements (.accepted { isEmpty := false, ciUserApiId := none, link := none, config := .null })

/-- A plugin that sends work units as they are. -/
def verbatim : Plugin Unit where
  codec := LocalBuildsStore.asciiJson
  converter :=
    { create := fun _ => .ok ()
      transform := fun _ workunits _ _ => .ok ((), workunits.map (·.2))
      getAllWorkUnits := fun _ _ _ => .ok ((), [])
      getStandaloneArtifacts := fun _ => .ok [] }

def turnedAway : List ReporterEvent :=
  report ++ send 7 ++ report ++ send 13 ++ repeated 7 .failed

/-- A batch that the server has turned away is sent again in the next round of the loop. -/
theorem failed_batch_sent_again : ¬∀ s ∈ trace (observe verbatim)
    (init (LocalBuildsStore.storeWith [] [] [LocalBuildsStore.emptyBuild "batch" 0 0]), []) turnedAway, BacksOff s := by
  intro h
  have hsom := (h _ (run_mem_trace _ turnedAway) _ rfl).2 .failed (mem_of_getElem? (i := 4) rfl)
  cases hsom

end Reporter

end Toolchain.Pants
