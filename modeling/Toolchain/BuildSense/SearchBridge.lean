import Toolchain.Lib.Dict
import Toolchain.Lib.Text

/-!
# BuildSense.SearchBridge — from the stream of the table to the search index

A bulk request that is answered without an HTTP error is done, whatever the answer says of its items.

Models `buildsense/dynamodb_es_bridge/dynamodb_to_es_lambda.py`.
-/

namespace Toolchain.BuildSense

open Lib List

/-- A record of the stream, with the document of its new image unless it is a `REMOVE`. -/
structure StreamRecord (δ : Type) where
  (envCustomerRepoUser runId : Text)
  document : Option δ

inductive BulkLine (δ : Type)
  | delete (index id : Text)
  | index (index id : Text)
  | document (doc : δ)

/-- The status, and which items have failed. -/
structure BulkResponse where
  status : Nat
  failed : List Bool

section

variable {δ : Type}

def StreamRecord.documentId (self : StreamRecord δ) : Text :=
  self.envCustomerRepoUser ++ ':' :: self.runId

def getEsDocs (records : List (StreamRecord δ)) : List (Text × Option δ) :=
  records.foldl (fun docs record => Dict.assign docs (record.documentId, record.document)) []

def toActions (indices : List Text) (docs : List (Text × Option δ)) : List (BulkLine δ) :=
  docs.flatMap fun (id, doc) => indices.flatMap fun index =>
    match doc with
    | none => [.delete index id]
    | some doc => [.index index id, .document doc]

def bulkProcessRecords (indices : List Text) (post : List (BulkLine δ) → Option BulkResponse)
    (records : List (StreamRecord δ)) : Option (Nat × BulkResponse) :=
  let actions := toActions indices (getEsDocs records)
  match post actions with
  | none => none
  | some resp => if 200 ≤ resp.status ∧ resp.status < 300 then some (actions.length, resp) else none

/-- How a bulk request is read: a document follows the line that names it. -/
def readLines : List (BulkLine δ) → Option (List (Text × Text × Option δ))
  | [] => some []
  | .delete index id :: rest => (readLines rest).map ((index, id, none) :: ·)
  | .index index id :: .document doc :: rest => (readLines rest).map ((index, id, some doc) :: ·)
  | _ => none

/-- Each document is sent once to each index, as the last record of its id has it. -/
def SendsLast (indices : List Text) (records : List (StreamRecord δ)) : Prop :=
  ∃ docs : List (Text × Option δ), (docs.map Prod.fst).Nodup ∧ (∀ id doc, (id, doc) ∈ docs ↔
      (records.reverse.find? (·.documentId = id)).map (·.document) = some doc) ∧
    readLines (toActions indices (getEsDocs records)) =
      some (docs.flatMap fun (id, doc) => indices.map fun index => (index, id, doc))

lemma readLines_toActions {indi : List Text} (docs : List (Text × Option δ)) :
    readLines (toActions indi docs) =
    some (docs.flatMap fun (id, doc) => indi.map fun index => (index, id, doc)) := by
  have hres (id : Text) (doc : Option δ) (rest : List (BulkLine δ)) :
    readLines (toActions indi [(id, doc)] ++ rest) =
      (readLines rest).map ((indi.map fun index => (index, id, doc)) ++ ·) := by
    unfold toActions
    rw [flatMap_singleton]
    induction indi with
    | nil => simp
    | cons index indi ih => cases doc <;> simp_all [readLines, Function.comp_def]
  induction docs with
  | nil => rfl
  | cons entry docs ih =>
    have hcon : toActions indi (entry :: docs) =
        toActions indi [(entry.1, entry.2)] ++ toActions indi docs := by simp [toActions]
    rw [hcon, hres, ih]
    rfl

/-- The index follows the table exactly if no answer that is a success reports a failed item. -/
theorem index_follows_table_iff (indices : List Text) (post : List (BulkLine δ) → Option BulkResponse)
    (records : List (StreamRecord δ)) :
    (SendsLast indices records ∧
    ∀ count resp, bulkProcessRecords indices post records = some (count, resp) → true ∉ resp.failed) ↔
    ∀ resp, post (toActions indices (getEsDocs records)) = some resp →
    200 ≤ resp.status ∧ resp.status < 300 → true ∉ resp.failed := by
  have hsen : SendsLast indices records := by
    obtain ⟨hnod, hlas⟩ := Dict.foldl_assign (·.documentId) (·.document) records
    refine ⟨getEsDocs records, hnod, fun id doc => ?_, readLines_toActions _⟩
    rw [← hlas, Dict.lookup_eq_some_iff_mem hnod]
    rfl
  rw [and_iff_right hsen, bulkProcessRecords]
  cases post (toActions indices (getEsDocs records)) with
  | none => simp
  | some resp =>
    by_cases hok : 200 ≤ resp.status ∧ resp.status < 300
    · simp [hok]
    · simpa [hok] using fun hlow hhig => absurd ⟨hlow, hhig⟩ hok

theorem failed_item_is_lost : bulkProcessRecords ["buildsense-v2".toList] (fun _ => some ⟨200, [true]⟩)
    [⟨"env".toList, "pants_run_1".toList, some ()⟩] = some (2, ⟨200, [true]⟩) := by
  rfl

end

end Toolchain.BuildSense
