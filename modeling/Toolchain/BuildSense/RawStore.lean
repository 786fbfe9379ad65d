import Toolchain.BuildSense.Ingestion

/-!
# BuildSense.RawStore — a final report on its way to S3 and back

The plugin compresses a long report and says so in a header.  The server hands the uploaded file on
whether it is compressed or not; the store marks any file as compressed, and a later read decompresses
it.

Models `_prepare_request` of `pants/buildsense/client.py`, the parser and `patch` of
`buildsense/ingestion/views_api.py`, and `run_info_raw_store.py` there.
-/

namespace Toolchain.BuildSense

open Lib

/-- JSON and zlib. -/
structure Formats (J : Type) where
  dumps : J → Text
  encode : Text → List UInt8
  loads : List UInt8 → Option J
  compress : List UInt8 → List UInt8
  decompress : List UInt8 → Option (List UInt8)
  loads_dumps : ∀ json, loads (encode (dumps json)) = some json
  decompress_compress : ∀ data, decompress (compress data) = some data
  decompress_dumps : ∀ json, decompress (encode (dumps json)) = none

structure BuildFile where
  contentType : String
  content : List UInt8
  metadata : List (String × String)
  deriving DecidableEq

structure UploadRequest where
  contentEncoding : Option String
  file : List UInt8

def compressionThreshold : Nat := 10 * 1024

namespace Formats

variable {J : Type} (formats : Formats J)

/-- `_get_build_file` for an object that exists; old ones have no content type. -/
def getBuildFile (object : S3Object) : Except String BuildFile :=
  let file content : BuildFile :=
    { contentType := if object.contentType = "" then "application/json" else object.contentType
      content := content, metadata := object.metadata }
  let compression := (object.metadata.lookup "compression").getD ""
  if compression = "zlib" then
    match formats.decompress object.content with
    | some content => .ok (file content)
    | none => .error "Failed to decompress data"
  else if compression = "" then .ok (file object.content) else .error "Unknown compression"

def getBuildData (objects : Text → Option S3Object) (key : Text) : Except String J :=
  match objects key with
  | none => .error "Missing build file"
  | some object => (formats.getBuildFile object).bind fun file =>
    match formats.loads file.content with
    | some json => .ok json
    | none => .error "JSONDecodeError"

def prepareRequest (data : Text) : UploadRequest :=
  if compressionThreshold < data.length then
    { contentEncoding := some "compress", file := formats.compress (formats.encode data) }
  else
    { contentEncoding := none, file := formats.encode data }

/-- `MultiPartCompressedJsonParser.parse`: the data, and the file that it leaves in the request. -/
def parse (request : UploadRequest) : Option (J × List UInt8) :=
  let data :=
    if request.contentEncoding = some "gzip" ∨ request.contentEncoding = some "compress" then
      formats.decompress request.file
    else
      some request.file
  (data.bind formats.loads).map fun json => (json, request.file)

/-- The view of a final report; `report` is what the ingestion takes from the data. -/
def patch (report : J → Report) (request : UploadRequest) : Option IngestRequest :=
  (formats.parse request).map fun parsed => .storeBuildEnded (report parsed.1) false (some parsed.2)

end Formats

/-- The first two statements of a request, which save its report; the others are about the row. -/
def IngestRequest.save (target : BuildTarget) (shared : Ingestion) (request : IngestRequest) :
    Ingestion × IngestCall :=
  let found := request.begin.statement target shared .performed
  found.2.statement target found.1 .performed

variable {J : Type} (formats : Formats J)

open Formats

lemma parse_prepareRequest (json : J) : formats.parse (formats.prepareRequest (formats.dumps json)) =
    some (json, (formats.prepareRequest (formats.dumps json)).file) := by
  unfold prepareRequest
  split
  · simp [parse, formats.decompress_compress, formats.loads_dumps]
  · simp [parse, formats.loads_dumps]

lemma objects_save {tgt : BuildTarget} {shr : Ingestion} (rep : Report) (file : List UInt8)
    (hfre : shr.objects (tgt.buildFileKey .final) = none) :
    ((IngestRequest.storeBuildEnded rep false (some file)).save tgt shr).1.objects
      (tgt.buildFileKey .final) =
    some { content := file, contentType := "application/json", metadata := [("compression", "zlib")] } := by
  simp only [IngestRequest.save, IngestRequest.begin, IngestCall.statement, Submission.perform,
    Submission.findKeyForBuildFile, hfre, if_true]
  exact Function.update_self _ _ shr.objects

/-- A report is read back as it was sent exactly if it is long enough to be compressed. -/
theorem stats_read_back_iff (target : BuildTarget) (shared : Ingestion) (report : J → Report) (json : J)
    (hfree : shared.objects (target.buildFileKey .final) = none) :
    (∃ request ∈ formats.patch report (formats.prepareRequest (formats.dumps json)),
    formats.getBuildData (request.save target shared).1.objects (target.buildFileKey .final) = .ok json) ↔
    compressionThreshold < (formats.dumps json).length := by
  have hrea : ∀ request, request ∈ formats.patch report (formats.prepareRequest (formats.dumps json)) ↔
      request = .storeBuildEnded (report json) false
        (some (formats.prepareRequest (formats.dumps json)).file) := by
    intro request
    simp [patch, parse_prepareRequest, eq_comm]
  simp only [hrea, exists_eq_left, getBuildData, objects_save _ _ hfree]
  -- in both cases the object is marked as compressed
  unfold prepareRequest
  split
  · rename_i hlon
    simp [getBuildFile, formats.decompress_compress, formats.loads_dumps, Except.bind, hlon]
  · rename_i hsho
    simp [getBuildFile, formats.decompress_dumps, Except.bind, hsho]

def bitText (bits : List Bool) : Text := '"' :: bits.map (fun bit => if bit then '1' else '0') ++ ['"']

lemma length_bitText (bits : List Bool) : (bitText bits).length = bits.length + 2 := by simp [bitText]

def asciiBytes (text : Text) : List UInt8 := text.map fun c => UInt8.ofNat c.toNat

/-- JSON strings of bits; a byte before the data marks it as compressed. -/
def bitFormats : Formats (List Bool) where
  dumps := bitText
  encode := asciiBytes
  loads data :=
    let bits := data.tail.dropLast.map (· == 49)
    if asciiBytes (bitText bits) = data then some bits else none
  compress data := 120 :: data
  decompress data := if data.head? = some 120 then some data.tail else none
  loads_dumps bits := by
    have hbit : ∀ bit : Bool, (UInt8.ofNat (if bit then '1' else '0').toNat == 49) = bit := by decide
    simp only [asciiBytes, bitText, List.cons_append, List.map_cons, List.map_append, List.map_nil,
      List.map_map,
      List.tail_cons, List.dropLast_concat, Function.comp_def, hbit, List.map_id', if_true]
  decompress_compress _ := if_pos rfl
  decompress_dumps _ := if_neg nofun

theorem stats_read_back_long :
    ∃ request ∈ bitFormats.patch (fun _ => ⟨"", [], [], ⟨"", 0, "", none⟩⟩)
    (bitFormats.prepareRequest (bitFormats.dumps (List.replicate 10240 true))),
    bitFormats.getBuildData (request.save nightly (.unreported fun _ => none)).1.objects
    (nightly.buildFileKey .final) = .ok (List.replicate 10240 true) :=
  (stats_read_back_iff bitFormats nightly (.unreported fun _ => none) _ _ rfl).2
    ((by decide : compressionThreshold < 10242).trans_eq
      (by rw [bitFormats, length_bitText, List.length_replicate]))

/-- A short report is stored as it is, and marked as compressed. -/
theorem stats_lost_if_short :
    ((bitFormats.patch (fun _ => ⟨"", [], [], ⟨"", 0, "", none⟩⟩)
    (bitFormats.prepareRequest (bitFormats.dumps [true, false]))).map fun request =>
    (bitFormats.getBuildData (request.save nightly (.unreported fun _ => none)).1.objects
    (nightly.buildFileKey .final)).toOption) = some none := by
  decide +kernel

end Toolchain.BuildSense
