import Toolchain.Lib.Fields

/-!
# Storage.ResourceName — the names under which blobs are read and written

A resource name is split at slashes; everything before the first component `blobs` (`uploads` for a
write) is the instance, cut out at a byte position that is always at the end of its last component
(`instanceName_eq_some`).

Models `storage/src/api/byte_stream_service.rs` and `path_for_digest` of
`storage/src/driver/file_backed.rs`.
-/

namespace Toolchain.Storage

open Lib List

inductive ParseFailure
  | error (message : String)
  | panic
  deriving DecidableEq, Repr

structure ParsedWriteResourceName where
  (instanceName uuid hash : Text)
  size : Nat
  deriving DecidableEq, Repr

structure ParsedReadResourceName where
  (instanceName hash : Text)
  size : Nat
  deriving DecidableEq, Repr

def position (component : String) (resource : Text) : Option Nat :=
  (resource.splitOn '/').findIdx? (· = component.toList)

def instanceName (resource : Text) (instanceParts : List Text) : Option Text :=
  if instanceParts = [] then
    some []
  else
    sliceTo ((instanceParts.map utf8Length).sum + instanceParts.length - 1) resource

/-- `{instance_name}/uploads/{uuid}/blobs/{hash}/{size}`, where the instance name may be empty and
anything may follow the size. -/
def parseWriteResourceName (resource : Text) : Except ParseFailure ParsedWriteResourceName :=
  if resource = [] then
    .error (.error "Missing resource name")
  else
    let parts := resource.splitOn '/'
    match position "uploads" resource with
    | none => .error (.error "Malformed resource name: missing `uploads` component")
    | some uploadsIndex =>
      if parts.length - uploadsIndex < 5 then
        .error (.error "Malformed resource name: not enough path components after `uploads`")
      else
        match parts[uploadsIndex + 1]?, parts[uploadsIndex + 2]?, parts[uploadsIndex + 3]?,
            parts[uploadsIndex + 4]? with
        | some uuid, some blobs, some hash, some digits =>
          if blobs ≠ "blobs".toList then
            .error (.error "Malformed resource name: expected `blobs` component")
          else
            match parseUsize digits with
            | none => .error (.error "Malformed resource name: cannot parse size")
            | some size =>
              match instanceName resource (parts.take uploadsIndex) with
              | none => .error .panic
              | some name => .ok { instanceName := name, uuid := uuid, hash := hash, size := size }
        | _, _, _, _ => .error .panic

def parseReadResourceName (resource : Text) : Except ParseFailure ParsedReadResourceName :=
  if resource = [] then
    .error (.error "Missing resource name")
  else
    let parts := resource.splitOn '/'
    match position "blobs" resource with
    | none => .error (.error "Malformed resource name: missing `blobs` component")
    | some blobsIndex =>
      if parts.length - blobsIndex < 3 then
        .error (.error "Malformed resource name: not enough path components after `blobs`")
      else
        match parts[blobsIndex + 1]?, parts[blobsIndex + 2]? with
        | some hash, some digits =>
          match parseUsize digits with
          | none => .error (.error "Malformed resource name: cannot parse size")
          | some size =>
            match instanceName resource (parts.take blobsIndex) with
            | none => .error .panic
            | some name => .ok { instanceName := name, hash := hash, size := size }
        | _, _ => .error .panic

/-! ## What the parsers accept -/

variable {resource rsc : Text}

variable {comp : String} {idx : Nat}

lemma position_lt (h : position comp rsc = some idx) : idx < (rsc.splitOn '/').length := by
  rcases findIdx?_eq_some_iff_getElem.1 h with ⟨hlt, _⟩
  exact hlt

lemma getElem_position (h : position comp rsc = some idx) :
    (rsc.splitOn '/')[idx]? = some comp.toList := by
  rcases findIdx?_eq_some_iff_getElem.1 h with ⟨hlt, hcom, _⟩
  rw [getElem?_eq_getElem hlt]
  simpa using hcom

lemma instanceName_eq_some (h : idx < (rsc.splitOn '/').length) :
    instanceName rsc ((rsc.splitOn '/').take idx) =
    some (['/'].intercalate ((rsc.splitOn '/').take idx)) := by
  unfold instanceName
  split
  · rename_i hnil
    rw [hnil]
    rfl
  · exact sliceTo_components '/' rfl rsc h

lemma parseRead_eq_ok {par : ParsedReadResourceName} (h : parseReadResourceName rsc = .ok par) :
    ∃ idx digits, position "blobs" rsc = some idx ∧ par.instanceName = ['/'].intercalate ((rsc.splitOn '/').take idx) ∧
    (rsc.splitOn '/')[idx + 1]? = some par.hash ∧ (rsc.splitOn '/')[idx + 2]? = some digits ∧
    parseUsize digits = some par.size := by
  unfold parseReadResourceName at h
  split at h
  · cases h
  simp only at h
  split at h
  · cases h
  rename_i idx hind
  split at h
  · cases h
  split at h
  · rename_i hash digits hhas hdig
    split at h
    · cases h
    rename_i size hsiz
    rw [instanceName_eq_some (position_lt hind)] at h
    cases h
    exact ⟨idx, digits, hind, rfl, hhas, hdig, hsiz⟩
  · cases h

lemma parseWrite_eq_ok {par : ParsedWriteResourceName} (h : parseWriteResourceName rsc = .ok par) :
    ∃ idx digits, position "uploads" rsc = some idx ∧
    par.instanceName = ['/'].intercalate ((rsc.splitOn '/').take idx) ∧
    (rsc.splitOn '/')[idx + 1]? = some par.uuid ∧ (rsc.splitOn '/')[idx + 2]? = some "blobs".toList ∧
    (rsc.splitOn '/')[idx + 3]? = some par.hash ∧ (rsc.splitOn '/')[idx + 4]? = some digits ∧
    parseUsize digits = some par.size := by
  unfold parseWriteResourceName at h
  split at h
  · cases h
  simp only at h
  split at h
  · cases h
  rename_i idx hind
  split at h
  · cases h
  split at h
  swap
  · cases h
  rename_i uuid blobs hash digits huui hblo hhas hdig
  split at h
  · cases h
  rename_i hcom
  split at h
  · cases h
  rename_i size hsiz
  rw [instanceName_eq_some (position_lt hind)] at h
  cases h
  rw [not_not] at hcom
  rw [hcom] at hblo
  exact ⟨idx, digits, hind, rfl, huui, hblo, hhas, hdig, hsiz⟩

/-! ## Round trips -/

def instancePart (inst : Text) : Text :=
  if inst = [] then [] else inst ++ ['/']

def writeResourceName (inst uuid hash : Text) (size : Nat) : Text :=
  instancePart inst ++ "uploads/".toList ++ uuid ++ "/blobs/".toList ++ hash ++ '/' :: decimal size

def readResourceName (inst hash : Text) (size : Nat) : Text :=
  instancePart inst ++ "blobs/".toList ++ hash ++ '/' :: decimal size

def instanceParts (inst : Text) : List Text :=
  if inst = [] then [] else inst.splitOn '/'

section RoundTrip

variable {inst : Text} {rest : List Text}

lemma instancePart_append (hres : rest ≠ []) :
    instancePart inst ++ ['/'].intercalate rest = ['/'].intercalate (instanceParts inst ++ rest) := by
  unfold instancePart instanceParts
  split
  · rfl
  · rw [intercalate_append '/' _ _ (splitOn_ne_nil '/' inst) hres, intercalate_splitOn]
    simp

lemma components_resource (comp : String) (rest : List Text) (hcom : '/' ∉ comp.toList)
    (hres : ∀ part ∈ rest, '/' ∉ part) (hins : comp.toList ∉ inst.splitOn '/') :
    let resource := instancePart inst ++ ['/'].intercalate (comp.toList :: rest)
    resource.splitOn '/' = instanceParts inst ++ comp.toList :: rest ∧
      position comp resource = some (instanceParts inst).length ∧
        instanceName resource (instanceParts inst) = some inst := by
  intro resource
  have hpar : ∀ part ∈ instanceParts inst, '/' ∉ part ∧ part ≠ comp.toList := by
    intro part hpart
    unfold instanceParts at hpart
    split at hpart
    · cases hpart
    · exact ⟨not_mem_of_mem_splitOn hpart, fun h => hins (h ▸ hpart)⟩
  have hspl : resource.splitOn '/' = instanceParts inst ++ comp.toList :: rest := by
    rw [show resource = _ from instancePart_append (by simp)]
    refine splitOn_intercalate _ ?_ (by simp)
    intro part hpart
    rcases mem_append.1 hpart with hpart | hpart
    · exact (hpar part hpart).1
    · rcases mem_cons.1 hpart with rfl | hpart
      · exact hcom
      · exact hres part hpart
  refine ⟨hspl, ?_, ?_⟩
  · rw [position, hspl, findIdx?_append, findIdx?_eq_none_iff.2
      fun part hpart => by simpa using (hpar part hpart).2]
    simp [findIdx?_cons]
  · have hlt : (instanceParts inst).length < (resource.splitOn '/').length := by
      rw [hspl]
      simp
    have hnam := instanceName_eq_some hlt
    rw [hspl, take_left] at hnam
    rw [hnam]
    unfold instanceParts
    split
    · simp_all
    · rw [intercalate_splitOn]

end RoundTrip

lemma parseWrite_writeName {inst uuid hash : Text} {size : Nat}
    (hinst : "uploads".toList ∉ inst.splitOn '/') (huui : '/' ∉ uuid) (hhas : '/' ∉ hash)
    (hsiz : size < 2 ^ 64) :
    parseWriteResourceName (writeResourceName inst uuid hash size) =
    .ok { instanceName := inst, uuid := uuid, hash := hash, size := size } := by
  have hnam : writeResourceName inst uuid hash size = instancePart inst ++
      ['/'].intercalate ("uploads".toList :: [uuid, "blobs".toList, hash, decimal size]) := by
    simp [writeResourceName, intercalate_cons_cons]
  obtain ⟨hspl, hpos, hins⟩ := components_resource "uploads" [uuid, "blobs".toList, hash, decimal size] (by decide)
    (by simp [huui, hhas, not_mem_decimal]) hinst
  rw [← hnam] at hspl hpos hins
  have hne : writeResourceName inst uuid hash size ≠ [] := by simp [writeResourceName]
  simp [parseWriteResourceName, hne, hspl, hpos, hins, parseUsize_decimal hsiz]

lemma parseRead_readName {inst hash : Text} {size : Nat}
    (hinst : "blobs".toList ∉ inst.splitOn '/') (hhas : '/' ∉ hash) (hsiz : size < 2 ^ 64) :
    parseReadResourceName (readResourceName inst hash size) =
    .ok { instanceName := inst, hash := hash, size := size } := by
  have hnam : readResourceName inst hash size = instancePart inst ++
      ['/'].intercalate ("blobs".toList :: [hash, decimal size]) := by
    simp [readResourceName, intercalate_cons_cons]
  obtain ⟨hspl, hpos, hins⟩ := components_resource "blobs"
    [hash, decimal size] (by decide) (by simp [hhas, not_mem_decimal]) hinst
  rw [← hnam] at hspl hpos hins
  have hne : readResourceName inst hash size ≠ [] := by simp [readResourceName]
  simp [parseReadResourceName, hne, hspl, hpos, hins, parseUsize_decimal hsiz]

lemma parseWrite_ne_panic (rsc : Text) : parseWriteResourceName rsc ≠ .error .panic := by
  intro h
  unfold parseWriteResourceName at h
  split at h
  · cases h
  simp only at h
  split at h
  · cases h
  rename_i idx hidx
  rw [instanceName_eq_some (position_lt hidx)] at h
  split at h
  · cases h
  rename_i hlen
  rw [getElem?_eq_getElem (by omega), getElem?_eq_getElem (by omega),
    getElem?_eq_getElem (by omega), getElem?_eq_getElem (by omega)] at h
  simp only at h
  split at h
  · cases h
  · split at h
    · cases h
    · cases h

lemma parseRead_ne_panic (rsc : Text) : parseReadResourceName rsc ≠ .error .panic := by
  intro h
  unfold parseReadResourceName at h
  split at h
  · cases h
  simp only at h
  split at h
  · cases h
  rename_i idx hidx
  rw [instanceName_eq_some (position_lt hidx)] at h
  split at h
  · cases h
  rename_i hlen
  rw [getElem?_eq_getElem (by omega), getElem?_eq_getElem (by omega)] at h
  simp only at h
  split at h
  · cases h
  · cases h

/-- The parsers read back what a client writes, and never panic. -/
theorem resource_names_round_trip (inst uuid hash : Text) (size : Nat)
    (hupl : "uploads".toList ∉ inst.splitOn '/') (hblo : "blobs".toList ∉ inst.splitOn '/')
    (huuid : '/' ∉ uuid) (hhash : '/' ∉ hash) (hsize : size < 2 ^ 64) :
    parseWriteResourceName (writeResourceName inst uuid hash size) =
    .ok { instanceName := inst, uuid := uuid, hash := hash, size := size } ∧
    parseReadResourceName (readResourceName inst hash size) =
    .ok { instanceName := inst, hash := hash, size := size } ∧
    ∀ resource, parseWriteResourceName resource ≠ .error .panic ∧ parseReadResourceName resource ≠
      .error .panic :=
  ⟨parseWrite_writeName hupl huuid hhash hsize, parseRead_readName hblo hhash hsize,
    fun resource => ⟨parseWrite_ne_panic resource, parseRead_ne_panic resource⟩⟩

theorem resource_names_round_trip_nested :
    parseReadResourceName (readResourceName "a//b".toList "ab".toList 7) =
    .ok { instanceName := "a//b".toList, hash := "ab".toList, size := 7 } :=
  (resource_names_round_trip "a//b".toList [] "ab".toList 7 (by decide) (by decide) (by decide)
    (by decide) (by decide)).2.1

lemma notMem_instanceName (hcom : comp.toList ≠ []) (h : position comp rsc = some idx) :
    comp.toList ∉ (['/'].intercalate ((rsc.splitOn '/').take idx)).splitOn '/' := by
  rcases findIdx?_eq_some_iff_getElem.1 h with ⟨hlt, -, hbef⟩
  by_cases hnil : (rsc.splitOn '/').take idx = []
  · simpa [hnil] using hcom
  rw [splitOn_intercalate _ (fun part hp => not_mem_of_mem_splitOn (mem_of_mem_take hp)) hnil,
    mem_take_iff_getElem]
  rintro ⟨i, hi, hget⟩
  exact hbef i (by omega) (by simpa using hget)

/-- What the parsers accept is read back from the name that a client would write for it. -/
theorem accepted_names_read_back (resource : Text) :
    (∀ par, parseReadResourceName resource = .ok par →
    parseReadResourceName (readResourceName par.instanceName par.hash par.size) = .ok par) ∧
    ∀ par, parseWriteResourceName resource = .ok par →
    parseWriteResourceName (writeResourceName par.instanceName par.uuid par.hash par.size) = .ok par := by
  have hfre : ∀ {i part}, (resource.splitOn '/')[i]? = some part → '/' ∉ part :=
    fun h => not_mem_of_mem_splitOn (mem_of_getElem? h)
  refine ⟨fun par h => ?_, fun par h => ?_⟩
  · rcases parseRead_eq_ok h with ⟨idx, digits, hpos, hins, hhas, -, hsiz⟩
    exact parseRead_readName (hins ▸ notMem_instanceName (by decide) hpos) (hfre hhas) (parseUsize_lt hsiz)
  · rcases parseWrite_eq_ok h with ⟨idx, digits, hpos, hins, huui, -, hhas, -, hsiz⟩
    exact parseWrite_writeName (hins ▸ notMem_instanceName (by decide) hpos) (hfre huui) (hfre hhas)
      (parseUsize_lt hsiz)

/-! ## Where a blob is kept -/

def pushPath (path component : Text) : Text :=
  if component.head? = some '/' then
    component
  else if path = [] ∨ path.getLast? = some '/' then path ++ component else path ++ '/' :: component

def pathForDigest (instancesPath hexHash : Text) (size : Nat) (name : Text) : Text :=
  let path := pushPath (pushPath instancesPath name) "blobs".toList
  let path := pushPath path (hexHash.take 2)
  let path := pushPath path ((hexHash.drop 2).take 2)
  let path := pushPath path ((hexHash.drop 4).take 2)
  pushPath path (hexHash ++ '-' :: (toString size).toList ++ ".bin".toList)

def resolve (path : Text) : List Text :=
  (path.splitOn '/').foldl (fun directories component =>
      if component = [] ∨ component = ".".toList then directories
      else if component = "..".toList then directories.dropLast
      else directories ++ [component])
    []

end Toolchain.Storage
