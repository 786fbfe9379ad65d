import Toolchain.Storage.ResourceName

/-!
# Proxy.ByteStream — who may use a resource name, and whose blobs it names

The proxy authorises a request for the first component of its resource name; the storage server takes
all components before `blobs` or `uploads` for the instance.  They agree exactly if that component is
the second (`getClient_agrees_iff`); with `..` a name reaches another instance
(`getClient_crosses_instances`).

Models `get_client` of `proxy/src/server/byte_stream_service.rs`, `check_authorized` of
`proxy/src/server/mod.rs` and `grpc_util/src/auth.rs`.  Decoding a JWT is a parameter.
-/

namespace Toolchain.Proxy

open Lib Storage

inductive AuthScheme
  | jwt | authToken | devOnlyNoAuth
  deriving DecidableEq, Repr

inductive Permissions
  | read | readWrite | execute
  deriving DecidableEq, Repr

inductive Code
  | unauthenticated | invalidArgument | permissionDenied
  deriving DecidableEq, Repr

structure Status where
  code : Code
  message : String
  deriving DecidableEq, Repr

def Permissions.audience : Permissions → Text
  | .read => "cache_ro".toList
  | .readWrite => "cache_rw".toList
  | .execute => "exec".toList

def Permissions.isValid (self : Permissions) (audience : List Text) : Bool :=
  let valid : List Permissions :=
    match self with
    | .read => [.read, .readWrite, .execute]
    | .readWrite => [.readWrite, .execute]
    | .execute => [.execute]
  valid.any fun permissions => permissions.audience ∈ audience

structure AuthTokenEntry where
  instanceName : Text
  isActive : Bool
  deriving DecidableEq, Repr

structure Claims where
  toolchainCustomer : Text
  audience : List Text
  deriving DecidableEq, Repr

structure ProxyServerInner (Backend : Type) where
  instanceBackends : Text → Option Backend
  catchallBackend : Backend
  decodeJwt : Text → Option Claims
  authTokenMapping : Text → Option AuthTokenEntry

abbrev Metadata := Option Text

def getBearerToken (metadata : Metadata) : Except Status Text :=
  match metadata.bind (List.dropPrefix? · "Bearer ".toList) with
  | none => .error ⟨.unauthenticated, "missing or invalid authorization header"⟩
  | some token => .ok token

namespace ProxyServerInner

variable {Backend : Type} (self : ProxyServerInner Backend)

def validateAuthToken (token requestedInstanceName : Text) : Except Status Unit :=
  match self.authTokenMapping token with
  | none => .error ⟨.unauthenticated, "auth token not valid"⟩
  | some entry =>
    if entry.instanceName ≠ requestedInstanceName then
      .error ⟨.unauthenticated, "auth token not valid"⟩
    else if !entry.isActive then .error ⟨.unauthenticated, "auth token not valid"⟩ else .ok ()

def validateJwt (token requestedInstanceName : Text) (requiredPermissions : Permissions) :
    Except Status Unit :=
  match self.decodeJwt token with
  | none => .error ⟨.unauthenticated, "authorization failed"⟩
  | some claims =>
    if claims.toolchainCustomer ≠ requestedInstanceName then
      .error ⟨.invalidArgument, "unknown instance name"⟩
    else if !requiredPermissions.isValid claims.audience then
      .error ⟨.permissionDenied, "insufficient permissions"⟩
    else
      .ok ()

def checkAuthorized (authScheme : AuthScheme) (metadata : Metadata) (requestedInstanceName : Text)
    (requiredPermissions : Permissions) : Except Status Unit :=
  match authScheme with
  | .jwt => do
      let token ← getBearerToken metadata
      self.validateJwt token requestedInstanceName requiredPermissions
  | .authToken => do
      let token ← getBearerToken metadata
      self.validateAuthToken token requestedInstanceName
  | .devOnlyNoAuth => .ok ()

def backend (instanceName : Text) : Backend :=
  (self.instanceBackends instanceName).getD self.catchallBackend

def getClient (authScheme : AuthScheme) (metadata : Metadata) (resourceName : Text)
    (requiredPermissions : Permissions) : Except Status Backend :=
  match (resourceName.splitOn '/').head? with
  | none => .error ⟨.invalidArgument, "unable to parse instance name"⟩
  | some instanceName => do
      self.checkAuthorized authScheme metadata instanceName requiredPermissions
      return self.backend instanceName

end ProxyServerInner

/-! ## Agreement on the instance -/

variable {Backend : Type} {self : ProxyServerInner Backend} {rsc : Text}

lemma getClient_eq_ok {sch : AuthScheme} {metadata : Metadata} {perms : Permissions} {cl : Backend}
    (h : self.getClient sch metadata rsc perms = .ok cl) :
    ∃ instanceName, (rsc.splitOn '/').head? = some instanceName ∧
    self.checkAuthorized sch metadata instanceName perms = .ok () ∧ cl = self.backend instanceName := by
  unfold ProxyServerInner.getClient at h
  rcases hhea : (rsc.splitOn '/').head? with _ | instanceName
  · simp [hhea] at h
  simp only [hhea] at h
  rcases hche : self.checkAuthorized sch metadata instanceName perms with
    status | ⟨⟩
  · rw [hche] at h
    cases h
  · rw [hche] at h
    cases h
    exact ⟨instanceName, rfl, hche, rfl⟩

lemma intercalate_take_eq_head_iff {pts : List Text} {head component : Text} {idx : Nat}
    (hhea : pts.head? = some head) (hcom : pts[idx]? = some component)
    (hne : component ≠ []) : ['/'].intercalate (pts.take idx) = head ↔ idx = 1 := by
  rcases pts with _ | ⟨first, rest⟩
  · cases hhea
  obtain rfl : first = head := by simpa using hhea
  match idx, rest with
  | 0, _ =>
    obtain rfl : first = component := by simpa using hcom
    simpa using hne.symm
  | 1, _ => simp
  | idx + 2, [] => simp at hcom
  | idx + 2, next :: rest =>
    simp only [List.take_succ_cons]
    constructor
    · intro h
      exact absurd h (intercalate_ne_head '/' first next (rest.take idx))
    · intro h
      omega

/-- An authorised request is served from its instance if and only if `blobs`, or `uploads` for a write,
is the second component. -/
theorem getClient_agrees_iff (self : ProxyServerInner Backend) (authScheme : AuthScheme)
    (metadata : Metadata) (resource : Text) (requiredPermissions : Permissions) (client : Backend)
    (h : self.getClient authScheme metadata resource requiredPermissions = .ok client) :
    ∃ instanceName, (resource.splitOn '/').head? = some instanceName ∧
    self.checkAuthorized authScheme metadata instanceName requiredPermissions = .ok () ∧
    (∀ parsed, parseReadResourceName resource = .ok parsed →
    (parsed.instanceName = instanceName ↔ position "blobs" resource = some 1)) ∧
    ∀ parsed, parseWriteResourceName resource = .ok parsed →
    (parsed.instanceName = instanceName ↔ position "uploads" resource = some 1) := by
  rcases getClient_eq_ok h with ⟨instanceName, hhea, haut, _⟩
  refine ⟨instanceName, hhea, haut, ?_, ?_⟩
  · intro parsed hpar
    rcases parseRead_eq_ok hpar with ⟨index, _, hind, hnam, _⟩
    rw [hnam, hind, Option.some.injEq]
    exact intercalate_take_eq_head_iff hhea (getElem_position hind) (by decide)
  · intro parsed hpar
    rcases parseWrite_eq_ok hpar with ⟨index, _, hind, hnam, _⟩
    rw [hnam, hind, Option.some.injEq]
    exact intercalate_take_eq_head_iff hhea (getElem_position hind) (by decide)

def tokenProxy : ProxyServerInner Unit where
  instanceBackends := fun _ => none
  catchallBackend := ()
  decodeJwt := fun _ => none
  authTokenMapping := fun token =>
    if token = "secret".toList then some { instanceName := "main".toList, isActive := true } else none

theorem getClient_agrees_main :
    tokenProxy.getClient .authToken (some "Bearer secret".toList) "main/blobs/abc123/12".toList .read = .ok () ∧
    parseReadResourceName "main/blobs/abc123/12".toList =
    .ok { instanceName := "main".toList, hash := "abc123".toList, size := 12 } ∧
    position "blobs" "main/blobs/abc123/12".toList = some 1 := by
  have hcli : tokenProxy.getClient .authToken (some "Bearer secret".toList)
      "main/blobs/abc123/12".toList .read = .ok () := by decide +kernel
  have hpar : parseReadResourceName "main/blobs/abc123/12".toList =
      .ok { instanceName := "main".toList, hash := "abc123".toList, size := 12 } := by
    decide +kernel
  rcases getClient_agrees_iff tokenProxy _ _ _ _ _ hcli with ⟨instanceName, hhea, _, hrea, _⟩
  obtain rfl : "main".toList = instanceName := by
    rw [show ("main/blobs/abc123/12".toList.splitOn '/').head? = some "main".toList by
      decide +kernel] at hhea
    exact Option.some.inj hhea
  exact ⟨hcli, hpar, (hrea _ hpar).1 rfl⟩

def emptyHash : Text :=
  "e3b0c44298fc1c149afbf4c8996fb92427ae41e4649b934ca495991b7852b855".toList

/-- With a token for `main` alone a blob of `other` is read. -/
theorem getClient_crosses_instances :
    tokenProxy.getClient .authToken (some "Bearer secret".toList)
    ("main/../other/blobs/".toList ++ emptyHash ++ "/0".toList) .read = .ok () ∧
    tokenProxy.checkAuthorized .authToken (some "Bearer secret".toList) "other".toList .read =
    .error ⟨.unauthenticated, "auth token not valid"⟩ ∧
    parseReadResourceName ("main/../other/blobs/".toList ++ emptyHash ++ "/0".toList) =
    .ok { instanceName := "main/../other".toList, hash := emptyHash, size := 0 } ∧
    resolve (pathForDigest "/instances".toList emptyHash 0 "main/../other".toList) =
    resolve (pathForDigest "/instances".toList emptyHash 0 "other".toList) := by
  decide +kernel

end Toolchain.Proxy
