import Toolchain.Lib.Run
import Mathlib.Data.List.Perm.Basic

/-!
# Pants.AuthClient — access tokens of the plugin

Without a refresh token the plugin asks for a restricted one,
  unless `restricted_token_matches` rules it out.
The loop of `_should_disable` returns in its first pass.  Of the two entry points of the store of
  the token,
`get_auth_state` trusts a final state, and `get_access_token` looks at the token alone.

Models `pants/auth/client.py` and `store.py`; `reMatch` stands for `re.match`.
-/

namespace Toolchain.Pants

open Lib List

structure AuthClient where
  context : String
  repoSlug : Option String
  ciEnvVariables : List String
  restrictedTokenMatches : List (String × String)

structure RestrictedRequest where
  repoSlug : Option String
  env : String → Option String

namespace AuthClient

variable (reMatch : String → String → Bool) (env : String → Option String)

def shouldDisable (self : AuthClient) : Bool :=
  match self.restrictedTokenMatches with
  | [] => false
  | (envVar, expression) :: _ =>
    match env envVar with
    | none => true
    -- `return not match`, so that no further entry is looked at
    | some value => !reMatch expression value

def authError (self : AuthClient) (message : String) : String :=
  "[" ++ self.context ++ "] " ++ message

def acquireRestrictedAccessToken (self : AuthClient) : Except String RestrictedRequest :=
  if self.shouldDisable reMatch env then
    .error (self.authError "Restricted token expression didn't match, disabling Toolchain auth.")
  else if self.ciEnvVariables.all fun key => (env key).isNone then
    .error (self.authError "Can't acquire restricted access token without environment variables.")
  else
    .ok { repoSlug := self.repoSlug, env := fun key =>
      if key ∈ self.ciEnvVariables then env key else none }

def Matched (entry : String × String) : Prop :=
  ∃ value, env entry.1 = some value ∧ reMatch entry.2 value = true

def Requests (self : AuthClient) : Prop :=
  ∃ request, self.acquireRestrictedAccessToken reMatch env = .ok request

variable {reMatch env} {self : AuthClient}

lemma requests_iff : self.Requests reMatch env ↔ (∃ key ∈ self.ciEnvVariables, env key ≠ none) ∧
    ∀ entry ∈ self.restrictedTokenMatches.head?, Matched reMatch env entry := by
  have hkey : (∃ key ∈ self.ciEnvVariables, env key ≠ none) ↔
      (self.ciEnvVariables.all fun key => (env key).isNone) = false := by simp
  have hdis : self.shouldDisable reMatch env = false ↔
      ∀ entry ∈ self.restrictedTokenMatches.head?, Matched reMatch env entry := by
    rcases hent : self.restrictedTokenMatches with _ | ⟨⟨envVar, expression⟩, _⟩
    · simp [shouldDisable, hent]
    · cases hval : env envVar <;> simp [shouldDisable, Matched, hent, hval]
  rw [← hdis, hkey]
  unfold Requests acquireRestrictedAccessToken
  cases self.shouldDisable reMatch env <;> cases self.ciEnvVariables.all fun key =>
    (env key).isNone <;> simp

lemma head_iff_forall {α : Type} {p : α → Prop} {l l' : List α} (hper : l' ~ l)
    (h : (∀ x ∈ l, p x) ∨ ∀ x ∈ l, ¬p x) : (∀ x ∈ l'.head?, p x) ↔ ∀ x ∈ l, p x := by
  cases l' with
  | nil => simp [hper.nil_eq.symm]
  | cons x l' =>
    have hx : x ∈ l := hper.subset (.head _)
    rcases h with hall | hnon
    · exact iff_of_true (by simpa using hall x hx) hall
    · exact iff_of_false (fun hhea => hnon x hx (hhea x rfl)) fun hall => hnon x hx (hall x hx)

variable (reMatch env self) in
/-- Only the first entry of the map decides: whatever their order, all entries are respected exactly when
they agree, or when there is nothing to send. -/
theorem requests_respects_matches_iff : (∀ entries, entries ~ self.restrictedTokenMatches →
    (Requests reMatch env { self with restrictedTokenMatches := entries } →
    ∀ entry ∈ self.restrictedTokenMatches, Matched reMatch env entry) ∧
    (Requests reMatch env { self with restrictedTokenMatches := entries } ↔ self.Requests reMatch env)) ↔
    (∀ key ∈ self.ciEnvVariables, env key = none) ∨
    (∀ entry ∈ self.restrictedTokenMatches, Matched reMatch env entry) ∨
    ∀ entry ∈ self.restrictedTokenMatches, ¬Matched reMatch env entry := by
  simp only [requests_iff]
  constructor
  · intro h
    by_contra! hnot
    obtain ⟨hkey, ⟨other, hoth, hmis⟩, entry, hmem, hmat⟩ := hnot
    -- the order in which the entry that matches comes first
    exact hmis ((h _ (perm_cons_erase hmem).symm).1 ⟨hkey, by simpa using hmat⟩ other hoth)
  · rintro (hnon | h) entries hper
    · have hkey : ¬∃ key ∈ self.ciEnvVariables, env key ≠ none := by simpa using hnon
      simp [hkey]
    · rw [head_iff_forall hper h, head_iff_forall (.refl _) h]
      exact ⟨And.right, Iff.rfl⟩

theorem requests_despite_mismatch :
    Requests (· == ·) (fun key => if key = "CI" then some "true" else none)
    ⟨"", none, ["CI"], [("CI", "true"), ("GITHUB_REF", "main")]⟩ ∧
    ¬Matched (· == ·) (fun key => if key = "CI" then some "true" else none) ("GITHUB_REF", "main") :=
  ⟨⟨_, rfl⟩, by simp [Matched]⟩

end AuthClient

/-! ## The store -/

inductive AuthState
  | unknown | ok | unavailable | failed | transientFailure
  deriving DecidableEq

def AuthState.isFinal : AuthState → Bool
  | ok | failed | unavailable => true
  | unknown | transientFailure => false

/-- How `acquire_access_token` ends: with a token, or with an `AuthError`. -/
inductive Acquisition
  | token (expiresAt : Int)
  | error (shouldRetry serverFailure : Bool)

def getState (shouldRetry serverFailure : Bool) : AuthState :=
  if shouldRetry then .transientFailure else if serverFailure then .failed else .unavailable

def hasExpired (now expiresAt : Int) : Bool :=
  now > expiresAt - 10

inductive EntryPoint
  | getAccessToken | getAuthState
  deriving DecidableEq

structure StoreCall where
  entryPoint : EntryPoint
  now : Int
  acquisition : Acquisition

/-- The store, and whether an acquisition has ended in `FAILED`. -/
structure AuthStore where
  accessToken : Option Int := none
  state : AuthState := .unknown
  hasFailed : Bool := false

namespace AuthStore

def acquires (self : AuthStore) (call : StoreCall) : Bool :=
  (call.entryPoint == .getAccessToken || !self.state.isFinal) && self.accessToken.all (hasExpired call.now)

def step (self : AuthStore) (call : StoreCall) : AuthStore :=
  if self.acquires call then
    match call.acquisition with
    | .token expiresAt => { self with accessToken := some expiresAt, state := .ok }
    | .error shouldRetry serverFailure =>
      let state := getState shouldRetry serverFailure
      { self with state, hasFailed := self.hasFailed || state == .failed }
  else self

/-- The call makes no request after `FAILED`, and what it returns has not expired.  Both entry points
return what the store has after the call. -/
def Sound (self : AuthStore) (call : StoreCall) : Prop :=
  (self.acquires call = true → self.hasFailed = false) ∧
    match call.entryPoint with
    | .getAccessToken => (self.step call).accessToken.any (hasExpired call.now) = false
    | .getAuthState => (self.step call).state = .ok →
      (self.step call).accessToken.all (hasExpired call.now) = false

/-- An acquisition comes after no `FAILED`, and has a token that has not expired or, if it fails, no expired
one is left to return; a state that is `OK` is asked for before the token expires. -/
def Timely (self : AuthStore) (call : StoreCall) : Prop :=
  if self.acquires call then
    self.hasFailed = false ∧ match call.acquisition with
      | .token expiresAt => hasExpired call.now expiresAt = false
      | .error _ _ => call.entryPoint = .getAccessToken → self.accessToken = none
  else call.entryPoint = .getAuthState → self.state = .ok →
    self.accessToken.all (hasExpired call.now) = false

lemma sound_iff_timely (self : AuthStore) (call : StoreCall) : self.Sound call ↔ self.Timely call := by
  obtain ⟨entryPoint, now, acquisition⟩ := call
  unfold Sound Timely step
  cases hacq : self.acquires ⟨entryPoint, now, acquisition⟩ with
  | false =>
    cases entryPoint with
    | getAuthState => simp
    | getAccessToken =>
      -- the token that is held has not expired
      cases htok : self.accessToken <;> simp_all [acquires]
  | true =>
    cases acquisition with
    | token expiresAt => cases entryPoint <;> simp
    | error shouldRetry serverFailure =>
      -- the state after a failure is not `OK`, but the expired token is still held
      have hstate : getState shouldRetry serverFailure ≠ .ok := by
        cases shouldRetry <;> cases serverFailure <;> decide
      cases entryPoint with
      | getAuthState => simp [hstate]
      | getAccessToken => cases htok : self.accessToken <;> simp_all [acquires]

/-- Every call of a sequence is sound exactly when every call is timely. -/
theorem calls_sound_iff (calls : List StoreCall) :
    Guarded step Sound {} calls ↔ Guarded step Timely {} calls :=
  guarded_congr (fun _ => True) (fun _ _ _ => trivial) (fun s call _ => s.sound_iff_timely call)
    calls trivial

theorem calls_not_sound :
    ¬Guarded step Sound {} [⟨.getAccessToken, 0, .token 60⟩, ⟨.getAccessToken, 70, .error true true⟩] ∧
    ¬Guarded step Sound {} [⟨.getAccessToken, 0, .token 60⟩, ⟨.getAuthState, 70, .token 90⟩] ∧
    ¬Guarded step Sound {} [⟨.getAuthState, 0, .error false true⟩, ⟨.getAccessToken, 1, .token 60⟩] := by
  simp [Guarded, Sound, step, acquires, hasExpired, getState, AuthState.isFinal]

end AuthStore

end Toolchain.Pants
