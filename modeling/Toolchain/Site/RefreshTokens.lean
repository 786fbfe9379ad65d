import Toolchain.Lib.Concurrent

/-!
# Site.RefreshTokens — refresh tokens that are used while they are revoked

A request loads a row, works on its copy, and `save()` writes *every* column of the copy; only
`deactivate_expired_tokens` is a single `UPDATE`.  A use of a token writes `last_seen` this way, and
undoes a revocation committed in between.  Answers of other tables come with the schedule.
-/

namespace Toolchain.Site

open Lib List Function

inductive AccessTokenState
  | active | expired | revoked
  deriving DecidableEq, Repr

inductive AccessTokenUsage
  | api | ui
  deriving DecidableEq, Repr

structure AllocatedRefreshToken where
  (id userApiId : String)
  expiresAt : Nat
  tokenState : AccessTokenState
  issuedAt : Nat
  lastSeen : Option Nat
  usage : AccessTokenUsage
  description : String
  (repoId audiences : Option String)
  deriving DecidableEq, Repr

namespace AllocatedRefreshToken

def isActive (self : AllocatedRefreshToken) : Bool :=
  self.tokenState = .active

def isExpired (expirationThreshold : Nat) (self : AllocatedRefreshToken) : Bool :=
  self.isActive && self.expiresAt < expirationThreshold

def deactivate (expirationThreshold : Nat) (self : AllocatedRefreshToken) : AllocatedRefreshToken :=
  if self.isExpired expirationThreshold then { self with tokenState := .expired } else self

@[simp] lemma id_deactivate (thr : Nat) (self : AllocatedRefreshToken) :
    (self.deactivate thr).id = self.id := by
  unfold deactivate
  split <;> rfl

end AllocatedRefreshToken

/-! ## The table -/

structure TokenTable where
  rows : List AllocatedRefreshToken
  nodup : (rows.map (·.id)).Nodup

namespace TokenTable

variable {self : TokenTable} {token : AllocatedRefreshToken} {id : String}

def getOrNone (self : TokenTable) (id : String) : Option AllocatedRefreshToken :=
  self.rows.find? fun row => row.id = id

lemma map_id_replace (rows : List AllocatedRefreshToken) (token : AllocatedRefreshToken) :
    (rows.map fun row => if row.id = token.id then token else row).map (·.id) = rows.map (·.id) := by
  rw [map_map]
  apply map_congr_left
  intro row _
  simp only [comp]
  split
  · rename_i heq
    exact heq.symm
  · rfl

def save (self : TokenTable) (token : AllocatedRefreshToken) : TokenTable :=
  if h : token.id ∈ self.rows.map (·.id) then
    { rows := self.rows.map fun row => if row.id = token.id then token else row
      nodup := by
        rw [map_id_replace]
        exact self.nodup }
  else
    { rows := self.rows ++ [token]
      nodup := by
        rw [map_append, nodup_append]
        refine ⟨self.nodup, by simp, ?_⟩
        rintro a ha b hb rfl
        rw [mem_singleton.1 hb] at ha
        exact h ha }

def deactivateExpiredTokens (self : TokenTable) (expirationThreshold : Nat) : TokenTable where
  rows := self.rows.map (·.deactivate expirationThreshold)
  nodup := by
    rw [map_map]
    simpa [comp_def] using self.nodup

/-- The row of the token is there and says that it may not be used. -/
def Inactive (self : TokenTable) (id : String) : Prop :=
  ∃ row, self.getOrNone id = some row ∧ row.isActive = false

instance (self : TokenTable) (id : String) : Decidable (self.Inactive id) :=
  decidable_of_iff (∃ row ∈ self.getOrNone id, row.isActive = false) Iff.rfl

lemma getOrNone_save_self (self : TokenTable) (token : AllocatedRefreshToken) :
    (self.save token).getOrNone token.id = some token := by
  unfold save getOrNone
  split
  · rename_i hmem
    rcases mem_map.1 hmem with ⟨row, hrow, hid⟩
    rw [find?_map]
    have hsom : (self.rows.find? ((fun row => decide (row.id = token.id)) ∘
        fun row => if row.id = token.id then token else row)).isSome := by
      rw [find?_isSome]
      refine ⟨row, hrow, ?_⟩
      simp [hid]
    rcases Option.isSome_iff_exists.1 hsom with ⟨found, hfou⟩
    have hfoun : found.id = token.id := by
      have := find?_some hfou
      simp only [comp] at this
      split at this
      · assumption
      · simpa using this
    rw [hfou, Option.map_some, if_pos hfoun]
  · rename_i hnot
    rw [find?_append, find?_eq_none.2, Option.none_or]
    · simp
    · intro row hrow
      simp only [decide_eq_true_eq]
      intro hid
      exact hnot (mem_map.2 ⟨row, hrow, hid⟩)

lemma getOrNone_save_of_ne (h : id ≠ token.id) : (self.save token).getOrNone id = self.getOrNone id := by
  unfold save getOrNone
  split
  swap
  · simp [find?_append, Ne.symm h]
  rw [find?_map]
  have hsam : ((fun row => decide (row.id = id)) ∘ fun row => if row.id = token.id then token else row) =
      fun row : AllocatedRefreshToken => decide (row.id = id) := by
    funext row
    simp only [comp]
    split
    · rename_i hrow
      rw [hrow]
    · rfl
  rw [hsam]
  cases hfin : self.rows.find? fun row => decide (row.id = id) with
  | none => rfl
  | some row =>
    have hrow : row.id = id := by simpa using find?_some hfin
    rw [Option.map_some, if_neg]
    rwa [hrow]

lemma getOrNone_deactivate (thr : Nat) : (self.deactivateExpiredTokens thr).getOrNone id =
    (self.getOrNone id).map (·.deactivate thr) := by
  unfold deactivateExpiredTokens getOrNone
  simp only [find?_map, comp_def, AllocatedRefreshToken.id_deactivate]

lemma Inactive.save (h : self.Inactive id)
    (hfre : token.isActive = true → ∀ row ∈ self.getOrNone token.id, row.isActive = true) :
    (self.save token).Inactive id := by
  by_cases hid : id = token.id
  swap
  · rcases h with ⟨row, hrow, hina⟩
    exact ⟨row, by rw [getOrNone_save_of_ne hid, hrow], hina⟩
  subst hid
  rcases h with ⟨row, hrow, hina⟩
  refine ⟨token, getOrNone_save_self self token, ?_⟩
  -- an active copy would have to stand for an active row
  cases hact : token.isActive with
  | false => rfl
  | true =>
    have := hfre hact row hrow
    rw [hina] at this
    cases this

lemma Inactive.deactivateExpiredTokens (h : self.Inactive id) (thr : Nat) :
    (self.deactivateExpiredTokens thr).Inactive id := by
  rcases h with ⟨row, hrow, hina⟩
  refine ⟨row.deactivate thr, ?_, ?_⟩
  · rw [getOrNone_deactivate, hrow, Option.map_some]
  · cases hact : (row.deactivate thr).isActive with
    | false => rfl
    | true =>
      unfold AllocatedRefreshToken.deactivate at hact
      split at hact
      · cases hact
      · cases hact.symm.trans hina

end TokenTable

/-! ## The calls -/

/-- The calls, with the time at which a check looked at the clock.  `revoke` and `set_description`
are methods of a copy that the caller has loaded by its id. -/
inductive TokenRequest
  | checkUiRefreshToken (tokenId : String) (now : Nat)
  | checkApiRefreshToken (tokenId repoId customerId : String) (now : Nat)
  | revoke (tokenId : String)
  | setDescription (tokenId desc : String)
  | deactivateExpiredTokens (expirationThreshold : Nat)
  deriving DecidableEq, Repr

namespace TokenRequest

def checkedToken? : TokenRequest → Option String
  | .checkUiRefreshToken tokenId _ => some tokenId
  | .checkApiRefreshToken tokenId _ _ _ => some tokenId
  | _ => none

end TokenRequest

inductive TokenResult
  | checked (valid : Bool) (reason : Option String)
  | revoked (changed : Bool)
  | described
  | deactivated (count : Nat)
  | notFound
  deriving DecidableEq, Repr

inductive TokenPoint
  | start
  | isActiveAndExists (token : AllocatedRefreshToken) (now : Nat)
  | existsForCustomer (token : AllocatedRefreshToken) (now : Nat)
  | existsUserAndId (token : AllocatedRefreshToken) (now : Nat)
  | save (token : AllocatedRefreshToken) (result : TokenResult)
  | returned (result : TokenResult)
  deriving DecidableEq, Repr

structure TokenCall where
  request : TokenRequest
  point : TokenPoint
  deriving DecidableEq, Repr

namespace TokenCall

def begin (request : TokenRequest) : TokenCall where
  request := request
  point := .start

end TokenCall

namespace RefreshTokens

/-- `_check_token`: the copy of a token that may be used, or the reason why there is none. -/
def checkToken (table : TokenTable) (tokenId : String) (now : Nat) (usage : AccessTokenUsage) :
    Except String AllocatedRefreshToken :=
  match table.getOrNone tokenId with
  | none => .error "unknown_token_id"
  | some token =>
    if token.usage ≠ usage then
      .error "invalid_token_usage"
    else if token.isActive && now < token.expiresAt then .ok token else .error "inactive_token"

def afterCheck (next : AllocatedRefreshToken → TokenPoint) :
    Except String AllocatedRefreshToken → TokenPoint
  | .ok token => next token
  | .error reason => .returned (.checked false (some reason))

def afterQuestion (next : TokenPoint) (reason : String) : Bool → TokenPoint
  | true => next
  | false => .returned (.checked false (some reason))

def seen (token : AllocatedRefreshToken) (now : Nat) : TokenPoint :=
  .save { token with lastSeen := some now } (.checked true none)

def start (table : TokenTable) : TokenRequest → TokenTable × TokenPoint
  | .checkUiRefreshToken tokenId now =>
    (table, afterCheck (.isActiveAndExists · now) (checkToken table tokenId now .ui))
  | .checkApiRefreshToken tokenId _ _ now =>
    (table, afterCheck (.existsForCustomer · now) (checkToken table tokenId now .api))
  | .revoke tokenId =>
    match table.getOrNone tokenId with
    | none => (table, .returned .notFound)
    | some token =>
      if token.isActive then
        (table, .save { token with tokenState := .revoked } (.revoked true))
      else
        (table, .returned (.revoked false))
  | .setDescription tokenId desc =>
    match table.getOrNone tokenId with
    | none => (table, .returned .notFound)
    | some token => (table, .save { token with description := desc } .described)
  | .deactivateExpiredTokens expirationThreshold =>
    (table.deactivateExpiredTokens expirationThreshold,
      .returned (.deactivated (table.rows.countP (·.isExpired expirationThreshold))))

def advance (table : TokenTable) (request : TokenRequest) (answer : Bool) :
    TokenPoint → TokenTable × TokenPoint
  | .start => start table request
  | .isActiveAndExists token now => (table, afterQuestion (seen token now) "invalid_user" answer)
  | .existsForCustomer token now => (table, afterQuestion (.existsUserAndId token now) "repo_mismatch" answer)
  | .existsUserAndId token now => (table, afterQuestion (seen token now) "customer_mismatch" answer)
  | .save token result => (table.save token, .returned result)
  | .returned result => (table, .returned result)

def statement (table : TokenTable) (call : TokenCall) (answer : Bool) : TokenTable × TokenCall :=
  ((advance table call.request answer call.point).1,
    { call with point := (advance table call.request answer call.point).2 })

abbrev TokenEvent := Scheduled TokenRequest Bool

def tokensAfter (table : TokenTable) (events : List TokenEvent) : Concurrent TokenTable TokenCall :=
  run (Concurrent.step TokenCall.begin statement) (Concurrent.init table) events

/-! ## Permanence -/

def Unread (s : Concurrent TokenTable TokenCall) (index : Nat) : Prop :=
  ∀ call, s.calls[index]? = some call → call.point = .start

/-- Once a token is committed as revoked or expired, it stays so, and no check that loads it later
succeeds. -/
def RevocationPermanent (table : TokenTable) (events : List TokenEvent) : Prop :=
  ∀ before since rest, events = before ++ since ++ rest → ∀ id,
    (tokensAfter table before).shared.Inactive id →
      (tokensAfter table (before ++ since)).shared.Inactive id ∧ ∀ index call,
        Unread (tokensAfter table before) index →
          (tokensAfter table (before ++ since)).calls[index]? = some call →
            call.request.checkedToken? = some id → call.point ≠ .returned (.checked true none)

/-- A copy that says active is written only over a row that still does. -/
def FreshSave (table : TokenTable) (call : TokenCall) (_ : Bool) : Prop :=
  match call.point with
  | .save token _ => token.isActive = true → ∀ row ∈ table.getOrNone token.id, row.isActive = true
  | _ => True

def Refused (id : String) (call : TokenCall) : Prop :=
  call.request.checkedToken? = some id → call.point = .start ∨
    ∃ reason, call.point = .returned (.checked false reason)

variable {tbl : TokenTable} {id : String}

lemma checkToken_of_inactive (h : tbl.Inactive id) (now : Nat)
    (usage : AccessTokenUsage) : ∃ reason, checkToken tbl id now usage = .error reason := by
  rcases h with ⟨row, hrow, hina⟩
  unfold checkToken
  simp only [hrow, hina, Bool.false_and, Bool.false_eq_true, if_false]
  split
  · exact ⟨_, rfl⟩
  · exact ⟨_, rfl⟩

lemma advance_fst (tbl : TokenTable) (rq : TokenRequest) (ans : Bool) (pt : TokenPoint) :
    (advance tbl rq ans pt).1 = tbl ∨
      (∃ thr, (advance tbl rq ans pt).1 = tbl.deactivateExpiredTokens thr) ∨
    ∃ token res, pt = .save token res ∧ (advance tbl rq ans pt).1 = tbl.save token := by
  cases pt with
  | start =>
    cases rq with
    | checkUiRefreshToken tokenId now | checkApiRefreshToken tokenId repoId customerId now =>
      exact .inl rfl
    | revoke tokenId =>
      refine .inl ?_
      simp only [advance, start]
      split
      · rfl
      · split <;> rfl
    | setDescription tokenId desc =>
      refine .inl ?_
      simp only [advance, start]
      split <;> rfl
    | deactivateExpiredTokens thr => exact .inr (.inl ⟨thr, rfl⟩)
  | isActiveAndExists token now | existsForCustomer token now | existsUserAndId token now => exact .inl rfl
  | save token res => exact .inr (.inr ⟨token, res, rfl, rfl⟩)
  | returned res => exact .inl rfl

lemma inactive_statement (h : tbl.Inactive id) {call : TokenCall} {ans : Bool}
    (hfre : FreshSave tbl call ans) :
    (statement tbl call ans).1.Inactive id := by
  rcases advance_fst tbl call.request ans call.point with
    heq | ⟨thr, heq⟩ | ⟨token, result, hpoi, heq⟩
  · exact (congrArg (TokenTable.Inactive · id) heq).mpr h
  · exact (congrArg (TokenTable.Inactive · id) heq).mpr (h.deactivateExpiredTokens _)
  · refine (congrArg (TokenTable.Inactive · id) heq).mpr (h.save ?_)
    simpa only [FreshSave, hpoi] using hfre

open TokenRequest

lemma refused_statement (h : tbl.Inactive id) {call : TokenCall} (ans : Bool) (href : Refused id call) :
    Refused id (statement tbl call ans).2 := by
  intro hche
  rcases href hche with hsta | ⟨reas, hret⟩
  swap
  · exact .inr ⟨reas, by simp only [statement, hret, advance]⟩
  refine .inr ?_
  show ∃ reas, (advance tbl call.request ans call.point).2 = _
  rw [hsta]
  cases hreq : call.request with
  | checkUiRefreshToken token now =>
    obtain rfl : token = id := by simpa [statement, hreq, checkedToken?] using hche
    rcases checkToken_of_inactive h now .ui with ⟨reas, herr⟩
    exact ⟨some reas, by simp only [advance, start, herr, afterCheck]⟩
  | checkApiRefreshToken token repo cus now =>
    obtain rfl : token = id := by simpa [statement, hreq, checkedToken?] using hche
    rcases checkToken_of_inactive h now .api with ⟨reas, herr⟩
    exact ⟨some reas, by simp only [advance, start, herr, afterCheck]⟩
  | revoke token | setDescription token desc => simp [statement, hreq, checkedToken?] at hche
  | deactivateExpiredTokens thr => simp [statement, hreq, checkedToken?] at hche

lemma annotated_of_guarded {s : Concurrent TokenTable TokenCall}
    (hina : s.shared.Inactive id) (idx : Nat) (hunr : Unread s idx) {evs : List TokenEvent}
    (hfre : Guarded (Concurrent.step TokenCall.begin statement) (Concurrent.Allowed FreshSave) s evs) :
    Concurrent.Annotated (TokenTable.Inactive · id) (fun i _ call => i = idx → Refused id call)
    (run (Concurrent.step TokenCall.begin statement) s evs) := by
  refine forall_trace_of_guarded _ ?_ ⟨hina, ?_⟩ hfre _ (run_mem_trace s evs)
  · intro t event ht hall
    refine ht.step ?_ ?_ ?_ hall
    · rintro i tbl request - - -
      exact .inl rfl
    · intro i tbl call answer htab hcal hsav
      exact ⟨inactive_statement htab hsav, fun hi => refused_statement htab answer (hcal hi)⟩
    · intro i other tbl call answer next htab hcal hsav hne hnex
      exact hnex
  · rintro i call hcal rfl -
    exact .inl (hunr call hcal)

/-- Revocation is permanent exactly if no call writes back an active copy over a row that is not
active any more. -/
theorem revocationPermanent_iff (table : TokenTable) (events : List TokenEvent) :
    RevocationPermanent table events ↔
    Guarded (Concurrent.step TokenCall.begin statement) (Concurrent.Allowed FreshSave)
    (Concurrent.init table) events := by
  constructor
  · intro hper
    rw [guarded_iff_forall_split]
    intro bef event rest heq
    cases event with
    | begin request => trivial
    | advance index answer =>
      intro call hcal
      unfold FreshSave
      split
      swap
      · trivial
      rename_i token res hpoi
      intro hact row hrow
      -- otherwise this very step activates the token
      by_contra hina
      have hspl : events = bef ++ [Scheduled.advance index answer] ++ rest := by simpa using heq
      have hsti := (hper bef _ rest hspl token.id ⟨row, hrow, by simpa using hina⟩).1
      have hsha : (tokensAfter table (bef ++ [.advance index answer])).shared =
          (tokensAfter table bef).shared.save token := by
        unfold tokensAfter
        rw [run_append, run_cons, run_nil, Concurrent.step_advance hcal]
        simp only [statement, hpoi, advance]
      rw [hsha] at hsti
      rcases hsti with ⟨saved, hsav, hsti⟩
      rw [TokenTable.getOrNone_save_self] at hsav
      cases hsav
      rw [hact] at hsti
      cases hsti
  · rintro hfre bef since rest rfl id hina
    rw [guarded_append, guarded_append] at hfre
    have hsin := hfre.1.2
    constructor
    · -- any call that has not begun will do
      have hunr : Unread (tokensAfter table bef) (tokensAfter table bef).calls.length := by
        intro call hcal
        simp at hcal
      have haft := (annotated_of_guarded hina _ hunr hsin).invariant
      simpa only [tokensAfter, run_append] using haft
    · intro index call hunr hcal hche hret
      have hass := (annotated_of_guarded hina index hunr hsin).assertions index call
        (by simpa only [tokensAfter, run_append] using hcal) rfl
      rcases hass hche with hsta | ⟨reas, href⟩
      · rw [hsta] at hret
        cases hret
      · rw [href] at hret
        cases hret

/-! ## A revocation that is undone -/

def laptop : AllocatedRefreshToken where
  id := "laptop"
  userApiId := "user"
  expiresAt := 100
  tokenState := .active
  issuedAt := 0
  lastSeen := none
  usage := .ui
  description := "NA"
  repoId := some ""
  audiences := some ""

def issued : TokenTable where
  rows := [laptop]
  nodup := by simp

def usedWhileRevoked : List TokenEvent :=
  [.begin (.checkUiRefreshToken "laptop" 1), .advance 0 true, .advance 0 true,
    .begin (.revoke "laptop"), .advance 1 true, .advance 1 true]

def usedAfterwards : List TokenEvent :=
  [.advance 0 true, .begin (.checkUiRefreshToken "laptop" 2), .advance 2 true, .advance 2 true, .advance 2 true]

theorem revocation_undone :
    ((tokensAfter issued usedWhileRevoked).shared.Inactive "laptop" ∧ (tokensAfter issued usedWhileRevoked).calls[1]? =
    some ⟨.revoke "laptop", .returned (.revoked true)⟩) ∧
    ¬(tokensAfter issued (usedWhileRevoked ++ usedAfterwards)).shared.Inactive "laptop" ∧
    (tokensAfter issued (usedWhileRevoked ++ usedAfterwards)).calls[2]? =
    some ⟨.checkUiRefreshToken "laptop" 2, .returned (.checked true none)⟩ := by
  decide +kernel

end RefreshTokens
end Toolchain.Site
