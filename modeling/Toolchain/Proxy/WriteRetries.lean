import Toolchain.Lib.Run
import Toolchain.Lib.Text

/-!
# Proxy.WriteRetries — two attempts on one stream of messages

The proxy tries a write twice on one stream of messages behind a mutex.  A flag is to keep the second
attempt from starting where messages are gone; it is read once, but the transport may still poll the
generator of the first attempt.  The second attempt sees all messages exactly if that one takes nothing
any more (`step_faithful_iff`, `step_gap`).

Models `write` of `proxy/src/server/byte_stream_service.rs` and `client_call` and `is_retryable` of
`mod.rs` there.
-/

namespace Toolchain.Proxy

open Lib List

/-! ## The call -/

inductive GrpcCode
  | ok | cancelled | unknown | invalidArgument | deadlineExceeded | notFound | alreadyExists
  | permissionDenied | resourceExhausted | failedPrecondition | aborted | outOfRange
  | unimplemented | internal | unavailable | dataLoss | unauthenticated
  deriving DecidableEq, Repr

structure GrpcStatus where
  code : GrpcCode
  message : Text
  deriving DecidableEq, Repr

def isRetryable (status : GrpcStatus) : Bool :=
  match status.code with
  | .aborted | .cancelled | .internal | .resourceExhausted | .unavailable | .unknown => true
  | _ => false

inductive Attempt
  | first | second
  deriving DecidableEq, Repr

/-- Where `client_call` is: before the flag is read, awaiting the answer, before the generator's error
is looked at, and at the end. -/
inductive CallPoint (R : Type)
  | calling (attempt : Attempt)
  | sending (attempt : Attempt)
  | responded (attempt : Attempt) (response : Except GrpcStatus R)
  | done (result : Except GrpcStatus R)
  deriving DecidableEq

def CallPoint.after {R : Type} (attempt : Attempt) (result : Except GrpcStatus R) : CallPoint R :=
  match attempt, result with
  | .first, .error status => if isRetryable status then .calling .second else .done result
  | _, _ => .done result

/-! ## The generators -/

/-- Where the generator is.  It holds the mutex from `reading` until the message was relayed. -/
inductive GeneratorPoint (M : Type)
  | idle | start | waiting | reading
  | took (item : Except GrpcStatus M)
  | failing (error : GrpcStatus)
  | relaying | ended
  deriving DecidableEq

/-- The generator of an attempt.  `received` is what it has yielded to the backend and `taken` are
the messages it has taken off the stream. -/
structure Generator (M : Type) where
  point : GeneratorPoint M
  (received taken : List M)
  writeError : Option GrpcStatus
  deriving DecidableEq

def Generator.idle (M : Type) : Generator M where
  point := .idle
  received := []
  taken := []
  writeError := none

structure Relay (M R : Type) where
  firstMsg : M
  remaining : List (Except GrpcStatus M)
  lock : Option Attempt
  alreadySawMessages : Bool
  generator : Attempt → Generator M
  call : CallPoint R

inductive RelayEvent (R : Type)
  | check
  | respond (response : Except GrpcStatus R)
  | takeError
  | poll (attempt : Attempt)
  | drop (attempt : Attempt)

namespace Relay

variable {M R : Type}

def accept (getClient : M → Except GrpcStatus Unit) :
    List (Except GrpcStatus M) → Except GrpcStatus (Relay M R)
  | [] => .error { code := .aborted, message := "connection closed".toList }
  | .error status :: _ => .error status
  | .ok firstMsg :: rest =>
    match getClient firstMsg with
    | .error status => .error status
    | .ok () =>
      .ok { firstMsg := firstMsg, remaining := rest, lock := none, alreadySawMessages := false
            generator := fun _ => .idle M, call := .calling .first }

def setGenerator (s : Relay M R) (attempt : Attempt) (generator : Generator M) : Relay M R :=
  { s with generator := Function.update s.generator attempt generator }

def unlock (s : Relay M R) (attempt : Attempt) : Relay M R :=
  if s.lock = some attempt then { s with lock := none } else s

def requestAborted : GrpcStatus where
  code := .aborted
  message := "Request aborted due to backend error; please retry request".toList

def check (s : Relay M R) : Relay M R :=
  match s.call with
  | .calling attempt =>
    if s.alreadySawMessages then
      { s with call := .after attempt (.error requestAborted) }
    else
      { s.setGenerator attempt { s.generator attempt with point := .start } with
        call := .sending attempt }
  | _ => s

def respond (s : Relay M R) (response : Except GrpcStatus R) : Relay M R :=
  match s.call with
  | .sending attempt => { s with call := .responded attempt response }
  | _ => s

def takeError (s : Relay M R) : Relay M R :=
  match s.call with
  | .responded attempt response =>
    let result :=
      match (s.generator attempt).writeError with
      | some error => .error error
      | none => response
    { s.setGenerator attempt { s.generator attempt with writeError := none } with
      call := .after attempt result }
  | _ => s

def poll (s : Relay M R) (attempt : Attempt) : Relay M R :=
  let generator := s.generator attempt
  match generator.point with
  | .start =>
    s.setGenerator attempt
      { generator with point := .waiting, received := generator.received ++ [s.firstMsg] }
  | .waiting =>
    match s.lock with
    | none => { s.setGenerator attempt { generator with point := .reading } with lock := some attempt }
    | some _ => s
  | .reading =>
    match s.remaining with
    | [] => (s.setGenerator attempt { generator with point := .ended }).unlock attempt
    | .ok message :: rest =>
      { s.setGenerator attempt { generator with
          point := .took (.ok message), taken := generator.taken ++ [message] } with
        remaining := rest }
    | .error error :: rest =>
      { s.setGenerator attempt { generator with point := .took (.error error) } with
        remaining := rest }
  | .took (.ok message) =>
    { s.setGenerator attempt
        { generator with point := .relaying, received := generator.received ++ [message] } with
      alreadySawMessages := true }
  | .took (.error error) =>
    { s.setGenerator attempt { generator with point := .failing error } with
      alreadySawMessages := true }
  | .failing error =>
    (s.setGenerator attempt { generator with point := .ended, writeError := some error }).unlock attempt
  | .relaying => (s.setGenerator attempt { generator with point := .waiting }).unlock attempt
  | .idle | .ended => s

def drop (s : Relay M R) (attempt : Attempt) : Relay M R :=
  match (s.generator attempt).point with
  | .idle | .took _ | .ended => s
  | .start | .waiting | .reading | .failing _ | .relaying =>
    (s.setGenerator attempt { s.generator attempt with point := .ended }).unlock attempt

def step (s : Relay M R) : RelayEvent R → Relay M R
  | .check => s.check
  | .respond response => s.respond response
  | .takeError => s.takeError
  | .poll attempt => s.poll attempt
  | .drop attempt => s.drop attempt

/-! ## What the attempts see -/

def messagesOf : List (Except GrpcStatus M) → List M
  | [] => []
  | .ok message :: rest => message :: messagesOf rest
  | .error _ :: rest => messagesOf rest

def Fed (s : Relay M R) (attempt : Attempt) : Prop := (s.generator attempt).point ≠ .idle

/-- Each attempt has received the messages from the first one on, and the second attempt was made
only if the first one has taken no message off the stream. -/
structure Faithful (stream : List (Except GrpcStatus M)) (s : Relay M R) : Prop where
  received : ∀ attempt, (s.generator attempt).received <+: messagesOf stream
  untaken : s.Fed .second → (s.generator .first).taken = []

/-- The first generator takes no message once the second attempt was made, and has none in its
hands, with the flag not yet set, when the flag is read. -/
def Undisturbed (s : Relay M R) : RelayEvent R → Prop
  | .check => s.call = .calling .second → s.alreadySawMessages = false →
      ∀ message, (s.generator .first).point ≠ .took (.ok message)
  | .poll .first => (s.generator .first).point = .reading →
      ∀ message rest, s.remaining = .ok message :: rest → ¬s.Fed .second
  | _ => True

/-! ## The invariant -/

def Tracks (firstMsg : M) (generator : Generator M) : Prop :=
  match generator.point with
  | .idle | .start => generator.received = [] ∧ generator.taken = []
  | .took (.ok message) =>
    ∃ before, generator.taken = before ++ [message] ∧ generator.received = firstMsg :: before
  | .waiting | .reading | .took (.error _) | .failing _ | .relaying =>
    generator.received = firstMsg :: generator.taken
  | .ended => generator.received <+: firstMsg :: generator.taken

lemma Tracks.isPrefix {msg : M} {gen : Generator M} (h : Tracks msg gen) :
    gen.received <+: msg :: gen.taken := by
  unfold Tracks at h
  split at h
  · rw [h.1]
    exact nil_prefix
  · rw [h.1]
    exact nil_prefix
  · obtain ⟨bef, htak, hrec⟩ := h
    rw [htak, hrec]
    exact prefix_append (msg :: bef) _
  all_goals first | exact h | exact h ▸ prefix_rfl

def Unmade : CallPoint R → Attempt → Prop
  | .calling .first, _ => True
  | .calling .second, .second => True
  | .sending .first, .second => True
  | .responded .first _, .second => True
  | _, _ => False

structure Relayed (stream : List (Except GrpcStatus M)) (s : Relay M R) : Prop where
  split : messagesOf stream =
    s.firstMsg :: ((s.generator .first).taken ++ (s.generator .second).taken ++ messagesOf s.remaining)
  tracks : ∀ attempt, Tracks s.firstMsg (s.generator attempt)
  flagged : (s.generator .first).taken ≠ [] → s.alreadySawMessages = true ∨
    ∃ message, (s.generator .first).point = .took (.ok message)
  untaken : s.Fed .second → (s.generator .first).taken = []
  unmade : ∀ attempt, Unmade s.call attempt → (s.generator attempt).point = .idle

variable {stream strm : List (Except GrpcStatus M)} {s : Relay M R}

lemma Relayed.faithful (h : Relayed strm s) : Faithful strm s where
  untaken := h.untaken
  received attempt := by
    refine (h.tracks attempt).isPrefix.trans ?_
    rw [h.split, prefix_cons_inj, append_assoc]
    cases attempt with
    | first => exact prefix_append _ _
    | second =>
      by_cases hidl : (s.generator .second).point = .idle
      · have htra := h.tracks .second
        rw [Tracks, hidl] at htra
        rw [htra.2]
        exact nil_prefix
      · rw [h.untaken hidl]
        exact prefix_append _ _

lemma unlock_eq (s : Relay M R) (att : Attempt) : ∃ lock, s.unlock att = { s with lock := lock } := by
  unfold unlock
  split
  · exact ⟨none, rfl⟩
  · exact ⟨s.lock, rfl⟩

lemma Relayed.setLock (h : Relayed strm s) (lock : Option Attempt) :
    Relayed strm { s with lock := lock } :=
  ⟨h.split, h.tracks, h.flagged, h.untaken, h.unmade⟩

lemma Relayed.unlock (h : Relayed strm s) (att : Attempt) : Relayed strm (s.unlock att) := by
  obtain ⟨lock, heq⟩ := unlock_eq s att
  rw [heq]
  exact h.setLock lock

@[simp] lemma setGenerator_self (s : Relay M R) (att : Attempt) (generator : Generator M) :
    (s.setGenerator att generator).generator att = generator :=
  Function.update_self ..

lemma setGenerator_of_ne {att other : Attempt} (h : other ≠ att) (s : Relay M R) (gen : Generator M) :
    (s.setGenerator att gen).generator other = s.generator other :=
  Function.update_of_ne h ..

variable (att : Attempt)

section

variable (h : Relayed strm s)

include h

lemma Relayed.advance {attempt : Attempt} {gen : Generator M}
    (hmad : s.Fed attempt) (htak : gen.taken = (s.generator attempt).taken)
    (htra : Tracks s.firstMsg gen) {remaining : List (Except GrpcStatus M)}
    (hrem : messagesOf remaining = messagesOf s.remaining) {flag : Bool}
    (hfla : s.alreadySawMessages = true → flag = true)
    (htoo : ∀ msg, (s.generator attempt).point = .took (.ok msg) → flag = true) :
    Relayed strm { s.setGenerator attempt gen with
      remaining := remaining, alreadySawMessages := flag } := by
  have hsam : ∀ other, (s.setGenerator attempt gen).generator other =
      if other = attempt then gen else s.generator other := by
    intro other
    split_ifs with heq
    · rw [heq, setGenerator_self]
    · exact setGenerator_of_ne heq s gen
  have hall : ∀ other, ((s.setGenerator attempt gen).generator other).taken =
    (s.generator other).taken := by
    intro other
    rw [hsam]
    split_ifs with heq
    · rw [htak, heq]
    · rfl
  constructor
  · change _ = s.firstMsg :: (((s.setGenerator attempt gen).generator .first).taken ++
      ((s.setGenerator attempt gen).generator .second).taken ++ messagesOf remaining)
    rw [hall, hall, hrem]
    exact h.split
  · intro other
    change Tracks s.firstMsg ((s.setGenerator attempt gen).generator other)
    rw [hsam]
    split_ifs
    · exact htra
    · exact h.tracks other
  · intro hne
    change ((s.setGenerator attempt gen).generator .first).taken ≠ [] at hne
    rw [hall] at hne
    rcases h.flagged hne with hset | ⟨msg, hpoi⟩
    · exact .inl (hfla hset)
    by_cases heq : attempt = .first
    · exact .inl (htoo msg (heq ▸ hpoi))
    · refine .inr ⟨msg, ?_⟩
      change ((s.setGenerator attempt gen).generator .first).point = _
      rw [setGenerator_of_ne (Ne.symm heq), hpoi]
  · intro hfed
    change ((s.setGenerator attempt gen).generator .first).taken = []
    rw [hall]
    refine h.untaken ?_
    change ((s.setGenerator attempt gen).generator .second).point ≠ .idle at hfed
    rw [hsam] at hfed
    split_ifs at hfed with heq
    · exact heq ▸ hmad
    · exact hfed
  · intro other hunm
    have hoth := h.unmade other hunm
    have hne : other ≠ attempt := fun heq => hmad (heq ▸ hoth)
    change ((s.setGenerator attempt gen).generator other).point = .idle
    rw [setGenerator_of_ne hne, hoth]

lemma Relayed.take {attempt : Attempt} {msg : M}
    {rest : List (Except GrpcStatus M)} (hpoi : (s.generator attempt).point = .reading)
    (hrem : s.remaining = .ok msg :: rest) (halo : attempt = .first → ¬s.Fed .second) :
    Relayed strm { s.setGenerator attempt { s.generator attempt with
      point := .took (.ok msg), taken := (s.generator attempt).taken ++ [msg] } with
      remaining := rest } := by
  have htra := h.tracks attempt
  rw [Tracks, hpoi] at htra
  have hspl := h.split
  rw [hrem, messagesOf] at hspl
  have hunm : ∀ other, Unmade s.call other → other ≠ attempt := by
    rintro other hoth rfl
    rw [h.unmade other hoth] at hpoi
    cases hpoi
  cases attempt with
  | first =>
    have hidl := not_not.mp (halo rfl)
    have hsec := h.tracks .second
    rw [Tracks, hidl] at hsec
    constructor
    · simpa [setGenerator, hsec.2] using hspl
    · intro other
      cases other with
      | first => exact ⟨_, rfl, htra⟩
      | second => exact h.tracks .second
    · exact fun _ => .inr ⟨msg, rfl⟩
    · exact fun hfed => absurd hidl hfed
    · intro other hoth
      have hne := hunm other hoth
      cases other with
      | first => exact absurd rfl hne
      | second => exact hidl
  | second =>
    have hfed : s.Fed .second := by
      rw [Fed, hpoi]
      nofun
    constructor
    · simpa [setGenerator, h.untaken hfed] using hspl
    · intro other
      cases other with
      | first => exact h.tracks .first
      | second => exact ⟨_, rfl, htra⟩
    · exact h.flagged
    · exact fun _ => h.untaken hfed
    · intro other hoth
      have hne := hunm other hoth
      cases other with
      | first => exact h.unmade .first hoth
      | second => exact absurd rfl hne

lemma Relayed.moveTo (pt : GeneratorPoint M) (hfed : (s.generator att).point ≠ .idle)
    (htoo : ∀ msg, (s.generator att).point ≠ .took (.ok msg))
    (htra : Tracks s.firstMsg { s.generator att with point := pt }) :
    Relayed strm (s.setGenerator att { s.generator att with point := pt }) :=
  h.advance hfed (by rfl) htra rfl id fun msg hpoi => absurd hpoi (htoo msg)

lemma Relayed.poll (hgua : s.Undisturbed (.poll att)) : Relayed strm (s.poll att) := by
  have htra := h.tracks att
  unfold Relay.poll
  dsimp only
  cases hpoi : (s.generator att).point with
  | idle | ended => exact h
  | start =>
    simp only [Tracks, hpoi] at htra
    refine h.advance (by simp [Fed, hpoi]) (by rfl) ?_ rfl id (by simp [hpoi])
    change (s.generator att).received ++ [s.firstMsg] = s.firstMsg :: _
    rw [htra.1, htra.2]
    rfl
  | waiting =>
    simp only [Tracks, hpoi] at htra
    dsimp only
    split
    · exact (h.moveTo att .reading (by simp [hpoi]) (by simp [hpoi]) htra).setLock _
    · exact h
  | reading =>
    simp only [Tracks, hpoi] at htra
    dsimp only
    split
    · exact (h.moveTo att .ended (by simp [hpoi]) (by simp [hpoi]) (h.tracks att).isPrefix).unlock _
    · rename_i msg rest hrem
      refine h.take hpoi hrem ?_
      rintro rfl
      exact hgua hpoi msg rest hrem
    · rename_i error rest hrem
      refine h.advance (by simp [Fed, hpoi]) (by rfl) ?_ ?_ id (by simp [hpoi])
      · exact htra
      · rw [hrem, messagesOf]
  | took item =>
    cases item with
    | ok msg =>
      simp only [Tracks, hpoi] at htra
      obtain ⟨bef, htak, hrec⟩ := htra
      refine h.advance (by simp [Fed, hpoi]) (by rfl) ?_ rfl (fun _ => rfl) (fun _ _ => rfl)
      change (s.generator att).received ++ [msg] = s.firstMsg :: _
      rw [htak, hrec]
      rfl
    | error error =>
      simp only [Tracks, hpoi] at htra
      refine h.advance (by simp [Fed, hpoi]) (by rfl) ?_ rfl (fun _ => rfl) (fun _ _ => rfl)
      exact htra
  | failing error =>
    refine (h.advance (by simp [Fed, hpoi]) (by rfl) ?_ rfl id (by simp [hpoi])).unlock _
    exact htra.isPrefix
  | relaying =>
    simp only [Tracks, hpoi] at htra
    exact (h.moveTo att .waiting (by simp [hpoi]) (by simp [hpoi]) htra).unlock _

lemma Relayed.drop :
    Relayed strm (s.drop att) := by
  unfold Relay.drop
  -- what a dropped generator has received stays part of the stream
  split
  · exact h
  · exact h
  · exact h
  all_goals
    rename_i hpoi
    exact (h.moveTo att .ended (by simp [hpoi]) (by simp [hpoi])
      (h.tracks att).isPrefix).unlock _

lemma Relayed.setCall {call : CallPoint R}
    (hcal : ∀ attempt, Unmade call attempt → Unmade s.call attempt) :
    Relayed strm { s with call := call } :=
  ⟨h.split, h.tracks, h.flagged, h.untaken, fun attempt hatt => h.unmade attempt (hcal attempt hatt)⟩

end

lemma unmade_after {att oth : Attempt} {res : Except GrpcStatus R}
    (h : Unmade (CallPoint.after att res) oth) : att = .first ∧ oth = .second := by
  unfold CallPoint.after at h
  split at h
  · split_ifs at h
    · cases oth with
      | first => exact h.elim
      | second => exact ⟨rfl, rfl⟩
    · exact h.elim
  · exact h.elim

section

variable (h : Relayed stream s)

include h

lemma Relayed.startFirst (hcal : s.call = .calling .first)
    (hfre : (s.generator .first).received = [] ∧ (s.generator .first).taken = []) :
    Relayed stream ({ s.setGenerator .first { s.generator .first with point := .start } with
      call := .sending .first } : Relay M R) := by
  have hsec : (s.generator .second).point = .idle := by
    refine h.unmade .second ?_
    rw [hcal]
    trivial
  refine ⟨h.split, ?_, fun htak => absurd hfre.2 htak, fun hfed => absurd hsec hfed, ?_⟩
  · intro other
    cases other with
    | first => exact hfre
    | second => exact h.tracks .second
  · intro other hoth
    cases other with
    | first => exact hoth.elim
    | second => exact hsec

lemma Relayed.startSecond (hfre : (s.generator .second).received = [] ∧ (s.generator .second).taken = [])
    (hunt : (s.generator .first).taken = []) :
    Relayed stream ({ s.setGenerator .second { s.generator .second with point := .start } with
      call := .sending .second } : Relay M R) := by
  refine ⟨h.split, ?_, h.flagged, fun _ => hunt, ?_⟩
  · intro other
    cases other with
    | first => exact h.tracks .first
    | second => exact hfre
  · intro other hoth
    cases other <;> exact hoth.elim

lemma Relayed.check (hgua : s.Undisturbed .check) : Relayed stream s.check := by
  unfold Relay.check
  split
  swap
  · exact h
  rename_i attempt hcal
  split_ifs with hfla
  · refine h.setCall ?_
    intro other hoth
    obtain ⟨rfl, rfl⟩ := unmade_after hoth
    rw [hcal]
    trivial
  · have hidl : (s.generator attempt).point = .idle := by
      refine h.unmade attempt ?_
      rw [hcal]
      cases attempt <;> trivial
    have hfre := h.tracks attempt
    simp only [Tracks, hidl] at hfre
    cases attempt with
    | first => exact h.startFirst hcal hfre
    | second =>
      -- with the flag unset, a message of the first generator is still in its hands
      refine h.startSecond hfre (by_contra fun htak => ?_)
      rcases h.flagged htak with hset | ⟨msg, hpoi⟩
      · exact hfla hset
      · exact hgua hcal (Bool.eq_false_iff.mpr hfla) msg hpoi

lemma Relayed.respond (resp : Except GrpcStatus R) : Relayed stream (s.respond resp) := by
  unfold Relay.respond
  split
  · rename_i attempt hcal
    refine h.setCall ?_
    rw [hcal]
    intro other hoth
    cases attempt <;> cases other <;> exact hoth
  · exact h

lemma Relayed.clearError :
    Relayed stream (s.setGenerator att { s.generator att with writeError := none }) := by
  constructor
  · cases att <;> exact h.split
  · intro other
    cases att <;> cases other <;> exact h.tracks _
  · cases att <;> exact h.flagged
  · cases att <;> exact h.untaken
  · intro other hoth
    cases att <;> cases other <;> exact h.unmade _ hoth

lemma Relayed.takeError : Relayed stream s.takeError := by
  unfold Relay.takeError
  split
  · rename_i attempt resp hcal
    refine (h.clearError attempt).setCall ?_
    intro other hoth
    obtain ⟨rfl, rfl⟩ := unmade_after hoth
    change Unmade s.call .second
    rw [hcal]
    trivial
  · exact h

lemma Relayed.step (ev : RelayEvent R) (hgua : s.Undisturbed ev) : Relayed stream (s.step ev) := by
  cases ev with
  | check => exact h.check hgua
  | respond resp => exact h.respond resp
  | takeError => exact h.takeError
  | poll attempt => exact h.poll attempt hgua
  | drop attempt => exact h.drop attempt

end

lemma relayed_of_accept {getClient : M → Except GrpcStatus Unit}
    (h : accept getClient strm = .ok s) : Relayed strm s := by
  unfold accept at h
  split at h
  · cases h
  · cases h
  split at h
  · cases h
  · cases h
    exact ⟨rfl, fun _ => ⟨rfl, rfl⟩, fun htak => absurd rfl htak, fun hfed => absurd rfl hfed,
      fun _ _ => rfl⟩

lemma Relayed.undisturbed (h : Relayed strm s) {event : RelayEvent R}
    (hfai : Faithful strm (s.step event)) : s.Undisturbed event := by
  cases event with
  | check =>
    intro hcal hfla msg hpoi
    have hste : s.step .check =
        { s.setGenerator .second { s.generator .second with point := .start } with
          call := .sending .second } := by
      simp [Relay.step, Relay.check, hcal, hfla]
    rw [hste] at hfai
    have htak : (s.generator .first).taken = [] := hfai.untaken (by simp [Fed])
    have htra := h.tracks .first
    simp only [Tracks, hpoi] at htra
    obtain ⟨bef, hbef, -⟩ := htra
    simp [hbef] at htak
  | poll attempt =>
    cases attempt with
    | first =>
      intro hpoi msg rest hrem hfed
      have hste : s.step (.poll .first) =
          { s.setGenerator .first { s.generator .first with
              point := .took (.ok msg),
              taken := (s.generator .first).taken ++ [msg] } with remaining := rest } := by
        simp [Relay.step, Relay.poll, hpoi, hrem]
      rw [hste] at hfai
      have htak := hfai.untaken hfed
      simp at htak
    | second => trivial
  | respond resp | takeError | drop attempt => trivial

/-! ## Whole runs -/

/-- Along a run of an accepted write, whatever the transport and the backend do, the attempts are
faithful exactly if the second one is left undisturbed at every step. -/
theorem step_faithful_iff (getClient : M → Except GrpcStatus Unit)
    (stream : List (Except GrpcStatus M)) (s : Relay M R) (haccept : accept getClient stream = .ok s)
    (events : List (RelayEvent R)) :
    (∀ t ∈ trace step s events, Faithful stream t) ↔ Guarded step Undisturbed s events :=
  forall_trace_iff_guarded (Relayed stream) (fun _ event h hgua => h.step event hgua)
    (fun _ h => h.faithful) (fun _ _ h hfai => h.undisturbed hfai)
    (relayed_of_accept haccept)

def threeMessages : Relay Nat Unit where
  firstMsg := 1
  remaining := [.ok 2, .ok 3]
  lock := none
  alreadySawMessages := false
  generator := fun _ => .idle Nat
  call := .calling .first

def unavailable : GrpcStatus where
  code := .unavailable
  message := "backend unavailable".toList

def retryAfterDrop : List (RelayEvent Unit) :=
  [.check, .poll .first, .poll .first, .respond (.error unavailable), .takeError, .drop .first,
   .check, .poll .second, .poll .second, .poll .second, .poll .second]

theorem step_faithful_retryAfterDrop :
    accept (fun _ => .ok ()) [.ok 1, .ok 2, .ok 3] = .ok threeMessages ∧
    (run step threeMessages retryAfterDrop).generator .second =
    { point := .relaying, received := [1, 2], taken := [2], writeError := none } ∧
    ∀ t ∈ trace step threeMessages retryAfterDrop, Faithful [.ok 1, .ok 2, .ok 3] t := by
  refine ⟨rfl, by decide, (step_faithful_iff (fun _ => .ok ()) _ _ rfl _).mpr ?_⟩
  -- the first generator is suspended when the flag is read, and is not polled with a message to take
  exact ⟨nofun, nofun, nofun, trivial, trivial, trivial, fun _ _ _ => nofun, trivial, trivial,
    trivial, trivial, trivial⟩

def retryBeforeDrop : List (RelayEvent Unit) :=
  [.check, .poll .first, .poll .first, .respond (.error unavailable), .takeError, .check,
   .poll .second, .poll .first, .poll .first, .poll .first, .poll .second, .poll .second,
   .poll .second]

/-- The second attempt sends the first and the third message. -/
theorem step_gap :
    accept (fun _ => .ok ()) [.ok 1, .ok 2, .ok 3] = .ok threeMessages ∧
    ((run step threeMessages retryBeforeDrop).generator .second).received = [1, 3] ∧
    ((run step threeMessages retryBeforeDrop).generator .first).taken = [2] ∧
    ¬ [1, 3] <+: messagesOf [.ok 1, .ok 2, .ok 3] :=
  ⟨rfl, by decide, by decide, by decide⟩

end Relay
end Toolchain.Proxy
