import Mpas.Library.Heap
import Mpas.OAuthRefreshRuns

/-!
# Refresh tokens that are spent

A refresh marks the session file, sends the refresh token and saves what it gets. The refresh
before a dispatch does so with a session that it has just read; a provider that was returned to a
dispatch does so after a 401, with the session that it was made of. A crash loses all of them
and leaves the file.

* `Held.answer`, `Held.fail`: what becomes of a session when its request ends;
* `step`: calls, refreshes, recoveries and crashes in any interleaving, and in more of them than
  the map of refreshes lets through;
* `World.meets`, `Invariant`: who may mark and write, and what the file then says;
* `never_resends`: no spent token is sent, and none before a Retry-After.
-/

namespace Mpas.OAuthResends

open Heap (lookup_set lookup_append)
open OAuthSessions (TokenResponse OAuthOperatorError)
open OAuthRefresh (Session Target deferred unusable)

/-! ## Answers -/

/-- An error that `fetch` throws, as far as it is looked through. -/
inductive FetchError
  | mk (code : Option String) (errors : List FetchError) (cause : Option FetchError)

def CONNECT_FAILURE_CODES : List String :=
  ["UND_ERR_CONNECT_TIMEOUT", "ECONNREFUSED", "EHOSTUNREACH", "ENETUNREACH", "ENETDOWN"]

/-- With what is left of the depth. -/
def connectFailureCode : Nat → FetchError → Option String
  | 0, _ => none
  | depth + 1, .mk code errors cause =>
    ((code.filter CONNECT_FAILURE_CODES.contains).or
      (errors.findSome? (connectFailureCode depth))).or (cause.bind (connectFailureCode depth))

def isDnsFailure : Nat → FetchError → Bool
  | 0, _ => false
  | depth + 1, .mk code _ cause =>
    code = some "ENOTFOUND" || code = some "EAI_AGAIN" || cause.any (isDnsFailure depth)

/-- The name was not resolved or no connection was made, as far as the codes say. -/
def FetchError.unsent (error : FetchError) : Bool :=
  (connectFailureCode 5 error).isSome || isDnsFailure 5 error

def tokenTransportFailure (error : FetchError) : OAuthOperatorError :=
  ⟨.other, !error.unsent, none⟩

/-- What `guardOAuthScopes` does with a response. -/
inductive Verdict
  | passes
  /-- a 403 without a Bearer challenge, and whether its body is `account_not_allowed` -/
  | denied (accountNotAllowed : Bool)
  /-- a challenge for more than the allowed scopes -/
  | challenged
  deriving DecidableEq

def guardOAuthScopes (status : Nat) : Verdict → Verdict
  | .denied accountNotAllowed => if status = 403 then .denied accountNotAllowed else .passes
  | .challenged => if status = 401 ∨ status = 403 then .challenged else .passes
  | .passes => .passes

def scopeChangeRequired : FetchError := .mk (some "OAUTH_SCOPE_CHANGE_REQUIRED") [] none

inductive Answer
  /-- `fetch` throws; and whether the request had reached the server -/
  | thrown (error : FetchError) (reached : Bool)
  /-- 2xx, and its body if it is usable -/
  | success (body : Option TokenResponse)
  | error (status : Nat) (error : Option String) (retryAfterSeconds : Option Nat)
      (verdict : Verdict)

def tokenErrorFromResponse (status : Nat) (error : Option String) (retryAfterSeconds : Option Nat) :
    OAuthOperatorError :=
  if error = some "invalid_client" then ⟨.other, false, none⟩
  else if status = 429 then ⟨.rateLimited, false, retryAfterSeconds⟩
  else if 500 ≤ status then ⟨.other, true, none⟩
  else if error = some "invalid_grant" then ⟨.invalidGrant, false, none⟩
  else ⟨.other, false, none⟩

inductive Observed
  | tokens (value : TokenResponse)
  | failure (failure : OAuthOperatorError)
  /-- what `guardOAuthScopes` throws, which is passed on as it is -/
  | denied (accountNotAllowed : Bool)
  deriving DecidableEq

namespace Answer

/-- `observeTokenRequests`; a dispatch guards the scopes of its responses before. -/
def observed (dispatching : Bool) : Answer → Observed
  | .thrown cause _ => .failure (tokenTransportFailure cause)
  | .success none => .failure unusable
  | .success (some value) => .tokens value
  | .error status code retryAfterSeconds verdict =>
    match if dispatching then guardOAuthScopes status verdict else .passes with
    | .passes => .failure (tokenErrorFromResponse status code retryAfterSeconds)
    | .denied accountNotAllowed => .denied accountNotAllowed
    | .challenged => .failure (tokenTransportFailure scopeChangeRequired)

def succeeded : Answer → Bool
  | .success _ => true
  | _ => false

/-- The token may be spent: it was rotated, or the request ended ambiguously. -/
def spends (token : String) : Answer → Bool
  | .thrown _ reached => reached
  | .success none => true
  | .success (some value) => value.refreshToken.any (· ≠ token)
  | .error status .. => decide (500 ≤ status)

def rateLimited : Answer → Bool
  | .error status .. => decide (status = 429)
  | _ => false

end Answer

/-! ## Sessions that are held -/

def refreshText (session : Session) : Option String :=
  (session.tokens.bind (·.refreshToken)).map (·.text)

def refreshPart (session : Session) : Option String × Option OAuthSessions.RefreshState :=
  (refreshText session, session.refreshState)

/-- A session object, of a call, of a refresh or of a provider. `seen` is how often the refresh
token or the refresh state of the file had changed when it was read, or last written. A refresh
has `responded` for `refreshAwaitingSave`, and does not read its failure again. -/
structure Held where
  session : Session
  seen : Nat
  provider : Bool
  lastTokenFailure : Option OAuthOperatorError := none
  refreshAwaitingSave : Bool := false

inductive Phase
  /-- up to `beforeRefresh` -/
  | preparing (token : String)
  /-- the write of `markRefreshInFlight` -/
  | marking (token : String)
  | sending (token : String)
  | awaiting (token : String)
  /-- the write of `saveTokens` -/
  | saving
  | auditing
  /-- the write of `recordAccessDenied` -/
  | denying
  /-- a denial was recorded, and the SDK asks for consent -/
  | denied
  /-- the write of `persistTokenFailure` -/
  | failing
  /-- the write of `markReauthorizationRequired` -/
  | flagging
  | finished
  deriving DecidableEq

structure Attempt where
  holder : Nat
  phase : Phase
  deriving DecidableEq

namespace Held

variable (held : Held) (now : Int)

def fail : Option OAuthOperatorError → Held × Phase
  | none => (held, .finished)
  | some failure =>
    let persisted := held.session.persistTokenFailure now failure
    ({ held with session := persisted.1 }, if persisted.2 then .failing else .finished)

def observe (failure : OAuthOperatorError) : Held := { held with lastTokenFailure := some failure }

/-- What `dispatchCannotAuthorize` takes for the failure. -/
def tokenFailure : Option OAuthOperatorError :=
  held.lastTokenFailure.or (if held.refreshAwaitingSave then some unusable else none)

def answer (number jitter : Nat) (answer : Answer) : Held × Phase :=
  let held := { held with refreshAwaitingSave := held.refreshAwaitingSave || answer.succeeded }
  match answer.observed held.provider with
  | .tokens value =>
    ({ held with session := held.session.saveTokens now jitter number value }, .saving)
  | .failure failure => (held.observe failure).fail now (some failure)
  | .denied true => ({ held with session := held.session.recordAccessDenied now }, .denying)
  | .denied false => held.fail now held.tokenFailure

end Held

/-! ## The steps -/

/-- What is logged of the requests: that one was sent, that its token may be spent, and the
Retry-After that was recorded for it. -/
inductive Entry
  | sent (token : String) (time : Int)
  | ended (token : String)
  | limited (retryAfter : Int)
  deriving DecidableEq

def Entry.allows : Entry → Entry → Bool
  | .ended token, .sent token' _ => decide (token ≠ token')
  | .limited retryAfter, .sent _ time => decide (retryAfter ≤ time)
  | _, _ => true

structure World where
  file : Option Session
  clock : Int
  /-- no token response so far has a greater number -/
  responses : Nat := 0
  /-- how often a write has changed the refresh token or the refresh state of the file -/
  changes : Nat := 0
  held : List Held := []
  attempts : List Attempt := []
  log : List Entry := []

def World.NeverResends (w : World) : Prop :=
  w.log.Pairwise fun earlier later => earlier.allows later = true

instance (w : World) : Decidable w.NeverResends := inferInstanceAs (Decidable (List.Pairwise ..))

inductive Outcome
  | succeeded
  | failed
  | changed
  /-- `fetch` failed with the code of a connect failure and is tried again; and whether the request
  had reached the server -/
  | retried (error : FetchError) (reached : Bool)
  | answered (answer : Answer) (jitter : Nat)

inductive Event
  | tick (ms : Nat)
  | inspect
  /-- a refresh before a dispatch, with its read -/
  | transact
  /-- a call's last read, and the provider that it returns -/
  | provide
  /-- a 401 of the dispatch that has a provider -/
  | recover (i : Nat)
  | attempt (k : Nat) (outcome : Outcome)
  | crash

namespace World

variable (w : World)

def advance (k : Nat) (attempt : Attempt) (next : Held × Phase) (entries : List Entry := []) :
    World :=
  { w with
    held := w.held.set attempt.holder next.1
    attempts := w.attempts.set k { attempt with phase := next.2 }
    log := w.log ++ entries }

def put (k : Nat) (attempt : Attempt) (next : Held × Phase) (changes : Nat) : World :=
  { w.advance k attempt ({ next.1 with seen := changes }, next.2) with
    file := some next.1.session
    changes }

def commit (k : Nat) (attempt : Attempt) (next : Held × Phase) : World :=
  w.put k attempt next
    (if w.file.map refreshPart = some (refreshPart next.1.session) then w.changes
      else w.changes + 1)

def addHeld (session : Session) (provider : Bool) : World :=
  { w with held := w.held ++ [{ session, seen := w.changes, provider }] }

def addAttempt (i : Nat) (phase : Phase) : World :=
  { w with attempts := w.attempts ++ [⟨i, phase⟩] }

def hold (session : Session) (phase : Phase) : World :=
  (w.addHeld session false).addAttempt w.held.length phase

def entries (token : String) (answer : Answer) (session : Session) : List Entry :=
  (if answer.spends token then [.ended token] else []) ++
    match answer.rateLimited, session.refreshState with
    | true, some (.deferred _ retryAfter) => [.limited retryAfter]
    | _, _ => []

end World

/-- The tokens that a crash leaves without an answer. -/
def Attempt.unanswered (attempt : Attempt) : Option Entry :=
  match attempt.phase with
  | .awaiting token => some (.ended token)
  | _ => none

def notSent : OAuthOperatorError := ⟨.other, false, none⟩

def resume (w : World) (k : Nat) (attempt : Attempt) (held : Held) : Phase → Outcome → Option World
  | .preparing token, .succeeded => some (w.advance k attempt
      ({ held with session := held.session.markRefreshInFlight w.clock }, .marking token))
  | .preparing _, .failed => some (w.advance k attempt (held.fail w.clock held.tokenFailure))
  | .preparing _, .changed =>
    if held.provider then none
    else some (w.advance k attempt
      ({ held with session := held.session.markReauthorizationRequired .bindingMismatch },
        .flagging))
  | .marking token, .succeeded => some (w.commit k attempt (held, .sending token))
  | .marking _, .failed =>
    some (w.advance k attempt ((held.observe notSent).fail w.clock (some notSent)))
  | .sending token, .succeeded =>
    some (w.advance k attempt (held, .awaiting token) [.sent token w.clock])
  | .awaiting token, .retried error reached =>
    if (connectFailureCode 5 error).isSome then some (w.advance k attempt (held, .awaiting token)
      ((if reached then [.ended token] else []) ++ [.sent token w.clock]))
    else none
  | .awaiting token, .answered answer jitter =>
    let next := held.answer w.clock (w.responses + 1) jitter answer
    some { w.advance k attempt next (World.entries token answer next.1.session) with
      responses := w.responses + 1 }
  | .saving, .succeeded => some (w.commit k attempt
      ({ held with refreshAwaitingSave := false }, if held.provider then .finished else .auditing))
  | .saving, .failed => some (w.advance k attempt (held.fail w.clock held.tokenFailure))
  | .auditing, .succeeded => some (w.advance k attempt (held, .finished))
  | .auditing, .failed => some (w.advance k attempt (held.fail w.clock (some unusable)))
  | .denying, .succeeded => some (w.commit k attempt (held, .denied))
  | .denying, .failed =>
    some (w.advance k attempt ((held.observe unusable).fail w.clock (some unusable)))
  | .denied, .succeeded => some (w.advance k attempt (held.fail w.clock held.tokenFailure))
  | .failing, .succeeded | .flagging, .succeeded => some (w.commit k attempt (held, .finished))
  | .failing, .failed | .flagging, .failed => some (w.advance k attempt (held, .finished))
  | _, _ => none

def attemptStep (w : World) (k : Nat) (outcome : Outcome) : Option World :=
  w.attempts[k]?.bind fun attempt => w.held[attempt.holder]?.bind fun held =>
    resume w k attempt held attempt.phase outcome

section

variable (target : Target) (w : World)

/-- That a call has found the tokens due, and no other refresh in the map, is not asked. -/
def transact : Option World :=
  match target.checkRefresh w.file w.clock with
  | .go session => (refreshText session).map fun token => w.hold session (.preparing token)
  | .flag session => some (w.hold session .flagging)
  | .reject _ | .unneeded => some w

/-- That a call has found the tokens good before, or has waited for their refresh, is not asked. -/
def provide : Option World :=
  ((target.readBoundOAuthSession w.file).filter (!·.reauthorizationRequired)).map fun session =>
    w.addHeld session true

/-- The SDK reads the tokens of the provider and refreshes those that have a refresh token. -/
def recover (i : Nat) : Option World :=
  w.held[i]?.bind fun held => ((refreshText held.session).filter (· ≠ "")).bind fun token =>
    if held.provider then some (w.addAttempt i (.preparing token)) else none

def step : Event → Option World
  | .tick ms => some { w with clock := w.clock + ms }
  | .inspect =>
    match target.checkCall w.file w.clock with
    | .flag session => some (w.hold session .flagging)
    | _ => some w
  | .transact => transact target w
  | .provide => provide target w
  | .recover i => recover w i
  | .attempt k outcome => attemptStep w k outcome
  | .crash => some { w with
      held := []
      attempts := []
      log := w.log ++ w.attempts.filterMap Attempt.unanswered }

end

/-! ## The condition -/

/-- The session has no mark, and its Retry-After has passed. -/
def refreshable (session : Session) (now : Int) : Bool := !session.inFlight && !deferred session now

/-- A 5xx whose body blames the client is not taken for an ambiguous end, nor is an error that
looks like a failure to connect; and no answer brings a token that was spent before. -/
def Answer.plain (log : List Entry) : Answer → Bool
  | .thrown cause reached => !(reached && cause.unsent)
  | .error status code _ _ => !(decide (500 ≤ status) && decide (code = some "invalid_client"))
  | .success (some value) =>
    value.refreshToken.all fun token => decide (Entry.ended token ∉ log)
  | .success none => true

def Phase.writes : Phase → Bool
  | .marking _ | .saving | .denying | .failing | .flagging => true
  | _ => false

/-- Whoever writes has seen the refresh token and the refresh state of the file; and a refresh
begins only with a session that has no mark, whose Retry-After has passed and which is not being
refreshed. -/
def World.meets (target : Target) (w : World) : Event → Bool
  | .transact =>
    match target.checkRefresh w.file w.clock with
    | .go session => refreshable session w.clock
    | _ => true
  | .recover i =>
    w.held[i]?.all (fun held => refreshable held.session w.clock) &&
      w.attempts.all fun attempt => attempt.holder ≠ i || attempt.phase = .finished
  | .attempt k .succeeded =>
    w.attempts[k]?.all fun attempt => !attempt.phase.writes ||
      w.held[attempt.holder]?.all fun held => held.seen = w.changes
  | .attempt _ (.retried _ reached) => !reached
  | .attempt _ (.answered answer _) => answer.plain w.log
  | _ => true

/-! ## Sessions that may be in the file -/

section Sessions

variable {log entries : List Entry} {now now' : Int} {session session' : Session} {token : String}
  {held : Held}

/-- No refresh token of the session is spent, and every Retry-After has passed. -/
def Fresh (log : List Entry) (now : Int) (session : Session) : Prop :=
  (∀ token, refreshText session = some token → .ended token ∉ log) ∧
    ∀ retryAfter, .limited retryAfter ∈ log → retryAfter ≤ now

/-- What a session that is not marked says of its refresh token and of a Retry-After. -/
def Clean (log : List Entry) (now : Int) (session : Session) : Prop :=
  session.inFlight = false →
    (∀ token, refreshText session = some token → .ended token ∉ log) ∧
      ∀ retryAfter, .limited retryAfter ∈ log → retryAfter ≤ now ∨
        ∃ since later, session.refreshState = some (.deferred since later) ∧ retryAfter ≤ later

theorem Fresh.clean (h : Fresh log now session) : Clean log now session :=
  fun _ => ⟨h.1, fun retryAfter hlimited => .inl (h.2 retryAfter hlimited)⟩

theorem Fresh.of_text (h : Fresh log now session)
    (htext : refreshText session' = refreshText session) : Fresh log now session' := by
  refine ⟨?_, h.2⟩
  rw [htext]
  exact h.1

theorem Fresh.later (h : Fresh log now session) (hlater : now ≤ now') : Fresh log now' session :=
  ⟨h.1, fun retryAfter hlimited => le_trans (h.2 retryAfter hlimited) hlater⟩

theorem Clean.of_marked (h : session.inFlight = true) : Clean log now session := by
  intro hunmarked
  rw [h] at hunmarked
  cases hunmarked

theorem Clean.later (h : Clean log now session) (hlater : now ≤ now') :
    Clean log now' session := by
  intro hunmarked
  obtain ⟨htoken, hlimits⟩ := h hunmarked
  refine ⟨htoken, fun retryAfter hlimited => ?_⟩
  rcases hlimits retryAfter hlimited with hpast | hdeferred
  · exact .inl (le_trans hpast hlater)
  · exact .inr hdeferred

theorem Clean.fresh (h : Clean log now session) (hbegin : refreshable session now = true) :
    Fresh log now session := by
  unfold refreshable at hbegin
  rw [Bool.and_eq_true, Bool.not_eq_true', Bool.not_eq_true'] at hbegin
  obtain ⟨htoken, hlimits⟩ := h hbegin.1
  refine ⟨htoken, fun retryAfter hlimited => ?_⟩
  rcases hlimits retryAfter hlimited with hpast | ⟨since, later, hstate, hle⟩
  · exact hpast
  · have hdue := hbegin.2
    unfold deferred at hdue
    rw [hstate] at hdue
    have hpassed := of_decide_eq_false hdue
    omega

theorem Clean.flagged (h : Clean log now session)
    (reason : OAuthSessions.ReauthorizationReason) :
    Clean log now (session.markReauthorizationRequired reason) := h

theorem persist_text (failure : OAuthOperatorError) :
    refreshText (session.persistTokenFailure now failure).1 = refreshText session := by
  unfold refreshText
  rw [OAuthSessions.persistTokenFailure_tokens]

theorem persist_ambiguous {failure : OAuthOperatorError} (h : failure.ambiguous = true) :
    (session.persistTokenFailure now failure).1.inFlight = true := by
  unfold OAuthSessions.StoredOAuthSession.persistTokenFailure
  rw [if_pos h]
  rfl

/-! ### Failures -/

theorem fail_seen (failure : Option OAuthOperatorError) :
    (held.fail now failure).1.seen = held.seen := by
  cases failure <;> rfl

theorem fail_phase (failure : Option OAuthOperatorError) :
    (held.fail now failure).2 = .failing ∨ (held.fail now failure).2 = .finished := by
  cases failure with
  | none => exact .inr rfl
  | some failure =>
    unfold Held.fail
    dsimp only
    split
    · exact .inl rfl
    · exact .inr rfl

theorem fail_text (failure : Option OAuthOperatorError) :
    refreshText (held.fail now failure).1.session = refreshText held.session := by
  cases failure with
  | none => rfl
  | some failure => exact persist_text failure

theorem fail_ambiguous {failure : OAuthOperatorError} (h : failure.ambiguous = true) :
    (held.fail now (some failure)).1.session.inFlight = true := persist_ambiguous h

/-! ### Answers -/

theorem answer_seen {number jitter : Nat} {answer : Answer} :
    (held.answer now number jitter answer).1.seen = held.seen := by
  unfold Held.answer
  dsimp only
  split
  · rfl
  · exact fail_seen _
  · rfl
  · exact fail_seen _

theorem entries_not_sent {answer : Answer} {entry : Entry}
    (h : entry ∈ World.entries token answer session) (text : String) (time : Int) :
    entry ≠ .sent text time := by
  rintro rfl
  unfold World.entries at h
  rcases List.mem_append.mp h with hspent | hlimited
  · split at hspent <;> simp at hspent
  · split at hlimited <;> simp at hlimited

theorem guardOAuthScopes_denied {status : Nat} {verdict : Verdict} {accountNotAllowed : Bool}
    (h : guardOAuthScopes status verdict = .denied accountNotAllowed) : status = 403 := by
  cases verdict <;> grind [guardOAuthScopes]

theorem observed_error (dispatching : Bool) (status : Nat) (code : Option String)
    (retryAfterSeconds : Option Nat) (verdict : Verdict) :
    let observed := (Answer.error status code retryAfterSeconds verdict).observed dispatching
    observed = .failure (tokenErrorFromResponse status code retryAfterSeconds) ∨
      observed = .failure (tokenTransportFailure scopeChangeRequired) ∨
      ∃ accountNotAllowed, observed = .denied accountNotAllowed ∧ status = 403 := by
  dsimp only
  unfold Answer.observed
  cases dispatching with
  | false => exact .inl rfl
  | true =>
    simp only [if_true]
    cases hguard : guardOAuthScopes status verdict with
    | passes => exact .inl rfl
    | challenged => exact .inr (.inl rfl)
    | denied accountNotAllowed => exact .inr (.inr ⟨_, rfl, guardOAuthScopes_denied hguard⟩)

/-- What is denied is a 403, which spends no token and asks for no delay. -/
theorem observed_denied {dispatching accountNotAllowed : Bool} {answer : Answer}
    (h : answer.observed dispatching = .denied accountNotAllowed) :
    answer.spends token = false ∧ answer.rateLimited = false := by
  cases answer with
  | thrown => cases h
  | success body => cases body <;> cases h
  | error status code retryAfterSeconds verdict =>
    rcases observed_error dispatching status code retryAfterSeconds verdict with
      hother | hother | ⟨-, -, rfl⟩
    · rw [h] at hother
      cases hother
    · rw [h] at hother
      cases hother
    · exact ⟨rfl, rfl⟩

/-- A failure that is not ambiguous, of a plain answer, spends no token. -/
theorem spends_eq_false {dispatching : Bool} {answer : Answer} {failure : OAuthOperatorError}
    (hplain : answer.plain log = true) (hobserved : answer.observed dispatching = .failure failure)
    (hdefinite : failure.ambiguous = false) : answer.spends token = false := by
  cases answer with
  | thrown cause reached =>
    cases hobserved
    have hunsent : cause.unsent = true := by simpa [tokenTransportFailure] using hdefinite
    simpa [Answer.plain, Answer.spends, hunsent] using hplain
  | success body =>
    cases body with
    | none =>
      cases hobserved
      cases hdefinite
    | some value => cases hobserved
  | error status code retryAfterSeconds verdict =>
    rcases observed_error dispatching status code retryAfterSeconds verdict with
      hpassed | hchallenged | ⟨_, hdenied, -⟩
    · rw [hobserved] at hpassed
      cases hpassed
      unfold tokenErrorFromResponse at hdefinite
      have hstatus : ¬500 ≤ status := by
        intro hserver
        split at hdefinite
        · rename_i hclient
          simp [Answer.plain, hserver, hclient] at hplain
        split at hdefinite
        · omega
        · cases hdefinite
      exact decide_eq_false hstatus
    · -- the challenge is taken for an ambiguous end
      rw [hobserved] at hchallenged
      cases hchallenged
      have hambiguous : (tokenTransportFailure scopeChangeRequired).ambiguous = true := by decide
      rw [hambiguous] at hdefinite
      cases hdefinite
    · rw [hobserved] at hdenied
      cases hdenied

theorem saved_text {number jitter : Nat} {value : TokenResponse}
    (htoken : refreshText session = some token) {text : String}
    (h : refreshText (session.saveTokens now jitter number value) = some text) :
    value.refreshToken = some text ∨ value.refreshToken = none ∧ text = token := by
  unfold refreshText at h htoken
  obtain ⟨issued, hissued, rfl⟩ := Option.map_eq_some_iff.mp h
  obtain ⟨old, hold, rfl⟩ := Option.map_eq_some_iff.mp htoken
  have hnext : (session.nextTokens number value).refreshToken = some issued := hissued
  unfold OAuthSessions.StoredOAuthSession.nextTokens at hnext
  dsimp only at hnext
  cases hvalue : value.refreshToken with
  | some fresh =>
    rw [hvalue] at hnext
    cases hnext
    exact .inl rfl
  | none =>
    rw [hvalue, hold] at hnext
    obtain ⟨hsame, -⟩ := Option.filter_eq_some_iff.mp hnext
    exact .inr ⟨rfl, congrArg _ (Option.some.inj hsame).symm⟩

theorem saved_fresh (number jitter : Nat) {value : TokenResponse}
    (hfresh : Fresh log now session) (htoken : refreshText session = some token)
    (hplain : (Answer.success (some value)).plain log = true) :
    Fresh (log ++ World.entries token (.success (some value))
      (session.saveTokens now jitter number value)) now
        (session.saveTokens now jitter number value) := by
  have hentries : World.entries token (.success (some value))
      (session.saveTokens now jitter number value) =
        if (Answer.success (some value)).spends token then [.ended token] else [] :=
    List.append_nil _
  rw [hentries]
  refine ⟨?_, ?_⟩
  · intro text htext hended
    rcases List.mem_append.mp hended with hold | hnew
    · rcases saved_text htoken htext with hvalue | ⟨-, rfl⟩
      · simp only [Answer.plain, hvalue, Option.all_some, decide_eq_true_eq] at hplain
        exact hplain hold
      · exact hfresh.1 _ htoken hold
    · split at hnew
      · rename_i hspends
        cases List.mem_singleton.mp hnew
        rcases saved_text htoken htext with hvalue | ⟨hvalue, -⟩
        · simp [Answer.spends, hvalue] at hspends
        · simp [Answer.spends, hvalue] at hspends
      · cases hnew
  · intro retryAfter hlimited
    rcases List.mem_append.mp hlimited with hold | hnew
    · exact hfresh.2 retryAfter hold
    · split at hnew <;> simp at hnew

/-- An answer that spends no token leaves a session clean that has the token it had. -/
theorem clean_of_unspent {answer : Answer} (hfresh : Fresh log now session)
    (hspends : answer.spends token = false) (htext : refreshText session' = refreshText session) :
    Clean (log ++ World.entries token answer session') now session' := by
  intro _
  rw [htext, World.entries, hspends, if_neg Bool.false_ne_true, List.nil_append]
  refine ⟨?_, ?_⟩
  · intro text htext hended
    rcases List.mem_append.mp hended with hold | hnew
    · exact hfresh.1 text htext hold
    · split at hnew <;> simp at hnew
  · intro retryAfter hlimited
    rcases List.mem_append.mp hlimited with hold | hnew
    · exact .inl (hfresh.2 retryAfter hold)
    · split at hnew
      · rename_i since later _ hstate
        cases List.mem_singleton.mp hnew
        exact .inr ⟨since, retryAfter, hstate, le_rfl⟩
      · cases hnew

/-- Whatever the answer, the session is clean after it, and fresh if there is something to save. -/
theorem answer_clean (number jitter : Nat) {answer : Answer} (hfresh : Fresh log now held.session)
    (htoken : refreshText held.session = some token) (hplain : answer.plain log = true) :
    let next := held.answer now number jitter answer
    let log' := log ++ World.entries token answer next.1.session
    Clean log' now next.1.session ∧
      ((next.2 = .saving ∨ next.2 = .denying) ∧ Fresh log' now next.1.session ∨
        next.2 = .failing ∨ next.2 = .finished) := by
  unfold Held.answer
  dsimp only
  split
  · rename_i value hobserved
    have hanswer : answer = .success (some value) := by
      cases answer with
      | success body =>
        cases body with
        | none => cases hobserved
        | some value =>
          cases hobserved
          rfl
      | thrown => cases hobserved
      | error status code retryAfterSeconds verdict =>
        rcases observed_error held.provider status code retryAfterSeconds verdict with
          hother | hother | ⟨_, hother, -⟩ <;> rw [hobserved] at hother <;> cases hother
    subst hanswer
    have hsaved := saved_fresh number jitter hfresh htoken hplain
    exact ⟨hsaved.clean, .inl ⟨.inl rfl, hsaved⟩⟩
  · rename_i failure hobserved
    refine ⟨?_, .inr (fail_phase _)⟩
    cases hambiguous : failure.ambiguous with
    | true => exact .of_marked (fail_ambiguous hambiguous)
    | false => exact clean_of_unspent hfresh (spends_eq_false hplain hobserved hambiguous) (fail_text _)
  · rename_i hobserved
    have hkept : Fresh log now (held.session.recordAccessDenied now) := hfresh.of_text rfl
    obtain ⟨hspends, hlimited⟩ : answer.spends token = false ∧ answer.rateLimited = false :=
      observed_denied hobserved
    rw [World.entries, hspends, hlimited, if_neg Bool.false_ne_true, List.nil_append, List.append_nil]
    exact ⟨hkept.clean, .inl ⟨.inr rfl, hkept⟩⟩
  · rename_i hobserved
    refine ⟨?_, .inr (fail_phase _)⟩
    exact clean_of_unspent hfresh (observed_denied hobserved).1 (fail_text _)

end Sessions

/-! ## The invariant -/

def Phase.token : Phase → Option String
  | .preparing token | .marking token | .sending token | .awaiting token => some token
  | _ => none

/-- A refresh that has not ended, has tokens to save or a denial to record. -/
def Phase.refreshing : Phase → Bool
  | .preparing _ | .marking _ | .sending _ | .awaiting _ | .saving | .denying | .denied => true
  | _ => false

/-- The mark is in the session, and not yet in the file. -/
def Phase.marks : Phase → Bool
  | .marking _ => true
  | _ => false

/-- The request has been let go, or is about to be. -/
def Phase.active : Phase → Bool
  | .sending _ | .awaiting _ => true
  | _ => false

def World.marked (w : World) : Bool := w.file.any (·.inFlight)

/-- The session may still be written: it has no mark, or something goes on with it. -/
def World.Usable (w : World) (i : Nat) (held : Held) : Prop :=
  held.session.inFlight = false ∨
    ∃ (k : Nat) (attempt : Attempt), w.attempts[k]? = some attempt ∧ attempt.holder = i ∧
      attempt.phase ≠ .finished

structure Pending (log : List Entry) (now : Int) (held : Held) (phase : Phase) : Prop where
  token : ∀ token, phase.token = some token → refreshText held.session = some token
  fresh : phase.refreshing = true → Fresh log now held.session
  marks : phase.marks = true → held.session.inFlight = true

/-- The sessions of those who have seen what the file says of the refresh. While it is marked, only
one of them can write, and only with a mark are requests sent. -/
structure Invariant (w : World) : Prop where
  log : w.NeverResends
  file : ∀ session, w.file = some session → Clean w.log w.clock session
  bounded : ∀ attempt ∈ w.attempts, attempt.holder < w.held.length
  seen : ∀ (i : Nat) (held : Held), w.held[i]? = some held → held.seen ≤ w.changes
  alone : ∀ (k k' : Nat) (attempt attempt' : Attempt), w.attempts[k]? = some attempt →
    w.attempts[k']? = some attempt' → attempt.phase ≠ .finished → attempt'.phase ≠ .finished →
    attempt.holder = attempt'.holder → k = k'
  marker : w.marked = true → ∀ (i j : Nat) (held held' : Held), w.held[i]? = some held →
    w.held[j]? = some held' → held.seen = w.changes → held'.seen = w.changes →
    w.Usable i held → w.Usable j held' → i = j
  clean : ∀ (i : Nat) (held : Held), w.held[i]? = some held → held.seen = w.changes →
    Clean w.log w.clock held.session
  pending : ∀ (k : Nat) (attempt : Attempt) (held : Held), w.attempts[k]? = some attempt →
    w.held[attempt.holder]? = some held → held.seen = w.changes →
    Pending w.log w.clock held attempt.phase
  active : ∀ (k : Nat) (attempt : Attempt) (held : Held), w.attempts[k]? = some attempt →
    w.held[attempt.holder]? = some held → attempt.phase.active = true →
    held.seen = w.changes ∧ w.marked = true

section Invariants

variable {w w' : World} {k : Nat} {attempt : Attempt} {held : Held} {next : Held × Phase}
  {entries : List Entry} {session : Session}

theorem Pending.idle {log : List Entry} {now : Int} {phase : Phase} (htoken : phase.token = none)
    (hrefreshing : phase.refreshing = false) : Pending log now held phase where
  token token h := by
    rw [htoken] at h
    cases h
  fresh h := by
    rw [hrefreshing] at h
    cases h
  marks h := by
    cases phase with
    | marking => cases hrefreshing
    | preparing | sending | awaiting | saving | auditing | denying | denied | failing | flagging
    | finished => cases h

theorem Pending.finished {log : List Entry} {now : Int} {phase : Phase} (h : phase = .finished) :
    Pending log now held phase := by
  subst h
  exact .idle rfl rfl

theorem neverResends_append {log : List Entry}
    (h : log.Pairwise fun earlier later => earlier.allows later = true)
    (hentries : ∀ entry ∈ entries, ∀ text time, entry ≠ .sent text time) :
    (log ++ entries).Pairwise fun earlier later => earlier.allows later = true := by
  have hallows : ∀ earlier, ∀ entry ∈ entries, Entry.allows earlier entry = true := by
    intro earlier entry hentry
    cases entry with
    | sent text time => exact absurd rfl (hentries _ hentry text time)
    | ended token => cases earlier <;> rfl
    | limited retryAfter => cases earlier <;> rfl
  refine List.pairwise_append.mpr ⟨h, ?_, fun earlier _ => hallows earlier⟩
  exact List.pairwise_of_forall_mem_list fun earlier _ entry hentry => hallows earlier entry hentry

/-- A fresh token may be sent. -/
theorem neverResends_send {log : List Entry} {token : String} {now : Int}
    (h : log.Pairwise fun earlier later => earlier.allows later = true)
    (hfresh : Fresh log now session) (htoken : refreshText session = some token) :
    (log ++ [Entry.sent token now]).Pairwise fun earlier later =>
      earlier.allows later = true := by
  refine List.pairwise_append.mpr ⟨h, List.pairwise_singleton _ _, ?_⟩
  intro earlier hearlier entry hentry
  cases List.mem_singleton.mp hentry
  cases earlier with
  | sent => rfl
  | ended text =>
    refine decide_eq_true ?_
    rintro rfl
    exact hfresh.1 _ htoken hearlier
  | limited retryAfter => exact decide_eq_true (hfresh.2 retryAfter hearlier)

theorem Invariant.later (h : Invariant w) (ms : Nat) :
    Invariant { w with clock := w.clock + ms } := by
  have hlater : w.clock ≤ w.clock + (ms : Int) := by omega
  exact { h with
    file := fun session hsession => (h.file session hsession).later hlater
    clean := fun i held hheld hseen => (h.clean i held hheld hseen).later hlater
    pending := fun k attempt held hattempt hheld hseen =>
      have hpending := h.pending k attempt held hattempt hheld hseen
      ⟨hpending.token, fun hrefreshing => (hpending.fresh hrefreshing).later hlater,
        hpending.marks⟩ }

theorem Invariant.respond (h : Invariant w) (responses : Nat) :
    Invariant { w with responses } := { h with }

/-! ### A step of an attempt -/

theorem advanced_attempt (hattempt : w.attempts[k]? = some attempt)
    (hlive : attempt.phase ≠ .finished) {j : Nat} {found : Attempt}
    (h : (w.attempts.set k { attempt with phase := next.2 })[j]? = some found) :
    ∃ old, w.attempts[j]? = some old ∧ found.holder = old.holder ∧
      (found.phase ≠ .finished → old.phase ≠ .finished) ∧ (j ≠ k → found = old) := by
  rcases lookup_set h with ⟨rfl, rfl⟩ | ⟨hne, hold⟩
  · exact ⟨attempt, hattempt, rfl, fun _ => hlive, fun hne => absurd rfl hne⟩
  · exact ⟨found, hold, rfl, id, fun _ => rfl⟩

theorem Invariant.alone_after (h : Invariant w) (hattempt : w.attempts[k]? = some attempt)
    (hlive : attempt.phase ≠ .finished) (i j : Nat) (first second : Attempt)
    (hfirst : (w.attempts.set k { attempt with phase := next.2 })[i]? = some first)
    (hsecond : (w.attempts.set k { attempt with phase := next.2 })[j]? = some second)
    (hone : first.phase ≠ .finished) (hother : second.phase ≠ .finished)
    (hsame : first.holder = second.holder) : i = j := by
  obtain ⟨old, hold, hholder, hphase, -⟩ := advanced_attempt hattempt hlive hfirst
  obtain ⟨old', hold', hholder', hphase', -⟩ := advanced_attempt hattempt hlive hsecond
  exact h.alone i j old old' hold hold' (hphase hone) (hphase' hother)
    (hholder.symm.trans (hsame.trans hholder'))

theorem Invariant.bounded_after (h : Invariant w) (hattempt : w.attempts[k]? = some attempt) :
    ∀ found ∈ w.attempts.set k { attempt with phase := next.2 },
      found.holder < (w.held.set attempt.holder next.1).length := by
  intro found hfound
  rw [List.length_set]
  rcases List.mem_or_eq_of_mem_set hfound with hold | rfl
  · exact h.bounded found hold
  · exact h.bounded attempt (List.mem_of_getElem? hattempt)

theorem usable_of_attempt (hattempt : w.attempts[k]? = some attempt)
    (hlive : attempt.phase ≠ .finished) : w.Usable attempt.holder held :=
  .inr ⟨k, attempt, hattempt, rfl, hlive⟩

/-- While a request is sent, no other up-to-date session is of use. -/
theorem Invariant.only (h : Invariant w) (hattempt : w.attempts[k]? = some attempt)
    (hheld : w.held[attempt.holder]? = some held) (hactive : attempt.phase.active = true) {j : Nat}
    {other : Held} (hother : w.held[j]? = some other) (hseen : other.seen = w.changes)
    (husable : w.Usable j other) : j = attempt.holder := by
  have hlive : attempt.phase ≠ .finished := by
    intro hfinished
    rw [hfinished] at hactive
    cases hactive
  obtain ⟨hcurrent, hmarked⟩ := h.active k attempt held hattempt hheld hactive
  exact h.marker hmarked j attempt.holder other held hother hheld hseen hcurrent husable
    (usable_of_attempt hattempt hlive)

/-- **No write.** Only while a request is sent is the log about its end. -/
theorem Invariant.advance (h : Invariant w) (hattempt : w.attempts[k]? = some attempt)
    (hheld : w.held[attempt.holder]? = some held) (hlive : attempt.phase ≠ .finished)
    (hseen : next.1.seen = held.seen) (hentries : entries = [] ∨ attempt.phase.active = true)
    (hlog : World.NeverResends { w with log := w.log ++ entries })
    (hclean : held.seen = w.changes → Clean (w.log ++ entries) w.clock next.1.session)
    (hpending : held.seen = w.changes → Pending (w.log ++ entries) w.clock next.1 next.2)
    (hactive : next.2.active = true → held.seen = w.changes ∧ w.marked = true) :
    Invariant (w.advance k attempt next entries) := by
  -- an up-to-date session that is of use is the one of the attempt, or the log has stayed
  have helsewhere : ∀ (j : Nat) (other : Held), j ≠ attempt.holder → w.held[j]? = some other →
      other.seen = w.changes → w.Usable j other → entries = [] := by
    intro j other hne hother hcurrent husable
    rcases hentries with hnone | hsending
    · exact hnone
    · exact absurd (h.only hattempt hheld hsending hother hcurrent husable) hne
  have hlookup : ∀ (j : Nat) (found : Held), (w.held.set attempt.holder next.1)[j]? = some found →
      ∃ old, w.held[j]? = some old ∧ found.seen = old.seen ∧
        ((w.advance k attempt next entries).Usable j found → w.Usable j old) := by
    intro j found hfound
    have hlater : (∃ (l : Nat) (a : Attempt),
        (w.attempts.set k { attempt with phase := next.2 })[l]? = some a ∧ a.holder = j ∧
          a.phase ≠ .finished) →
        ∃ (l : Nat) (a : Attempt), w.attempts[l]? = some a ∧ a.holder = j ∧
          a.phase ≠ .finished := by
      rintro ⟨l, a, hl, rfl, hphase⟩
      obtain ⟨old, hold, hholder, hbefore, -⟩ := advanced_attempt hattempt hlive hl
      exact ⟨l, old, hold, hholder.symm, hbefore hphase⟩
    rcases lookup_set hfound with ⟨rfl, rfl⟩ | ⟨hne, hold⟩
    · exact ⟨held, hheld, hseen, fun _ => usable_of_attempt hattempt hlive⟩
    · exact ⟨found, hold, rfl, fun husable => husable.imp_right hlater⟩
  refine ⟨hlog, ?_, h.bounded_after hattempt, ?_, h.alone_after hattempt hlive, ?_, ?_, ?_, ?_⟩
  · intro session hsession
    rcases hentries with rfl | hsending
    · change Clean (w.log ++ []) w.clock session
      rw [List.append_nil]
      exact h.file session hsession
    · have hmarked := (h.active k attempt held hattempt hheld hsending).2
      unfold World.marked at hmarked
      rw [show w.file = some session from hsession] at hmarked
      exact .of_marked hmarked
  · intro j found hfound
    obtain ⟨old, hold, hsame, -⟩ := hlookup j found hfound
    rw [hsame]
    exact h.seen j old hold
  · intro hmarked i j first second hfirst hsecond hone hother husable husable'
    obtain ⟨old, hold, hsame, hbefore⟩ := hlookup i first hfirst
    obtain ⟨old', hold', hsame', hbefore'⟩ := hlookup j second hsecond
    exact h.marker hmarked i j old old' hold hold' (hsame.symm.trans hone)
      (hsame'.symm.trans hother) (hbefore husable) (hbefore' husable')
  · intro j found hfound hcurrent
    rcases lookup_set hfound with ⟨rfl, rfl⟩ | ⟨hne, hold⟩
    · exact hclean (hseen.symm.trans hcurrent)
    · cases hmark : found.session.inFlight with
      | true => exact .of_marked hmark
      | false =>
        obtain rfl := helsewhere j found hne hold hcurrent (.inl hmark)
        change Clean (w.log ++ []) w.clock found.session
        rw [List.append_nil]
        exact h.clean j found hold hcurrent
  · intro j found other hfound hother hcurrent
    by_cases hfinished : found.phase = .finished
    · exact .finished hfinished
    obtain ⟨old, hold, hholder, hphase, hkept⟩ := advanced_attempt hattempt hlive hfound
    rcases lookup_set hfound with ⟨rfl, rfl⟩ | ⟨hne, -⟩
    · rcases lookup_set hother with ⟨-, rfl⟩ | ⟨hne, -⟩
      · exact hpending (hseen.symm.trans hcurrent)
      · exact absurd rfl hne
    · obtain rfl := hkept hne
      rcases lookup_set hother with ⟨hsame, rfl⟩ | ⟨hapart, hbefore⟩
      · exact absurd (h.alone j k found attempt hold hattempt hfinished hlive hsame) hne
      · obtain rfl := helsewhere _ other hapart hbefore hcurrent (usable_of_attempt hold hfinished)
        change Pending (w.log ++ []) w.clock other found.phase
        rw [List.append_nil]
        exact h.pending j found other hold hbefore hcurrent
  · intro j found other hfound hother hsending
    obtain ⟨old, hold, hholder, hphase, hkept⟩ := advanced_attempt hattempt hlive hfound
    rcases lookup_set hfound with ⟨rfl, rfl⟩ | ⟨hne, -⟩
    · rcases lookup_set hother with ⟨-, rfl⟩ | ⟨hne, -⟩
      · obtain ⟨hcurrent, hmarked⟩ := hactive hsending
        exact ⟨hseen.trans hcurrent, hmarked⟩
      · exact absurd rfl hne
    · obtain rfl := hkept hne
      have hfinished : found.phase ≠ .finished := by
        intro hfinished
        rw [hfinished] at hsending
        cases hsending
      rcases lookup_set hother with ⟨hsame, rfl⟩ | ⟨hapart, hbefore⟩
      · exact absurd (h.alone j k found attempt hold hattempt hfinished hlive hsame) hne
      · exact h.active j found other hold hbefore hsending

theorem Invariant.advance_same (h : Invariant w) (hattempt : w.attempts[k]? = some attempt)
    (hheld : w.held[attempt.holder]? = some held) (hlive : attempt.phase ≠ .finished)
    (hseen : next.1.seen = held.seen)
    (hclean : held.seen = w.changes → Clean w.log w.clock next.1.session)
    (hpending : held.seen = w.changes → Pending w.log w.clock next.1 next.2)
    (hactive : next.2.active = true → held.seen = w.changes ∧ w.marked = true) :
    Invariant (w.advance k attempt next) := by
  have hlog : w.log ++ [] = w.log := List.append_nil _
  refine h.advance hattempt hheld hlive hseen (.inl rfl) ?_ ?_ ?_ hactive
  · rw [World.NeverResends]
    dsimp only
    rw [hlog]
    exact h.log
  · rw [hlog]
    exact hclean
  · rw [hlog]
    exact hpending

/-- A write that changes what refreshes read: nobody else has seen it. -/
theorem Invariant.put_new (h : Invariant w) (hattempt : w.attempts[k]? = some attempt)
    (hheld : w.held[attempt.holder]? = some held) (hlive : attempt.phase ≠ .finished)
    (hseen : held.seen = w.changes) (hclean : Clean w.log w.clock next.1.session)
    (hpending : Pending w.log w.clock next.1 next.2)
    (hactive : next.2.active = true → next.1.session.inFlight = true) :
    Invariant (w.put k attempt next (w.changes + 1)) := by
  have hlog : (w.put k attempt next (w.changes + 1)).log = w.log := List.append_nil _
  have hbehind : ∀ (j : Nat) (found : Held),
      (w.put k attempt next (w.changes + 1)).held[j]? = some found →
      found.seen = w.changes + 1 →
      j = attempt.holder ∧ found = { next.1 with seen := w.changes + 1 } := by
    intro j found hfound hcurrent
    rcases lookup_set hfound with hown | ⟨-, hold⟩
    · exact hown
    · have hle := h.seen j found hold
      omega
  refine ⟨?_, ?_, h.bounded_after hattempt, ?_, h.alone_after hattempt hlive, ?_, ?_, ?_, ?_⟩
  · rw [World.NeverResends, hlog]
    exact h.log
  · rintro session hsession
    rw [hlog]
    cases hsession
    exact hclean
  · intro j found hfound
    change found.seen ≤ w.changes + 1
    rcases lookup_set hfound with ⟨-, rfl⟩ | ⟨-, hold⟩
    · exact le_rfl
    · exact Nat.le_succ_of_le (h.seen j found hold)
  · intro _ i j first second hfirst hsecond hone hother _ _
    rw [(hbehind i first hfirst hone).1, (hbehind j second hsecond hother).1]
  · intro j found hfound hcurrent
    rw [hlog, (hbehind j found hfound hcurrent).2]
    exact hclean
  · intro j found other hfound hother hcurrent
    rw [hlog]
    by_cases hfinished : found.phase = .finished
    · exact .finished hfinished
    obtain ⟨hsame, rfl⟩ := hbehind _ other hother hcurrent
    obtain ⟨old, hold, hholder, hphase, hkept⟩ := advanced_attempt hattempt hlive hfound
    rcases lookup_set hfound with ⟨rfl, rfl⟩ | ⟨hne, -⟩
    · exact ⟨hpending.token, hpending.fresh, hpending.marks⟩
    · obtain rfl := hkept hne
      exact absurd (h.alone j k found attempt hold hattempt hfinished hlive hsame) hne
  · intro j found other hfound hother hsending
    rcases lookup_set hfound with ⟨rfl, rfl⟩ | ⟨hne, hold⟩
    · rcases lookup_set hother with ⟨-, rfl⟩ | ⟨hne, -⟩
      · exact ⟨rfl, hactive hsending⟩
      · exact absurd rfl hne
    · -- no other request is sent, since the file was the writer's
      have hfinished : found.phase ≠ .finished := by
        intro hfinished
        rw [hfinished] at hsending
        cases hsending
      obtain ⟨sender, hsender⟩ : ∃ sender, w.held[found.holder]? = some sender :=
        ⟨_, List.getElem?_eq_getElem (h.bounded found (List.mem_of_getElem? hold))⟩
      have hsame := h.only hold hsender hsending hheld hseen (usable_of_attempt hattempt hlive)
      exact absurd (h.alone j k found attempt hold hattempt hfinished hlive hsame.symm) hne

theorem Invariant.put_same (h : Invariant w) (hattempt : w.attempts[k]? = some attempt)
    (hheld : w.held[attempt.holder]? = some held) (hlive : attempt.phase ≠ .finished)
    (hseen : held.seen = w.changes) (hclean : Clean w.log w.clock next.1.session)
    (hpending : Pending w.log w.clock next.1 next.2)
    (hactive : next.2.active = true → next.1.session.inFlight = true)
    (hsame : w.file.map refreshPart = some (refreshPart next.1.session)) :
    Invariant (w.put k attempt next w.changes) := by
  have hmarked : w.marked = next.1.session.inFlight := by
    obtain ⟨session, hsession, hpart⟩ := Option.map_eq_some_iff.mp hsame
    have hstate : session.refreshState = next.1.session.refreshState := congrArg Prod.snd hpart
    unfold World.marked OAuthSessions.StoredOAuthSession.inFlight
    rw [hsession, Option.any_some, hstate]
  have hadvanced : Invariant
      (w.advance k attempt ({ next.1 with seen := w.changes }, next.2)) :=
    h.advance_same hattempt hheld hlive hseen.symm (fun _ => hclean)
      (fun _ => ⟨hpending.token, hpending.fresh, hpending.marks⟩)
      fun hsending => ⟨hseen, hmarked.trans (hactive hsending)⟩
  have hfile : (w.put k attempt next w.changes).marked = w.marked := hmarked.symm
  refine { hadvanced with file := ?_, marker := ?_, active := ?_ }
  · intro session hsession
    cases hsession
    change Clean (w.log ++ []) w.clock next.1.session
    rw [List.append_nil]
    exact hclean
  · rw [hfile]
    exact hadvanced.marker
  · intro j found other hfound hother hsending
    rw [hfile]
    exact hadvanced.active j found other hfound hother hsending

/-- **A write** by one who has seen what the file says of the refresh. -/
theorem Invariant.commit (h : Invariant w) (hattempt : w.attempts[k]? = some attempt)
    (hheld : w.held[attempt.holder]? = some held) (hlive : attempt.phase ≠ .finished)
    (hseen : held.seen = w.changes) (hclean : Clean w.log w.clock next.1.session)
    (hpending : Pending w.log w.clock next.1 next.2)
    (hactive : next.2.active = true → next.1.session.inFlight = true) :
    Invariant (w.commit k attempt next) := by
  unfold World.commit
  split
  · exact h.put_same hattempt hheld hlive hseen hclean hpending hactive ‹_›
  · exact h.put_new hattempt hheld hlive hseen hclean hpending hactive

end Invariants

/-! ### Reads and beginnings -/

section Beginnings

variable {w w' : World} {held : Held} {session : Session} {phase : Phase} {target : Target}

theorem Invariant.addHeld (h : Invariant w) (provider : Bool)
    (hclean : Clean w.log w.clock session)
    (hmarked : w.marked = true → session.inFlight = true) :
    Invariant (w.addHeld session provider) := by
  have hold : ∀ (j : Nat) (found : Held), (w.addHeld session provider).held[j]? = some found →
      w.held[j]? = some found ∨
        j = w.held.length ∧ found = { session, seen := w.changes, provider } :=
    fun j found hfound => lookup_append hfound
  -- nothing goes on with it yet
  have hfresh : ∀ attempt ∈ w.attempts, attempt.holder ≠ w.held.length := by
    intro attempt hattempt hsame
    have hbound := h.bounded attempt hattempt
    omega
  refine ⟨h.log, h.file, ?_, ?_, h.alone, ?_, ?_, ?_, ?_⟩
  · intro attempt hattempt
    change attempt.holder < (w.held ++ [_]).length
    rw [List.length_append]
    exact Nat.lt_add_right _ (h.bounded attempt hattempt)
  · intro j found hfound
    rcases hold j found hfound with hfound | ⟨-, rfl⟩
    · exact h.seen j found hfound
    · exact le_rfl
  · intro hfile i j first second hfirst hsecond hone hother husable husable'
    have hnew : ¬(w.addHeld session provider).Usable w.held.length
        { session, seen := w.changes, provider } := by
      rintro (hunmarked | ⟨k, attempt, hattempt, hholder, -⟩)
      · have hmark := hmarked hfile
        rw [hunmarked] at hmark
        cases hmark
      · exact hfresh attempt (List.mem_of_getElem? hattempt) hholder
    rcases hold i first hfirst with hfirst | ⟨rfl, rfl⟩
    · rcases hold j second hsecond with hsecond | ⟨rfl, rfl⟩
      · exact h.marker hfile i j first second hfirst hsecond hone hother husable husable'
      · exact absurd husable' hnew
    · exact absurd husable hnew
  · intro j found hfound hcurrent
    rcases hold j found hfound with hfound | ⟨-, rfl⟩
    · exact h.clean j found hfound hcurrent
    · exact hclean
  · intro k attempt found hattempt hfound hcurrent
    rcases hold _ found hfound with hfound | ⟨hsame, -⟩
    · exact h.pending k attempt found hattempt hfound hcurrent
    · exact absurd hsame (hfresh attempt (List.mem_of_getElem? hattempt))
  · intro k attempt found hattempt hfound hsending
    rcases hold _ found hfound with hfound | ⟨hsame, -⟩
    · exact h.active k attempt found hattempt hfound hsending
    · exact absurd hsame (hfresh attempt (List.mem_of_getElem? hattempt))

/-- Something begins with a session with which nothing goes on. -/
theorem Invariant.addAttempt (h : Invariant w) {i : Nat} (hheld : w.held[i]? = some held)
    (hidle : ∀ attempt ∈ w.attempts, attempt.holder = i → attempt.phase = .finished)
    (husable : w.marked = true → held.session.inFlight = false)
    (hpending : held.seen = w.changes → Pending w.log w.clock held phase)
    (hinactive : phase.active = false) : Invariant (w.addAttempt i phase) := by
  have hold : ∀ (k : Nat) (found : Attempt), (w.addAttempt i phase).attempts[k]? = some found →
      w.attempts[k]? = some found ∨ k = w.attempts.length ∧ found = ⟨i, phase⟩ :=
    fun k found hfound => lookup_append hfound
  refine ⟨h.log, h.file, ?_, h.seen, ?_, ?_, h.clean, ?_, ?_⟩
  · intro attempt hattempt
    rcases List.mem_append.mp hattempt with hattempt | hnew
    · exact h.bounded attempt hattempt
    · cases List.mem_singleton.mp hnew
      exact (List.getElem?_eq_some_iff.mp hheld).1
  · intro k k' attempt attempt' hattempt hattempt' hlive hlive' hsame
    rcases hold k attempt hattempt with hbefore | ⟨rfl, rfl⟩
    · rcases hold k' attempt' hattempt' with hbefore' | ⟨rfl, rfl⟩
      · exact h.alone k k' attempt attempt' hbefore hbefore' hlive hlive' hsame
      · exact absurd (hidle attempt (List.mem_of_getElem? hbefore) hsame) hlive
    · rcases hold k' attempt' hattempt' with hbefore' | ⟨rfl, rfl⟩
      · exact absurd (hidle attempt' (List.mem_of_getElem? hbefore') hsame.symm) hlive'
      · rfl
  · intro hmarked j j' first second hfirst hsecond hone hother hof hof'
    have hbefore : ∀ (l : Nat) (found : Held), w.held[l]? = some found →
        (w.addAttempt i phase).Usable l found → w.Usable l found := by
      rintro l found hfound (hunmarked | ⟨k, attempt, hattempt, rfl, hlive⟩)
      · exact .inl hunmarked
      · rcases hold k attempt hattempt with hattempt | ⟨rfl, rfl⟩
        · exact .inr ⟨k, attempt, hattempt, rfl, hlive⟩
        · rw [hheld] at hfound
          rw [← Option.some.inj hfound]
          exact .inl (husable hmarked)
    exact h.marker hmarked j j' first second hfirst hsecond hone hother
      (hbefore j first hfirst hof) (hbefore j' second hsecond hof')
  · intro k attempt found hattempt hfound hcurrent
    rcases hold k attempt hattempt with hbefore | ⟨rfl, rfl⟩
    · exact h.pending k attempt found hbefore hfound hcurrent
    · rw [show w.held[i]? = some found from hfound] at hheld
      obtain rfl := Option.some.inj hheld
      exact hpending hcurrent
  · intro k attempt found hattempt hfound hsending
    rcases hold k attempt hattempt with hbefore | ⟨rfl, rfl⟩
    · exact h.active k attempt found hbefore hfound hsending
    · rw [hinactive] at hsending
      cases hsending

theorem Invariant.hold (h : Invariant w) (hclean : Clean w.log w.clock session)
    (hunmarked : w.marked = false)
    (hpending : ∀ held : Held, held.session = session → Pending w.log w.clock held phase)
    (hinactive : phase.active = false) : Invariant (w.hold session phase) := by
  have hnever : w.marked ≠ true := by
    rw [hunmarked]
    exact Bool.false_ne_true
  refine (h.addHeld false hclean fun hmarked => absurd hmarked hnever).addAttempt
    List.getElem?_concat_length ?_ (fun hmarked => absurd hmarked hnever)
    (fun _ => hpending _ rfl) hinactive
  intro attempt hattempt hsame
  have hbound := h.bounded attempt hattempt
  omega

/-! ### What the checks of a read have found -/

theorem bound_eq_some {contents : Option Session}
    (h : target.readBoundOAuthSession contents = some session) : contents = some session :=
  (Option.filter_eq_some_iff.mp h).1

theorem checkCall_flag {contents : Option Session} {now : Int}
    (h : target.checkCall contents now = .flag session) :
    ∃ read, contents = some read ∧ read.inFlight = false ∧
      session = read.markReauthorizationRequired .bindingMismatch := by
  unfold Target.checkCall at h
  split at h
  · cases h
  rename_i read hread
  split at h
  · cases h
  split at h
  · cases h
  rename_i hunmarked
  split at h
  · cases h
  · cases h
    exact ⟨read, bound_eq_some hread, Bool.eq_false_iff.mpr hunmarked, rfl⟩
  · split at h
    · split at h
      · split at h <;> cases h
      · split at h <;> cases h
    · cases h

theorem checkRefresh_go {contents : Option Session} {now : Int}
    (h : target.checkRefresh contents now = .go session) :
    contents = some session ∧ session.inFlight = false := by
  unfold Target.checkRefresh at h
  split at h
  · cases h
  rename_i read hread
  split at h
  · cases h
  split at h
  · cases h
  rename_i hunmarked
  split at h
  · cases h
  split at h
  · cases h
  split at h
  · cases h
  · cases h
    exact ⟨bound_eq_some hread, Bool.eq_false_iff.mpr hunmarked⟩

theorem checkRefresh_flag {contents : Option Session} {now : Int}
    (h : target.checkRefresh contents now = .flag session) :
    ∃ read, contents = some read ∧ read.inFlight = false ∧
      session = read.markReauthorizationRequired .grantUnusable := by
  unfold Target.checkRefresh at h
  split at h
  · cases h
  rename_i read hread
  split at h
  · cases h
  split at h
  · cases h
  rename_i hunmarked
  split at h
  · cases h
  split at h
  · cases h
  split at h
  · cases h
    exact ⟨read, bound_eq_some hread, Bool.eq_false_iff.mpr hunmarked, rfl⟩
  · cases h

theorem marked_eq {session : Session} (h : w.file = some session) :
    w.marked = session.inFlight := by
  rw [World.marked, h]
  rfl

theorem Invariant.hold_flagged (h : Invariant w) {read : Session} (hread : w.file = some read)
    (hunmarked : read.inFlight = false) (reason : OAuthSessions.ReauthorizationReason) :
    Invariant (w.hold (read.markReauthorizationRequired reason) .flagging) :=
  h.hold ((h.file read hread).flagged reason) ((marked_eq hread).trans hunmarked)
    (fun _ _ => .idle rfl rfl) rfl

theorem Invariant.inspect (h : Invariant w) (hstep : step target w .inspect = some w') :
    Invariant w' := by
  unfold step at hstep
  dsimp only at hstep
  split at hstep
  · rename_i session hflag
    obtain ⟨read, hread, hunmarked, rfl⟩ := checkCall_flag hflag
    cases hstep
    exact h.hold_flagged hread hunmarked _
  · cases hstep
    exact h

theorem Invariant.transact (h : Invariant w) (hmeets : w.meets target .transact = true)
    (hstep : transact target w = some w') : Invariant w' := by
  unfold OAuthResends.transact at hstep
  unfold World.meets at hmeets
  split at hstep
  · rename_i session hgo
    rw [hgo] at hmeets
    obtain ⟨token, htoken, rfl⟩ := Option.map_eq_some_iff.mp hstep
    obtain ⟨hread, hunmarked⟩ := checkRefresh_go hgo
    have hclean := h.file session hread
    refine h.hold hclean ((marked_eq hread).trans hunmarked) ?_ rfl
    rintro held rfl
    refine ⟨?_, fun _ => hclean.fresh hmeets, fun hnever => by cases hnever⟩
    rintro _ ⟨⟩
    exact htoken
  · rename_i session hflag
    obtain ⟨read, hread, hunmarked, rfl⟩ := checkRefresh_flag hflag
    cases hstep
    exact h.hold_flagged hread hunmarked _
  · cases hstep
    exact h
  · cases hstep
    exact h

theorem Invariant.provide (h : Invariant w) (hstep : provide target w = some w') :
    Invariant w' := by
  obtain ⟨session, hsession, rfl⟩ := Option.map_eq_some_iff.mp hstep
  have hread := bound_eq_some (Option.filter_eq_some_iff.mp hsession).1
  refine h.addHeld true (h.file session hread) ?_
  rw [marked_eq hread]
  exact id

theorem Invariant.recover (h : Invariant w) {i : Nat}
    (hmeets : w.meets target (.recover i) = true) (hstep : recover w i = some w') :
    Invariant w' := by
  obtain ⟨held, hheld, hstep⟩ := Option.bind_eq_some_iff.mp hstep
  obtain ⟨token, htoken, hstep⟩ := Option.bind_eq_some_iff.mp hstep
  split at hstep
  · cases hstep
    unfold World.meets at hmeets
    dsimp only at hmeets
    rw [hheld, Option.all_some, Bool.and_eq_true, List.all_eq_true] at hmeets
    obtain ⟨hrefreshable, hidle⟩ := hmeets
    have hunmarked : held.session.inFlight = false := by
      unfold refreshable at hrefreshable
      rw [Bool.and_eq_true, Bool.not_eq_true'] at hrefreshable
      exact hrefreshable.1
    refine h.addAttempt hheld ?_ (fun _ => hunmarked) ?_ rfl
    · intro attempt hattempt hsame
      have hfinished := hidle attempt hattempt
      simpa [hsame] using hfinished
    · intro hcurrent
      refine ⟨?_, fun _ => (h.clean i held hheld hcurrent).fresh hrefreshable,
        fun hnever => by cases hnever⟩
      rintro _ ⟨⟩
      exact (Option.filter_eq_some_iff.mp htoken).1
  · cases hstep

/-- A crash ends the requests that are awaited, and the file has their mark. -/
theorem Invariant.crash (h : Invariant w) (hstep : step target w .crash = some w') :
    Invariant w' := by
  cases hstep
  have hentries : ∀ entry ∈ w.attempts.filterMap Attempt.unanswered,
      (∃ token, entry = .ended token) ∧ w.marked = true := by
    intro entry hentry
    obtain ⟨attempt, hattempt, hended⟩ := List.mem_filterMap.mp hentry
    unfold Attempt.unanswered at hended
    split at hended
    · rename_i token hphase
      cases hended
      obtain ⟨k, hk⟩ := List.getElem?_of_mem hattempt
      have hheld := List.getElem?_eq_getElem (h.bounded attempt hattempt)
      refine ⟨⟨token, rfl⟩, (h.active k attempt _ hk hheld ?_).2⟩
      rw [hphase]
      rfl
    · cases hended
  refine ⟨?_, ?_, ?_, ?_, ?_, ?_, ?_, ?_, ?_⟩
  · refine neverResends_append h.log fun entry hentry text time hsent => ?_
    obtain ⟨⟨token, hended⟩, -⟩ := hentries entry hentry
    rw [hsent] at hended
    cases hended
  · intro session hsession
    change w.file = some session at hsession
    cases hlost : w.attempts.filterMap Attempt.unanswered with
    | nil =>
      change Clean (w.log ++ []) w.clock session
      rw [List.append_nil]
      exact h.file session hsession
    | cons entry rest =>
      refine .of_marked ?_
      rw [← marked_eq hsession]
      exact (hentries entry (by rw [hlost]; exact List.mem_cons_self)).2
  · exact fun attempt hattempt => absurd hattempt List.not_mem_nil
  all_goals simp

end Beginnings

/-! ### Steps of attempts -/

section Attempts

variable {w w' : World} {k : Nat} {attempt : Attempt} {held : Held} {target : Target}

/-- A session that is not refreshed any more, and a failure of it that is to be written. -/
theorem Invariant.ends (h : Invariant w) (hattempt : w.attempts[k]? = some attempt)
    (hheld : w.held[attempt.holder]? = some held) (hlive : attempt.phase ≠ .finished)
    {next : Held × Phase} (hseen : next.1.seen = held.seen)
    (hclean : held.seen = w.changes → Clean w.log w.clock next.1.session)
    (hphase : next.2 = .failing ∨ next.2 = .flagging ∨ next.2 = .finished) :
    Invariant (w.advance k attempt next) := by
  refine h.advance_same hattempt hheld hlive hseen hclean ?_ ?_
  · intro _
    rcases hphase with hphase | hphase | hphase <;> rw [hphase] <;> exact .idle rfl rfl
  · rcases hphase with hphase | hphase | hphase <;> rw [hphase] <;>
      exact fun hnever => by cases hnever

theorem Invariant.fails (h : Invariant w) (hattempt : w.attempts[k]? = some attempt)
    (hheld : w.held[attempt.holder]? = some held) (hrefreshing : attempt.phase.refreshing = true)
    {failed : Held} (hsession : failed.session = held.session) (hseen : failed.seen = held.seen)
    (failure : Option OAuthOperatorError) :
    Invariant (w.advance k attempt (failed.fail w.clock failure)) := by
  have hlive : attempt.phase ≠ .finished := by
    intro hfinished
    rw [hfinished] at hrefreshing
    cases hrefreshing
  refine h.ends hattempt hheld hlive ((fail_seen failure).trans hseen) ?_ ?_
  · intro hcurrent
    have hfresh := (h.pending k attempt held hattempt hheld hcurrent).fresh hrefreshing
    refine (hfresh.of_text ?_).clean
    rw [fail_text, hsession]
  · exact (fail_phase failure).imp_right .inr

theorem Invariant.prepared (h : Invariant w) (hattempt : w.attempts[k]? = some attempt)
    (hheld : w.held[attempt.holder]? = some held) {token : String}
    (hphase : attempt.phase = .preparing token) :
    Invariant (w.advance k attempt
      ({ held with session := held.session.markRefreshInFlight w.clock }, .marking token)) := by
  have hlive : attempt.phase ≠ .finished := by
    rw [hphase]
    exact Phase.noConfusion
  refine h.advance_same hattempt hheld hlive rfl (fun _ => .of_marked rfl) ?_ ?_
  · intro hcurrent
    have hpending := h.pending k attempt held hattempt hheld hcurrent
    rw [hphase] at hpending
    exact ⟨hpending.token, fun _ => (hpending.fresh rfl).of_text rfl, fun _ => rfl⟩
  · exact fun hnever => by cases hnever

/-- A request is sent, or sent again by `fetch` after one that reached nobody. -/
theorem Invariant.sends (h : Invariant w) (hattempt : w.attempts[k]? = some attempt)
    (hheld : w.held[attempt.holder]? = some held) {token : String}
    (hphase : attempt.phase = .sending token ∨ attempt.phase = .awaiting token) :
    Invariant (w.advance k attempt (held, .awaiting token) [.sent token w.clock]) := by
  have hsending : attempt.phase.active = true := by
    rcases hphase with hphase | hphase <;> rw [hphase] <;> rfl
  have hlive : attempt.phase ≠ .finished := by
    rcases hphase with hphase | hphase <;> rw [hphase] <;> exact Phase.noConfusion
  have hcurrent := (h.active k attempt held hattempt hheld hsending).1
  have hpending := h.pending k attempt held hattempt hheld hcurrent
  have hfresh : Fresh w.log w.clock held.session := by
    refine hpending.fresh ?_
    rcases hphase with hphase | hphase <;> rw [hphase] <;> rfl
  have htoken : refreshText held.session = some token := by
    refine hpending.token token ?_
    rcases hphase with hphase | hphase <;> rw [hphase] <;> rfl
  have hkept : Fresh (w.log ++ [.sent token w.clock]) w.clock held.session := by
    refine ⟨?_, ?_⟩
    · intro text htext hended
      rcases List.mem_append.mp hended with hold | hnew
      · exact hfresh.1 text htext hold
      · cases List.mem_singleton.mp hnew
    · intro retryAfter hlimited
      rcases List.mem_append.mp hlimited with hold | hnew
      · exact hfresh.2 retryAfter hold
      · cases List.mem_singleton.mp hnew
  refine h.advance hattempt hheld hlive rfl (.inr hsending) (neverResends_send h.log hfresh htoken)
    (fun _ => hkept.clean) (fun _ => ⟨?_, fun _ => hkept, fun hnever => by cases hnever⟩)
    fun _ => h.active k attempt held hattempt hheld hsending
  rintro _ ⟨⟩
  exact htoken

theorem Invariant.answered (h : Invariant w) (hattempt : w.attempts[k]? = some attempt)
    (hheld : w.held[attempt.holder]? = some held) {token : String}
    (hphase : attempt.phase = .awaiting token) {answer : Answer} {number jitter : Nat}
    (hplain : answer.plain w.log = true) :
    Invariant (w.advance k attempt (held.answer w.clock number jitter answer)
      (World.entries token answer (held.answer w.clock number jitter answer).1.session)) := by
  have hlive : attempt.phase ≠ .finished := by
    rw [hphase]
    exact Phase.noConfusion
  have hsending : attempt.phase.active = true := by
    rw [hphase]
    rfl
  have hcurrent := (h.active k attempt held hattempt hheld hsending).1
  have hpending := h.pending k attempt held hattempt hheld hcurrent
  rw [hphase] at hpending
  obtain ⟨hclean, hnext⟩ :=
    answer_clean number jitter (hpending.fresh rfl) (hpending.token token rfl) hplain
  refine h.advance hattempt hheld hlive answer_seen (.inr hsending)
    (neverResends_append h.log fun entry hentry => entries_not_sent hentry)
    (fun _ => hclean) (fun _ => ?_) ?_
  · rcases hnext with ⟨hsaving | hdenying, hfresh⟩ | hfailing | hfinished
    · rw [hsaving]
      exact ⟨fun _ hnone => (by cases hnone), fun _ => hfresh, fun hnever => by cases hnever⟩
    · rw [hdenying]
      exact ⟨fun _ hnone => (by cases hnone), fun _ => hfresh, fun hnever => by cases hnever⟩
    · rw [hfailing]
      exact .idle rfl rfl
    · exact .finished hfinished
  · rcases hnext with ⟨hsaving | hdenying, -⟩ | hfailing | hfinished
    · rw [hsaving]
      exact fun hnever => by cases hnever
    · rw [hdenying]
      exact fun hnever => by cases hnever
    · rw [hfailing]
      exact fun hnever => by cases hnever
    · rw [hfinished]
      exact fun hnever => by cases hnever

end Attempts

section Runs

variable {w w' : World} {k : Nat} {outcome : Outcome} {event : Event} {target : Target}

/-- Who is about to write has seen the latest write. -/
theorem seen_of_meets {attempt : Attempt} {held : Held}
    (hmeets : w.meets target (.attempt k .succeeded) = true)
    (hattempt : w.attempts[k]? = some attempt) (hheld : w.held[attempt.holder]? = some held)
    (hwrites : attempt.phase.writes = true) : held.seen = w.changes := by
  unfold World.meets at hmeets
  dsimp only at hmeets
  rw [hattempt, Option.all_some, hwrites, hheld, Option.all_some] at hmeets
  simpa using hmeets

theorem Invariant.attemptStep (h : Invariant w)
    (hmeets : w.meets target (.attempt k outcome) = true)
    (hstep : attemptStep w k outcome = some w') : Invariant w' := by
  obtain ⟨attempt, hattempt, hstep⟩ := Option.bind_eq_some_iff.mp hstep
  obtain ⟨held, hheld, hstep⟩ := Option.bind_eq_some_iff.mp hstep
  have hclean := h.clean attempt.holder held hheld
  have hpending := h.pending k attempt held hattempt hheld
  -- the write of an attempt is by one who has seen the latest
  have hseen : outcome = .succeeded → attempt.phase.writes = true → held.seen = w.changes := by
    rintro rfl hwrites
    exact seen_of_meets hmeets hattempt hheld hwrites
  generalize hphase : attempt.phase = phase at hstep hpending hseen
  have hlive : phase ≠ .finished → attempt.phase ≠ .finished := by
    rw [hphase]
    exact id
  have hrefreshing : phase.refreshing = true → attempt.phase.refreshing = true := by
    rw [hphase]
    exact id
  cases phase with
  | preparing token =>
    cases outcome with
    | succeeded =>
      cases hstep
      exact h.prepared hattempt hheld hphase
    | failed =>
      cases hstep
      exact h.fails hattempt hheld (hrefreshing rfl) rfl rfl _
    | changed =>
      unfold resume at hstep
      dsimp only at hstep
      split at hstep
      · cases hstep
      · cases hstep
        exact h.ends hattempt hheld (hlive Phase.noConfusion) rfl
          (fun hcurrent => (hclean hcurrent).flagged _) (.inr (.inl rfl))
    | retried | answered => cases hstep
  | marking token =>
    cases outcome with
    | succeeded =>
      cases hstep
      have hcurrent := hseen rfl rfl
      have hmarking := hpending hcurrent
      exact h.commit hattempt hheld (hlive Phase.noConfusion) hcurrent (hclean hcurrent)
        ⟨hmarking.token, fun _ => hmarking.fresh rfl, fun hnever => by cases hnever⟩
        fun _ => hmarking.marks rfl
    | failed =>
      cases hstep
      exact h.fails hattempt hheld (hrefreshing rfl)
        (rfl : (held.observe notSent).session = held.session) rfl _
    | changed | retried | answered => cases hstep
  | sending token =>
    cases outcome with
    | succeeded =>
      cases hstep
      exact h.sends hattempt hheld (.inl hphase)
    | failed | changed | retried | answered => cases hstep
  | awaiting token =>
    cases outcome with
    | answered answer jitter =>
      cases hstep
      exact (h.answered hattempt hheld hphase hmeets).respond _
    | retried error reached =>
      have hunsent : reached = false := by simpa [World.meets] using hmeets
      subst hunsent
      unfold resume at hstep
      dsimp only at hstep
      split at hstep
      · cases hstep
        exact h.sends hattempt hheld (.inr hphase)
      · cases hstep
    | succeeded | failed | changed => cases hstep
  | saving =>
    cases outcome with
    | succeeded =>
      cases hstep
      have hcurrent := hseen rfl rfl
      refine h.commit hattempt hheld (hlive Phase.noConfusion) hcurrent (hclean hcurrent) ?_ ?_
      · dsimp only
        split
        · exact .finished rfl
        · exact .idle rfl rfl
      · dsimp only
        split <;> exact fun hnever => by cases hnever
    | failed =>
      cases hstep
      exact h.fails hattempt hheld (hrefreshing rfl) rfl rfl _
    | changed | retried | answered => cases hstep
  | auditing =>
    cases outcome with
    | succeeded =>
      cases hstep
      exact h.ends hattempt hheld (hlive Phase.noConfusion) rfl hclean (.inr (.inr rfl))
    | failed =>
      cases hstep
      refine h.ends hattempt hheld (hlive Phase.noConfusion) (fail_seen _)
        (fun _ => .of_marked (fail_ambiguous rfl)) ?_
      exact (fail_phase _).imp_right .inr
    | changed | retried | answered => cases hstep
  | denying =>
    cases outcome with
    | succeeded =>
      cases hstep
      have hcurrent := hseen rfl rfl
      have hfresh := (hpending hcurrent).fresh rfl
      exact h.commit hattempt hheld (hlive Phase.noConfusion) hcurrent (hclean hcurrent)
        ⟨fun _ hnone => (by cases hnone), fun _ => hfresh, fun hnever => by cases hnever⟩
        fun hnever => by cases hnever
    | failed =>
      cases hstep
      exact h.fails hattempt hheld (hrefreshing rfl)
        (rfl : (held.observe unusable).session = held.session) rfl _
    | changed | retried | answered => cases hstep
  | denied =>
    cases outcome with
    | succeeded =>
      cases hstep
      exact h.fails hattempt hheld (hrefreshing rfl) rfl rfl _
    | failed | changed | retried | answered => cases hstep
  | failing =>
    cases outcome with
    | succeeded =>
      cases hstep
      have hcurrent := hseen rfl rfl
      exact h.commit hattempt hheld (hlive Phase.noConfusion) hcurrent (hclean hcurrent)
        (.finished rfl) fun hnever => by cases hnever
    | failed =>
      cases hstep
      exact h.ends hattempt hheld (hlive Phase.noConfusion) rfl hclean (.inr (.inr rfl))
    | changed | retried | answered => cases hstep
  | flagging =>
    cases outcome with
    | succeeded =>
      cases hstep
      have hcurrent := hseen rfl rfl
      exact h.commit hattempt hheld (hlive Phase.noConfusion) hcurrent (hclean hcurrent)
        (.finished rfl) fun hnever => by cases hnever
    | failed =>
      cases hstep
      exact h.ends hattempt hheld (hlive Phase.noConfusion) rfl hclean (.inr (.inr rfl))
    | changed | retried | answered => cases hstep
  | finished => cases outcome <;> cases hstep

theorem Invariant.step (h : Invariant w) (hmeets : w.meets target event = true)
    (hstep : step target w event = some w') : Invariant w' := by
  cases event with
  | tick ms =>
    cases hstep
    exact h.later ms
  | inspect => exact h.inspect hstep
  | transact => exact h.transact hmeets hstep
  | provide => exact h.provide hstep
  | recover i => exact h.recover hmeets hstep
  | attempt k outcome => exact h.attemptStep hmeets hstep
  | crash => exact h.crash hstep

theorem Invariant.start (file : Option Session) (clock : Int) : Invariant { file, clock } where
  log := List.Pairwise.nil
  file session _ _ :=
    ⟨fun _ _ => List.not_mem_nil, fun _ hlimited => absurd hlimited List.not_mem_nil⟩
  bounded attempt h := absurd h List.not_mem_nil
  seen i held h := by simp at h
  alone k k' attempt attempt' h := by simp at h
  marker _ i j held held' h := by simp at h
  clean i held h := by simp at h
  pending k attempt held h := by simp at h
  active k attempt held h := by simp at h

/-- **Spent tokens.** In every run in which whoever writes has seen what the file says of the
refresh, and a refresh begins only with a session that has no mark and whose Retry-After has
passed, no refresh token is sent after it was rotated or its request ended ambiguously, and none
before a Retry-After. -/
theorem never_resends (target : Target) (file : Option Session) (clock : Int)
    (events : List Event) (w : World)
    (h : Machine.Run (step target) (fun w event => w.meets target event = true)
      { file, clock } events w) : w.NeverResends :=
  (h.invariant (fun _ _ _ hkept hmeets hstep => hkept.step hmeets hstep)
    (Invariant.start file clock)).log

end Runs

/-! ## Runs of two providers -/

open OAuthRefresh (sampleTarget sampleSession)

/-- A provider refreshes the session of a call, as far as the write of the new tokens. -/
def rotation (i : Nat) (value : TokenResponse) : List Event :=
  [.attempt i .succeeded, .attempt i .succeeded, .attempt i .succeeded,
    .attempt i (.answered (.success (some value)) 0), .attempt i .succeeded]

/-- The provider that was refreshed is refreshed again, with the token that it has got. -/
theorem never_resends_rotated : ∃ w,
    Machine.Run (step sampleTarget) (fun w event => w.meets sampleTarget event = true)
      { file := some sampleSession, clock := 1000 }
      ([.provide, .recover 0] ++ rotation 0 ⟨"new", some "next", none, some 3600⟩ ++
        [.recover 0] ++ rotation 1 ⟨"newer", some "last", none, some 3600⟩) w ∧
      w.log = [.sent "refresh" 1000, .ended "refresh", .sent "next" 1000, .ended "next"] ∧
      w.NeverResends := by
  obtain ⟨w, hrun, hlog⟩ : ∃ w,
      Machine.Run (step sampleTarget) (fun w event => w.meets sampleTarget event = true)
        { file := some sampleSession, clock := 1000 }
        ([.provide, .recover 0] ++ rotation 0 ⟨"new", some "next", none, some 3600⟩ ++
          [.recover 0] ++ rotation 1 ⟨"newer", some "last", none, some 3600⟩) w ∧
        w.log = [.sent "refresh" 1000, .ended "refresh", .sent "next" 1000, .ended "next"] :=
    Machine.run_of_checked_any (by decide +kernel)
  exact ⟨w, hrun, hlog, never_resends sampleTarget _ _ _ w hrun⟩

/-- Two dispatches have a provider of one session. When the first has rotated the refresh token, a
401 of the second sends the old one. -/
theorem rotated_token_resent : ∃ w,
    Machine.Run (step sampleTarget) Machine.Free { file := some sampleSession, clock := 1000 }
      ([.provide, .provide, .recover 0] ++ rotation 0 ⟨"new", some "next", none, some 3600⟩ ++
        [.recover 1, .attempt 1 .succeeded, .attempt 1 .succeeded, .attempt 1 .succeeded]) w ∧
      ¬w.NeverResends :=
  Machine.run_of_exec_any (by decide +kernel)

end Mpas.OAuthResends
