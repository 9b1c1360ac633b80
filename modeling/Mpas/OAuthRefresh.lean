import Mpas.OAuthSessions
import Mpas.SessionBinding

/-!
# The refresh before a dispatch

The calls of `prepareOAuthForDispatch` for one credential in one process: each
reads the session file, and those that find its tokens due share one refresh,
which reads the file again, marks it, and saves the new tokens over the mark.

* `Target.checkCall`, `Target.checkRefresh`: what they do with what they have read;
* `callStep`, `refreshStep`: a call and a refresh from one await point to the next;
* `World.meets`: the steps by which no call takes the mark for a lost refresh;
* `Target.Valid`: the sessions of which every check is good.
-/

namespace Mpas.OAuthRefresh

open OAuthSessions

/-! ## Sessions and what is expected of them -/

structure SessionDetails where
  session : String
  credentialHandle : String
  /-- the application, the resource, the owner and its sharing, and the binding -/
  bound : SessionBinding.StoredOAuthSession
  /-- whether there are a `discovery` and a `clientInformation` -/
  registered : Bool
  /-- whether the binding's `clientMode` is `"cimd"` -/
  cimd : Bool
  deriving DecidableEq

abbrev Session := StoredOAuthSession SessionDetails

/-- As `normalizeRefreshPolicy` leaves it. -/
structure OAuthRefreshPolicy where
  safetyWindowMs : Nat
  jitterMaxMs : Nat
  safetyWindowMs_le : safetyWindowMs ≤ 300000
  jitterMaxMs_le : jitterMaxMs ≤ 60000

structure Target where
  runtime : SessionBinding.Runtime
  sessionName : String
  credentialHandle : String
  applicationDid : String
  resourceUrl : String
  /-- `none` where it has none of the members that a binding has -/
  expected : Option SessionBinding.OAuthPrepareOptions
  refresh : OAuthRefreshPolicy

inductive OAuthPrepareErrorCode
  | loginRequired
  | reauthorizationRequired
  | tokenRefreshFailed
  | rateLimited
  | targetUnavailable
  | failure (code : OAuthFailureCode)
  deriving DecidableEq

def isAccessTokenExpired (tokens : Option OAuthTokens) (tokensSavedAt : Option Int) (now : Int) :
    Bool :=
  match tokens.bind (·.expiresIn), tokensSavedAt with
  | some expiresIn, some savedAt => decide (savedAt + expiresIn * 1000 ≤ now)
  | _, _ => false

def isAccessTokenRefreshDue (tokens : Option OAuthTokens) (tokensSavedAt : Option Int) (now : Int)
    (safetyWindowMs jitterMs : Nat) : Bool :=
  match tokens.bind (·.expiresIn), tokensSavedAt with
  | some expiresIn, some savedAt =>
    let boundedSafety : Nat := min safetyWindowMs 300000
    let boundedJitterMs : Nat := min jitterMs 60000
    decide (savedAt + expiresIn * 1000 - boundedSafety - boundedJitterMs ≤ now)
  | _, _ => false

def shouldRefreshAccessToken (session : Session) (refresh : OAuthRefreshPolicy) (now : Int) :
    Bool :=
  isAccessTokenRefreshDue session.tokens session.tokensSavedAt now refresh.safetyWindowMs
    (session.refreshJitterMs.getD 0)

def hasRefreshToken (session : Session) : Bool := (session.tokens.bind (·.refreshToken)).isSome

/-- The Retry-After of a refresh that was put off has not passed. -/
def deferred (session : Session) (now : Int) : Bool :=
  match session.refreshState with
  | some (.deferred _ retryAfter) => decide (now < retryAfter)
  | _ => false

def grant (session : Session) : Nat := (session.tokens.map (·.accessToken.response)).getD 0

namespace Target

variable (target : Target)

def readBoundOAuthSession (contents : Option Session) : Option Session :=
  contents.filter fun session => session.tokens.isSome &&
    decide (session.details.session = target.sessionName) &&
    decide (session.details.credentialHandle = target.credentialHandle) &&
    decide (session.details.bound.applicationDid = target.applicationDid) &&
    decide (session.details.bound.resourceUrl = target.resourceUrl)

def sessionMatchesExpectation (session : Session) : Except String Bool :=
  match target.expected with
  | some expected =>
    SessionBinding.sessionMatchesExpectation target.runtime session.details.bound expected
  | none =>
    if session.details.bound.binding.isNone then .ok true
    else SessionBinding.sessionMatchesExpectation target.runtime session.details.bound
      ⟨none, none, none, none, none, none⟩

end Target

/-! ## Checks of what was read -/

inductive CallCheck
  | refuse (code : OAuthPrepareErrorCode)
  | throw
  /-- writes that the binding is another, and refuses -/
  | flag (session : Session)
  | refresh (session : Session)
  | reuse (session : Session)

inductive RefreshCheck
  | reject (code : OAuthPrepareErrorCode)
  | unneeded
  | flag (session : Session)
  | go (session : Session)

namespace Target

variable (target : Target)

def checkCall (contents : Option Session) (now : Int) : CallCheck :=
  match target.readBoundOAuthSession contents with
  | none => .refuse .loginRequired
  | some session =>
    if session.reauthorizationRequired then .refuse .reauthorizationRequired
    else if session.inFlight then .refuse .tokenRefreshFailed
    else match target.sessionMatchesExpectation session with
      | .error _ => .throw
      | .ok false => .flag (session.markReauthorizationRequired .bindingMismatch)
      | .ok true =>
        if shouldRefreshAccessToken session target.refresh now then
          if hasRefreshToken session then
            if deferred session now then .refuse .rateLimited else .refresh session
          else if isAccessTokenExpired session.tokens session.tokensSavedAt now then
            .refuse .loginRequired
          else .reuse session
        else .reuse session

def checkRefresh (contents : Option Session) (now : Int) : RefreshCheck :=
  match target.readBoundOAuthSession contents with
  | none => .reject .reauthorizationRequired
  | some session =>
    if session.reauthorizationRequired then .reject .reauthorizationRequired
    else if session.inFlight then .reject .tokenRefreshFailed
    else if shouldRefreshAccessToken session target.refresh now = false then .unneeded
    else if hasRefreshToken session = false then .reject .loginRequired
    else if session.details.registered = false then
      .flag (session.markReauthorizationRequired .grantUnusable)
    else .go session

end Target

/-! ## Calls and refreshes -/

inductive CallPhase
  /-- for the refresh that was in the map at the start -/
  | waiting (k : Nat)
  | reading
  | loaded (contents : Option Session)
  /-- the write of `markReauthorizationRequired`, and then its audit record -/
  | flagging (session : Session)
  | flagged
  | joined (k : Nat)
  | rereading
  | returned (session : Session)
  | refused (code : OAuthPrepareErrorCode)
  | threw

structure Call where
  phase : CallPhase
  /-- the grant that it has found, and whether it is to be refreshed -/
  found : Option (Nat × Bool) := none

def Call.settled (call : Call) : Bool :=
  match call.phase with
  | .returned _ | .refused _ | .threw => true
  | _ => false

inductive Refresh
  | reading
  | loaded (contents : Option Session)
  /-- `assertClientDocumentUnchanged` -/
  | validating (session : Session)
  /-- `refreshAuthorization` up to the request -/
  | requesting (session : Session)
  /-- the write of `markRefreshInFlight` -/
  | marking (session : Session)
  | sending (session : Session)
  | awaiting (session : Session)
  /-- the write of `saveTokens` -/
  | saving (session : Session)
  | auditing (session : Session)
  /-- the write of `persistTokenFailure` -/
  | failing (session : Session) (code : OAuthPrepareErrorCode)
  /-- the write of `markReauthorizationRequired`, and then its audit record -/
  | flagging (session : Session)
  | flagged
  | settled (error : Option OAuthPrepareErrorCode)

structure World where
  file : Option Session
  clock : Int
  /-- the entry of `refreshTransactions` -/
  current : Option Nat := none
  refreshes : List Refresh := []
  calls : List Call := []
  /-- no token response so far has a greater number -/
  responses : Nat
  /-- the grants for which a refresh request was sent -/
  requests : List Nat := []
  /-- the grants that a check has found due -/
  expired : List Nat := []

def World.start (session : Session) (clock : Int) : World :=
  { file := some session, clock, responses := grant session }

inductive Outcome
  | succeeded
  | failed (failure : OAuthOperatorError)
  | changed
  | answered (value : TokenResponse) (jitter : Nat)

inductive Event
  | tick (elapsed : Nat)
  | start
  /-- the next step of a call; what it writes is written or not -/
  | call (i : Nat) (written : Bool)
  | refresh (k : Nat) (outcome : Outcome)
  /-- the `finally` that takes a settled refresh out of the map -/
  | forget

namespace World

variable (w : World)

def setCall (i : Nat) (call : Call) : World := { w with calls := w.calls.set i call }

def setRefresh (k : Nat) (refresh : Refresh) : World :=
  { w with refreshes := w.refreshes.set k refresh }

/-- What a refresh has settled with. Who awaits it goes on after it is out of the map, since its
`finally` was there first. -/
def outcome (k : Nat) : Option (Option OAuthPrepareErrorCode) :=
  match w.refreshes[k]? with
  | some (.settled error) => if w.current = some k then none else some error
  | _ => none

def join (i : Nat) (session : Session) : World :=
  let expired := w.expired ++ [grant session]
  let k := w.current.getD w.refreshes.length
  let joined := w.setCall i ⟨.joined k, some (grant session, true)⟩
  if w.current.isSome then { joined with expired }
  else { joined with expired, refreshes := w.refreshes ++ [.reading], current := some k }

def persist (k : Nat) (session : Session) (failure : OAuthOperatorError) : World :=
  let code := if failure.ambiguous then .tokenRefreshFailed else .failure failure.code
  let persisted := session.persistTokenFailure w.clock failure
  w.setRefresh k (if persisted.2 then .failing persisted.1 code else .settled (some code))

end World

section

variable (target : Target)

def callStep (w : World) (i : Nat) (written : Bool) : Option World :=
  w.calls[i]?.bind fun call =>
    let go (phase : CallPhase) : World := w.setCall i { call with phase := phase }
    match call.phase with
    | .waiting k => (w.outcome k).map fun _ => go .reading
    | .reading => some (go (.loaded w.file))
    | .loaded contents => some <| match target.checkCall contents w.clock with
      | .refuse code => go (.refused code)
      | .throw => go .threw
      | .flag session => go (.flagging session)
      | .refresh session => w.join i session
      | .reuse session => w.setCall i ⟨.rereading, some (grant session, false)⟩
    | .flagging session =>
      some (if written then { go .flagged with file := some session } else go .threw)
    | .flagged => some (go (if written then .refused .reauthorizationRequired else .threw))
    | .joined k => (w.outcome k).map fun error => match error with
      | some code => go (.refused code)
      | none => go .rereading
    | .rereading => some <|
      match (target.readBoundOAuthSession w.file).filter (!·.reauthorizationRequired) with
      | none => go (.refused .reauthorizationRequired)
      | some session => go (.returned session)
    | .returned _ | .refused _ | .threw => none

def unusable : OAuthOperatorError := ⟨.other, true, none⟩

def refreshStep (w : World) (k : Nat) (outcome : Outcome) : Option World :=
  w.refreshes[k]?.bind fun refresh =>
    match refresh, outcome with
    | .reading, .succeeded => some (w.setRefresh k (.loaded w.file))
    | .loaded contents, .succeeded => some <| match target.checkRefresh contents w.clock with
      | .reject code => w.setRefresh k (.settled (some code))
      | .unneeded => w.setRefresh k (.settled none)
      | .flag session => w.setRefresh k (.flagging session)
      | .go session =>
        { w.setRefresh k (if session.details.cimd then .validating session else .requesting session)
          with expired := w.expired ++ [grant session] }
    | .validating session, .succeeded => some (w.setRefresh k (.requesting session))
    | .validating session, .changed =>
      some (w.setRefresh k (.flagging (session.markReauthorizationRequired .bindingMismatch)))
    | .validating _, .failed failure =>
      some (w.setRefresh k (.settled (some (.failure failure.code))))
    | .requesting session, .succeeded =>
      some (w.setRefresh k (.marking (session.markRefreshInFlight w.clock)))
    | .marking session, .succeeded =>
      some { w.setRefresh k (.sending session) with file := some session }
    -- Nothing was sent, and the mark is taken out of the session again.
    | .marking session, .failed _ => some (w.persist k session ⟨.other, false, none⟩)
    | .sending session, .succeeded =>
      some { w.setRefresh k (.awaiting session) with requests := w.requests ++ [grant session] }
    | .awaiting session, .answered value jitter =>
      if jitter ≤ target.refresh.jitterMaxMs then
        some { w.setRefresh k (.saving (session.saveTokens w.clock jitter (w.responses + 1) value))
          with responses := w.responses + 1 }
      else none
    | .requesting session, .failed failure | .sending session, .failed failure
    | .awaiting session, .failed failure => some (w.persist k session failure)
    | .saving session, .succeeded =>
      some { w.setRefresh k (.auditing session) with file := some session }
    | .auditing _, .succeeded => some (w.setRefresh k (.settled none))
    | .saving session, .failed _ | .auditing session, .failed _ =>
      some (w.persist k session unusable)
    | .failing session code, .succeeded =>
      some { w.setRefresh k (.settled (some code)) with file := some session }
    | .failing _ code, .failed _ => some (w.setRefresh k (.settled (some code)))
    | .flagging session, .succeeded =>
      some { w.setRefresh k .flagged with file := some session }
    | .flagged, .succeeded => some (w.setRefresh k (.settled (some .reauthorizationRequired)))
    | .flagging _, .failed _ | .flagged, .failed _ =>
      some (w.setRefresh k (.settled (some .targetUnavailable)))
    | _, _ => none

def step (w : World) : Event → Option World
  | .tick elapsed => some { w with clock := w.clock + elapsed }
  | .start =>
    let phase := match w.current with
      | some k => .waiting k
      | none => .reading
    some { w with calls := w.calls ++ [⟨phase, none⟩] }
  | .call i written => callStep target w i written
  | .refresh k outcome => refreshStep target w k outcome
  | .forget =>
    match w.current.bind (w.refreshes[·]?) with
    | some (.settled _) => some { w with current := none }
    | _ => none

end

/-! ## Healthy runs -/

/-- Every write succeeds, the client's document stays, and every refresh request is answered. The
authorization library gives back the refresh token that was sent where the answer has none. -/
def Event.healthy : Event → Bool
  | .call _ written => written
  | .refresh _ (.failed _) | .refresh _ .changed => false
  | .refresh _ (.answered value _) => value.refreshToken.isSome
  | _ => true

def Refresh.over : Refresh → Bool
  | .auditing _ | .settled _ => true
  | _ => false

def World.running (w : World) : Refresh :=
  (w.current.bind (w.refreshes[·]?)).getD (.settled none)

/-- A call finds the tokens of the file due, and joins a refresh that will not renew them. -/
def World.joinsLate (target : Target) (w : World) (contents : Option Session) : Bool :=
  match target.checkCall contents w.clock with
  | .refresh session =>
    w.current.isSome && w.running.over && grant session == (w.file.map grant).getD 0
  | _ => false

/-- No call reads the mark of a refresh that began after it had looked for one, and none joins a
refresh whose own tokens it finds due. -/
def World.meets (target : Target) (w : World) : Event → Bool
  | .call i _ =>
    match w.calls[i]?.map Call.phase with
    | some .reading => !w.file.any (·.inFlight)
    | some (.loaded contents) => !w.joinsLate target contents
    | _ => true
  | _ => true

/-! ## Valid sessions -/

/-- A session that a call takes as it is, once no refresh is marked in it. -/
structure Target.Valid (target : Target) (session : Session) (now : Int) : Prop where
  bound : target.readBoundOAuthSession (some session) = some session
  matched : target.sessionMatchesExpectation session = .ok true
  authorized : session.reauthorizationRequired = false
  refreshable : hasRefreshToken session = true
  undeferred : deferred session now = false
  registered : session.details.registered = true

variable {target : Target} {session held : Session} {now now' : Int}

theorem shouldRefresh_later {refresh : OAuthRefreshPolicy} (hlater : now ≤ now')
    (h : shouldRefreshAccessToken session refresh now = true) :
    shouldRefreshAccessToken session refresh now' = true := by
  unfold shouldRefreshAccessToken isAccessTokenRefreshDue at *
  split
  · rename_i expiresIn savedAt hexpires hsaved
    rw [hexpires, hsaved] at h
    have hdue := of_decide_eq_true h
    exact decide_eq_true (by omega)
  · rename_i hnone
    split at h
    · rename_i expiresIn savedAt hexpires hsaved
      exact absurd hsaved (hnone expiresIn savedAt hexpires)
    · cases h

theorem deferred_later (hlater : now ≤ now') (h : deferred session now = false) :
    deferred session now' = false := by
  unfold deferred at *
  split
  · rename_i since retryAfter hstate
    rw [hstate] at h
    have hover := of_decide_eq_false h
    exact decide_eq_false (by omega)
  · rfl

namespace Target.Valid

theorem later (h : target.Valid session now) (hlater : now ≤ now') : target.Valid session now' :=
  { h with undeferred := deferred_later hlater h.undeferred }

theorem kept (h : target.Valid session now) (session' : Session)
    (hdetails : session'.details = session.details) (htokens : session'.tokens.isSome = true) :
    target.readBoundOAuthSession (some session') = some session' ∧
      target.sessionMatchesExpectation session' = .ok true := by
  have hbound := Option.filter_eq_some_iff.mp h.bound
  simp only [Bool.and_eq_true] at hbound
  constructor
  · refine Option.filter_eq_some_iff.mpr ⟨rfl, ?_⟩
    simp only [Bool.and_eq_true, hdetails]
    exact ⟨⟨⟨⟨htokens, hbound.2.1.1.1.2⟩, hbound.2.1.1.2⟩, hbound.2.1.2⟩, hbound.2.2⟩
  · have hmatched := h.matched
    unfold sessionMatchesExpectation at *
    rw [hdetails]
    exact hmatched

theorem tokens (h : target.Valid session now) : session.tokens.isSome = true := by
  have hrefresh := h.refreshable
  unfold hasRefreshToken at hrefresh
  cases htokens : session.tokens with
  | none => simp [htokens] at hrefresh
  | some tokens => rfl

theorem marked (h : target.Valid session now) (since : Int) :
    target.Valid (session.markRefreshInFlight since) now where
  bound := (h.kept (session.markRefreshInFlight since) rfl h.tokens).1
  matched := (h.kept (session.markRefreshInFlight since) rfl h.tokens).2
  authorized := h.authorized
  refreshable := h.refreshable
  undeferred := rfl
  registered := h.registered

theorem saved (h : target.Valid session now) {value : TokenResponse}
    (hvalue : value.refreshToken.isSome = true) (since : Int) (jitter number : Nat) :
    target.Valid (session.saveTokens since jitter number value) now where
  bound := (h.kept (session.saveTokens since jitter number value) rfl rfl).1
  matched := (h.kept (session.saveTokens since jitter number value) rfl rfl).2
  authorized := rfl
  refreshable := by
    obtain ⟨token, htoken⟩ := Option.isSome_iff_exists.mp hvalue
    simp [hasRefreshToken, StoredOAuthSession.saveTokens, StoredOAuthSession.nextTokens, htoken]
  undeferred := rfl
  registered := h.registered

theorem checkCall (h : target.Valid session now) (hmark : session.inFlight = false) :
    target.checkCall (some session) now =
      if shouldRefreshAccessToken session target.refresh now then .refresh session
      else .reuse session := by
  unfold Target.checkCall
  simp only [h.bound, h.authorized, hmark, h.matched, h.refreshable, h.undeferred,
    Bool.false_eq_true, ite_false, ite_true]

theorem checkRefresh (h : target.Valid session now) (hmark : session.inFlight = false) :
    target.checkRefresh (some session) now =
      if shouldRefreshAccessToken session target.refresh now then .go session
      else .unneeded := by
  unfold Target.checkRefresh
  simp only [h.bound, h.authorized, hmark, h.refreshable, h.registered, Bool.false_eq_true,
    Bool.true_eq_false, ite_false]
  cases shouldRefreshAccessToken session target.refresh now <;> rfl

end Target.Valid

@[simp] theorem grant_saved (since : Int) (jitter number : Nat) (value : TokenResponse) :
    grant (session.saveTokens since jitter number value) = number := rfl

end Mpas.OAuthRefresh
