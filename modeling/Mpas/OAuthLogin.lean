import Mpas.Library.Machine
import Mpas.OAuthSessions

/-!
# A login attempt

A login writes its session over the stored one each time the authorization
library hands something over, and puts back what it has read if it fails. The
server that waits for the browser writes the session too, whenever the browser
comes.

* `step`: one step of the attempt, of a write, or of the callback server;
* `Meets`: the steps that leave the way back open;
* `failed_login_restores`: where all are such, a login that throws has changed nothing.
-/

namespace Mpas.OAuthLogin

open OAuthSessions

variable {δ β : Type}

/-! ## The attempt -/

/-- A `writeSession`: the text is made once there is a directory, and takes
effect with the renaming. -/
inductive Write (β : Type)
  | starting
  | ready (contents : β)
  deriving DecidableEq

inductive Phase
  /-- `readRawSession` -/
  | reading
  /-- the owner, discovery and the choice of scopes -/
  | preparing
  | enrolling
  /-- the first `writeSession` -/
  | opening
  /-- the first `auth` -/
  | starting
  | waiting
  /-- the `auth` with the code -/
  | completing
  /-- the last `writeSession` -/
  | committing
  | auditing
  | answering
  /-- the audit record in the error path -/
  | failing
  | restoring
  | closing (threw : Bool)
  | settled (threw : Bool)
  deriving DecidableEq

def Phase.over : Phase → Bool
  | .closing _ | .settled _ => true
  | _ => false

def Phase.afterWrite : Phase → Phase
  | .opening => .starting
  | .committing => .auditing
  | phase => phase

structure CallbackServer (β : Type) where
  bound : Bool := false
  consuming : Bool := false
  /-- of `onConsume` -/
  write : Option (Write β) := none
  /-- whether `waitForCode` was resolved or rejected -/
  code : Option Bool := none
  deriving DecidableEq

/-- `β` is the contents of a file; `none` of a file that is not there. -/
structure Login (δ β : Type) where
  file : Option β
  previousRaw : Option β := none
  session : Option (StoredOAuthSession δ) := none
  committed : Bool := false
  phase : Phase := .reading
  write : Option (Write β) := none
  callback : CallbackServer β := {}

def Login.start (file : Option β) : Login δ β := { file := file }

/-- What the authorization library calls, where it gets past its checks. -/
inductive ProviderCall (δ : Type)
  | saveClientInformation (details : δ)
  | saveTokens (now : Int) (jitter number : Nat) (value : TokenResponse)
  | redirectToAuthorization
  | saveCodeVerifier (value : String) (persistAuthorizationArtifacts : Bool)
  /-- a client's document is checked after the discovery is in the session -/
  | saveDiscoveryState (details : δ) (validated : Bool)

inductive Event (δ : Type)
  | read
  | prepare (session : StoredOAuthSession δ)
  /-- returns `oauth_scope_not_supported` -/
  | refuse
  | enroll (details : δ)
  | call (call : ProviderCall δ)
  | redirect
  | receive
  | authorize
  /-- whatever throws outside of a write -/
  | fail
  | audit (appended : Bool)
  | answer
  | restore (written : Bool)
  | close
  /-- the two steps of the write that the attempt waits for -/
  | stringify
  | write (renamed : Bool)
  /-- a request with a state, a path and an issuer that are valid, or not -/
  | request (valid : Bool) (now : Int)
  | stringifyConsumed
  | writeConsumed (renamed authorized : Bool)
  | timeout

/-! ## Steps -/

namespace Login

variable (login : Login δ β)

/-- The handler of the error: there is no record without a session. -/
def caught : Login δ β :=
  { login with phase := if login.session.isSome then .failing else .closing true, write := none }

def writeSession (session : StoredOAuthSession δ) (phase : Phase) : Login δ β :=
  { login with session := some session, write := some .starting, phase := phase }

/-- The phase goes on when the library has its answer. -/
def called (session : StoredOAuthSession δ) : ProviderCall δ → Option (Login δ β)
  | .saveClientInformation details => some (login.writeSession { session with details } login.phase)
  | .saveTokens now jitter number value =>
    some (login.writeSession (session.saveTokens now jitter number value) login.phase)
  | .redirectToAuthorization =>
    if session.authorization.isSome ∧ login.callback.bound = false then
      some { login with callback := { login.callback with bound := true } }
    else none
  | .saveCodeVerifier value persistAuthorizationArtifacts =>
    let next := { session with codeVerifier := some value }
    if persistAuthorizationArtifacts then some (login.writeSession next login.phase)
    else some { login with session := some next }
  | .saveDiscoveryState details validated =>
    if validated then some (login.writeSession { session with details } login.phase)
    else some { login with session := some { session with details } }

def mayFail : Bool :=
  match login.phase with
  | .reading | .preparing | .enrolling => true
  | .starting | .completing => login.write.isNone
  | .waiting => login.callback.code == some false
  | _ => false

def inLibrary : Bool :=
  (login.phase == .starting || login.phase == .completing) && login.write.isNone

def written (contents : β) : Login δ β :=
  { login with
    file := some contents
    write := none
    phase := login.phase.afterWrite
    committed := login.committed || login.phase == .committing }

/-- The library may go on after a write of its own that failed. -/
def writeFailed : Login δ β :=
  match login.phase with
  | .opening | .committing => login.caught
  | _ => { login with write := none }

end Login

def CallbackServer.settle (callback : CallbackServer β) (code : Bool) : CallbackServer β :=
  { callback with code := callback.code.or (some code) }

def outstanding (session : StoredOAuthSession δ) : Bool :=
  session.authorization.any fun attempt => attempt.consumedAt.isNone

def Login.requested (login : Login δ β) (valid : Bool) (now : Int) : Login δ β :=
  let callback := { login.callback with consuming := true }
  match login.session.filter fun session => valid && outstanding session with
  | some session =>
    { login with
      session := some (session.consumeAuthorization now)
      callback := { callback with write := some .starting } }
  | none => { login with callback := callback.settle false }

/-- The last instant that a `Date` can have. -/
def lastInstant : Int := 8640000000000000

/-- `authorizedResult` throws: the tokens expire at no date. -/
def answerThrows (session : StoredOAuthSession δ) : Bool :=
  match session.tokens.bind (·.expiresIn), session.tokensSavedAt with
  | some seconds, some savedAt => seconds != 0 && decide (lastInstant < savedAt + seconds * 1000)
  | _, _ => false

variable (render : StoredOAuthSession δ → β)

def step (login : Login δ β) : Event δ → Option (Login δ β)
  | .read =>
    if login.phase = .reading then
      some { login with previousRaw := login.file, phase := .preparing } else none
  | .prepare session =>
    if login.phase = .preparing then
      some { login with session := some session, phase := .enrolling } else none
  | .refuse =>
    if login.phase = .preparing then some { login with phase := .closing false } else none
  | .enroll details =>
    if login.phase = .enrolling then
      login.session.map fun session => login.writeSession { session with details } .opening
    else none
  | .call call =>
    if login.inLibrary then login.session.bind fun session => login.called session call else none
  | .redirect =>
    if login.phase = .starting ∧ login.write.isNone then
      some { login with phase := .waiting } else none
  | .receive =>
    if login.phase = .waiting ∧ login.callback.code = some true then
      some { login with phase := .completing } else none
  | .authorize =>
    if login.phase = .completing ∧ login.write.isNone then
      login.session.map fun session => login.writeSession
        { session with reauthorizationRequired := false, reauthorizationReason := none } .committing
    else none
  | .fail => if login.mayFail then some login.caught else none
  | .audit appended =>
    match login.phase with
    | .auditing => some (if appended then { login with phase := .answering } else login.caught)
    | .failing => some { login with
        phase := if appended && !login.committed then .restoring else .closing true }
    | _ => none
  | .answer =>
    if login.phase = .answering then
      some (if login.session.any answerThrows then login.caught
        else { login with phase := .closing false })
    else none
  | .restore written =>
    if login.phase = .restoring then
      some { login with
        file := if written then login.previousRaw else login.file
        phase := .closing true }
    else none
  | .close =>
    match login.phase with
    | .closing threw => some { login with phase := .settled threw }
    | _ => none
  | .stringify =>
    match login.write, login.session with
    | some .starting, some session => some { login with write := some (.ready (render session)) }
    | _, _ => none
  | .write renamed =>
    match login.write with
    | some (.ready contents) =>
      some (if renamed then login.written contents else login.writeFailed)
    | _ => none
  | .request valid now =>
    if login.callback.bound ∧ login.callback.consuming = false ∧ login.phase.over = false then
      some (login.requested valid now)
    else none
  | .stringifyConsumed =>
    match login.callback.write, login.session with
    | some .starting, some session =>
      some { login with
        callback := { login.callback with write := some (.ready (render session)) } }
    | _, _ => none
  | .writeConsumed renamed authorized =>
    match login.callback.write with
    | some (.ready contents) =>
      let callback := { login.callback with write := none }
      some (if renamed then
        { login with file := some contents, callback := callback.settle authorized }
        else { login with callback := callback.settle false })
    | _ => none
  | .timeout => some { login with callback := login.callback.settle false }

/-! ## The way back -/

def Phase.threw : Phase → Bool
  | .closing threw | .settled threw => threw
  | _ => false

/-- A record is written whenever there is something to put back or to answer, the answer has a
date, and no late callback writes over what was put back. -/
def Meets (before : Option β) (login : Login δ β) : Event δ → Prop
  | .audit appended => appended = true ∨ login.phase = .failing ∧ login.file = before
  | .answer => login.session.any answerThrows = false
  | .writeConsumed renamed _ => renamed = true → login.phase.threw = false
  | _ => True

def Restores : Event δ → Prop
  | .restore written => written = true
  | _ => True

/-- The phases in which the attempt waits for a write of its session. -/
def Phase.writes : Phase → Bool
  | .opening | .starting | .completing | .committing => true
  | _ => false

def Phase.succeeds : Phase → Bool
  | .auditing | .answering | .closing false | .settled false => true
  | _ => false

structure Invariant (before : Option β) (login : Login δ β) : Prop where
  early : login.phase = .reading ∨ login.phase = .preparing → login.session = none
  untouched : login.session = none → login.file = before ∧ login.write = none ∧
    login.callback.bound = false ∧ login.callback.write = none
  raw : login.phase ≠ .reading → login.phase.over = false → login.previousRaw = before
  committed : login.committed = true → login.phase.succeeds = true
  writing : login.write.isSome = true → login.phase.writes = true
  threw : login.phase = .closing true ∨ login.phase = .settled true → login.file = before

theorem Invariant.start (before : Option β) :
    Invariant before (Login.start before : Login δ β) where
  early _ := rfl
  untouched _ := ⟨rfl, rfl, rfl, rfl⟩
  raw h := absurd rfl h
  committed h := by cases h
  writing h := by cases h
  threw h := by rcases h with h | h <;> cases h

variable {before : Option β} {login login' : Login δ β} {event : Event δ}

theorem Invariant.uncommitted (h : Invariant before login)
    (hphase : login.phase.succeeds = false) : login.committed = false := by
  cases hcommitted : login.committed with
  | false => rfl
  | true =>
    rw [h.committed hcommitted] at hphase
    cases hphase

theorem Invariant.idle (h : Invariant before login) (hphase : login.phase.writes = false) :
    login.write = none := by
  cases hwrite : login.write with
  | none => rfl
  | some write =>
    have hsome : login.write.isSome = true := by rw [hwrite]; rfl
    rw [h.writing hsome] at hphase
    cases hphase

theorem Invariant.caught (h : Invariant before login) (hover : login.phase.over = false)
    (hphase : login.phase.succeeds = false) : Invariant before login.caught := by
  have huncommitted := h.uncommitted hphase
  cases hsession : login.session with
  | none =>
    have hcaught : login.caught = { login with phase := .closing true, write := none } := by
      simp [Login.caught, hsession]
    obtain ⟨hfile, -, hbound, hconsume⟩ := h.untouched hsession
    rw [hcaught]
    exact {
      early := fun _ => hsession
      untouched := fun _ => ⟨hfile, rfl, hbound, hconsume⟩
      raw := fun _ hover => by cases hover
      committed := fun hc => by rw [huncommitted] at hc; cases hc
      writing := fun hw => by cases hw
      threw := fun _ => hfile }
  | some session =>
    have hread : login.phase ≠ .reading := by
      intro hreading
      rw [h.early (.inl hreading)] at hsession
      cases hsession
    have hcaught : login.caught = { login with phase := .failing, write := none } := by
      simp [Login.caught, hsession]
    rw [hcaught]
    exact {
      early := fun he => by rcases he with he | he <;> cases he
      untouched := fun hn => by rw [hsession] at hn; cases hn
      raw := fun _ _ => h.raw hread hover
      committed := fun hc => by rw [huncommitted] at hc; cases hc
      writing := fun hw => by cases hw
      threw := fun ht => by rcases ht with ht | ht <;> cases ht }

theorem Invariant.move (h : Invariant before login) (phase : Phase) (hidle : login.write = none)
    (hlater : phase ≠ .reading ∧ phase ≠ .preparing)
    (hraw : phase.over = false → login.previousRaw = before)
    (hcommitted : login.committed = true → phase.succeeds = true)
    (hthrew : phase = .closing true ∨ phase = .settled true → login.file = before) :
    Invariant before { login with phase := phase } where
  early he := by
    rcases he with he | he
    · exact absurd he hlater.1
    · exact absurd he hlater.2
  untouched := h.untouched
  raw _ := hraw
  committed := hcommitted
  writing hw := by rw [hidle] at hw; cases hw
  threw := hthrew

theorem Invariant.hold (h : Invariant before login) (session : StoredOAuthSession δ)
    (hsession : login.session.isSome = true) :
    Invariant before { login with session := some session } where
  early he := by rw [h.early he] at hsession; cases hsession
  untouched hn := by cases hn
  raw := h.raw
  committed := h.committed
  writing := h.writing
  threw := h.threw

theorem Invariant.serve (h : Invariant before login) {callback : CallbackServer β}
    (hkept : login.session = none → callback.bound = false ∧ callback.write = none) :
    Invariant before { login with callback := callback } where
  early := h.early
  untouched hn := ⟨(h.untouched hn).1, (h.untouched hn).2.1, hkept hn⟩
  raw := h.raw
  committed := h.committed
  writing := h.writing
  threw := h.threw

theorem Invariant.overwrite (h : Invariant before login) (contents : β)
    (hsession : login.session.isSome = true) (hthrew : login.phase.threw = false) :
    Invariant before { login with file := some contents } where
  early := h.early
  untouched hn := by rw [hn] at hsession; cases hsession
  raw := h.raw
  committed := h.committed
  writing := h.writing
  threw ht := by rcases ht with ht | ht <;> rw [ht] at hthrew <;> cases hthrew

/-- A write begins or ends, in a phase that waits for it if it begins. -/
theorem Invariant.wait (h : Invariant before login) {write : Option (Write β)}
    (hsession : login.session.isSome = true)
    (hwrites : write.isSome = true → login.phase.writes = true) :
    Invariant before { login with write := write } where
  early := h.early
  untouched hn := by rw [hn] at hsession; cases hsession
  raw := h.raw
  committed := h.committed
  writing := hwrites
  threw := h.threw

theorem Invariant.session_some (h : Invariant before login) (hwrite : login.write.isSome = true) :
    login.session.isSome = true := by
  cases hsession : login.session with
  | none => rw [(h.untouched hsession).2.1] at hwrite; cases hwrite
  | some session => rfl

theorem Phase.writes_over {phase : Phase} (h : phase.writes = true) :
    phase.over = false ∧ phase.succeeds = false ∧ phase ≠ .reading ∧ phase ≠ .preparing := by
  cases phase with
  | opening | starting | completing | committing => simp [Phase.over, succeeds]
  | _ => cases h

theorem Phase.afterWrite_of_writes {phase : Phase} (h : phase.writes = true) :
    phase.afterWrite ≠ .reading ∧ phase.afterWrite ≠ .preparing ∧ phase.afterWrite.over = false ∧
      (phase = .committing → phase.afterWrite.succeeds = true) := by
  cases phase with
  | opening | starting | completing | committing => simp [afterWrite, Phase.over, succeeds]
  | _ => cases h

theorem Invariant.written (h : Invariant before login) {contents : β}
    (hwrite : login.write = some (.ready contents)) :
    Invariant before (login.written contents) := by
  have hsome : login.write.isSome = true := by rw [hwrite]; rfl
  have hsession := h.session_some hsome
  obtain ⟨hover, hsucceeds, hread, -⟩ := Phase.writes_over (h.writing hsome)
  obtain ⟨hread', hprepare', hover', hcommits⟩ := Phase.afterWrite_of_writes (h.writing hsome)
  have huncommitted := h.uncommitted hsucceeds
  exact {
    early := fun he => by
      rcases he with he | he
      · exact absurd he hread'
      · exact absurd he hprepare'
    untouched := fun hn => by
      rw [show login.session = none from hn] at hsession
      cases hsession
    raw := fun _ _ => h.raw hread hover
    committed := fun hc => by
      have hphase : login.phase = .committing := by simpa [Login.written, huncommitted] using hc
      exact hcommits hphase
    writing := fun hw => by cases hw
    threw := fun ht => by
      have hover'' : login.phase.afterWrite.over = true := by
        rcases ht with ht | ht <;> rw [show login.phase.afterWrite = _ from ht] <;> rfl
      rw [hover'] at hover''
      cases hover'' }

theorem Invariant.writeFailed (h : Invariant before login) (hsome : login.write.isSome = true) :
    Invariant before login.writeFailed := by
  obtain ⟨hover, hsucceeds, -, -⟩ := Phase.writes_over (h.writing hsome)
  have hidle : Invariant before { login with write := none } :=
    h.wait (h.session_some hsome) fun hnone => by cases hnone
  unfold Login.writeFailed
  split
  · exact h.caught hover hsucceeds
  · exact h.caught hover hsucceeds
  · exact hidle

theorem Invariant.writeSession (h : Invariant before login) {phase : Phase}
    (session : StoredOAuthSession δ) (hover : login.phase.over = false)
    (hread : login.phase ≠ .reading) (hsucceeds : login.phase.succeeds = false)
    (hwrites : phase.writes = true) : Invariant before (login.writeSession session phase) := by
  have huncommitted := h.uncommitted hsucceeds
  obtain ⟨hover', -, hread', hprepare'⟩ := Phase.writes_over hwrites
  exact {
    early := fun he => by
      rcases he with he | he
      · exact absurd he hread'
      · exact absurd he hprepare'
    untouched := fun hn => by cases hn
    raw := fun _ _ => h.raw hread hover
    committed := fun hc => by
      rw [show login.committed = true from hc] at huncommitted
      cases huncommitted
    writing := fun _ => hwrites
    threw := fun ht => by
      rcases ht with ht | ht <;> rw [show phase = _ from ht] at hover' <;> cases hover' }

theorem Login.phase_of_inLibrary (h : login.inLibrary = true) :
    login.phase.writes = true ∧ login.write = none := by
  rw [inLibrary, Bool.and_eq_true, Bool.or_eq_true, beq_iff_eq, beq_iff_eq,
    Option.isNone_iff_eq_none] at h
  refine ⟨?_, h.2⟩
  rcases h.1 with hphase | hphase <;> rw [hphase] <;> rfl

theorem Invariant.called (h : Invariant before login) (hlibrary : login.inLibrary = true)
    {session : StoredOAuthSession δ} (hsession : login.session = some session)
    {call : ProviderCall δ} (hcalled : login.called session call = some login') :
    Invariant before login' := by
  obtain ⟨hwrites, hidle⟩ := Login.phase_of_inLibrary hlibrary
  obtain ⟨hover, hsucceeds, hread, -⟩ := Phase.writes_over hwrites
  have hsome : login.session.isSome = true := by rw [hsession]; rfl
  have hwrite : ∀ next : StoredOAuthSession δ,
      Invariant before (login.writeSession next login.phase) :=
    fun next => h.writeSession next hover hread hsucceeds hwrites
  cases call with
  | saveClientInformation details => cases hcalled; exact hwrite _
  | saveTokens now jitter number value => cases hcalled; exact hwrite _
  | redirectToAuthorization =>
    rw [Login.called, Option.ite_none_right_eq_some, Option.some.injEq] at hcalled
    rw [← hcalled.2]
    exact h.serve fun hn => by rw [hn] at hsession; cases hsession
  | saveCodeVerifier value persists =>
    cases persists with
    | true => cases hcalled; exact hwrite _
    | false => cases hcalled; exact h.hold _ hsome
  | saveDiscoveryState details validated =>
    cases validated with
    | true => cases hcalled; exact hwrite _
    | false => cases hcalled; exact h.hold _ hsome

theorem Invariant.requested (h : Invariant before login) (hbound : login.callback.bound = true)
    (valid : Bool) (now : Int) : Invariant before (login.requested valid now) := by
  have hsome : login.session.isSome = true := by
    cases hsession : login.session with
    | none =>
      rw [(h.untouched hsession).2.2.1] at hbound
      cases hbound
    | some session => rfl
  have hnone : ∀ (callback : CallbackServer β), login.session = none →
      callback.bound = false ∧ callback.write = none := by
    intro callback hsession
    rw [hsession] at hsome
    cases hsome
  unfold Login.requested
  split
  · rename_i session _
    exact (h.hold (session.consumeAuthorization now) hsome).serve fun hsession => by cases hsession
  · exact h.serve (hnone _)

theorem Invariant.fail (h : Invariant before login) (hfail : login.mayFail = true) :
    Invariant before login.caught := by
  have hphase : login.phase.over = false ∧ login.phase.succeeds = false := by
    unfold Login.mayFail at hfail
    cases hphase : login.phase with
    | reading | preparing | enrolling | starting | completing | waiting => exact ⟨rfl, rfl⟩
    | _ =>
      rw [hphase] at hfail
      cases hfail
  exact h.caught hphase.1 hphase.2

theorem Invariant.audited (h : Invariant before login) (hphase : login.phase = .failing)
    {appended : Bool} (hmeets : appended = true ∨ login.file = before) :
    Invariant before { login with
      phase := if appended && !login.committed then .restoring else .closing true } := by
  have huncommitted := h.uncommitted (by rw [hphase]; rfl)
  have hraw := h.raw (by rw [hphase]; simp) (by rw [hphase]; rfl)
  have hidle := h.idle (by rw [hphase]; rfl)
  have hlater : ∀ phase : Phase, login.committed = true → phase.succeeds = true := by
    intro phase hc
    rw [huncommitted] at hc
    cases hc
  have hnext : (if appended && !login.committed then Phase.restoring else .closing true) =
      if appended then .restoring else .closing true := by
    rw [huncommitted, Bool.not_false, Bool.and_true]
  rw [hnext]
  cases appended with
  | true =>
    exact h.move .restoring hidle ⟨by simp, by simp⟩ (fun _ => hraw) (hlater _) (by simp)
  | false =>
    have hfile : login.file = before := hmeets.resolve_left Bool.false_ne_true
    exact h.move (.closing true) hidle ⟨by simp, by simp⟩ (fun hover => by cases hover) (hlater _)
      fun _ => hfile

theorem Invariant.step (h : Invariant before login) (hmeets : Meets before login event)
    (hrestore : Restores event) {render : StoredOAuthSession δ → β}
    (hstep : step render login event = some login') : Invariant before login' := by
  have hfailing : ∀ phase : Phase, login.phase = phase → phase.succeeds = false →
      ∀ other : Phase, login.committed = true → other.succeeds = true := by
    intro phase hphase hsucceeds other hc
    rw [h.uncommitted (by rw [hphase]; exact hsucceeds)] at hc
    cases hc
  cases event with
  | read =>
    simp only [OAuthLogin.step, Option.ite_none_right_eq_some, Option.some.injEq] at hstep
    obtain ⟨hphase, rfl⟩ := hstep
    have hsession := h.early (.inl hphase)
    have hidle := h.idle (by rw [hphase]; rfl)
    exact {
      early := fun _ => hsession
      untouched := h.untouched
      raw := fun _ _ => (h.untouched hsession).1
      committed := hfailing _ hphase rfl _
      writing := fun hw => by rw [show login.write = none from hidle] at hw; cases hw
      threw := fun ht => by rcases ht with ht | ht <;> cases ht }
  | prepare session =>
    simp only [OAuthLogin.step, Option.ite_none_right_eq_some, Option.some.injEq] at hstep
    obtain ⟨hphase, rfl⟩ := hstep
    have hidle := h.idle (by rw [hphase]; rfl)
    exact {
      early := fun he => by rcases he with he | he <;> cases he
      untouched := fun hn => by cases hn
      raw := fun _ _ => h.raw (by rw [hphase]; simp) (by rw [hphase]; rfl)
      committed := hfailing _ hphase rfl _
      writing := fun hw => by rw [show login.write = none from hidle] at hw; cases hw
      threw := fun ht => by rcases ht with ht | ht <;> cases ht }
  | refuse =>
    simp only [OAuthLogin.step, Option.ite_none_right_eq_some, Option.some.injEq] at hstep
    obtain ⟨hphase, rfl⟩ := hstep
    exact h.move (.closing false) (h.idle (by rw [hphase]; rfl)) ⟨by simp, by simp⟩
      (fun hover => by cases hover) (hfailing _ hphase rfl _) (by simp)
  | enroll details =>
    simp only [OAuthLogin.step, Option.ite_none_right_eq_some, Option.map_eq_some_iff] at hstep
    obtain ⟨hphase, session, -, rfl⟩ := hstep
    exact h.writeSession _ (by rw [hphase]; rfl) (by rw [hphase]; simp) (by rw [hphase]; rfl) rfl
  | call call =>
    simp only [OAuthLogin.step, Option.ite_none_right_eq_some, Option.bind_eq_some_iff] at hstep
    obtain ⟨hlibrary, session, hsession, hcalled⟩ := hstep
    exact h.called hlibrary hsession hcalled
  | redirect =>
    simp only [OAuthLogin.step, Option.ite_none_right_eq_some, Option.some.injEq] at hstep
    obtain ⟨⟨hphase, hidle⟩, rfl⟩ := hstep
    exact h.move .waiting (Option.isNone_iff_eq_none.mp hidle) ⟨by simp, by simp⟩
      (fun _ => h.raw (by rw [hphase]; simp) (by rw [hphase]; rfl)) (hfailing _ hphase rfl _)
      (by simp)
  | receive =>
    simp only [OAuthLogin.step, Option.ite_none_right_eq_some, Option.some.injEq] at hstep
    obtain ⟨⟨hphase, -⟩, rfl⟩ := hstep
    exact h.move .completing (h.idle (by rw [hphase]; rfl)) ⟨by simp, by simp⟩
      (fun _ => h.raw (by rw [hphase]; simp) (by rw [hphase]; rfl)) (hfailing _ hphase rfl _)
      (by simp)
  | authorize =>
    simp only [OAuthLogin.step, Option.ite_none_right_eq_some, Option.map_eq_some_iff] at hstep
    obtain ⟨⟨hphase, -⟩, session, -, rfl⟩ := hstep
    exact h.writeSession _ (by rw [hphase]; rfl) (by rw [hphase]; simp) (by rw [hphase]; rfl) rfl
  | fail =>
    simp only [OAuthLogin.step, Option.ite_none_right_eq_some, Option.some.injEq] at hstep
    obtain ⟨hfail, rfl⟩ := hstep
    exact h.fail hfail
  | audit appended =>
    cases hphase : login.phase with
    | auditing =>
      have happended : appended = true :=
        hmeets.resolve_right fun hbad => by rw [hphase] at hbad; cases hbad.1
      simp only [OAuthLogin.step, hphase, Option.some.injEq] at hstep
      rw [if_pos happended] at hstep
      subst hstep
      exact h.move .answering (h.idle (by rw [hphase]; rfl)) ⟨by simp, by simp⟩
        (fun _ => h.raw (by rw [hphase]; simp) (by rw [hphase]; rfl)) (fun _ => rfl) (by simp)
    | failing =>
      simp only [OAuthLogin.step, hphase, Option.some.injEq] at hstep
      subst hstep
      exact h.audited hphase (hmeets.imp_right And.right)
    | _ => simp [OAuthLogin.step, hphase] at hstep
  | answer =>
    simp only [OAuthLogin.step, Option.ite_none_right_eq_some, Option.some.injEq] at hstep
    obtain ⟨hphase, hstep⟩ := hstep
    rw [show login.session.any answerThrows = false from hmeets, if_neg Bool.false_ne_true] at hstep
    subst hstep
    exact h.move (.closing false) (h.idle (by rw [hphase]; rfl)) ⟨by simp, by simp⟩
      (fun hover => by cases hover) (fun _ => rfl) (by simp)
  | restore written =>
    simp only [OAuthLogin.step, Option.ite_none_right_eq_some, Option.some.injEq] at hstep
    obtain ⟨hphase, rfl⟩ := hstep
    have hidle := h.idle (by rw [hphase]; rfl)
    have hraw := h.raw (by rw [hphase]; simp) (by rw [hphase]; rfl)
    rw [if_pos (show written = true from hrestore)]
    exact {
      early := fun he => by rcases he with he | he <;> cases he
      untouched := fun hn => ⟨hraw, (h.untouched hn).2⟩
      raw := fun _ hover => by cases hover
      committed := hfailing _ hphase rfl _
      writing := fun hw => by rw [show login.write = none from hidle] at hw; cases hw
      threw := fun _ => hraw }
  | close =>
    cases hphase : login.phase with
    | closing threw =>
      simp only [OAuthLogin.step, hphase, Option.some.injEq] at hstep
      subst hstep
      refine h.move (.settled threw) (h.idle (by rw [hphase]; rfl)) ⟨by simp, by simp⟩
        (fun hover => by cases hover) (fun hc => ?_) (fun ht => h.threw (.inl ?_))
      · have hsucceeds := h.committed hc
        rw [hphase] at hsucceeds
        cases threw with
        | true => cases hsucceeds
        | false => rfl
      · rw [hphase]
        rcases ht with ht | ht <;> cases ht
        rfl
    | _ => simp [OAuthLogin.step, hphase] at hstep
  | stringify =>
    cases hwrite : login.write with
    | none => simp [OAuthLogin.step, hwrite] at hstep
    | some write =>
      cases hsession : login.session with
      | none => rw [(h.untouched hsession).2.1] at hwrite; cases hwrite
      | some session =>
        cases write with
        | ready contents => simp [OAuthLogin.step, hwrite, hsession] at hstep
        | starting =>
          simp only [OAuthLogin.step, hwrite, hsession, Option.some.injEq] at hstep
          subst hstep
          rw [← hsession]
          exact h.wait (by rw [hsession]; rfl) fun _ => h.writing (by rw [hwrite]; rfl)
  | write renamed =>
    cases hwrite : login.write with
    | none => simp [OAuthLogin.step, hwrite] at hstep
    | some write =>
      cases write with
      | starting => simp [OAuthLogin.step, hwrite] at hstep
      | ready contents =>
        simp only [OAuthLogin.step, hwrite, Option.some.injEq] at hstep
        subst hstep
        cases renamed with
        | true => exact h.written hwrite
        | false => exact h.writeFailed (by rw [hwrite]; rfl)
  | request valid now =>
    simp only [OAuthLogin.step, Option.ite_none_right_eq_some, Option.some.injEq] at hstep
    obtain ⟨⟨hbound, -, -⟩, rfl⟩ := hstep
    exact h.requested hbound valid now
  | stringifyConsumed =>
    cases hsession : login.session with
    | none =>
      rw [OAuthLogin.step, (h.untouched hsession).2.2.2] at hstep
      cases hstep
    | some session =>
      cases hwrite : login.callback.write with
      | none => simp [OAuthLogin.step, hwrite] at hstep
      | some write =>
        cases write with
        | ready contents => simp [OAuthLogin.step, hwrite] at hstep
        | starting =>
          simp only [OAuthLogin.step, hwrite, hsession, Option.some.injEq] at hstep
          subst hstep
          rw [← hsession]
          exact h.serve fun hn => by rw [hn] at hsession; cases hsession
  | writeConsumed renamed authorized =>
    cases hwrite : login.callback.write with
    | none => simp [OAuthLogin.step, hwrite] at hstep
    | some write =>
      have hsome : login.session.isSome = true := by
        cases hsession : login.session with
        | none => rw [(h.untouched hsession).2.2.2] at hwrite; cases hwrite
        | some session => rfl
      have hserve : ∀ {login : Login δ β} {callback : CallbackServer β}, Invariant before login →
          login.session.isSome = true → Invariant before { login with callback := callback } :=
        fun h hsome => h.serve fun hn => by rw [hn] at hsome; cases hsome
      cases write with
      | starting => simp [OAuthLogin.step, hwrite] at hstep
      | ready contents =>
        simp only [OAuthLogin.step, hwrite, Option.some.injEq] at hstep
        subst hstep
        cases renamed with
        | true => exact hserve (h.overwrite contents hsome (hmeets rfl)) hsome
        | false => exact hserve h hsome
  | timeout =>
    cases hstep
    exact h.serve fun hn => (h.untouched hn).2.2

/-- In any order of the steps of the attempt, its writes and its callback. -/
theorem failed_login_restores {render : StoredOAuthSession δ → β} {events : List (Event δ)}
    (h : Machine.Run (step render) (fun login event => Meets before login event ∧ Restores event)
      (Login.start before) events login) (hthrew : login.phase = .settled true) :
    login.file = before := by
  have hinvariant : Invariant before login :=
    h.invariant (fun _ _ _ hi hc hstep => hi.step hc.1 hc.2 hstep) (Invariant.start before)
  exact hinvariant.threw (.inr hthrew)

/-! ## A login that the user declines -/

def meets (before : Option String) (login : Login Unit String) : Event Unit → Bool
  | .audit appended => appended || login.phase == .failing && login.file == before
  | .answer => !login.session.any answerThrows
  | .writeConsumed renamed _ => !(renamed && login.phase.threw)
  | .restore written => written
  | _ => true

theorem meets_iff {before : Option String} {login : Login Unit String} {event : Event Unit} :
    meets before login event = true ↔ Meets before login event ∧ Restores event := by
  cases event with
  | audit appended => simp [meets, Meets, Restores]
  | answer => simp [meets, Meets, Restores]
  | writeConsumed renamed authorized => cases renamed <;> simp [meets, Meets, Restores]
  | _ => simp [meets, Meets, Restores]

def sampleText (session : StoredOAuthSession Unit) : String := session.codeVerifier.getD "started"

def sampleSession : StoredOAuthSession Unit where
  details := ()
  state := some "state"
  authorization := some ⟨"state", "http://127.0.0.1:4100/oauth/callback", 0, 300000, none⟩

/-- From the start to the answer of the browser, which brings an error. -/
def declined : List (Event Unit) :=
  [.read, .prepare sampleSession, .enroll (), .stringify, .write true,
    .call (.saveDiscoveryState () true), .stringify, .write true,
    .call (.saveCodeVerifier "verifier" true), .stringify, .write true,
    .call .redirectToAuthorization, .redirect, .request true 1000, .stringifyConsumed,
    .writeConsumed true false, .fail]

theorem declined_login_restores : ∃ login : Login Unit String,
    Machine.Run (step sampleText) (fun login event => Meets (some "previous") login event ∧
      Restores event) (Login.start (some "previous"))
      (declined ++ [.audit true, .restore true, .close]) login ∧
    login.phase = .settled true ∧ login.file = some "previous" := by
  obtain ⟨login, hrun, hphase⟩ : ∃ login : Login Unit String,
      Machine.Run (step sampleText) (fun login event => meets (some "previous") login event = true)
        (Login.start (some "previous")) (declined ++ [.audit true, .restore true, .close]) login ∧
      login.phase = .settled true := Machine.run_of_checked_any (by decide +kernel)
  have hmeets := hrun.weaken fun _ _ => meets_iff.mp
  exact ⟨login, hmeets, hphase, failed_login_restores hmeets hphase⟩

def restores : Event Unit → Bool
  | .restore written => written
  | _ => true

theorem restores_iff {event : Event Unit} : restores event = true ↔ Restores event := by
  cases event <;> simp [restores, Restores]

/-- The same where the record of the failure cannot be appended: what the last `writeSession` left
is not put back. -/
theorem unrecorded_login_stays : ∃ login : Login Unit String,
    Machine.Run (step sampleText) (fun _ event => Restores event) (Login.start (some "previous"))
      (declined ++ [.audit false, .close]) login ∧
    login.phase = .settled true ∧ login.file = some "verifier" := by
  obtain ⟨login, hrun, hend⟩ : ∃ login : Login Unit String,
      Machine.Run (step sampleText) (fun _ event => restores event = true)
        (Login.start (some "previous")) (declined ++ [.audit false, .close]) login ∧
      (login.phase = .settled true ∧ login.file = some "verifier") :=
    Machine.run_of_checked_any (by decide +kernel)
  exact ⟨login, hrun.weaken fun _ _ => restores_iff.mp, hend⟩

end Mpas.OAuthLogin
