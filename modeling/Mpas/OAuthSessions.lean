import Mathlib.Data.List.Basic

/-!
# The stored OAuth grant

The session file of one credential and the sessions that the code of one process
has read from it. Whoever changes a session changes their own copy and writes
the whole of it back.

* `Session.saveTokens`, `Session.persistTokenFailure`, …: what is changed;
* `Runs`: reads, changes, writes and the restoring of failed logins, in any order;
* `Runs.keeps_newest`: where no writer is behind, the file never goes back to an earlier token.
-/

namespace Mpas.OAuthSessions

/-! ## Sessions -/

/-- A token, with the number of the response that brought it. -/
structure Issued where
  text : String
  response : Nat
  deriving DecidableEq

structure OAuthTokens where
  accessToken : Issued
  refreshToken : Option Issued
  scope : Option String
  expiresIn : Option Nat
  deriving DecidableEq

structure TokenResponse where
  accessToken : String
  refreshToken : Option String
  scope : Option String
  expiresIn : Option Nat
  deriving DecidableEq

/-- Times are in milliseconds. -/
inductive RefreshState
  | uncertain (since : Int)
  | deferred (since retryAfter : Int)
  deriving DecidableEq

inductive ReauthorizationReason
  | bindingMismatch
  | invalidGrant
  | grantUnusable
  deriving DecidableEq

structure OAuthAuthorizationAttempt where
  state : String
  redirectUrl : String
  createdAt : Int
  expiresAt : Int
  consumedAt : Option Int := none
  deriving DecidableEq

/-- `δ` are the members that say whose session it is and for what: its identity, its policies, the
binding, the discovery and the client's registration. -/
structure StoredOAuthSession (δ : Type) where
  details : δ
  state : Option String := none
  redirectUrl : Option String := none
  authorization : Option OAuthAuthorizationAttempt := none
  codeVerifier : Option String := none
  tokens : Option OAuthTokens := none
  tokensSavedAt : Option Int := none
  refreshJitterMs : Option Nat := none
  reauthorizationRequired : Bool := false
  reauthorizationReason : Option ReauthorizationReason := none
  refreshState : Option RefreshState := none
  accessDenied : Option Int := none
  deriving DecidableEq

inductive OAuthFailureCode
  | invalidGrant
  | rateLimited
  | other
  deriving DecidableEq

structure OAuthOperatorError where
  code : OAuthFailureCode
  ambiguous : Bool
  retryAfterSeconds : Option Nat
  deriving DecidableEq

namespace StoredOAuthSession

variable {δ : Type} (session : StoredOAuthSession δ)

/-- The tokens of response `number`. An answer without a refresh token keeps the one there was,
and one without a scope the scope there was. -/
def nextTokens (number : Nat) (value : TokenResponse) : OAuthTokens where
  accessToken := ⟨value.accessToken, number⟩
  refreshToken := match value.refreshToken with
    | some token => some ⟨token, number⟩
    | none => (session.tokens.bind (·.refreshToken)).filter (·.text ≠ "")
  scope := value.scope.or (session.tokens.bind (·.scope))
  expiresIn := value.expiresIn

def saveTokens (now : Int) (jitter number : Nat) (value : TokenResponse) : StoredOAuthSession δ :=
  { session with
    tokens := some (session.nextTokens number value)
    tokensSavedAt := some now
    refreshJitterMs := some jitter
    reauthorizationRequired := false
    reauthorizationReason := none
    refreshState := none
    codeVerifier := none
    authorization := none
    state := none
    redirectUrl := none }

def markReauthorizationRequired (reason : ReauthorizationReason) : StoredOAuthSession δ :=
  { session with reauthorizationRequired := true, reauthorizationReason := some reason }

def markRefreshInFlight (now : Int) : StoredOAuthSession δ :=
  { session with refreshState := some (.uncertain now) }

def recordAccessDenied (now : Int) : StoredOAuthSession δ :=
  { session with accessDenied := some now }

def inFlight : Bool :=
  match session.refreshState with
  | some (.uncertain _) => true
  | _ => false

def persistTokenFailure (now : Int) (failure : OAuthOperatorError) : StoredOAuthSession δ × Bool :=
  if failure.ambiguous then ({ session with refreshState := some (.uncertain now) }, true)
  else
    let clearedInFlight := session.inFlight
    let cleared : StoredOAuthSession δ :=
      if clearedInFlight then { session with refreshState := none } else session
    match failure.code with
    | .invalidGrant => (cleared.markReauthorizationRequired .invalidGrant, true)
    | .rateLimited =>
      let retryAfter := now + (failure.retryAfterSeconds.getD 60 : Nat) * 1000
      ({ cleared with refreshState := some (.deferred now retryAfter) }, true)
    | .other => (cleared, clearedInFlight)

/-- `onConsume` of a login's callback. -/
def consumeAuthorization (now : Int) : StoredOAuthSession δ :=
  { session with
    authorization := session.authorization.map fun attempt =>
      { attempt with consumedAt := some now } }

end StoredOAuthSession

/-! ## Changes -/

inductive Change (δ : Type)
  | saveTokens (now : Int) (jitter : Nat) (value : TokenResponse)
  | markReauthorizationRequired (reason : ReauthorizationReason)
  | markRefreshInFlight (now : Int)
  | persistTokenFailure (now : Int) (failure : OAuthOperatorError)
  | recordAccessDenied (now : Int)
  | saveCodeVerifier (value : String)
  | consumeAuthorization (now : Int)
  /-- `saveDiscoveryState` and `saveClientInformation` -/
  | saveDetails (details : δ)

variable {δ : Type}

def Change.apply (number : Nat) (session : StoredOAuthSession δ) :
    Change δ → StoredOAuthSession δ
  | .saveTokens now jitter value => session.saveTokens now jitter number value
  | .markReauthorizationRequired reason => session.markReauthorizationRequired reason
  | .markRefreshInFlight now => session.markRefreshInFlight now
  | .persistTokenFailure now failure => (session.persistTokenFailure now failure).1
  | .recordAccessDenied now => session.recordAccessDenied now
  | .saveCodeVerifier value => { session with codeVerifier := some value }
  | .consumeAuthorization now => session.consumeAuthorization now
  | .saveDetails details => { session with details }

def Change.saves : Change δ → Bool
  | .saveTokens .. => true
  | _ => false

theorem persistTokenFailure_tokens (session : StoredOAuthSession δ) (now : Int)
    (failure : OAuthOperatorError) :
    (session.persistTokenFailure now failure).1.tokens = session.tokens := by
  unfold StoredOAuthSession.persistTokenFailure
  by_cases hambiguous : failure.ambiguous = true
  · rw [if_pos hambiguous]
  · rw [if_neg hambiguous]
    dsimp only
    cases failure.code with
    | invalidGrant =>
      dsimp only [StoredOAuthSession.markReauthorizationRequired]
      split <;> rfl
    | rateLimited | other =>
      dsimp only
      split <;> rfl

theorem Change.apply_tokens {change : Change δ} (h : change.saves = false) (number : Nat)
    (session : StoredOAuthSession δ) : (change.apply number session).tokens = session.tokens := by
  cases change with
  | saveTokens => cases h
  | persistTokenFailure now failure => exact persistTokenFailure_tokens session now failure
  | markReauthorizationRequired | markRefreshInFlight | recordAccessDenied | saveCodeVerifier
  | consumeAuthorization | saveDetails => rfl

/-! ## Runs -/

structure Held (δ : Type) where
  session : StoredOAuthSession δ
  /-- how many saved responses were in the file when it was read, or last saved -/
  seen : Nat
  /-- it holds a saved response that is not in the file yet -/
  unsaved : Bool

structure Writing (δ : Type) where
  contents : Option (StoredOAuthSession δ)
  seen : Nat
  unsaved : Bool

structure World (δ : Type) where
  file : Option (StoredOAuthSession δ)
  held : List (Held δ)
  /-- what each login has read to put back if it fails, with what it has seen -/
  logins : List (Option (StoredOAuthSession δ) × Nat)
  /-- no token response so far has a greater number -/
  responses : Nat
  /-- the number of token responses that were written -/
  saves : Nat
  /-- the latest responses that brought an access token, and a refresh token, that was written -/
  newestAccess : Nat
  newestRefresh : Nat

def Held.writing (held : Held δ) : Writing δ := ⟨some held.session, held.seen, held.unsaved⟩

def tokensOf (contents : Option (StoredOAuthSession δ)) : Option OAuthTokens :=
  contents.bind (·.tokens)

def World.start (file : Option (StoredOAuthSession δ)) : World δ := ⟨file, [], [], 0, 0, 0, 0⟩

def World.write (w : World δ) (writing : Writing δ) : World δ :=
  let tokens := tokensOf writing.contents
  let access := (tokens.map (·.accessToken.response)).getD 0
  let refresh := ((tokens.bind (·.refreshToken)).map (·.response)).getD 0
  { w with
    file := writing.contents
    saves := if writing.unsaved then w.saves + 1 else w.saves
    newestAccess := max w.newestAccess access
    newestRefresh := max w.newestRefresh refresh }

def Held.written (held : Held δ) (saves : Nat) : Held δ :=
  if held.unsaved then ⟨held.session, saves, false⟩ else held

/-- The runs of one process in which every write is as `C` says. A write that fails is no step. -/
inductive Runs (C : World δ → Writing δ → Prop) : World δ → Prop
  /-- The tokens that are there at the start are numbered 0. -/
  | start {file : Option (StoredOAuthSession δ)} :
      (∀ tokens, tokensOf file = some tokens → tokens.accessToken.response = 0 ∧
        ∀ token, tokens.refreshToken = some token → token.response = 0) → Runs C (World.start file)
  /-- `readBoundOAuthSession` and `readSecureSession`; a session without tokens is not used -/
  | read {w : World δ} {session : StoredOAuthSession δ} : Runs C w → w.file = some session →
      session.tokens.isSome → Runs C { w with held := w.held ++ [⟨session, w.saves, false⟩] }
  | readRaw {w : World δ} : Runs C w →
      Runs C { w with logins := w.logins ++ [(w.file, w.saves)] }
  /-- the session of a login attempt -/
  | begin {w : World δ} {session : StoredOAuthSession δ} : Runs C w → session.tokens = none →
      Runs C { w with held := w.held ++ [⟨session, w.saves, false⟩] }
  | change {w : World δ} {i : Nat} {held : Held δ} (change : Change δ) : Runs C w →
      w.held[i]? = some held →
      Runs C { w with
        held := w.held.set i ⟨change.apply (w.responses + 1) held.session, held.seen,
          held.unsaved || change.saves⟩
        responses := w.responses + 1 }
  | write {w : World δ} {i : Nat} {held : Held δ} : Runs C w → w.held[i]? = some held →
      C w held.writing →
      Runs C { w.write held.writing with held := w.held.set i (held.written (w.saves + 1)) }
  /-- a failed login puts back what it had read -/
  | restore {w : World δ} {raw : Option (StoredOAuthSession δ)} {seen : Nat} : Runs C w →
      (raw, seen) ∈ w.logins → C w ⟨raw, seen, false⟩ → Runs C (w.write ⟨raw, seen, false⟩)

/-- The file has no token that is earlier than one of its kind that was written before. -/
def World.KeepsNewest (w : World δ) : Prop :=
  ∀ tokens, tokensOf w.file = some tokens → tokens.accessToken.response = w.newestAccess ∧
    ∀ token, tokens.refreshToken = some token → token.response = w.newestRefresh

/-- No response was written since the writer has read the session; or what is written is a later
response than all those, with no token but its own. -/
def UpToDate (w : World δ) (writing : Writing δ) : Prop :=
  writing.seen = w.saves ∨
    writing.unsaved = true ∧ ∃ tokens, tokensOf writing.contents = some tokens ∧
      w.newestAccess < tokens.accessToken.response ∧
      ∀ token, tokens.refreshToken = some token → token.response = tokens.accessToken.response

/-! ## The invariant -/

variable {w : World δ} {writing : Writing δ} {tokens : OAuthTokens}

/-- The tokens came in responses up to `n`, the refresh token not after the access token. -/
def OAuthTokens.Numbered (n : Nat) (tokens : OAuthTokens) : Prop :=
  tokens.accessToken.response ≤ n ∧
    ∀ token, tokens.refreshToken = some token → token.response ≤ tokens.accessToken.response

def OAuthTokens.AtNewest (w : World δ) (tokens : OAuthTokens) : Prop :=
  tokens.accessToken.response = w.newestAccess ∧
    ∀ token, tokens.refreshToken = some token → token.response = w.newestRefresh

def OAuthTokens.AfterNewest (w : World δ) (tokens : OAuthTokens) : Prop :=
  w.newestAccess < tokens.accessToken.response ∧
    ∀ token, tokens.refreshToken = some token → w.newestRefresh ≤ token.response

/-- What is known of a session that may be written: one that is not behind has the newest tokens,
or later ones that are not in the file yet; one that is behind has earlier ones. -/
structure Writing.Sound (w : World δ) (writing : Writing δ) : Prop where
  seen_le : writing.seen ≤ w.saves
  holds : writing.unsaved = true → (tokensOf writing.contents).isSome = true
  numbered : ∀ tokens, tokensOf writing.contents = some tokens → tokens.Numbered w.responses
  saved : writing.seen = w.saves → writing.unsaved = false →
    ∀ tokens, tokensOf writing.contents = some tokens → tokens.AtNewest w
  unsaved : writing.seen = w.saves → writing.unsaved = true →
    ∀ tokens, tokensOf writing.contents = some tokens → tokens.AfterNewest w
  behind : writing.seen < w.saves → writing.unsaved = false →
    ∀ tokens, tokensOf writing.contents = some tokens →
      tokens.accessToken.response < w.newestAccess

structure World.Invariant (w : World δ) : Prop where
  file : (Writing.mk w.file w.saves false).Sound w
  held : ∀ held ∈ w.held, held.writing.Sound w
  logins : ∀ login ∈ w.logins, (Writing.mk login.1 login.2 false).Sound w
  refresh_le : w.newestRefresh ≤ w.newestAccess
  access_le : w.newestAccess ≤ w.responses

theorem World.Invariant.keepsNewest (h : w.Invariant) : w.KeepsNewest :=
  fun tokens htokens => h.file.saved rfl rfl tokens htokens

structure World.Grows (w w' : World δ) : Prop where
  responses : w.responses ≤ w'.responses
  saves : w.saves ≤ w'.saves
  marks : w'.saves = w.saves →
    w'.newestAccess = w.newestAccess ∧ w'.newestRefresh = w.newestRefresh
  later : w.saves < w'.saves → w.newestAccess < w'.newestAccess

theorem Writing.Sound.mono {w' : World δ} (h : writing.Sound w) (hgrows : w.Grows w') :
    writing.Sound w' := by
  obtain ⟨hresponses, hsaves, hmarks, hlater⟩ := hgrows
  have hseen := h.seen_le
  -- What is not behind now was not behind before, and the marks have stayed.
  have hsame : writing.seen = w'.saves → writing.seen = w.saves ∧ w'.saves = w.saves := by
    omega
  refine ⟨Nat.le_trans hseen hsaves, h.holds, ?_, ?_, ?_, ?_⟩
  · intro tokens htokens
    obtain ⟨haccess, hrefresh⟩ := h.numbered tokens htokens
    exact ⟨Nat.le_trans haccess hresponses, hrefresh⟩
  · intro hseen' hunsaved tokens htokens
    obtain ⟨hbefore, hkept⟩ := hsame hseen'
    obtain ⟨haccess, hrefresh⟩ := hmarks hkept
    unfold OAuthTokens.AtNewest
    rw [haccess, hrefresh]
    exact h.saved hbefore hunsaved tokens htokens
  · intro hseen' hunsaved tokens htokens
    obtain ⟨hbefore, hkept⟩ := hsame hseen'
    obtain ⟨haccess, hrefresh⟩ := hmarks hkept
    unfold OAuthTokens.AfterNewest
    rw [haccess, hrefresh]
    exact h.unsaved hbefore hunsaved tokens htokens
  · intro hbehind hunsaved tokens htokens
    have hgrows : w.newestAccess ≤ w'.newestAccess := by
      obtain hkept | hmore := Nat.eq_or_lt_of_le hsaves
      · exact Nat.le_of_eq (hmarks hkept.symm).1.symm
      · exact Nat.le_of_lt (hlater hmore)
    obtain hsame | hless := Nat.eq_or_lt_of_le hseen
    · have haccess := (h.saved hsame hunsaved tokens htokens).1
      have hmore := hlater (hsame ▸ hbehind)
      omega
    · have haccess := h.behind hless hunsaved tokens htokens
      omega

/-! ## A write -/

theorem write_saved (hsound : writing.Sound w) (hseen : writing.seen = w.saves)
    (hunsaved : writing.unsaved = false) :
    (w.write writing).newestAccess = w.newestAccess ∧
      (w.write writing).newestRefresh = w.newestRefresh := by
  unfold World.write
  dsimp only
  cases htokens : tokensOf writing.contents with
  | none => simp
  | some tokens =>
    obtain ⟨haccess, hrefresh⟩ := hsound.saved hseen hunsaved tokens htokens
    refine ⟨?_, ?_⟩
    · simp [haccess]
    · cases htoken : tokens.refreshToken with
      | none => simp [htoken]
      | some token =>
        have hnumber := hrefresh token htoken
        simp [htoken, hnumber]

theorem write_unsaved (htokens : tokensOf writing.contents = some tokens)
    (hafter : tokens.AfterNewest w) : tokens.AtNewest (w.write writing) := by
  obtain ⟨haccess, hrefresh⟩ := hafter
  unfold OAuthTokens.AtNewest World.write
  dsimp only
  rw [htokens]
  refine ⟨?_, ?_⟩
  · simp only [Option.map_some, Option.getD_some]
    omega
  · intro token htoken
    have hle := hrefresh token htoken
    simp only [Option.bind_some, htoken, Option.map_some, Option.getD_some]
    omega

theorem write_newest (hsound : writing.Sound w) (hcurrent : UpToDate w writing)
    (hrefresh_le : w.newestRefresh ≤ w.newestAccess) (tokens : OAuthTokens)
    (htokens : tokensOf writing.contents = some tokens) :
    tokens.AtNewest (w.write writing) := by
  have hunsaved_after : writing.unsaved = true → tokens.AfterNewest w := by
    intro hunsaved
    obtain hseen | ⟨_, tokens', htokens', hlater, hown⟩ := hcurrent
    · exact hsound.unsaved hseen hunsaved tokens htokens
    · rw [htokens] at htokens'
      cases htokens'
      refine ⟨hlater, fun token htoken => ?_⟩
      have hnumber := hown token htoken
      omega
  cases hunsaved : writing.unsaved with
  | true => exact write_unsaved htokens (hunsaved_after hunsaved)
  | false =>
    obtain hseen | ⟨hnever, _⟩ := hcurrent
    · obtain ⟨haccess, hrefresh⟩ := write_saved hsound hseen hunsaved
      unfold OAuthTokens.AtNewest
      rw [haccess, hrefresh]
      exact hsound.saved hseen hunsaved tokens htokens
    · rw [hunsaved] at hnever
      cases hnever

theorem write_bounds (hsound : writing.Sound w) (hrefresh_le : w.newestRefresh ≤ w.newestAccess)
    (haccess_le : w.newestAccess ≤ w.responses) :
    (w.write writing).newestRefresh ≤ (w.write writing).newestAccess ∧
      (w.write writing).newestAccess ≤ (w.write writing).responses := by
  unfold World.write
  dsimp only
  cases htokens : tokensOf writing.contents with
  | none =>
    simp only [Option.map_none, Option.bind_none, Option.getD_none]
    omega
  | some tokens =>
    obtain ⟨haccess, hrefresh⟩ := hsound.numbered tokens htokens
    simp only [Option.map_some, Option.bind_some, Option.getD_some]
    cases htoken : tokens.refreshToken with
    | none =>
      simp only [Option.map_none, Option.getD_none]
      omega
    | some token =>
      have hle := hrefresh token htoken
      simp only [Option.map_some, Option.getD_some]
      omega

theorem write_later (hsound : writing.Sound w) (hcurrent : UpToDate w writing)
    (hmore : w.saves < (w.write writing).saves) :
    w.newestAccess < (w.write writing).newestAccess := by
  have hunsaved : writing.unsaved = true := by
    unfold World.write at hmore
    dsimp only at hmore
    cases hunsaved : writing.unsaved with
    | true => rfl
    | false =>
      rw [hunsaved, if_neg Bool.false_ne_true] at hmore
      omega
  obtain ⟨tokens, htokens⟩ := Option.isSome_iff_exists.mp (hsound.holds hunsaved)
  have hafter : w.newestAccess < tokens.accessToken.response := by
    obtain hseen | ⟨_, tokens', htokens', hlater, _⟩ := hcurrent
    · exact (hsound.unsaved hseen hunsaved tokens htokens).1
    · rw [htokens] at htokens'
      cases htokens'
      exact hlater
  unfold World.write
  dsimp only
  rw [htokens]
  simp only [Option.map_some, Option.getD_some]
  omega

theorem write_grows (hsound : writing.Sound w) (hcurrent : UpToDate w writing) :
    w.Grows (w.write writing) := by
  refine ⟨Nat.le_refl _, ?_, ?_, write_later hsound hcurrent⟩
  · unfold World.write
    dsimp only
    split <;> omega
  · intro hkept
    have hunsaved : writing.unsaved = false := by
      unfold World.write at hkept
      dsimp only at hkept
      cases hunsaved : writing.unsaved with
      | false => rfl
      | true =>
        rw [hunsaved, if_pos rfl] at hkept
        omega
    obtain hseen | ⟨hnever, _⟩ := hcurrent
    · exact write_saved hsound hseen hunsaved
    · rw [hunsaved] at hnever
      cases hnever

theorem Writing.Sound.newest {contents : Option (StoredOAuthSession δ)}
    (hnumbered : ∀ tokens, tokensOf contents = some tokens → tokens.Numbered w.responses)
    (hnewest : ∀ tokens, tokensOf contents = some tokens → tokens.AtNewest w) :
    (Writing.mk contents w.saves false).Sound w := by
  refine ⟨Nat.le_refl _, fun hnever => ?_, hnumbered, fun _ _ => hnewest, fun _ hnever => ?_,
    fun hnever => ?_⟩
  · cases hnever
  · cases hnever
  · exact absurd hnever (Nat.lt_irrefl _)

theorem World.Invariant.write (h : w.Invariant) (hsound : writing.Sound w)
    (hcurrent : UpToDate w writing) : (w.write writing).Invariant := by
  have hnewest := write_newest hsound hcurrent h.refresh_le
  have hgrows := write_grows hsound hcurrent
  obtain ⟨hrefresh_le, haccess_le⟩ := write_bounds hsound h.refresh_le h.access_le
  exact ⟨.newest hsound.numbered hnewest, fun held hmem => (h.held held hmem).mono hgrows,
    fun login hmem => (h.logins login hmem).mono hgrows, hrefresh_le, haccess_le⟩

theorem Writing.Sound.written {held : Held δ} (hsound : held.writing.Sound w)
    (hafter : held.writing.Sound (w.write held.writing))
    (hnewest : ∀ tokens, tokensOf held.writing.contents = some tokens →
      tokens.AtNewest (w.write held.writing)) :
    (held.written (w.saves + 1)).writing.Sound (w.write held.writing) := by
  unfold Held.written
  cases hunsaved : held.unsaved with
  | false => exact hafter
  | true =>
    have hsaves : (w.write held.writing).saves = w.saves + 1 := by
      simp [World.write, Held.writing, hunsaved]
    rw [if_pos rfl, ← hsaves]
    exact .newest hsound.numbered hnewest

/-! ## The other steps -/

theorem Writing.Sound.read {session : StoredOAuthSession δ} (h : w.Invariant)
    (hfile : w.file = some session) : (Held.mk session w.saves false).writing.Sound w := by
  have hsound := h.file
  rw [hfile] at hsound
  exact hsound

theorem Writing.Sound.begin {session : StoredOAuthSession δ} (h : session.tokens = none) :
    (Held.mk session w.saves false).writing.Sound w := by
  have hnone : ∀ tokens, tokensOf (some session) ≠ some tokens := by
    intro tokens htokens
    rw [show tokensOf (some session) = session.tokens from rfl, h] at htokens
    cases htokens
  exact .newest (fun tokens htokens => absurd htokens (hnone tokens))
    fun tokens htokens => absurd htokens (hnone tokens)

/-- The tokens of a saved response: the refresh token is its own, or the one there was. -/
theorem nextTokens_refresh {session : StoredOAuthSession δ} {number : Nat} {value : TokenResponse}
    {token : Issued} (h : (session.nextTokens number value).refreshToken = some token) :
    token.response = number ∨
      ∃ tokens, session.tokens = some tokens ∧ tokens.refreshToken = some token := by
  unfold StoredOAuthSession.nextTokens at h
  dsimp only at h
  cases hvalue : value.refreshToken with
  | some text =>
    rw [hvalue] at h
    cases h
    exact Or.inl rfl
  | none =>
    rw [hvalue] at h
    obtain ⟨hprevious, _⟩ := Option.filter_eq_some_iff.mp h
    obtain ⟨tokens, htokens, hrefresh⟩ := Option.bind_eq_some_iff.mp hprevious
    exact Or.inr ⟨tokens, htokens, hrefresh⟩

theorem World.grows_respond (w : World δ) : w.Grows { w with responses := w.responses + 1 } :=
  ⟨Nat.le_succ _, Nat.le_refl _, fun _ => ⟨rfl, rfl⟩, fun hmore => absurd hmore (Nat.lt_irrefl _)⟩

theorem World.grows_same (w : World δ) (held : List (Held δ))
    (logins : List (Option (StoredOAuthSession δ) × Nat)) : w.Grows { w with held, logins } :=
  ⟨Nat.le_refl _, Nat.le_refl _, fun _ => ⟨rfl, rfl⟩, fun hmore => absurd hmore (Nat.lt_irrefl _)⟩

/-- A change, seen from the holder: a saved response is later than all that were written. -/
theorem Writing.Sound.change {held : Held δ} (change : Change δ) (h : w.Invariant)
    (hsound : held.writing.Sound w) :
    (Held.mk (change.apply (w.responses + 1) held.session) held.seen
      (held.unsaved || change.saves)).writing.Sound { w with responses := w.responses + 1 } := by
  have hrefresh_le := h.refresh_le
  have haccess_le := h.access_le
  have hmono : held.writing.Sound { w with responses := w.responses + 1 } :=
    hsound.mono w.grows_respond
  cases hsaves : change.saves with
  | false =>
    have htokens : tokensOf (Held.mk (change.apply (w.responses + 1) held.session) held.seen
        (held.unsaved || false)).writing.contents = tokensOf held.writing.contents :=
      Change.apply_tokens hsaves _ _
    have hunsaved : (held.unsaved || false) = held.unsaved := Bool.or_false _
    refine ⟨hmono.seen_le, ?_, ?_, ?_, ?_, ?_⟩
    · rw [htokens]
      exact fun hholds => hmono.holds (hunsaved.symm.trans hholds)
    · rw [htokens]
      exact hmono.numbered
    · rw [htokens]
      exact fun hseen hsaved => hmono.saved hseen (hunsaved.symm.trans hsaved)
    · rw [htokens]
      exact fun hseen hsaved => hmono.unsaved hseen (hunsaved.symm.trans hsaved)
    · rw [htokens]
      exact fun hbehind hsaved => hmono.behind hbehind (hunsaved.symm.trans hsaved)
  | true =>
    cases change with
    | saveTokens now jitter value =>
      have hnumbered : ∀ token,
          (held.session.nextTokens (w.responses + 1) value).refreshToken = some token →
          token.response ≤ w.responses + 1 := by
        intro token htoken
        obtain hown | ⟨tokens, htokens, hrefresh⟩ := nextTokens_refresh htoken
        · omega
        · obtain ⟨haccess, hle⟩ := hsound.numbered tokens htokens
          have hbound := hle token hrefresh
          omega
      have hnever : (held.unsaved || true) ≠ false := by simp
      refine ⟨hmono.seen_le, fun _ => rfl, ?_, fun _ hsaved => absurd hsaved hnever, ?_,
        fun _ hsaved => absurd hsaved hnever⟩
      · rintro tokens ⟨⟩
        exact ⟨Nat.le_refl _, hnumbered⟩
      · rintro hseen _ tokens ⟨⟩
        refine ⟨show w.newestAccess < w.responses + 1 by omega, fun token htoken => ?_⟩
        obtain hown | ⟨tokens, htokens, hrefresh⟩ := nextTokens_refresh htoken
        · show w.newestRefresh ≤ token.response
          omega
        · cases hunsaved : held.unsaved with
          | true => exact (hsound.unsaved hseen hunsaved tokens htokens).2 token hrefresh
          | false =>
            exact Nat.le_of_eq
              ((hsound.saved hseen hunsaved tokens htokens).2 token hrefresh).symm
    | markReauthorizationRequired | markRefreshInFlight | persistTokenFailure | recordAccessDenied
    | saveCodeVerifier | consumeAuthorization | saveDetails => cases hsaves

theorem World.Invariant.start {file : Option (StoredOAuthSession δ)}
    (h : ∀ tokens, tokensOf file = some tokens → tokens.accessToken.response = 0 ∧
      ∀ token, tokens.refreshToken = some token → token.response = 0) :
    (World.start file).Invariant := by
  refine ⟨.newest ?_ h, fun _ hmem => absurd hmem List.not_mem_nil,
    fun _ hmem => absurd hmem List.not_mem_nil, Nat.le_refl _, Nat.le_refl _⟩
  intro tokens htokens
  obtain ⟨haccess, hrefresh⟩ := h tokens htokens
  refine ⟨Nat.le_of_eq haccess, fun token htoken => ?_⟩
  have hnumber := hrefresh token htoken
  omega

theorem World.Invariant.setHeld {held : Held δ} (i : Nat) (h : w.Invariant)
    (hsound : held.writing.Sound w) : World.Invariant { w with held := w.held.set i held } := by
  have hsame := w.grows_same (w.held.set i held) w.logins
  refine ⟨h.file.mono hsame, fun one hmem => ?_, fun login hmem => (h.logins login hmem).mono hsame,
    h.refresh_le, h.access_le⟩
  obtain hkept | rfl := List.mem_or_eq_of_mem_set hmem
  · exact (h.held one hkept).mono hsame
  · exact hsound.mono hsame

theorem World.Invariant.addHeld {held : Held δ} (h : w.Invariant) (hsound : held.writing.Sound w) :
    World.Invariant { w with held := w.held ++ [held] } := by
  have hsame := w.grows_same (w.held ++ [held]) w.logins
  refine ⟨h.file.mono hsame, ?_, fun login hmem => (h.logins login hmem).mono hsame, h.refresh_le,
    h.access_le⟩
  rw [List.forall_mem_append, List.forall_mem_singleton]
  exact ⟨fun one hmem => (h.held one hmem).mono hsame, hsound.mono hsame⟩

theorem World.Invariant.readRaw (h : w.Invariant) :
    World.Invariant { w with logins := w.logins ++ [(w.file, w.saves)] } := by
  have hsame := w.grows_same w.held (w.logins ++ [(w.file, w.saves)])
  refine ⟨h.file.mono hsame, fun one hmem => (h.held one hmem).mono hsame, ?_, h.refresh_le,
    h.access_le⟩
  rw [List.forall_mem_append, List.forall_mem_singleton]
  exact ⟨fun login hmem => (h.logins login hmem).mono hsame, h.file.mono hsame⟩

theorem World.Invariant.respond (h : w.Invariant) :
    World.Invariant { w with responses := w.responses + 1 } :=
  ⟨h.file.mono w.grows_respond, fun one hmem => (h.held one hmem).mono w.grows_respond,
    fun login hmem => (h.logins login hmem).mono w.grows_respond, h.refresh_le,
    Nat.le_succ_of_le h.access_le⟩

theorem Runs.invariant (h : Runs UpToDate w) : w.Invariant := by
  induction h with
  | start hnumbers => exact .start hnumbers
  | read _ hfile _ ih => exact ih.addHeld (.read ih hfile)
  | readRaw _ ih => exact ih.readRaw
  | begin _ htokens ih => exact ih.addHeld (.begin htokens)
  | @change w i held change _ hheld ih =>
    have hsound := ih.held held (List.mem_of_getElem? hheld)
    exact ih.respond.setHeld i (Writing.Sound.change change ih hsound)
  | @write w i held _ hheld hcurrent ih =>
    have hsound := ih.held held (List.mem_of_getElem? hheld)
    have hwritten := ih.write hsound hcurrent
    have hafter := hwritten.held held (List.mem_of_getElem? hheld)
    have hnewest := write_newest hsound hcurrent ih.refresh_le
    exact hwritten.setHeld i (hsound.written hafter hnewest)
  | restore _ hmem hcurrent ih => exact ih.write (ih.logins _ hmem) hcurrent

/-- Where every writer is up to date, the file has no token that is earlier than one of its kind
that was written before. -/
theorem Runs.keeps_newest (h : Runs UpToDate w) : w.KeepsNewest := h.invariant.keepsNewest

/-! ## Runs in which the grant goes back -/

/-- A session that is behind, and holds no unsaved response, takes the grant back. -/
theorem Runs.goes_back (h : Runs UpToDate w) {held : Held δ} (hmem : held ∈ w.held)
    (hbehind : held.seen < w.saves) (hunsaved : held.unsaved = false)
    (htokens : held.session.tokens.isSome = true) : ¬ (w.write held.writing).KeepsNewest := by
  obtain ⟨tokens, htokens⟩ := Option.isSome_iff_exists.mp htokens
  have hearlier := (h.invariant.held held hmem).behind hbehind hunsaved tokens htokens
  intro hkeeps
  have hnewest := (hkeeps tokens htokens).1
  have hmark : w.newestAccess ≤ (w.write held.writing).newestAccess := Nat.le_max_left _ _
  omega

def grant (text : String) (number : Nat) : OAuthTokens :=
  ⟨⟨text, number⟩, some ⟨text, number⟩, none, none⟩

def stored (tokens : OAuthTokens) : StoredOAuthSession Unit := { details := (), tokens := some tokens }

/-- Two dispatches have read one grant. The first refreshes it and writes the new tokens; the
second is denied access and writes the session that it has read. -/
theorem grant_goes_back : ∃ w : World Unit, Runs (fun _ _ => True) w ∧ ¬ w.KeepsNewest := by
  have hstart : Runs (fun _ _ => True) (World.start (some (stored (grant "old" 0)))) := by
    refine .start ?_
    rintro tokens ⟨⟩
    exact ⟨rfl, by rintro token ⟨⟩; rfl⟩
  have hfirst := Runs.read hstart rfl rfl
  have hsecond := Runs.read hfirst rfl rfl
  have hsaved := Runs.change (i := 0)
    (.saveTokens 10 0 ⟨"new", some "new", none, none⟩) hsecond rfl
  have hwritten := Runs.write (i := 0) hsaved rfl trivial
  have hdenied := Runs.change (i := 1) (.recordAccessDenied 20) hwritten rfl
  have hback := Runs.write (i := 1) hdenied rfl trivial
  refine ⟨_, hback, fun hkeeps => ?_⟩
  have hnumber := (hkeeps (grant "old" 0) rfl).1
  revert hnumber
  decide

/-- The same dispatches, where the second reads the session after the first has written. -/
theorem Runs.keeps_newest_refreshed :
    ∃ w : World Unit, Runs UpToDate w ∧ w.saves = 1 ∧ w.KeepsNewest := by
  have hstart : Runs UpToDate (World.start (some (stored (grant "old" 0)))) := by
    refine .start ?_
    rintro tokens ⟨⟩
    exact ⟨rfl, by rintro token ⟨⟩; rfl⟩
  have hfirst := Runs.read hstart rfl rfl
  have hsaved := Runs.change (i := 0)
    (.saveTokens 10 0 ⟨"new", some "new", none, none⟩) hfirst rfl
  have hwritten := Runs.write (i := 0) hsaved rfl (Or.inl rfl)
  have hsecond := Runs.read hwritten rfl rfl
  have hdenied := Runs.change (i := 1) (.recordAccessDenied 20) hsecond rfl
  have hagain := Runs.write (i := 1) hdenied rfl (Or.inl rfl)
  exact ⟨_, hagain, rfl, hagain.keeps_newest⟩

end Mpas.OAuthSessions
