import Mpas.Library.Heap
import Mpas.Library.Machine
import Mpas.Library.OrderedMap
import Mpas.Routing

/-!
# Idempotency records

The Coordination Service starts the operation of a request once for each key. A
record of it stands for a quarter of an hour; a sweep at the next request drops it
when that is over, and a handler of its own drops what stands under its key when
the operation is rejected, whenever that is.

* `runIdempotent`, `step`: requests, the clock, settlements and handlers;
* `Invariant`: the record of a claim stands while nothing may drop it;
* `idempotency_protects`: what a record protects, and from what.
-/

namespace Mpas.Idempotency

open Routing (RoutingValidationError computeIdempotencyFingerprint)

/-! ## Records -/

inductive Service
  | relay
  | coordination
  deriving DecidableEq, Repr

def Service.text : Service → String
  | .relay => "relay"
  | .coordination => "coordination"

def IDEMPOTENCY_CACHE_TTL_MS : Int := 15 * 60000

def scopeOf (service : Service) (did : Did) (key : String) : String :=
  service.text ++ "\x00" ++ did ++ "\x00" ++ key

/-- `result` is the promise of the operation, by its place in `State.operations`. -/
structure IdempotencyRecord where
  fingerprint : String
  result : Nat
  expiresAt : Int
  deriving DecidableEq, Repr

inductive Settlement
  | pending
  | fulfilled
  | rejected
  deriving DecidableEq, Repr

/-- What an operation was started under. -/
structure Claim where
  scope : String
  fingerprint : String
  claimedAt : Int
  deriving DecidableEq, Repr

/-- An operation that was started. It has no claim when the request has no key, and
`handled` is whether its rejection handler has run. -/
structure Operation where
  claim : Option Claim
  settlement : Settlement := .pending
  handled : Bool := false
  deriving DecidableEq, Repr

structure State where
  clock : Int := 0
  idempotency : OrderedMap String IdempotencyRecord := ∅
  operations : List Operation := []
  deriving DecidableEq

inductive CallError
  | routing (error : RoutingValidationError)
  | service (statusCode : Nat) (code message : String)
  deriving DecidableEq, Repr

def conflict : CallError :=
  .service 409 "idempotency_conflict" "Idempotency key was reused with a different request."

namespace State

/-- `Promise.resolve().then(operation)`. -/
def start (state : State) (claim : Option Claim) : State :=
  { state with operations := state.operations ++ [{ claim }] }

/-- The records that have expired are dropped, of every key. -/
def sweep (state : State) : State where
  clock := state.clock
  idempotency := state.idempotency.filter fun _ entry => !decide (entry.expiresAt ≤ state.clock)
  operations := state.operations

end State

/-- The promise that the request gets, or what is thrown. -/
def runIdempotent (platform : Platform) (state : State) (service : Service) (did : Did)
    (key : Option String) (request : Json) : Except CallError Nat × State :=
  let key := key.getD ""
  if key = "" then (.ok state.operations.length, state.start none)
  else
    let swept := state.sweep
    let scope := scopeOf service did key
    match computeIdempotencyFingerprint platform request with
    | .error error => (.error (.routing error), swept)
    | .ok fingerprint =>
      match swept.idempotency.get? scope with
      | some existing =>
        if existing.fingerprint ≠ fingerprint then (.error conflict, swept)
        else (.ok existing.result, swept)
      | none =>
        let entry := ⟨fingerprint, state.operations.length, state.clock + IDEMPOTENCY_CACHE_TTL_MS⟩
        (.ok state.operations.length,
          { swept.start (some ⟨scope, fingerprint, state.clock⟩) with
            idempotency := swept.idempotency.set scope entry })

inductive Event
  | call (service : Service) (did : Did) (key : Option String) (request : Json)
  | advance (ms : Nat)
  | settle (operation : Nat) (fulfilled : Bool)
  /-- the rejection handler of an operation -/
  | handle (operation : Nat)

def step (platform : Platform) (state : State) : Event → Option State
  | .call service did key request => some (runIdempotent platform state service did key request).2
  | .advance ms => some { state with clock := state.clock + ms }
  | .settle p fulfilled =>
    match state.operations[p]? with
    | some operation =>
      if operation.settlement = .pending then
        let settlement := if fulfilled then .fulfilled else .rejected
        some { state with operations := state.operations.set p { operation with settlement } }
      else none
    | none => none
  | .handle p =>
    match state.operations[p]? with
    | some operation =>
      match operation.claim with
      | some claim =>
        if operation.settlement = .rejected ∧ operation.handled = false then
          some { state with
            idempotency := state.idempotency.delete claim.scope
            operations := state.operations.set p { operation with handled := true } }
        else none
      | none => none
    | none => none

/-! ## What a record protects -/

variable {platform : Platform} {state state' : State} {event : Event} {p : Nat}
  {operation : Operation} {claim : Claim}

/-- The time of the claim is not over, and its operation has not been rejected. -/
structure Protected (state : State) (p : Nat) (claim : Claim) : Prop where
  claimed : ∃ operation, state.operations[p]? = some operation ∧
    operation.claim = some claim ∧ operation.settlement ≠ .rejected
  inTime : state.clock < claim.claimedAt + IDEMPOTENCY_CACHE_TTL_MS

/-- A request under the key of a protected claim starts nothing. It gets the promise
of the claim if it has the fingerprint of the claim, and is refused if it has another. -/
def Protects (platform : Platform) (state : State) : Prop :=
  ∀ p claim, Protected state p claim → ∀ service did key request, key ≠ "" →
    scopeOf service did key = claim.scope →
      (runIdempotent platform state service did (some key) request).2.operations =
        state.operations ∧
      ∀ fingerprint, computeIdempotencyFingerprint platform request = .ok fingerprint →
        (runIdempotent platform state service did (some key) request).1 =
          if fingerprint = claim.fingerprint then .ok p else .error conflict

/-- A rejection handler leaves the records of other operations. -/
def KeepsOthers (state : State) (event : Event) (state' : State) : Prop :=
  ∀ p, event = .handle p → ∀ scope entry, state.idempotency.get? scope = some entry →
    entry.result ≠ p → state'.idempotency.get? scope = some entry

/-- No rejection handler runs while a later claim of its key stands. -/
def Timely (state : State) (event : Event) : Prop :=
  ∀ p, event = .handle p → ∀ operation claim, state.operations[p]? = some operation →
    operation.claim = some claim → ∀ entry, state.idempotency.get? claim.scope = some entry →
      entry.result = p

/-! ## What a step does -/

theorem runIdempotent_found {service : Service} {did : Did} {key : String} {request : Json}
    {existing : IdempotencyRecord} (hkey : key ≠ "")
    (hexisting : state.sweep.idempotency.get? (scopeOf service did key) = some existing) :
    (runIdempotent platform state service did (some key) request).2 = state.sweep ∧
      ∀ fingerprint, computeIdempotencyFingerprint platform request = .ok fingerprint →
        (runIdempotent platform state service did (some key) request).1 =
          if fingerprint = existing.fingerprint then .ok existing.result else .error conflict := by
  unfold runIdempotent
  simp only [Option.getD_some, hkey, ↓reduceIte, hexisting]
  cases computeIdempotencyFingerprint platform request with
  | error error => exact ⟨rfl, fun fingerprint h => by cases h⟩
  | ok fingerprint =>
    by_cases hsame : existing.fingerprint = fingerprint
    · simp [hsame]
    · simp [hsame, Ne.symm hsame]

/-- What a request changes: records are swept, and either nothing is started, or an
operation without a claim, or one with a claim under a key that has no record. -/
theorem runIdempotent_cases (platform : Platform) (state : State) (service : Service) (did : Did)
    (key : Option String) (request : Json) :
    (runIdempotent platform state service did key request).2 = state.start none ∨
      (runIdempotent platform state service did key request).2 = state.sweep ∨
      ∃ scope fingerprint, state.sweep.idempotency.get? scope = none ∧
        (runIdempotent platform state service did key request).2 =
          { state.sweep.start (some ⟨scope, fingerprint, state.clock⟩) with
            idempotency := state.sweep.idempotency.set scope
              ⟨fingerprint, state.operations.length, state.clock + IDEMPOTENCY_CACHE_TTL_MS⟩ } := by
  unfold runIdempotent
  dsimp only
  split
  · exact .inl rfl
  · split
    · exact .inr (.inl rfl)
    · split
      · split
        · exact .inr (.inl rfl)
        · exact .inr (.inl rfl)
      · rename_i hnone
        exact .inr (.inr ⟨_, _, hnone, rfl⟩)

theorem step_settle {fulfilled : Bool} (h : step platform state (.settle p fulfilled) = some state') :
    ∃ operation settlement, state.operations[p]? = some operation ∧
      operation.settlement = .pending ∧
      state' = { state with operations := state.operations.set p { operation with settlement } } := by
  simp only [step] at h
  split at h
  · rename_i operation hoperation
    split at h
    · rename_i hpending
      exact ⟨operation, _, hoperation, hpending, (Option.some.inj h).symm⟩
    · cases h
  · cases h

theorem step_handle (h : step platform state (.handle p) = some state') :
    ∃ operation claim, state.operations[p]? = some operation ∧ operation.claim = some claim ∧
      operation.settlement = .rejected ∧
      state' = { state with
        idempotency := state.idempotency.delete claim.scope
        operations := state.operations.set p { operation with handled := true } } := by
  simp only [step] at h
  split at h
  · rename_i operation hoperation
    split at h
    · rename_i claim hclaim
      split at h
      · rename_i hrejected
        exact ⟨operation, claim, hoperation, hclaim, hrejected.1, (Option.some.inj h).symm⟩
      · cases h
    · cases h
  · cases h

/-! ## The invariant -/

/-- The record of a claim stands until its time is over or its rejection is handled. -/
structure Invariant (state : State) : Prop where
  kept : ∀ (p : Nat) (operation : Operation) (claim : Claim),
    state.operations[p]? = some operation → operation.claim = some claim →
    operation.handled = false →
    state.clock < claim.claimedAt + IDEMPOTENCY_CACHE_TTL_MS →
    state.idempotency.get? claim.scope =
      some ⟨claim.fingerprint, p, claim.claimedAt + IDEMPOTENCY_CACHE_TTL_MS⟩
  handled : ∀ (p : Nat) (operation : Operation), state.operations[p]? = some operation →
    operation.handled = true → operation.settlement = .rejected

theorem sweep_keeps {scope : String} {entry : IdempotencyRecord}
    (h : state.idempotency.get? scope = some entry) (htime : state.clock < entry.expiresAt) :
    state.sweep.idempotency.get? scope = some entry := by
  have hlater : ¬entry.expiresAt ≤ state.clock := by omega
  simp [State.sweep, h, Option.filter, hlater]

theorem Invariant.start_none (h : Invariant state) : Invariant (state.start none) where
  kept := by
    intro p operation claim hoperation hclaim
    rcases Heap.lookup_append hoperation with hold | ⟨-, rfl⟩
    · exact h.kept p operation claim hold hclaim
    · cases hclaim
  handled := by
    intro p operation hoperation hhandled
    rcases Heap.lookup_append hoperation with hold | ⟨-, rfl⟩
    · exact h.handled p operation hold hhandled
    · cases hhandled

theorem Invariant.sweep (h : Invariant state) : Invariant state.sweep where
  kept := by
    intro p operation claim hoperation hclaim hhandled htime
    exact sweep_keeps (h.kept p operation claim hoperation hclaim hhandled htime) htime
  handled := h.handled

/-- A key without a record has no claim that is still to be kept. -/
theorem Invariant.newClaim {scope fingerprint : String} (h : Invariant state)
    (hnone : state.idempotency.get? scope = none) :
    Invariant { state.start (some ⟨scope, fingerprint, state.clock⟩) with
      idempotency := state.idempotency.set scope
        ⟨fingerprint, state.operations.length, state.clock + IDEMPOTENCY_CACHE_TTL_MS⟩ } where
  kept := by
    intro p operation claim hoperation hclaim hhandled htime
    rcases Heap.lookup_append hoperation with hold | ⟨rfl, rfl⟩
    · have hkept := h.kept p operation claim hold hclaim hhandled htime
      have hne : scope ≠ claim.scope := by
        rintro rfl
        rw [hnone] at hkept
        cases hkept
      rw [OrderedMap.get?_set_ne _ _ hne]
      exact hkept
    · cases hclaim
      exact OrderedMap.get?_set_self _ _ _
  handled := by
    intro p operation hoperation hhandled
    rcases Heap.lookup_append hoperation with hold | ⟨-, rfl⟩
    · exact h.handled p operation hold hhandled
    · cases hhandled

theorem Invariant.advance (h : Invariant state) (ms : Nat) :
    Invariant { state with clock := state.clock + ms } where
  kept := by
    intro p operation claim hoperation hclaim hhandled htime
    dsimp only at htime
    exact h.kept p operation claim hoperation hclaim hhandled (by omega)
  handled := h.handled

theorem Invariant.settle {settlement : Settlement} (h : Invariant state)
    (hoperation : state.operations[p]? = some operation)
    (hpending : operation.settlement = .pending) :
    Invariant { state with
      operations := state.operations.set p { operation with settlement } } where
  kept := by
    intro q other claim hother hclaim hhandled htime
    dsimp only at hother
    rw [List.getElem?_set] at hother
    split at hother
    · rename_i heq
      split at hother
      · cases hother
        rw [← heq]
        exact h.kept p operation claim hoperation hclaim hhandled htime
      · cases hother
    · exact h.kept q other claim hother hclaim hhandled htime
  handled := by
    intro q other hother hhandled
    dsimp only at hother
    rw [List.getElem?_set] at hother
    split at hother
    · split at hother
      · cases hother
        rw [h.handled p operation hoperation hhandled] at hpending
        cases hpending
      · cases hother
    · exact h.handled q other hother hhandled

/-- A handler that removes at most its own record keeps the invariant. -/
theorem Invariant.handle (h : Invariant state) (hrejected : operation.settlement = .rejected)
    (htimely : ∀ entry, state.idempotency.get? claim.scope = some entry → entry.result = p) :
    Invariant { state with
      idempotency := state.idempotency.delete claim.scope
      operations := state.operations.set p { operation with handled := true } } where
  kept := by
    intro q other claim' hother hclaim' hhandled htime
    dsimp only at hother
    rw [List.getElem?_set] at hother
    split at hother
    · split at hother
      · cases hother
        cases hhandled
      · cases hother
    · rename_i hne
      have hkept := h.kept q other claim' hother hclaim' hhandled htime
      rw [OrderedMap.get?_delete, if_neg]
      · exact hkept
      · intro hscope
        rw [← hscope] at hkept
        exact hne (htimely _ hkept).symm
  handled := by
    intro q other hother hhandled
    dsimp only at hother
    rw [List.getElem?_set] at hother
    split at hother
    · split at hother
      · cases hother
        exact hrejected
      · cases hother
    · exact h.handled q other hother hhandled

theorem step_invariant (h : Invariant state) (htimely : Timely state event)
    (hstep : step platform state event = some state') : Invariant state' := by
  cases event with
  | call service did key request =>
    obtain rfl := Option.some.inj hstep
    rcases runIdempotent_cases platform state service did key request with
      heq | heq | ⟨scope, fingerprint, hnone, heq⟩
    · rw [heq]
      exact h.start_none
    · rw [heq]
      exact h.sweep
    · rw [heq]
      exact h.sweep.newClaim hnone
  | advance ms =>
    obtain rfl := Option.some.inj hstep
    exact h.advance ms
  | settle p fulfilled =>
    obtain ⟨operation, settlement, hoperation, hpending, rfl⟩ := step_settle hstep
    exact h.settle hoperation hpending
  | handle p =>
    obtain ⟨operation, claim, hoperation, hclaim, hrejected, rfl⟩ := step_handle hstep
    exact h.handle hrejected (htimely p rfl operation claim hoperation hclaim)

theorem invariant_start : Invariant {} := ⟨by simp, by simp⟩

/-! ## Protection -/

theorem Invariant.protects (h : Invariant state) (platform : Platform) :
    Protects platform state := by
  intro p claim hprotected service did key request hkey hscope
  obtain ⟨⟨operation, hoperation, hclaim, hsettlement⟩, htime⟩ := hprotected
  have hhandled : operation.handled = false := by
    rw [← Bool.not_eq_true]
    exact fun hhandled => hsettlement (h.handled p operation hoperation hhandled)
  have hrecord := sweep_keeps (h.kept p operation claim hoperation hclaim hhandled htime) htime
  rw [← hscope] at hrecord
  refine ⟨?_, (runIdempotent_found hkey hrecord).2⟩
  rw [(runIdempotent_found hkey hrecord).1]
  rfl

/-- A handler removes the record of another operation exactly if it is not timely. -/
theorem keepsOthers_iff (h : step platform state event = some state') :
    KeepsOthers state event state' ↔ Timely state event := by
  constructor
  · rintro hkeeps p rfl operation claim hoperation hclaim entry hentry
    obtain ⟨operation', claim', hoperation', hclaim', -, rfl⟩ := step_handle h
    rw [hoperation] at hoperation'
    cases hoperation'
    rw [hclaim] at hclaim'
    cases hclaim'
    by_contra hother
    have hkept := hkeeps p rfl claim.scope entry hentry hother
    rw [OrderedMap.get?_delete, if_pos rfl] at hkept
    cases hkept
  · rintro htimely p rfl scope entry hentry hother
    obtain ⟨operation, claim, hoperation, hclaim, -, rfl⟩ := step_handle h
    rw [OrderedMap.get?_delete, if_neg]
    · exact hentry
    · rintro rfl
      exact hother (htimely p rfl operation claim hoperation hclaim entry hentry)

/-- **Idempotency records.** While every rejection handler is timely, a record protects
its operation, and the next step removes no record of another operation exactly if it
is timely as well. -/
theorem idempotency_protects (platform : Platform) {events : List Event} {state : State}
    (h : Machine.Run (step platform) Timely {} events state) :
    Protects platform state ∧ ∀ event state', step platform state event = some state' →
      (KeepsOthers state event state' ↔ Timely state event) := by
  have hinv : Invariant state :=
    h.invariant (I := Invariant) (fun _ _ _ hbefore htimely hstep =>
      step_invariant hbefore htimely hstep) invariant_start
  exact ⟨hinv.protects platform, fun _ _ hstep => keepsOthers_iff hstep⟩

/-- The hash of the one request. -/
def hashPlatform : Platform where
  computeJsonHash := fun _ => ⟨"sha-256", "TJislcdDHCnqoIb3BdS7Jh8l33poIcGGqlgofDryFuE"⟩
  dateParse := fun _ => none
  urlOrigin := fun _ => none
  stringify := fun _ => ""

def actionRequest : Json := .obj [("type", .str "ActionRequest")]

def retry : Event := .call .relay "did:web:a" (some "key") actionRequest

def retryScope : String := scopeOf .relay "did:web:a" "key"

/-- What is recorded of the request, claimed at the time. -/
def recordAt (claimedAt : Int) (result : Nat) : IdempotencyRecord where
  fingerprint := "TJislcdDHCnqoIb3BdS7Jh8l33poIcGGqlgofDryFuE"
  result
  expiresAt := claimedAt + IDEMPOTENCY_CACHE_TTL_MS

def claimAt (claimedAt : Int) : Claim where
  scope := retryScope
  fingerprint := "TJislcdDHCnqoIb3BdS7Jh8l33poIcGGqlgofDryFuE"
  claimedAt

/-- The operation is rejected, its handler runs a minute later, and the request comes twice
again. -/
def retriedEvents : List Event :=
  [retry, .settle 0 false, .advance 60000, .handle 0, retry, .advance 60000, retry]

/-- A second operation, a minute after it was started. -/
def retried : State where
  clock := 120000
  idempotency := (∅ : OrderedMap String IdempotencyRecord).set retryScope (recordAt 60000 1)
  operations := [{ claim := some (claimAt 0), settlement := .rejected, handled := true },
    { claim := some (claimAt 60000) }]

/-- The handler is timely, and the last request starts nothing. -/
theorem idempotency_protects_retry :
    Machine.Run (step hashPlatform) Timely {} retriedEvents retried ∧
      Protects hashPlatform retried := by
  have hrun : Machine.exec (Machine.checked (step hashPlatform) fun state event => match event with
      | .handle p => state.idempotency.entries.all fun entry => entry.2.result = p
      | _ => true) {} retriedEvents = some retried := by decide +kernel
  have htimely : Machine.Run (step hashPlatform) Timely {} retriedEvents retried := by
    refine (Machine.run_of_checked hrun).weaken fun state event hevent => ?_
    rintro p rfl operation claim - - entry hentry
    have hown := List.all_eq_true.mp hevent _ ((state.idempotency.mem_entries_iff _ _).mpr hentry)
    exact of_decide_eq_true hown
  exact ⟨htimely, (idempotency_protects hashPlatform htimely).1⟩

/-- A handler that runs within the time of its claim is timely. -/
theorem timely_of_inTime {events : List Event} {state : State}
    (h : Machine.Run (step platform) Timely {} events state) {p : Nat}
    (hinTime : ∀ operation claim, state.operations[p]? = some operation →
      operation.claim = some claim → operation.handled = false ∧
        state.clock < claim.claimedAt + IDEMPOTENCY_CACHE_TTL_MS) : Timely state (.handle p) := by
  have hinv : Invariant state :=
    h.invariant (I := Invariant) (fun _ _ _ hbefore htimely hstep =>
      step_invariant hbefore htimely hstep) invariant_start
  rintro _ ⟨⟩ operation claim hoperation hclaim entry hentry
  obtain ⟨hhandled, htime⟩ := hinTime operation claim hoperation hclaim
  rw [hinv.kept p operation claim hoperation hclaim hhandled htime] at hentry
  cases hentry
  rfl

/-! ## A rejection after a quarter of an hour -/

/-- The first operation is rejected after the key has been claimed again. -/
def overtaken : State where
  clock := 900000
  idempotency := (∅ : OrderedMap String IdempotencyRecord).set retryScope (recordAt 900000 1)
  operations := [{ claim := some (claimAt 0), settlement := .rejected },
    { claim := some (claimAt 900000) }]

/-- Its handler removes the record of the second one, and a retry starts a third. -/
theorem handler_removes_later_claim :
    Machine.exec (step hashPlatform) {} [retry, .advance 900000, retry, .settle 0 false] =
        some overtaken ∧
      overtaken.idempotency.get? retryScope = some (recordAt 900000 1) ∧
      ∃ state, step hashPlatform overtaken (.handle 0) = some state ∧
        state.idempotency.get? retryScope = none ∧
        Protected state 1 (claimAt 900000) ∧
        (runIdempotent hashPlatform state .relay "did:web:a" (some "key") actionRequest).1 =
          .ok 2 := by
  refine ⟨by decide +kernel, by decide +kernel, _, rfl, by decide +kernel,
    ⟨⟨_, rfl, rfl, by decide⟩, by decide⟩, by decide +kernel⟩

end Mpas.Idempotency
