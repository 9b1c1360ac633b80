import Mathlib.Data.Rat.Floor
import Mpas.Library.Program
import Mpas.Routing
import Mpas.WorkflowStore

/-!
# The workflow engine of a proposer bridge

What the engine does between two `await`s is a program over the workflow store.
Every program runs on the lane of its Task, or on its own thread, and stops
where it waits for a remote answer. A process runs one of them at a time, and
can end before any write of it; the store remains, and a later process starts
from it with options of its own.

The log records the remote calls in the order in which they start.
-/

namespace Mpas.WorkflowEngine

open Routing WorkflowStore

/-! ## Exceptions -/

inductive ErrorClass
  | mpasAuthError
  | coordinationResponseError
  | actionRelayResponseError
  | routingValidationError
  | actionEndpointClientError
  | adapterResponseError
  | adapterRequestError
  | otherError
  /-- a thrown value that is no `Error` -/
  | notAnError
  deriving DecidableEq, Repr

structure Failure where
  errorClass : ErrorClass
  message : String
  status : Option Int := none
  retryable : Option Bool := none
  retryAfterMs : Option Nat := none
  deriving DecidableEq, Repr

def plainError (message : String) : Failure := { errorClass := .otherError, message }

/-- `error instanceof Error ? error.message : fallback`. -/
def Failure.messageOr (error : Failure) (fallback : String) : String :=
  if error.errorClass = .notAnError then fallback else error.message

/-- Failures that a retry cannot fix. -/
def isPermanentRemoteFailure (error : Failure) : Bool :=
  match error.errorClass with
  | .mpasAuthError | .coordinationResponseError | .actionRelayResponseError
  | .routingValidationError | .adapterResponseError => true
  | .actionEndpointClientError => decide (error.retryable = some false)
  | .adapterRequestError => decide (error.retryable ≠ some true)
  | .otherError | .notAnError => false

def permanentCoordinationFailure (error : Failure) : Bool :=
  decide (error.errorClass = .mpasAuthError ∨ error.errorClass = .coordinationResponseError)

def coordinationFailureResolution (error : Failure) : String × String :=
  if error.errorClass = .mpasAuthError then
    (if error.status = some 401 then "COORDINATION_AUTHENTICATION_FAILED"
      else "COORDINATION_AUTHORIZATION_FAILED", error.message)
  else
    ("COORDINATION_REQUEST_REJECTED",
      error.messageOr "The Coordination Service rejected the workflow.")

/-! ## Backoff -/

structure BackoffPolicy where
  baseMs : Nat
  capMs : Nat

def FAILURE_BACKOFF : BackoffPolicy := ⟨5000, 300000⟩

def PENDING_BACKOFF : BackoffPolicy := ⟨2000, 60000⟩

def MAX_RETRY_AFTER_MS : Nat := 900000

def backoffDelayMs (failures : Nat) (policy : BackoffPolicy) (random : ℚ)
    (retryAfterMs : Option Nat) : Int :=
  match retryAfterMs with
  | some ms => min ms MAX_RETRY_AFTER_MS
  | none =>
    let exponent := min failures 31 - 1
    let ceiling := min policy.capMs (policy.baseMs * 2 ^ exponent)
    (random * ceiling).floor

/-! ## Options, calls, contents -/

def DEFAULT_SUBMISSION_TIMEOUT_MS : Nat := 45000

def DEFAULT_CLAIM_LEASE_MS : Nat := 60000

structure BridgeWorkflowEngineOptions where
  upstreamBinding : Option Json := none
  proposerDid : Did
  workerId : String
  submissionTimeoutMs : Nat := DEFAULT_SUBMISSION_TIMEOUT_MS
  claimLeaseMs : Nat := DEFAULT_CLAIM_LEASE_MS
  claimLease_exceeds : submissionTimeoutMs < claimLeaseMs := by decide
  deriving DecidableEq

inductive RemoteCall
  /-- with the workflow's current Action Envelope hash -/
  | submitActionRequest (taskId : String) (phase : SubmissionPhase) (request : ActionRequest)
      (actionEnvelopeHash : String)
  | createApprovalWorkflow (taskId actionId : String) (actionPackage : Json)
      (authorizationRequirements : Option AuthorizationRequirements)
  | pollWork
  /-- `byCaller` when it belongs to a call of `cancel` -/
  | cancelAction (actionId : String) (byCaller : Bool)
  deriving DecidableEq

structure LoggedCall where
  call : RemoteCall
  /-- `stop` had returned when the call started -/
  stopped : Bool
  deriving DecidableEq

structure Durable where
  store : MemoryWorkflowStore := {}
  calls : List LoggedCall := []
  deriving DecidableEq

abbrev EngineM := Program Durable Failure

/-- What a program reads besides the store, constant until it awaits. -/
structure Context where
  platform : Platform
  options : BridgeWorkflowEngineOptions
  stopped : Bool
  inFlightAborted : Bool
  now : Int
  random : ℚ

/-- `Date.parse(text) < now`. -/
def Context.isPast (ctx : Context) (text : Timestamp) : Bool :=
  (ctx.platform.dateParse text).any fun ms => decide (ms < ctx.now)

/-- `Date.parse(text) >= now`. -/
def Context.isAhead (ctx : Context) (text : Timestamp) : Bool :=
  (ctx.platform.dateParse text).any fun ms => decide (ctx.now ≤ ms)

def proposerDidOfPackage (pkg : Json) : Option Did :=
  ((((pkg.member "actionEnvelope").bind (Json.member "proposer")).bind (Json.member "did")).bind
    Json.asString)

def proposerDidOf (record : WorkflowRecord) : Option Did := proposerDidOfPackage record.actionPackage

/-- The response rejects the Action as a replay. -/
def isReplayRejection (response : ActionResponse) : Bool :=
  decide (response.result = .rejected) &&
    response.error.any fun e => e.code = "REPLAY_DETECTED" ∨ e.code = "ACTION_ID_HASH_MISMATCH"

/-- The most recent remote-call outcome in a workflow's attempt log. -/
def lastAttempt (record : WorkflowRecord) : Option AttemptRecord :=
  record.adapterAttempts.reverse.findSome? fun entry => match entry with
    | .attempt attempt => some attempt
    | .idempotencyBound _ => none

def retryNotBefore (record : WorkflowRecord) : Option Int :=
  (lastAttempt record).bind fun last =>
    if last.outcome = .unreachable ∨ last.outcome = .pending then last.notBefore else none

/-- `isSubmissionIdempotencyBinding`, and the binding it lets through. -/
def submissionIdempotencyBinding : AdapterAttempt → Option SubmissionIdempotencyBinding
  | .attempt _ => none
  | .idempotencyBound binding =>
    if 0 < lengthOf binding.idempotencyKey ∧ lengthOf binding.idempotencyKey ≤ 128 ∧
        0 < lengthOf binding.requestFingerprint then some binding
    else none

def bindingsOf (attempts : List AdapterAttempt) (phase : SubmissionPhase) (key : String) :
    List SubmissionIdempotencyBinding :=
  (attempts.filterMap submissionIdempotencyBinding).filter fun binding =>
    binding.stage = phase ∧ binding.idempotencyKey = key

def actionRequestFor (ctx : Context) (key : String) (actionPackage : Json) : ActionRequest where
  idempotencyKey := key
  actionPackage := actionPackage
  upstreamBinding := ctx.options.upstreamBinding

def phaseText : SubmissionPhase → String
  | .initial => "initial"
  | .completed => "completed"

/-! ## Store operations -/

section Store

variable (ctx : Context) (taskId : String)

def getWorkflow : EngineM (Option WorkflowRecord) := do
  return (← Program.read).store.getWorkflow taskId

def mustGet : EngineM WorkflowRecord := do
  match ← getWorkflow taskId with
  | some record => pure record
  | none => throw (plainError ("Workflow not found for task " ++ taskId ++ "."))

def updateStore (f : MemoryWorkflowStore → MemoryWorkflowStore) : EngineM Unit :=
  Program.write fun d => ((), { d with store := f d.store })

def tryStore (f : MemoryWorkflowStore → Bool × MemoryWorkflowStore) : EngineM Bool :=
  Program.write fun d => ((f d.store).1, { d with store := (f d.store).2 })

def holdClaim : EngineM Bool :=
  tryStore fun store =>
    store.claimWorkflow ctx.now taskId ctx.options.workerId ctx.options.claimLeaseMs

def compareAndSetState (source target : BridgeWorkflowState) : EngineM Bool :=
  tryStore fun store => store.compareAndSetState ctx.now taskId source target

def saveAdapterAttempt (attempt : AdapterAttempt) : EngineM Unit :=
  updateStore fun store => store.saveAdapterAttempt ctx.now taskId attempt

def saveLastActionResponse (response : ActionResponse) : EngineM Unit :=
  updateStore fun store => store.saveLastActionResponse ctx.now taskId response

def resolveUnresolvable (errorCode errorMessage : String) : EngineM Unit :=
  updateStore fun store =>
    store.resolveWorkflow ctx.now taskId (.unresolvable errorCode errorMessage)

def settle (response : ActionResponse) : EngineM Unit :=
  updateStore fun store =>
    store.resolveWorkflow ctx.now taskId (.resolved response response.executionReceipt)

/-- A remote call starts. -/
def send (call : RemoteCall) : EngineM Unit :=
  Program.write fun d => ((), { d with calls := d.calls ++ [⟨call, ctx.stopped⟩] })

/-- The entry that `recordAttempt` appends. -/
def attemptEntry (previous : Option AttemptRecord) (stage : AttemptStage)
    (outcome : AttemptOutcome) (error : Option Failure) : AttemptRecord :=
  let entry : AttemptRecord :=
    { stage, outcome, time := ctx.now, message := error.map (·.message) }
  if outcome = .unreachable ∨ outcome = .pending then
    let consecutive := match previous with
      | some last => if last.outcome = outcome then last.consecutive.getD 1 + 1 else 1
      | none => 1
    let retryAfterMs := if outcome = .unreachable then error.bind (·.retryAfterMs) else none
    let delay := backoffDelayMs consecutive
      (if outcome = .unreachable then FAILURE_BACKOFF else PENDING_BACKOFF) ctx.random retryAfterMs
    { entry with
      consecutive := some consecutive
      retryAfterMs
      notBefore := some (ctx.now + delay) }
  else entry

def recordAttempt (stage : AttemptStage) (outcome : AttemptOutcome) (error : Option Failure) :
    EngineM Unit := do
  let record ← getWorkflow taskId
  saveAdapterAttempt ctx taskId (.attempt (attemptEntry ctx (record.bind lastAttempt) stage outcome
    error))

/-- Record a failed remote call by class. -/
def recordFailure (stage : AttemptStage) (error : Failure) (permanentCode : String) :
    EngineM Unit :=
  if isPermanentRemoteFailure error then do
    recordAttempt ctx taskId stage .rejected (some error)
    resolveUnresolvable ctx taskId permanentCode
      (error.messageOr "The request was permanently rejected.")
  else
    let interrupted := ctx.inFlightAborted && error.status.isNone
    recordAttempt ctx taskId stage (if interrupted then .interrupted else .unreachable) (some error)

end Store

/-! ## Programs of a lane -/

structure CoordinationReplacement where
  actionPackage : ActionPackage
  authorizationRequirements : AuthorizationRequirements
  deriving DecidableEq

inductive CoordinationState
  | awaitingApprovals
  | readyForSubmission
  | expired
  | rejected
  | executed
  | cancelled
  deriving DecidableEq, Repr

structure CoordinationActionUpdate where
  actionId : String
  state : CoordinationState
  actionPackage : Option Json := none
  deriving DecidableEq

/-- Where a program on a lane waits. -/
inductive Point
  | queued
  | submitted (phase : SubmissionPhase)
  | building (record : WorkflowRecord) (fromState : BridgeWorkflowState)
      (verifierRequirements : AuthorizationRequirements)
  | creating (record : WorkflowRecord)
  | cancelling
  deriving DecidableEq

inductive Progress
  | awaiting (point : Point)
  /-- `newlyReady` when an update moved the workflow to `readyForSubmission` -/
  | finished (newlyReady : Bool)
  deriving DecidableEq

def done : EngineM Progress := pure (.finished false)

section Lane

variable (ctx : Context)

/-- Build the request of a phase, which the first use of a key binds to it. -/
def submissionRequest (record : WorkflowRecord) (actionPackage : Json) (phase : SubmissionPhase) :
    EngineM (Option ActionRequest) :=
  let request := actionRequestFor ctx record.actionIdempotencyKey actionPackage
  match request.fingerprint ctx.platform with
  | .error error => throw { errorClass := .routingValidationError, message := error.message }
  | .ok requestFingerprint =>
    match (bindingsOf record.adapterAttempts phase record.actionIdempotencyKey).head? with
    | some binding =>
      if binding.requestFingerprint ≠ requestFingerprint then do
        resolveUnresolvable ctx record.taskId "IDEMPOTENCY_REQUEST_CONFLICT"
          ("The " ++ phaseText phase ++
            " submission idempotency key is already bound to different request bytes.")
        return none
      else return some request
    | none => do
      saveAdapterAttempt ctx record.taskId (.idempotencyBound
        { stage := phase, idempotencyKey := record.actionIdempotencyKey, requestFingerprint,
          time := ctx.now })
      return some request

/-- The `try` block that ends in a submission: bind the request and send it. -/
def submitRequest (record : WorkflowRecord) (actionPackage : Json) (phase : SubmissionPhase) :
    EngineM Progress := do
  match ← submissionRequest ctx record actionPackage phase with
  | none => done
  | some request =>
    send ctx (.submitActionRequest record.taskId phase request record.actionEnvelopeHash)
    return .awaiting (.submitted phase)

def submitInitial (taskId : String) : EngineM Progress := do
  match ← getWorkflow taskId with
  | none => done
  | some current =>
    if proposerDidOf current ≠ some ctx.options.proposerDid ∨ current.state.isTerminal = true ∨
        current.state ≠ .created then done
    else if ctx.stopped then done
    else do
      if !(← holdClaim ctx taskId) then done
      else
        tryCatch (submitRequest ctx current current.actionPackage .initial) fun error => do
          recordFailure ctx taskId .initial error "ACTION_SUBMISSION_REJECTED"
          done

def submitToCoordination (record : WorkflowRecord) : EngineM Progress :=
  if ctx.stopped then done
  else do
    if !(← holdClaim ctx record.taskId) then done
    else do
      send ctx (.createApprovalWorkflow record.taskId record.actionId record.actionPackage
        record.authorizationRequirements)
      return .awaiting (.creating record)

/-- The check of the Verifier's answer, up to the call of `buildCoordinationReplacement`. -/
def replaceAndSubmitToCoordination (record : WorkflowRecord) (fromState : BridgeWorkflowState)
    (response : ActionResponse) : EngineM Progress :=
  match response.authorizationRequirements with
  | none => do
    resolveUnresolvable ctx record.taskId "INVALID_VERIFIER_RESPONSE"
      "The Verifier requested additional Approvals without usable Authorization Requirements."
    done
  | some verifierRequirements => pure (.awaiting (.building record fromState verifierRequirements))

/-- What the `try` block checks of a replacement, and then stores. -/
def replaceWith (record : WorkflowRecord) (fromState : BridgeWorkflowState)
    (verifierRequirements : AuthorizationRequirements) (replacement : CoordinationReplacement)
    (randomUUID : String) : EngineM Unit :=
  let envelope := replacement.actionPackage.actionEnvelope
  let actionEnvelopeHash := ctx.platform.computeJsonHash envelope.toJson
  if envelope.actionId.value = record.actionId then
    throw (plainError "A replacement Action must use a new Action ID.")
  else if envelope.actionId.value = record.taskId then
    throw (plainError "Task ID and Action ID must be distinct.")
  else if replacement.actionPackage.approvalBundle.actionEnvelopeHash ≠ actionEnvelopeHash then
    throw (plainError "The replacement Approval Bundle does not bind to its Action Envelope.")
  else if replacement.authorizationRequirements.actionEnvelopeHash ≠ actionEnvelopeHash then
    throw (plainError
      "The replacement Authorization Requirements do not bind to the replacement Action Envelope.")
  else if replacement.authorizationRequirements.verifier ≠ verifierRequirements.verifier then
    throw (plainError
      "The replacement Authorization Requirements changed the intended Verifier.")
  else do
    let replaced ← Program.write fun d =>
      match d.store.replaceAction ctx.now record.taskId {
          fromState
          actionId := envelope.actionId.value
          actionIdempotencyKey := randomUUID
          actionEnvelopeHash := actionEnvelopeHash.value
          actionPackage := replacement.actionPackage.toJson
          authorizationRequirements := replacement.authorizationRequirements
          expiresAt := envelope.expiresAt } with
      | .ok store => (Except.ok (), { d with store })
      | .error message => (Except.error message, d)
    match replaced with
    | .ok () => pure ()
    | .error message => throw (plainError message)

/-- `replaceAndSubmitToCoordination` from the outcome of `buildCoordinationReplacement` on. -/
def afterReplacement (record : WorkflowRecord) (fromState : BridgeWorkflowState)
    (verifierRequirements : AuthorizationRequirements)
    (outcome : Except Failure CoordinationReplacement) (randomUUID : String) :
    EngineM Progress := do
  let replaced ← tryCatch (do
      match outcome with
      | .error error => throw error
      | .ok replacement =>
        replaceWith ctx record fromState verifierRequirements replacement randomUUID
        return true)
    fun error => do
      let current ← getWorkflow record.taskId
      if current.any fun r => r.state.isTerminal then return false
      else do
        resolveUnresolvable ctx record.taskId "ACTION_REPLACEMENT_FAILED"
          (error.messageOr "Could not construct the replacement Action.")
        return false
  if replaced then do
    submitToCoordination ctx (← mustGet record.taskId)
  else done

/-- `submitToCoordination` from the outcome of `createApprovalWorkflow` on. -/
def afterCreation (record : WorkflowRecord) (outcome : Except Failure Json) : EngineM Progress :=
  tryCatch (do
      match outcome with
      | .error error => throw error
      | .ok ref =>
        updateStore fun store => store.saveCoordinationReference ctx.now record.taskId ref
        if (← mustGet record.taskId).state = .cancelled then do
          send ctx (.cancelAction record.actionId false)
          return .awaiting .cancelling
        else do
          recordAttempt ctx record.taskId .coordination .responded none
          let _ ← compareAndSetState ctx record.taskId .submittingToCoordination .awaitingApprovals
          done)
    fun error => do
      if permanentCoordinationFailure error then do
        recordAttempt ctx record.taskId .coordination .rejected (some error)
        let resolution := coordinationFailureResolution error
        resolveUnresolvable ctx record.taskId resolution.1 resolution.2
        done
      else do
        recordFailure ctx record.taskId .coordination error "COORDINATION_REQUEST_REJECTED"
        done

/-- `submitInitial` from the outcome of the submission on. -/
def afterInitial (taskId : String) (outcome : Except Failure ActionResponse) : EngineM Progress :=
  match outcome with
  | .error error => do
    recordFailure ctx taskId .initial error "ACTION_SUBMISSION_REJECTED"
    done
  | .ok response => do
    if (← mustGet taskId).state.isTerminal then done
    else match response.result with
      | .additionalApprovalsRequired => do
        recordAttempt ctx taskId .initial .responded none
        saveLastActionResponse ctx taskId response
        replaceAndSubmitToCoordination ctx (← mustGet taskId) .created response
      | .pending => do
        recordAttempt ctx taskId .initial .pending none
        saveLastActionResponse ctx taskId response
        let _ ← compareAndSetState ctx taskId .created .awaitingVerifierResult
        done
      | _ => do
        recordAttempt ctx taskId .initial .responded none
        settle ctx taskId response
        done

/-- Submit (or identically retry) the completed Action Package. -/
def submitCompleted (taskId : String) : EngineM Progress := do
  match ← getWorkflow taskId with
  | none => done
  | some current =>
    if proposerDidOf current ≠ some ctx.options.proposerDid ∨ current.state.isTerminal = true then
      done
    else if ctx.stopped then done
    else do
      if !(← holdClaim ctx taskId) then done
      else
        let pkg := Json.nullish current.completedPackage current.actionPackage
        if proposerDidOfPackage pkg ≠ some ctx.options.proposerDid then do
          resolveUnresolvable ctx taskId "PROPOSER_IDENTITY_MISMATCH"
            "The completed Action Package is owned by another proposer."
          done
        else do
          let submitting ← if current.state = .readyForSubmission then
              compareAndSetState ctx taskId .readyForSubmission .submittingToVerifier
            else pure true
          if !submitting then done
          else
            tryCatch (do submitRequest ctx (← mustGet taskId) pkg .completed) fun error => do
              recordFailure ctx taskId .completed error "ACTION_SUBMISSION_REJECTED"
              let _ ← compareAndSetState ctx taskId .submittingToVerifier .readyForSubmission
              done

/-- `submitCompleted` from the outcome of the submission on. -/
def afterCompleted (taskId : String) (outcome : Except Failure ActionResponse) : EngineM Progress :=
  match outcome with
  | .error error => do
    recordFailure ctx taskId .completed error "ACTION_SUBMISSION_REJECTED"
    let _ ← compareAndSetState ctx taskId .submittingToVerifier .readyForSubmission
    done
  | .ok response => do
    if (← mustGet taskId).state.isTerminal then done
    else do
      recordAttempt ctx taskId .completed
        (if response.result = .pending then .pending else .responded) none
      if response.result = .pending then do
        saveLastActionResponse ctx taskId response
        let _ ← compareAndSetState ctx taskId .submittingToVerifier .awaitingVerifierResult
        done
      else if isReplayRejection response then do
        resolveUnresolvable ctx taskId "RESULT_UNAVAILABLE"
          "The Action was already dispatched and its result is not retrievable from the Verifier."
        done
      else if response.result = .additionalApprovalsRequired then do
        saveLastActionResponse ctx taskId response
        replaceAndSubmitToCoordination ctx (← mustGet taskId) .submittingToVerifier response
      else do
        settle ctx taskId response
        done

def expiredMessage : String :=
  "The Action Envelope expired without a terminal Verifier response."

/-- Resolve a workflow as expired, if this worker can claim it. -/
def expire (taskId : String) : EngineM Unit := do
  if ← holdClaim ctx taskId then
    resolveUnresolvable ctx taskId "ACTION_EXPIRED_BEFORE_RESOLUTION" expiredMessage

def dispatchClaimable (taskId : String) (respectSchedule : Bool) : EngineM Progress := do
  match ← getWorkflow taskId with
  | none => done
  | some current =>
    if current.state.isTerminal = true ∨
        proposerDidOf current ≠ some ctx.options.proposerDid then done
    else if ctx.isPast current.expiresAt then do
      expire ctx taskId
      done
    else if ctx.stopped then done
    else if respectSchedule && decide (ctx.now < (retryNotBefore current).getD 0) then done
    else match current.state with
      | .created | .submittingToCoordination | .readyForSubmission | .submittingToVerifier
      | .awaitingVerifierResult => do
        if !(← holdClaim ctx taskId) then done
        else do
          let claimed ← mustGet taskId
          match claimed.state with
          | .created => submitInitial ctx taskId
          | .submittingToCoordination => submitToCoordination ctx claimed
          | .readyForSubmission | .submittingToVerifier | .awaitingVerifierResult =>
            submitCompleted ctx taskId
          | _ => done
      | _ => done

/-- The part of `propose` that runs on the lane. -/
def proposed (taskId : String) : EngineM Progress := do
  let current ← mustGet taskId
  if current.state ≠ .created then done
  else if ctx.stopped then done
  else do
    if !(← holdClaim ctx taskId) then done
    else submitInitial ctx taskId

/-- The part of `sweepExpired` that runs on the lane. -/
def sweptExpired (taskId : String) : EngineM Progress := do
  match ← getWorkflow taskId with
  | none => done
  | some current =>
    if current.state.isTerminal then done
    else if ctx.isAhead current.expiresAt then done
    else do
      expire ctx taskId
      done

/-- The part of `applyUpdate` that runs on the lane. -/
def appliedUpdate (taskId : String) (update : CoordinationActionUpdate) : EngineM Progress := do
  match ← getWorkflow taskId with
  | none => done
  | some current =>
    if current.state.isTerminal then done
    else match update.state with
      | .readyForSubmission =>
        match update.actionPackage with
        | none => done
        | some actionPackage =>
          if proposerDidOfPackage actionPackage ≠ some ctx.options.proposerDid then do
            resolveUnresolvable ctx taskId "PROPOSER_IDENTITY_MISMATCH"
              "Coordination returned an Action Package owned by another proposer."
            done
          else if current.state ≠ .awaitingApprovals then done
          else do
            updateStore fun store => store.saveCompletedPackage ctx.now taskId actionPackage
            let newlyReady ←
              compareAndSetState ctx taskId .awaitingApprovals .readyForSubmission
            return .finished newlyReady
      | .expired => do
        resolveUnresolvable ctx taskId "ACTION_EXPIRED_BEFORE_RESOLUTION"
          "The Action expired before Approvals completed."
        done
      | .rejected => do
        resolveUnresolvable ctx taskId "COORDINATION_REJECTED"
          "The coordination workflow was rejected before completion."
        done
      | .executed => do
        resolveUnresolvable ctx taskId "RESULT_UNAVAILABLE"
          "Coordination reports execution, but the authoritative Verifier result is unavailable."
        done
      | .cancelled => do
        let _ ← tryStore fun store => store.cancelWorkflow ctx.now taskId
        done
      | .awaitingApprovals => done

inductive Operation
  | propose
  | claimable (respectSchedule : Bool)
  /-- an update that the poll of a thread returned -/
  | applyUpdate (update : CoordinationActionUpdate) (thread : Nat)
  | sweepExpired
  deriving DecidableEq

def Operation.run (taskId : String) : Operation → EngineM Progress
  | .propose => proposed ctx taskId
  | .claimable respectSchedule => dispatchClaimable ctx taskId respectSchedule
  | .applyUpdate update _ => appliedUpdate ctx taskId update
  | .sweepExpired => sweptExpired ctx taskId

/-- What a waiting program is answered. -/
inductive LaneReply
  | actionResponse (outcome : Except Failure ActionResponse)
  | replacement (outcome : Except Failure CoordinationReplacement) (randomUUID : String)
  | coordination (outcome : Except Failure Json)
  | cancelled

/-- The program that runs on after an answer. -/
def Point.continue (taskId : String) : Point → LaneReply → Option (EngineM Progress)
  | .submitted .initial, .actionResponse outcome => some (afterInitial ctx taskId outcome)
  | .submitted .completed, .actionResponse outcome => some (afterCompleted ctx taskId outcome)
  | .building record fromState verifierRequirements, .replacement outcome randomUUID =>
    some (afterReplacement ctx record fromState verifierRequirements outcome randomUUID)
  | .creating record, .coordination outcome => some (afterCreation ctx record outcome)
  | .cancelling, .cancelled => some done
  | _, _ => none

end Lane

/-! ## The engine -/

/-- One operation on the lane of a Task; only the first of a lane has started. -/
structure Job where
  id : Nat
  operation : Operation
  point : Point := .queued
  deriving DecidableEq

inductive AfterPoll
  | nothing
  | advanceReady
  | advanceClaimable
  deriving DecidableEq, Repr

inductive Thread
  | polling (afterPoll : AfterPoll)
  /-- updates still to apply, the job that applies one, and the Tasks newly ready -/
  | applying (afterPoll : AfterPoll) (rest : List CoordinationActionUpdate) (awaited : Option Nat)
      (ready : List String)
  /-- `reconcile`, until the expiry jobs are done -/
  | sweeping (awaited : List Nat)
  deriving DecidableEq

/-- One process. `advancing` holds a Task while its lane has a job that respects the schedule. -/
structure Engine where
  options : BridgeWorkflowEngineOptions
  stopped : Bool := false
  inFlightAborted : Bool := false
  /-- `outboundTails` -/
  lanes : OrderedMap String (List Job) := ∅
  threads : OrderedMap Nat Thread := ∅
  nextId : Nat := 0
  deriving DecidableEq

namespace Engine

variable (engine : Engine)

def lane (taskId : String) : List Job := (engine.lanes.get? taskId).getD []

/-- `dispatchOutbound`. -/
def dispatchOutbound (taskId : String) (operation : Operation) : Engine :=
  { engine with
    lanes := engine.lanes.set taskId (engine.lane taskId ++ [{ id := engine.nextId, operation }])
    nextId := engine.nextId + 1 }

def dispatchAll (operation : Operation) (taskIds : List String) : Engine :=
  taskIds.foldl (fun engine taskId => engine.dispatchOutbound taskId operation) engine

def advanceTask (taskId : String) : Engine :=
  if (engine.lane taskId).any fun job => job.operation = .claimable true then engine
  else engine.dispatchOutbound taskId (.claimable true)

def setThread (thread : Nat) (value : Thread) : Engine :=
  { engine with threads := engine.threads.set thread value }

def startThread (value : Thread) : Engine :=
  { engine.setThread engine.nextId value with nextId := engine.nextId + 1 }

def isPending (job : Nat) : Bool :=
  engine.lanes.values.any fun jobs => jobs.any fun j => j.id = job

/-- The first job of a lane has ended. -/
def leave (taskId : String) (rest : List Job) : Engine :=
  { engine with
    lanes := if rest.isEmpty then engine.lanes.delete taskId else engine.lanes.set taskId rest }

/-- A thread hears how the update it waits for was applied; an exception ends its loop. -/
def applied (taskId : String) (operation : Operation) (newlyReady : Option Bool) : Engine :=
  match operation with
  | .applyUpdate _ thread =>
    match engine.threads.get? thread with
    | some (.applying afterPoll rest awaited ready) =>
      engine.setThread thread <| match newlyReady with
        | some true => .applying afterPoll rest awaited (ready ++ [taskId])
        | some false => .applying afterPoll rest awaited ready
        | none => .applying afterPoll [] none []
    | _ => engine
  | _ => engine

/-- The first job of a lane has run until it waits, ends or throws. -/
def progress (taskId : String) (job : Job) (rest : List Job) : Except Failure Progress → Engine
  | .ok (.awaiting point) =>
    { engine with lanes := engine.lanes.set taskId ({ job with point } :: rest) }
  | .ok (.finished newlyReady) =>
    (engine.leave taskId rest).applied taskId job.operation (some newlyReady)
  | .error _ => (engine.leave taskId rest).applied taskId job.operation none

/-- Run a program on the lane of a Task; a rejection does not poison the lane. -/
def onLane (taskId : String) (job : Job) (rest : List Job) (program : EngineM Progress) :
    EngineM Engine :=
  tryCatch (do return engine.progress taskId job rest (.ok (← program)))
    fun error => return engine.progress taskId job rest (.error error)

end Engine

/-! ## Engine operations -/

section Operations

variable (ctx : Context) (engine : Engine)

def isOwn (record : WorkflowRecord) : Bool :=
  decide (proposerDidOf record = some ctx.options.proposerDid)

def propose (input : CreateWorkflowInput) : EngineM Engine :=
  if proposerDidOfPackage input.actionPackage ≠ some ctx.options.proposerDid then
    throw (plainError "Action Package proposer DID does not match this bridge identity.")
  else if input.taskId = input.actionId then
    throw (plainError "Task ID and Action ID must be distinct.")
  else do
    let created ← Program.write fun d => match d.store.createWorkflow ctx.now input with
      | .ok store => (Except.ok (), { d with store })
      | .error message => (Except.error message, d)
    match created with
    | .error message => throw (plainError message)
    | .ok () => return engine.dispatchOutbound input.taskId .propose

def hasAwaitingApprovals (store : MemoryWorkflowStore) : Bool :=
  store.listRecoverableWorkflows.any fun record =>
    decide (record.state = .awaitingApprovals) && isOwn ctx record

/-- Enqueue the expiry of every overdue workflow. -/
def sweepExpired : EngineM Engine := do
  let overdue := (← Program.read).store.listRecoverableWorkflows.filter fun record =>
    isOwn ctx record && !ctx.isAhead record.expiresAt
  return engine.dispatchAll .sweepExpired (overdue.map (·.taskId))

def advanceClaimable : EngineM Engine := do
  let claimable := (← Program.read).store.listRecoverableWorkflows.filter fun record =>
    isOwn ctx record && decide (record.state ≠ .awaitingApprovals)
  return engine.dispatchAll (.claimable false) (claimable.map (·.taskId))

/-- `refreshCoordination`, up to the poll; `none` when it does not poll. -/
def pollCoordination (afterPoll : AfterPoll) : EngineM (Option Engine) := do
  if ctx.stopped then return none
  else
    let store := (← Program.read).store
    if !hasAwaitingApprovals ctx store then return none
    else do
      send ctx .pollWork
      return some (engine.startThread (.polling afterPoll))

def refreshCoordination (advanceReady : Bool) : EngineM Engine := do
  let polling ← pollCoordination ctx engine (if advanceReady then .advanceReady else .nothing)
  return polling.getD engine

def pollOnce : EngineM Engine := do
  let engine ← sweepExpired ctx engine
  let polling ← pollCoordination ctx engine .advanceClaimable
  return polling.getD (engine.startThread (.applying .advanceClaimable [] none []))

def reconcile : EngineM Engine := do
  let swept ← sweepExpired ctx engine
  let awaited := (List.range swept.nextId).filter fun job => engine.nextId ≤ job
  return swept.startThread (.sweeping awaited)

def expireIfOverdue (taskId : String) : EngineM Engine := do
  if engine.lanes.has taskId then return engine
  else match ← getWorkflow taskId with
    | none => return engine
    | some current =>
      if current.state.isTerminal = true ∨ isOwn ctx current = false then return engine
      else if ctx.isAhead current.expiresAt then return engine
      else do
        expire ctx taskId
        return engine

def cancel (taskId : String) : EngineM Engine := do
  match ← getWorkflow taskId with
  | none => return engine
  | some record =>
    if isOwn ctx record = false ∨ record.state.isTerminal = true then return engine
    else do
      if !(← tryStore fun store => store.cancelWorkflow ctx.now taskId) then return engine
      else if record.coordinationRef.isSome then do
        send ctx (.cancelAction record.actionId true)
        return engine
      else return engine

/-- A permanent failure of the poll resolves every workflow that awaits approvals. -/
def resolveAwaiting (resolution : String × String) : List WorkflowRecord → EngineM Unit
  | [] => pure ()
  | record :: records => do
    if record.state = .awaitingApprovals ∧ isOwn ctx record = true then
      resolveUnresolvable ctx record.taskId resolution.1 resolution.2
    resolveAwaiting resolution records

/-- `refreshCoordination` from the outcome of the poll on. -/
def polled (thread : Nat) (afterPoll : AfterPoll)
    (outcome : Except Failure (List CoordinationActionUpdate)) : EngineM Engine :=
  match outcome with
  | .ok updates => return engine.setThread thread (.applying afterPoll updates none [])
  | .error error =>
    if permanentCoordinationFailure error then do
      let records := (← Program.read).store.listRecoverableWorkflows
      resolveAwaiting ctx (coordinationFailureResolution error) records
      return engine.setThread thread (.applying afterPoll [] none [])
    else if afterPoll = .advanceClaimable then
      return engine.setThread thread (.applying afterPoll [] none [])
    else return { engine with threads := engine.threads.delete thread }

/-- The loop over the updates, one iteration at a time, and what follows it. -/
def applyNext (thread : Nat) (afterPoll : AfterPoll) (ready : List String) :
    List CoordinationActionUpdate → EngineM Engine
  | update :: rest => do
    match (← Program.read).store.getWorkflowByActionId update.actionId with
    | none => return engine.setThread thread (.applying afterPoll rest none ready)
    | some record =>
      if isOwn ctx record = false ∨ record.state.isTerminal = true then
        return engine.setThread thread (.applying afterPoll rest none ready)
      else
        return (engine.dispatchOutbound record.taskId (.applyUpdate update thread)).setThread thread
          (.applying afterPoll rest (some engine.nextId) ready)
  | [] =>
    let engine := { engine with threads := engine.threads.delete thread }
    match afterPoll with
    | .nothing => return engine
    | .advanceReady =>
      return ready.foldl (fun engine taskId => engine.advanceTask taskId) engine
    | .advanceClaimable => advanceClaimable ctx engine

inductive Action
  | propose (input : CreateWorkflowInput)
  | advanceTask (taskId : String)
  | refreshCoordination (advanceReady : Bool)
  | pollOnce
  | reconcile
  | expireIfOverdue (taskId : String)
  | expireOverdue
  | cancel (taskId : String)
  | stop
  | markInFlightAborted
  /-- the first operation of a lane starts -/
  | startJob (taskId : String)
  | reply (taskId : String) (reply : LaneReply)
  | polled (thread : Nat) (outcome : Except Failure (List CoordinationActionUpdate))
  /-- a thread goes on when what it waits for is done -/
  | resume (thread : Nat)

/-- `none` when the action is not enabled. -/
def Engine.act : Action → Option (EngineM Engine)
  | .propose input => some (WorkflowEngine.propose ctx engine input)
  | .advanceTask taskId => some (pure (engine.advanceTask taskId))
  | .refreshCoordination advanceReady =>
    some (WorkflowEngine.refreshCoordination ctx engine advanceReady)
  | .pollOnce => some (WorkflowEngine.pollOnce ctx engine)
  | .reconcile => some (WorkflowEngine.reconcile ctx engine)
  | .expireIfOverdue taskId => some (WorkflowEngine.expireIfOverdue ctx engine taskId)
  | .expireOverdue => some (sweepExpired ctx engine)
  | .cancel taskId => some (WorkflowEngine.cancel ctx engine taskId)
  | .stop => some (pure { engine with stopped := true })
  | .markInFlightAborted => some (pure { engine with inFlightAborted := true })
  | .startJob taskId =>
    match engine.lane taskId with
    | job :: rest =>
      if job.point = .queued then
        some (engine.onLane taskId job rest (job.operation.run ctx taskId))
      else none
    | [] => none
  | .reply taskId reply =>
    match engine.lane taskId with
    | job :: rest =>
      (job.point.continue ctx taskId reply).map (engine.onLane taskId job rest)
    | [] => none
  | .polled thread outcome =>
    match engine.threads.get? thread with
    | some (.polling afterPoll) => some (WorkflowEngine.polled ctx engine thread afterPoll outcome)
    | _ => none
  | .resume thread =>
    match engine.threads.get? thread with
    | some (.applying afterPoll rest awaited ready) =>
      if awaited.any engine.isPending then none
      else some (applyNext ctx engine thread afterPoll ready rest)
    | some (.sweeping awaited) =>
      if awaited.any engine.isPending then none
      else some (advanceClaimable ctx { engine with threads := engine.threads.delete thread })
    | _ => none

end Operations

/-! ## Runs -/

/-- One action with its clock reading, its jitter, and perhaps the number of
writes after which the process ends. -/
structure Moment where
  now : Int
  random : ℚ := 0
  crashAfter : Option Nat := none
  deriving DecidableEq

inductive Event
  | start (options : BridgeWorkflowEngineOptions)
  | crash
  | act (moment : Moment) (action : Action)

/-- `engine` is `none` while no process runs. -/
structure World where
  durable : Durable := {}
  engine : Option Engine := none
  deriving DecidableEq

def contextAt (platform : Platform) (engine : Engine) (moment : Moment) : Context where
  platform
  options := engine.options
  stopped := engine.stopped
  inFlightAborted := engine.inFlightAborted
  now := moment.now
  random := moment.random

/-- What is left of an execution: of a process that ends in it, the contents;
otherwise the engine it returns, or the old one when the caller gets an exception. -/
def finish (engine : Engine) (execution : Execution Durable Failure Engine) :
    Option Nat → Option World
  | some n => execution.passed[n]?.map fun durable => { durable }
  | none => match execution.result with
    | .ok engine' => some { durable := execution.contents, engine := some engine' }
    | .error _ => some { durable := execution.contents, engine := some engine }

def step (platform : Platform) (w : World) : Event → Option World
  | .start options =>
    match w.engine with
    | some _ => none
    | none => some { w with engine := some { options } }
  | .crash => w.engine.map fun _ => { w with engine := none }
  | .act moment action => w.engine.bind fun engine =>
    (engine.act (contextAt platform engine moment) action).bind fun program =>
      finish engine (program w.durable) moment.crashAfter

end Mpas.WorkflowEngine
