import Mpas.CoordinationIdempotency
import Mpas.CoordinationRuns
import Mpas.NonceStore
import Mpas.NotificationHub
import Mpas.RelayDelivery

/-!
# The Coordination server

The handlers of the five Coordination endpoints. A handler waits three times, for the
verification of the request's signature, for the claim of its nonce and for the operation
that `runIdempotent` gives it, and between any two of these waits other handlers run.

* `admitRequest`: what a handler checks before it claims the nonce;
* `World`, `step`: the server under any requests, sockets and interleaving.
-/

namespace Mpas.CoordinationServer

open Checks (throwIf)
open Coordination (CoordinationStore CoordinationError CoordinationActionRequest
  CoordinationApprovalSubmission CoordinationActionCancelRequest Response Runtime Readings)
open NonceStore (InMemoryNonceStore claimNonce)
open NotificationHub (Hub)

/-! ## Requests and replies -/

/-- The endpoints; `workflow` and `cancel` have two paths each. -/
inductive Route
  | session
  | workflow
  | poll
  | approval
  | cancel
  deriving DecidableEq, Repr

variable {μ : Type}

/-- `message` is the HTTP message that the signature covers, and `body` what the strict parser
makes of its text; a text that it refuses reaches no handler. -/
structure Request (μ : Type) where
  route : Route
  message : μ
  idempotencyKey : Option String
  body : Option Json

/-- `expires` is in seconds. -/
structure MpasAuthSuccess where
  did : Did
  nonce : String
  expires : Int
  deriving DecidableEq, Repr

inductive Reply
  | response (statusCode : Nat) (response : Response)
  | session (websocketUrl ticket : String) (expiresAt : Int)
  | error (statusCode : Nat) (code message : String)
  | exception
  deriving DecidableEq

/-- The verification of signatures, the hash of a ticket and the typed view of a body that
its handler has checked. `websocketUrl` is fixed by the options of the server. -/
structure Platform (μ : Type) where
  runtime : Runtime
  routing : Mpas.Platform
  enforcement : Bool
  verifyMpasRfc9421 : μ → Int → Except (Nat × String) MpasAuthSuccess
  websocketUrl : Except Reply String
  hashTicket : String → String
  toText : Json → String
  asActionRequest : Json → CoordinationActionRequest
  asApprovalSubmission : Json → CoordinationApprovalSubmission
  asCancelRequest : Json → CoordinationActionCancelRequest

def replySignatureInvalid : Reply :=
  .error 401 "signature_invalid" "Signature verification failed."

def replyPermissionDenied : Reply :=
  .error 403 "permission_denied"
    "The authenticated identity is not permitted for this request."

def replyStoreError : CoordinationError → Reply
  | .service statusCode code message => .error statusCode code message
  | .evaluation _ | .exception _ => .exception

def replyCallError : Idempotency.CallError → Reply
  | .service statusCode code message => .error statusCode code message
  | .routing _ => .exception

/-! ## Validation -/

def invalidRequest (message : String) : Reply := .error 400 "INVALID_REQUEST" message

def isRecord : Option Json → Bool
  | some (.obj _) => true
  | _ => false

def requireRecord (value : Option Json) : Except Reply Json :=
  match value with
  | some (.obj members) => .ok (.obj members)
  | _ => .error (invalidRequest "Request body must be a JSON object.")

def requireVersionType (body : Json) (type : String) : Except Reply Unit :=
  throwIf (body.member "version" ≠ some (.str "1") ∨ body.member "type" ≠ some (.str type))
    (invalidRequest ("Expected version 1 " ++ type ++ "."))

/-- A DID member of a body. -/
def requireDid (body : Json) (type : String) : Except Reply Did :=
  match (body.member "did").bind Json.asString with
  | some did =>
    if Coordination.isDid did then .ok did
    else .error (invalidRequest (type ++ ".did must be a DID."))
  | none => .error (invalidRequest (type ++ ".did must be a DID."))

def resolveIdempotencyKey (bodyValue : Option Json) (headerValue : Option String) :
    Except Routing.RoutingValidationError (Option String) := do
  let body ← RelayDelivery.validateOptionalIdempotencyKey bodyValue "$.idempotencyKey"
  let header ← RelayDelivery.validateOptionalIdempotencyKey (headerValue.map .str)
    "$.idempotencyKey"
  throwIf (body.isSome ∧ header.isSome ∧ body ≠ header)
    ⟨"Body and Idempotency-Key header values differ.", "$.idempotencyKey"⟩
  return body <|> header

def validateBodyIdempotency (body : Json) : Except Reply Unit :=
  match resolveIdempotencyKey (body.member "idempotencyKey") none with
  | .ok _ => .ok ()
  | .error error => .error (invalidRequest error.message)

def effectiveIdempotencyKey (body : Json) (request : Request μ) : Except Reply (Option String) :=
  (resolveIdempotencyKey (body.member "idempotencyKey") request.idempotencyKey).mapError
    fun error => .error 400 "idempotency_mismatch" error.message

def validateSessionRequest (value : Option Json) : Except Reply Did := do
  let body ← requireRecord value
  requireVersionType body "CoordinationSessionRequest"
  requireDid body "CoordinationSessionRequest"

def validatePollRequest (value : Option Json) : Except Reply Did := do
  let body ← requireRecord value
  requireVersionType body "CoordinationPollRequest"
  requireDid body "CoordinationPollRequest"

def hasType (value : Option Json) (type : String) : Bool :=
  isRecord value && decide ((value.bind (·.member "type")) = some (.str type))

def isText (value : Option Json) : Bool := (value.bind Json.asString).isSome

def validateCoordinationActionRequest (value : Option Json) : Except Reply Json := do
  let body ← requireRecord value
  requireVersionType body "CoordinationActionRequest"
  throwIf (!hasType (body.member "actionPackage") "ActionPackage")
    (invalidRequest "CoordinationActionRequest.actionPackage is required.")
  throwIf (!hasType (body.member "authorizationRequirements") "AuthorizationRequirements")
    (invalidRequest "CoordinationActionRequest.authorizationRequirements is required.")
  validateBodyIdempotency body
  return body

def validateApprovalSubmission (value : Option Json) : Except Reply Json := do
  let body ← requireRecord value
  requireVersionType body "CoordinationApprovalSubmission"
  throwIf (!isText ((body.member "actionEnvelopeHash").bind (·.member "value")))
    (invalidRequest "CoordinationApprovalSubmission.actionEnvelopeHash is required.")
  throwIf (!hasType (body.member "approval") "Approval")
    (invalidRequest "CoordinationApprovalSubmission.approval is required.")
  validateBodyIdempotency body
  return body

def validateCancelRequest (value : Option Json) : Except Reply Json := do
  let body ← requireRecord value
  requireVersionType body "CoordinationActionCancelRequest"
  throwIf (!isText ((body.member "actionId").bind (·.member "value")) ||
      !isText (body.member "proposerDid"))
    (invalidRequest "Cancellation actionId and proposerDid are required.")
  validateBodyIdempotency body
  return body

/-! ## Questions to the store -/

section

variable (store : CoordinationStore)

def proposerForAction (actionId : String) : Option Did :=
  (store.deref store.actionsById actionId).map (·.2.proposer)

/-- `thresholdsFor(…).some(…) || overrideSigners.some(…)` -/
def listsSigner (requirements : ApprovalRequirements) (did : Did) : Except JsError Bool := do
  let threshold ← Coordination.findThreshold
    (fun threshold => Coordination.includesDid threshold.eligibleSigners did)
    (Coordination.thresholdsFor requirements)
  return threshold.isSome ||
    (Coordination.overridesFor requirements).any fun entry => decide (entry.signer = did)

def isEligibleSigner (actionEnvelopeHash : String) (did : Did) : Except JsError Bool :=
  match store.deref store.actionsByEnvelopeHash actionEnvelopeHash with
  | some (_, stored) => listsSigner stored.authorizationRequirements.approvalRequirements did
  | none => .ok false

/-- The DIDs among the Signers that an expression names. -/
def namedSigners (requirements : ApprovalRequirements) : List Did :=
  (Coordination.thresholdsFor requirements).flatMap (fun threshold =>
      match threshold.eligibleSigners with
      | .arr items => Json.strings items
      | value => Json.strings [value]) ++
    (Coordination.overridesFor requirements).map (·.signer)

def coordinationRecipients (body : CoordinationActionRequest) : List Did :=
  body.actionPackage.actionEnvelope.proposer ::
    namedSigners body.authorizationRequirements.approvalRequirements

def participantsForActionHash (actionEnvelopeHash : String) : List Did :=
  match store.deref store.actionsByEnvelopeHash actionEnvelopeHash with
  | some (_, stored) =>
    stored.proposer :: stored.authorizationRequirements.verifier ::
      namedSigners stored.authorizationRequirements.approvalRequirements
  | none => []

end

/-! ## Admission -/

/-- What a handler asks `runIdempotent` for. -/
inductive Order
  | create (body : CoordinationActionRequest)
  | submit (body : CoordinationApprovalSubmission)
  | cancel (body : CoordinationActionCancelRequest)

def Order.operation : Order → Coordination.Operation
  | .create body => .createWorkflow body
  | .submit body => .submitApproval body
  | .cancel body => .cancelAction body

inductive Task
  | session (did : Did)
  | call (did : Did) (key : Option String) (body : Json) (order : Order)

inductive Admission
  | poll (did : Did)
  | task (task : Task)

section

variable (platform : Platform μ) (store : CoordinationStore) (readings : Readings)
  (authenticated : Option MpasAuthSuccess) (request : Request μ)

/-- `none` is a server that enforces no authentication. -/
def authenticateRequest (now : Int) : Except Reply (Option MpasAuthSuccess) :=
  if platform.enforcement then
    match platform.verifyMpasRfc9421 request.message now with
    | .ok success => .ok (some success)
    | .error (status, code) =>
      .error (.error status code (if code = "authentication_required" then
        "Authentication is required."
      else if code = "artifact_hash_mismatch" then "Request body digest does not match."
      else "Signature verification failed."))
  else .ok none

/-- `authenticated !== AUTH_DISABLED && authenticated.did !== did` -/
def isOther (did : Did) : Bool := authenticated.any fun success => decide (success.did ≠ did)

def admitSession : Except Reply Admission := do
  let did ← validateSessionRequest request.body
  throwIf (isOther authenticated did) replyPermissionDenied
  return .task (.session did)

def admitPoll : Except Reply Admission := do
  let did ← validatePollRequest request.body
  throwIf (isOther authenticated did) replyPermissionDenied
  return .poll did

def admitWorkflow : Except Reply Admission := do
  let json ← validateCoordinationActionRequest request.body
  let key ← effectiveIdempotencyKey json request
  let body := platform.asActionRequest json
  let proposerDid := body.actionPackage.actionEnvelope.proposer
  throwIf (isOther authenticated proposerDid) replyPermissionDenied
  (store.validateCreateWorkflow platform.runtime readings body).mapError replyStoreError
  return .task (.call proposerDid key json (.create body))

def decodeApprovalSignerDid (approval : Approval) : Option Json :=
  (CoordinationStore.decodeApprovalPayload platform.runtime approval).bind (·.member "signerDid")

/-- The permission of an authenticated Signer. -/
def permitSigner (actionEnvelopeHash : String) (signerDid : Option Json)
    (success : MpasAuthSuccess) : Except Reply Unit := do
  throwIf (!(signerDid.any Json.truthy) || decide (signerDid ≠ some (.str success.did)))
    replyPermissionDenied
  throwIf (store.deref store.actionsByEnvelopeHash actionEnvelopeHash).isNone
    replyPermissionDenied
  match isEligibleSigner store actionEnvelopeHash success.did with
  | .ok eligible => throwIf (!eligible) replyPermissionDenied
  | .error _ => .error .exception

def admitApproval : Except Reply Admission := do
  let json ← validateApprovalSubmission request.body
  let key ← effectiveIdempotencyKey json request
  let body := platform.asApprovalSubmission json
  let signerDid := decodeApprovalSignerDid platform body.approval
  match authenticated with
  | some success => permitSigner store body.actionEnvelopeHash.value signerDid success
  | none => pure ()
  let preflight ← (store.approvalPreflight platform.runtime readings body).mapError
    replyStoreError
  -- the preflight has found a Signer, so the payload has one
  let did := match preflight.signerDid with
    | .str did => did
    | value => platform.toText value
  return .task (.call did key json (.submit body))

/-- The permission of an authenticated Proposer. -/
def permitProposer (body : CoordinationActionCancelRequest) (success : MpasAuthSuccess) :
    Except Reply Unit :=
  throwIf (success.did ≠ body.proposerDid ∨
    some success.did ≠ proposerForAction store body.actionId.value) replyPermissionDenied

def admitCancel : Except Reply Admission := do
  let json ← validateCancelRequest request.body
  let key ← effectiveIdempotencyKey json request
  let body := platform.asCancelRequest json
  match authenticated with
  | some success => permitProposer store body success
  | none => pure ()
  (store.validateCancelAction platform.runtime readings body).mapError replyStoreError
  return .task (.call body.proposerDid key json (.cancel body))

/-- What a handler does after authentication and before the claim of the nonce. -/
def admitRequest : Except Reply Admission :=
  match request.route with
  | .session => admitSession authenticated request
  | .poll => admitPoll authenticated request
  | .workflow => admitWorkflow platform store readings authenticated request
  | .approval => admitApproval platform store readings authenticated request
  | .cancel => admitCancel platform store readings authenticated request

end

/-! ## The server -/

inductive Phase
  | authenticating
  | claiming (granted : Bool) (task : Task)
  | awaiting (operation : Nat) (order : Order)
  | replied (reply : Reply)

/-- A handler. `grant` is the claim of its nonce once it is granted. -/
structure Handler (μ : Type) where
  request : Request μ
  startedAt : Int
  grant : Option NonceStore.Claim := none
  phase : Phase := .authenticating

def Handler.reply (handler : Handler μ) (reply : Reply) : Handler μ :=
  { handler with phase := .replied reply }

/-- An operation that `runIdempotent` has started, at its place in `State.operations`, and the
handler that started it. -/
structure Job where
  operation : Coordination.Operation
  origin : Nat
  result : Option (Except CoordinationError Response) := none

structure World (μ : Type) where
  store : CoordinationStore := {}
  nonces : InMemoryNonceStore := .new
  calls : Idempotency.State := {}
  jobs : List Job := []
  hub : Hub := {}
  handlers : List (Handler μ) := []

namespace World

variable (w : World μ)

def clock : Int := w.calls.clock

def readings : Readings := ⟨w.clock, w.clock⟩

def setHandler (i : Nat) (handler : Handler μ) : World μ :=
  { w with handlers := w.handlers.set i handler }

end World

section

variable (platform : Platform μ) (w : World μ)

/-- `runIdempotent`, and the job that a new operation is. -/
def start (i : Nat) (handler : Handler μ) (did : Did) (key : Option String) (body : Json)
    (order : Order) : World μ :=
  let called := Idempotency.runIdempotent platform.routing w.calls .coordination did key body
  let started : World μ := { w with
    calls := called.2
    jobs := if w.calls.operations.length < called.2.operations.length then
        w.jobs ++ [⟨order.operation, i, none⟩]
      else w.jobs }
  match called.1 with
  | .error error => started.setHandler i (handler.reply (replyCallError error))
  | .ok p => started.setHandler i { handler with phase := .awaiting p order }

/-- What a handler does once the nonce is claimed, or needs no claim. -/
def begin (i : Nat) (handler : Handler μ) (ticket : String) : Task → World μ
  | .session did =>
    match platform.websocketUrl with
    | .error reply => w.setHandler i (handler.reply reply)
    | .ok url =>
      let issued := w.hub.issue platform.hashTicket w.clock i did ticket
      { w with hub := issued.1 }.setHandler i (handler.reply (.session url ticket issued.2))
  | .call did key body order => start platform w i handler did key body order

def poll (i : Nat) (handler : Handler μ) (did : Did) : World μ :=
  let polled := w.store.poll platform.runtime w.readings did
  let reply := match polled.1 with
    | .ok response => .response 200 response
    | .error error => replyStoreError error
  { w with store := polled.2 }.setHandler i (handler.reply reply)

/-- From the verification of the signature to the claim of the nonce. -/
def afterAuthentication (i : Nat) (handler : Handler μ) (ticket : String) : World μ :=
  match authenticateRequest platform handler.request handler.startedAt with
  | .error reply => w.setHandler i (handler.reply reply)
  | .ok authenticated =>
    match admitRequest platform w.store w.readings authenticated handler.request with
    | .error reply => w.setHandler i (handler.reply reply)
    | .ok (.poll did) => poll platform w i handler did
    | .ok (.task task) =>
      match authenticated with
      | none => begin platform w i handler ticket task
      | some success =>
        let claim : NonceStore.Claim :=
          ⟨success.did, success.nonce, success.expires, w.clock⟩
        let answer := claimNonce w.nonces claim
        { w with nonces := answer.2 }.setHandler i { handler with
          grant := if answer.1 then some claim else none
          phase := .claiming answer.1 task }

/-- The DIDs that hear of the result of an operation. -/
def recipients (response : Response) : Order → List Did
  | .create body =>
    match response with
    | .workflow true _ _ _ => coordinationRecipients body
    | _ => []
  | .submit body => participantsForActionHash w.store body.actionEnvelopeHash.value
  | .cancel body => [body.proposerDid]

def statusCode : Response → Nat
  | .workflow true _ _ _ => 201
  | _ => 200

/-- What a handler does with the result of its operation. -/
def finish (i : Nat) (handler : Handler μ) (order : Order) :
    Except CoordinationError Response → World μ
  | .error error => w.setHandler i (handler.reply (replyStoreError error))
  | .ok response =>
    { w with hub := w.hub.notify w.store.records.length (recipients w response order) }.setHandler i
      (handler.reply (.response (statusCode response) response))

/-- One handler, from one wait to the next. -/
def proceed (i : Nat) (handler : Handler μ) (ticket : String) : Option (World μ) :=
  match handler.phase with
  | .authenticating => some (afterAuthentication platform w i handler ticket)
  | .claiming true task => some (begin platform w i handler ticket task)
  | .claiming false _ => some (w.setHandler i (handler.reply replySignatureInvalid))
  | .awaiting p order =>
    ((w.jobs[p]?).bind (·.result)).map fun result => finish w i handler order result
  | .replied _ => none

/-- The operation of a job, which runs once, and the settlement of its promise. -/
def run (p : Nat) (job : Job) : Option (World μ) :=
  if job.result.isSome then none
  else
    let performed := w.store.perform platform.runtime ⟨w.readings, job.operation⟩
    (Idempotency.step platform.routing w.calls (.settle p performed.1.isOk)).map fun calls =>
      { w with
        calls
        store := performed.2
        jobs := w.jobs.set p { job with result := some performed.1 } }

/-- A new socket, and a frame if there is work for it. -/
def connect (did : Did) (origin : Nat) : World μ :=
  let hub := w.hub.bind did origin
  let asked := w.store.hasOutstandingCoordinationWork platform.runtime w.readings did
  let hub := match asked.1 with
    | .ok (.outstanding true) => hub.notify w.store.records.length [did]
    | _ => hub
  { w with store := asked.2, hub }

def upgrade (authorization : Option String) (handshake : Bool) : World μ :=
  match w.hub.accepted platform.hashTicket w.clock authorization with
  | none => w
  | some (key, record) =>
    let consumed := { w with hub := w.hub.consume key }
    if handshake then connect platform consumed record.did record.origin else consumed

end

/-- A ticket is what `randomBytes` gives should the handler issue one. A socket is no longer
open when its `close` or `error` event comes, and it can have both. -/
inductive Event (μ : Type)
  | tick (ms : Nat)
  | receive (request : Request μ)
  | proceed (handler : Nat) (ticket : String)
  | run (operation : Nat)
  | handle (operation : Nat)
  | upgrade (authorization : Option String) (handshake : Bool)
  | shut (socket : Nat)
  | remove (socket : Nat)

def step (platform : Platform μ) (w : World μ) : Event μ → Option (World μ)
  | .tick ms => some { w with calls := { w.calls with clock := w.calls.clock + ms } }
  | .receive request => some { w with handlers := w.handlers ++ [{ request, startedAt := w.clock }] }
  | .proceed i ticket =>
    (w.handlers[i]?).bind fun handler => proceed platform w i handler ticket
  | .run p => (w.jobs[p]?).bind fun job => run platform w p job
  | .handle p =>
    (Idempotency.step platform.routing w.calls (.handle p)).map fun calls => { w with calls }
  | .upgrade authorization handshake => some (upgrade platform w authorization handshake)
  | .shut i => some { w with hub := w.hub.shut i }
  | .remove i =>
    (w.hub.sockets[i]?).bind fun socket =>
      if socket.isOpen then none else some { w with hub := w.hub.remove i socket }

end Mpas.CoordinationServer
