import Mathlib.Data.List.Infix
import Mpas.Library.Checks
import Mpas.ApprovalRequirements

/-!
# The workflows of the Coordination Service

The store keeps one record for each Action whose Approvals it collects, under
the Action ID and under the hash of the Action Envelope. A record is an object
that both indexes refer to, so it lives in a heap here and the indexes hold its
address; an index that was written is never cleared.

* `CoordinationStore.perform`: the five operations on workflows;
* `World`, `step`: a store under any calls, its clock never going back.
-/

namespace Mpas.Coordination

open ApprovalRequirements (SignerDecision Status EvaluationError evaluateApprovalRequirements)
open Checks (throwIf)

/-! ## Records -/

inductive CoordinationState
  | awaitingApprovals
  | readyForSubmission
  | cancelled
  | rejected
  | expired
  deriving DecidableEq, Repr

structure ActionRef where
  actionId : ActionId
  actionEnvelopeHash : HashObject
  deriving DecidableEq, Repr

/-- An Action Package as it is submitted. Nothing looks at the list in its bundle:
`foreignApprovals` is what a package has there that is no list of Approvals, and `null`
where it has nothing. -/
structure SubmittedPackage extends ActionPackage where
  foreignApprovals : Option Json := none
  deriving DecidableEq

instance : Coe ActionPackage SubmittedPackage := ⟨fun package => { package with }⟩

/-- `signerDid` is whatever the signed payload has there. -/
structure StoredApproval where
  approval : Approval
  signerDid : Json
  decision : Decision
  deriving DecidableEq

structure StoredAction where
  actionPackage : SubmittedPackage
  authorizationRequirements : AuthorizationRequirements
  actionRef : ActionRef
  state : CoordinationState
  approvals : List StoredApproval
  createdAt : Timestamp
  updatedAt : Timestamp
  cancelledAt : Option Timestamp := none
  rejectedAt : Option Timestamp := none
  deriving DecidableEq

def StoredAction.proposer (stored : StoredAction) : Did := stored.actionPackage.actionEnvelope.proposer

/-! ## Requests and responses -/

structure CoordinationActionRequest where
  actionPackage : SubmittedPackage
  authorizationRequirements : AuthorizationRequirements

structure CoordinationApprovalSubmission where
  actionEnvelopeHash : HashObject
  approval : Approval

structure CoordinationActionCancelRequest where
  actionId : ActionId
  proposerDid : Did

structure SignerReviewSet where
  actionEnvelope : ActionEnvelope
  executionPayload : Json
  authorizationRequirements : AuthorizationRequirements
  deriving DecidableEq

structure ApprovalRequest where
  actionRef : ActionRef
  signerReviewSet : SignerReviewSet
  requestedDecision : Json
  deriving DecidableEq

structure CoordinationProgress where
  required : Json
  collected : JsNumber
  pending : List Json
  deriving DecidableEq

structure ActionUpdate where
  actionRef : ActionRef
  state : CoordinationState
  expiresAt : Timestamp
  progress : Option CoordinationProgress := none
  actionPackage : Option SubmittedPackage := none
  cancelledAt : Option Timestamp := none
  rejectedAt : Option Timestamp := none
  deriving DecidableEq

inductive Response
  | workflow (created : Bool) (actionRef : ActionRef) (state : CoordinationState)
      (createdAt : Timestamp)
  | accepted (actionRef : ActionRef) (state : CoordinationState) (createdAt : Timestamp)
  | cancelled (actionRef : ActionRef) (cancelledAt : Timestamp)
  | polled (approvalRequests : List ApprovalRequest) (actionUpdates : List ActionUpdate)
  | outstanding (work : Bool)
  deriving DecidableEq

inductive CoordinationError
  | service (statusCode : Nat) (code message : String)
  | evaluation (error : EvaluationError)
  | exception (error : JsError)
  deriving DecidableEq, Repr

/-- Hashing, dates, and `JSON.parse(Buffer.from(part, "base64url").toString("utf8"))`,
which is `none` where it throws. `Date.parse` is `none` where it is `NaN`. -/
structure Runtime where
  computeJsonHash : Json → HashObject
  dateParse : Timestamp → Option Int
  toISOString : Int → Timestamp
  parsePart : List Char → Option Json

/-- What a call reads from `this.now()` and from `new Date()`. The first is a
fixed instant in a store that was made with one. -/
structure Readings where
  now : Int
  date : Int

/-! ## Thresholds -/

def thresholdsFor (requirements : ApprovalRequirements) : List ThresholdRequirement :=
  requirements.anyOf.getD [] ++ requirements.allOf.getD []

def overridesFor (requirements : ApprovalRequirements) : List OverrideSigner :=
  requirements.overrideSigners.getD []

/-- `value.includes(did)`. -/
def includesDid (value : Json) (did : Did) : Except JsError Bool :=
  match value with
  | .arr items => .ok (Json.includes items (.str did))
  | .str s => .ok (decide (did.toList <:+: s.toList))
  | _ => .error .typeError

/-- The first threshold that `p` holds of. -/
def findThreshold (p : ThresholdRequirement → Except JsError Bool) :
    List ThresholdRequirement → Except JsError (Option ThresholdRequirement)
  | [] => .ok none
  | threshold :: rest => do
    if ← p threshold then return some threshold else findThreshold p rest

def approvedSignersFor (threshold : ThresholdRequirement) (decision : Json)
    (approvals : List StoredApproval) : Except JsError (List Json) := do
  let eligible ← Json.newSet threshold.eligibleSigners
  return Json.distinct ((approvals.filter fun entry => entry.signerDid.truthy &&
    Json.includes eligible entry.signerDid &&
    Json.strictEquals (some (.str entry.decision.text)) (some decision)).map (·.signerDid))

def isThresholdSatisfied (approvals : List StoredApproval) (threshold : ThresholdRequirement) :
    Except JsError Bool := do
  let approved ← approvedSignersFor threshold
    (Json.nullish threshold.decision (.str "approve")) approvals
  Json.countReaches approved.length (some threshold.threshold)

/-- `value.filter(p)`, which only an array has. -/
def filterItems (p : Json → Bool) : Json → Except JsError (List Json)
  | .arr items => .ok (items.filter p)
  | _ => .error .typeError

def hasResponded (approvals : List StoredApproval) (did : Json) : Bool :=
  approvals.any fun entry => Json.strictEquals (some entry.signerDid) (some did)

def progressFor (requirements : ApprovalRequirements) (approvals : List StoredApproval) :
    Except JsError CoordinationProgress := do
  let thresholds := thresholdsFor requirements
  let unsatisfied ← findThreshold
    (fun candidate => (isThresholdSatisfied approvals candidate).map not) thresholds
  match unsatisfied <|> thresholds.head? with
  | none => return { required := .num (.finite 0), collected := .finite 0, pending := [] }
  | some threshold =>
    let decision := Json.nullish threshold.decision (.str "approve")
    let approved ← approvedSignersFor threshold decision approvals
    let required ← Json.coerceNumber threshold.threshold
    let pending ← filterItems (fun did => !hasResponded approvals did) threshold.eligibleSigners
    return {
      required := threshold.threshold
      collected := (JsNumber.ofNat approved.length).min required
      pending }

/-! ## Validation of a new workflow -/

def hashesEqual (left right : HashObject) : Bool := left.alg = right.alg ∧ left.value = right.value

section

variable (runtime : Runtime)

def validateActionPackageBindings (actionPackage : ActionPackage) : Except CoordinationError Unit := do
  let payloadHash := runtime.computeJsonHash actionPackage.executionPayload
  throwIf (!hashesEqual payloadHash actionPackage.actionEnvelope.executionPayloadHash)
    (.service 400 "artifact_hash_mismatch"
      "Execution Payload hash does not match ActionEnvelope.executionPayloadHash.")
  let actionEnvelopeHash := runtime.computeJsonHash actionPackage.actionEnvelope.toJson
  throwIf (!hashesEqual actionEnvelopeHash actionPackage.approvalBundle.actionEnvelopeHash)
    (.service 400 "artifact_hash_mismatch"
      "ApprovalBundle.actionEnvelopeHash does not match the Action Envelope.")

def isDid (text : String) : Bool := "did:".toList.isPrefixOf text.toList

/-- An entry whose `eligibleSigners` is no array of DIDs. -/
def isMalformed (threshold : ThresholdRequirement) : Bool :=
  match threshold.eligibleSigners with
  | .arr items => items.any fun did => !(Json.asString did).any isDid
  | _ => true

/-- Whether a threshold is an integer from 1 to `size`. -/
def isAchievable (threshold : Json) (size : Nat) : Bool :=
  match threshold with
  | .num n => n.isInteger && !n.lt (.ofNat 1) && !(JsNumber.ofNat size).lt n
  | _ => false

def validateThreshold (threshold : ThresholdRequirement) : Except CoordinationError Unit :=
  match threshold.eligibleSigners with
  | .arr items => do
    let eligible := Json.distinct items
    throwIf (eligible.length ≠ items.length)
      (.service 400 "INVALID_REQUEST" "Threshold eligibleSigners must be unique.")
    throwIf (!isAchievable threshold.threshold eligible.length)
      (.service 400 "INVALID_REQUEST" "Threshold must be achievable by its eligibleSigners.")
  | _ => .error (.exception .typeError)

def validateExpiry (expiresAt : Option Timestamp) (now : Int) : Except CoordinationError Unit :=
  match expiresAt with
  | none => .ok ()
  | some text =>
    match runtime.dateParse text with
    | none => .error (.service 400 "INVALID_REQUEST"
        "Authorization Requirements expiry is invalid.")
    | some instant =>
      throwIf (instant ≤ now)
        (.service 409 "expired" "Authorization Requirements are expired.")

def validateAuthorizationRequirements (requirements : AuthorizationRequirements)
    (actionEnvelopeHash : HashObject) (verifierDid : Option Did) (now : Int) :
    Except CoordinationError Unit := do
  let thresholds := thresholdsFor requirements.approvalRequirements
  let overrides := overridesFor requirements.approvalRequirements
  throwIf (!isDid requirements.verifier)
    (.service 400 "INVALID_REQUEST" "Authorization Requirements are malformed.")
  throwIf (thresholds.any isMalformed)
    (.service 400 "INVALID_REQUEST" "Authorization threshold is malformed.")
  throwIf (overrides.any fun entry => !isDid entry.signer || entry.permissions.isEmpty)
    (.service 400 "INVALID_REQUEST" "Authorization override Signers are malformed.")
  throwIf (!hashesEqual requirements.actionEnvelopeHash actionEnvelopeHash)
    (.service 400 "artifact_hash_mismatch"
      "Authorization Requirements are bound to another Action.")
  throwIf (verifierDid.any fun did => decide (requirements.verifier ≠ did))
    (.service 403 "permission_denied" "Authorization Requirements came from another Verifier.")
  validateExpiry runtime requirements.expiresAt now
  throwIf (thresholds.isEmpty && overrides.isEmpty)
    (.service 400 "INVALID_REQUEST" "Authorization Requirements contain no approval path.")
  thresholds.forM validateThreshold
  throwIf (¬(overrides.map (·.signer)).Nodup)
    (.service 400 "INVALID_REQUEST" "Override Signer DIDs must be unique.")

/-! ## One record -/

variable (readings : Readings)

def isPastExpiry (stored : StoredAction) : Bool :=
  (runtime.dateParse stored.actionPackage.actionEnvelope.expiresAt).any (· ≤ readings.now)

/-- The states that `expireIfNeeded` leaves alone. -/
def CoordinationState.isFinal : CoordinationState → Bool
  | .cancelled | .expired | .rejected => true
  | .awaitingApprovals | .readyForSubmission => false

def expireIfNeeded (stored : StoredAction) : StoredAction :=
  if stored.state.isFinal then stored
  else if isPastExpiry runtime readings stored then
    { stored with state := .expired, updatedAt := runtime.toISOString readings.now }
  else stored

def effectiveState (stored : StoredAction) : CoordinationState :=
  if stored.state.isFinal then stored.state
  else if isPastExpiry runtime readings stored then .expired
  else stored.state

/-- The decisions of the Signers that are DIDs; no other Signer is eligible. -/
def signerDecisions (approvals : List StoredApproval) : List SignerDecision :=
  approvals.filterMap fun entry =>
    (Json.asString entry.signerDid).map fun did => ⟨did, entry.decision⟩

def StoredAction.evaluate (stored : StoredAction) : Except EvaluationError Status :=
  evaluateApprovalRequirements stored.authorizationRequirements.approvalRequirements
    (signerDecisions (stored.approvals.filter fun entry =>
      !Json.strictEquals (some entry.signerDid) (some (.str stored.proposer))))

/-- The state after an evaluation. -/
def StoredAction.conclude (stored : StoredAction) : Status → StoredAction
  | .satisfied => { stored with
      state := .readyForSubmission
      updatedAt := runtime.toISOString readings.date }
  | .unreachable => { stored with
      state := .rejected
      rejectedAt := some (runtime.toISOString readings.date)
      updatedAt := runtime.toISOString readings.date }
  | .pending => stored

def StoredAction.record (stored : StoredAction) (entry : StoredApproval) : StoredAction :=
  { stored with
    approvals := stored.approvals ++ [entry]
    updatedAt := runtime.toISOString readings.date }

def StoredAction.cancel (stored : StoredAction) : StoredAction :=
  { stored with
    state := .cancelled
    cancelledAt := some (runtime.toISOString readings.date)
    updatedAt := runtime.toISOString readings.date }

def approvalRequestFor (stored : StoredAction) (did : Did) :
    Except JsError (Option ApprovalRequest) := do
  let requirements := stored.authorizationRequirements.approvalRequirements
  let requirement ← findThreshold (fun threshold => includesDid threshold.eligibleSigners did)
    (thresholdsFor requirements)
  let override := (overridesFor requirements).find? fun entry => decide (entry.signer = did)
  if requirement.isNone && override.isNone then return none
  let decision := Json.nullish (requirement.bind (·.decision))
    (.str (if override.any (·.permissions.contains "approve") then "approve" else "reject"))
  if hasResponded stored.approvals (.str did) then return none
  return some {
    actionRef := stored.actionRef
    signerReviewSet := {
      actionEnvelope := stored.actionPackage.actionEnvelope
      executionPayload := stored.actionPackage.executionPayload
      authorizationRequirements := stored.authorizationRequirements }
    requestedDecision := decision }

/-- `approvals.map((approval) => approval.signature.value)` of any values. -/
def signatureValues : List Json → Except JsError (List (Option Json))
  | [] => .ok []
  | approval :: rest =>
    match approval.member "signature" with
    | none | some .null => .error .typeError
    | some signature => do return signature.member "value" :: (← signatureValues rest)

def SubmittedPackage.signatures (package : SubmittedPackage) :
    Except JsError (List (Option Json)) :=
  match package.foreignApprovals with
  | none => .ok (package.approvalBundle.approvals.map fun approval => some (.str approval.signature))
  | some (.arr approvals) => signatureValues approvals
  | some _ => .error .typeError

/-- `[...value, ...collected]`, where the one is a list. -/
def spliceApprovals (collected : List Approval) : Json → Json
  | .arr approvals => .arr (approvals ++ collected.map Approval.toJson)
  | value => value

def buildCompletedActionPackage (stored : StoredAction) : Except JsError SubmittedPackage := do
  let package := stored.actionPackage
  let existingSignatures ← package.signatures
  let collectedApprovals := (stored.approvals.map (·.approval)).filter fun approval =>
    !existingSignatures.any fun value => Json.strictEquals value (some (.str approval.signature))
  return { package with
    approvalBundle := { package.approvalBundle with
      actionEnvelopeHash := stored.actionRef.actionEnvelopeHash
      approvals := package.approvalBundle.approvals ++ collectedApprovals
      createdAt := some (runtime.toISOString readings.date) }
    foreignApprovals := package.foreignApprovals.map (spliceApprovals collectedApprovals) }

def buildActionUpdate (stored : StoredAction) : Except JsError ActionUpdate := do
  let update : ActionUpdate := {
    actionRef := stored.actionRef
    state := stored.state
    expiresAt := stored.actionPackage.actionEnvelope.expiresAt }
  match stored.state with
  | .cancelled => return { update with cancelledAt := stored.cancelledAt }
  | .rejected => return { update with rejectedAt := stored.rejectedAt }
  | .expired => return update
  | .awaitingApprovals | .readyForSubmission =>
    let progress ← progressFor stored.authorizationRequirements.approvalRequirements
      stored.approvals
    let actionPackage ← if stored.state = .readyForSubmission then
        (buildCompletedActionPackage runtime readings stored).map some
      else pure none
    return { update with progress := some progress, actionPackage }

/-- What one record adds to the answer of `poll`. -/
def pollEntry (did : Did) (stored : StoredAction) :
    Except JsError (Option ApprovalRequest × Option ActionUpdate) := do
  let request ← if stored.state = .awaitingApprovals then approvalRequestFor stored did
    else pure none
  let update ← if stored.proposer = did then
      (buildActionUpdate runtime readings stored).map some
    else pure none
  return (request, update)

/-- Whether one record is outstanding work of `did`. -/
def isOutstanding (did : Did) (stored : StoredAction) : Except JsError Bool := do
  let request ← if stored.state = .awaitingApprovals then approvalRequestFor stored did
    else pure none
  return request.isSome || decide (stored.proposer = did)

end

/-! ## The store -/

structure CoordinationStore where
  records : List StoredAction := []
  actionsById : OrderedMap String Nat := ∅
  actionsByEnvelopeHash : OrderedMap String Nat := ∅
  deriving DecidableEq

abbrev Outcome := Except CoordinationError Response × CoordinationStore

namespace CoordinationStore

section

variable (runtime : Runtime) (readings : Readings) (store : CoordinationStore)

/-- Write the object at `address`. -/
def put (address : Nat) (stored : StoredAction) : CoordinationStore :=
  { store with records := store.records.set address stored }

/-- The object that an index refers to. -/
def deref (index : OrderedMap String Nat) (key : String) : Option (Nat × StoredAction) := do
  let address ← index.get? key
  let stored ← store.records[address]?
  return (address, stored)

def validateCreateWorkflow (request : CoordinationActionRequest) : Except CoordinationError Unit := do
  validateActionPackageBindings runtime request.actionPackage.toActionPackage
  let actionEnvelopeHash := runtime.computeJsonHash request.actionPackage.actionEnvelope.toJson
  validateAuthorizationRequirements runtime request.authorizationRequirements actionEnvelopeHash
    none readings.now
  let actionId := request.actionPackage.actionEnvelope.actionId.value
  throwIf ((store.deref store.actionsById actionId).any fun entry =>
      decide (entry.2.actionRef.actionEnvelopeHash.value ≠ actionEnvelopeHash.value))
    (.service 409 "ACTION_ID_CONFLICT"
      "Action ID already exists with a different envelope hash.")

/-- The record of a new workflow. -/
def newAction (request : CoordinationActionRequest) : StoredAction where
  actionPackage := request.actionPackage
  authorizationRequirements := request.authorizationRequirements
  actionRef := {
    actionId := request.actionPackage.actionEnvelope.actionId
    actionEnvelopeHash := runtime.computeJsonHash request.actionPackage.actionEnvelope.toJson }
  state := .awaitingApprovals
  approvals := []
  createdAt := runtime.toISOString readings.date
  updatedAt := runtime.toISOString readings.date

/-- A new object, and its address in both indexes. -/
def insert (stored : StoredAction) : CoordinationStore where
  records := store.records ++ [stored]
  actionsById := store.actionsById.set stored.actionRef.actionId.value store.records.length
  actionsByEnvelopeHash :=
    store.actionsByEnvelopeHash.set stored.actionRef.actionEnvelopeHash.value store.records.length

def createWorkflow (request : CoordinationActionRequest) : Outcome :=
  match store.validateCreateWorkflow runtime readings request with
  | .error error => (.error error, store)
  | .ok _ =>
    let actionEnvelopeHash := runtime.computeJsonHash request.actionPackage.actionEnvelope.toJson
    match store.deref store.actionsByEnvelopeHash actionEnvelopeHash.value with
    | some (address, existing) =>
      let stored := expireIfNeeded runtime readings existing
      (.ok (.workflow false stored.actionRef stored.state stored.createdAt), store.put address stored)
    | none =>
      let stored := newAction runtime readings request
      (.ok (.workflow true stored.actionRef stored.state stored.createdAt), store.insert stored)

/-! ### Approvals -/

/-- The JSON of the middle part of a compact JWS. -/
def decodeApprovalPayload (approval : Approval) : Option Json :=
  match approval.signature.toList.splitOn '.' with
  | [_, part, _] => runtime.parsePart part
  | _ => none

/-- `payload?.actionEnvelopeHash.value`. -/
def payloadHash : Option Json → Except JsError (Option Json)
  | none | some .null => .ok none
  | some payload =>
    match payload.member "actionEnvelopeHash" with
    | none | some .null => .error .typeError
    | some hash => .ok (hash.member "value")

structure Preflight where
  address : Nat
  stored : StoredAction
  signerDid : Json
  duplicate : Bool

def notFound : CoordinationError :=
  .service 404 "ACTION_NOT_FOUND" "Pending action was not found."

/-- The Signer of an approval of `stored`, once the approval has been found bound to it. -/
def approvalSigner (stored : StoredAction) (approval : Approval) : Except CoordinationError Json := do
  let hash := stored.actionRef.actionEnvelopeHash.value
  throwIf (approval.actionEnvelopeHash.value ≠ hash)
    (.service 400 "APPROVAL_HASH_MISMATCH" "Approval is bound to a different action envelope.")
  let payload := decodeApprovalPayload runtime approval
  let signedHash ← (payloadHash payload).mapError .exception
  throwIf (!Json.strictEquals signedHash (some (.str hash)))
    (.service 400 "APPROVAL_HASH_MISMATCH"
      "Signed approval payload is bound to a different action envelope.")
  match (payload.bind (·.member "signerDid")).filter (·.truthy) with
  | none => throw (.service 400 "APPROVAL_SIGNER_MISSING"
      "Signed approval payload does not include signerDid.")
  | some signerDid =>
    throwIf (!Json.strictEquals (some (.str approval.decision.text))
        (payload.bind (·.member "decision")))
      (.service 400 "APPROVAL_DECISION_MISMATCH"
        "Approval decision does not match its signed payload.")
    return signerDid

/-- The earlier decision of a Signer. -/
def priorApproval (stored : StoredAction) (signerDid : Json) : Option StoredApproval :=
  stored.approvals.find? fun entry => Json.strictEquals (some entry.signerDid) (some signerDid)

def approvalPreflight (request : CoordinationApprovalSubmission) :
    Except CoordinationError Preflight :=
  match store.deref store.actionsByEnvelopeHash request.actionEnvelopeHash.value with
  | none => .error notFound
  | some (address, stored) => do
    throwIf (effectiveState runtime readings stored = .cancelled ∨
      effectiveState runtime readings stored = .expired) notFound
    let signerDid ← approvalSigner runtime stored request.approval
    throwIf (Json.strictEquals (some signerDid) (some (.str stored.proposer)))
      (.service 403 "SELF_APPROVAL_DENIED"
        "The proposer cannot approve their own action under the JSON policy profile.")
    let prior := priorApproval stored signerDid
    throwIf (prior.any fun entry => decide (entry.decision ≠ request.approval.decision))
      (.service 409 "SIGNER_DECISION_CONFLICT"
        "A Signer's first decision for an Action Envelope is final.")
    throwIf (stored.state ≠ .awaitingApprovals ∧ prior.isNone)
      (.service 409 "ACTION_NOT_AWAITING_APPROVALS"
        "The workflow is no longer accepting new decisions.")
    return { address, stored, signerDid, duplicate := prior.isSome }

/-- The record with the decision, unless its Signer has given one before. -/
def recorded (request : CoordinationApprovalSubmission) (preflight : Preflight) : StoredAction :=
  if preflight.duplicate then preflight.stored
  else preflight.stored.record runtime readings
    ⟨request.approval, preflight.signerDid, request.approval.decision⟩

def submitApproval (request : CoordinationApprovalSubmission) : Outcome :=
  match store.approvalPreflight runtime readings request with
  | .error error => (.error error, store)
  | .ok preflight =>
    let stored := recorded runtime readings request preflight
    let createdAt := runtime.toISOString readings.date
    if stored.state = .awaitingApprovals then
      match stored.evaluate with
      | .error error => (.error (.evaluation error), store.put preflight.address stored)
      | .ok status =>
        let concluded := stored.conclude runtime readings status
        (.ok (.accepted concluded.actionRef concluded.state createdAt),
          store.put preflight.address concluded)
    else (.ok (.accepted stored.actionRef stored.state createdAt),
      store.put preflight.address stored)

/-! ### Cancellation -/

def validateCancelAction (request : CoordinationActionCancelRequest) :
    Except CoordinationError Unit :=
  match store.deref store.actionsById request.actionId.value with
  | none => .error notFound
  | some (_, stored) => do
    throwIf (stored.state = .cancelled) notFound
    throwIf (stored.proposer ≠ request.proposerDid)
      (.service 403 "NOT_PROPOSER" "Only the original proposer can cancel this action.")
    throwIf (effectiveState runtime readings stored = .expired)
      (.service 409 "ACTION_EXPIRED" "Action has expired and can no longer be cancelled.")
    throwIf (stored.state = .readyForSubmission)
      (.service 409 "ACTION_READY" "Action is already ready for resubmission.")
    throwIf (stored.state = .rejected)
      (.service 409 "ACTION_REJECTED" "Action approval requirements are already unreachable.")

def cancelAction (request : CoordinationActionCancelRequest) : Outcome :=
  match store.validateCancelAction runtime readings request with
  | .error error => (.error error, store)
  | .ok _ =>
    match store.deref store.actionsById request.actionId.value with
    | none => (.error notFound, store)
    | some (address, stored) =>
      let cancelled := stored.cancel runtime readings
      (.ok (.cancelled cancelled.actionRef (runtime.toISOString readings.date)),
        store.put address cancelled)

/-! ### Polling -/

/-- The loop of `poll`; an address without an object does not occur. -/
def pollEntries (did : Did) (approvalRequests : List ApprovalRequest)
    (actionUpdates : List ActionUpdate) (store : CoordinationStore) : List Nat → Outcome
  | [] => (.ok (.polled approvalRequests actionUpdates), store)
  | address :: rest =>
    match store.records[address]? with
    | none => pollEntries did approvalRequests actionUpdates store rest
    | some existing =>
      let stored := expireIfNeeded runtime readings existing
      match pollEntry runtime readings did stored with
      | .error error => (.error (.exception error), store.put address stored)
      | .ok (request, update) =>
        pollEntries did (approvalRequests ++ request.toList) (actionUpdates ++ update.toList)
          (store.put address stored) rest

def poll (did : Did) : Outcome :=
  pollEntries runtime readings did [] [] store store.actionsById.values

def outstandingEntries (did : Did) (store : CoordinationStore) : List Nat → Outcome
  | [] => (.ok (.outstanding false), store)
  | address :: rest =>
    match store.records[address]? with
    | none => outstandingEntries did store rest
    | some existing =>
      let stored := expireIfNeeded runtime readings existing
      match isOutstanding did stored with
      | .error error => (.error (.exception error), store.put address stored)
      | .ok true => (.ok (.outstanding true), store.put address stored)
      | .ok false => outstandingEntries did (store.put address stored) rest

def hasOutstandingCoordinationWork (did : Did) : Outcome :=
  outstandingEntries runtime readings did store store.actionsById.values

end

end CoordinationStore

/-! ## Calls -/

inductive Operation
  | createWorkflow (request : CoordinationActionRequest)
  | submitApproval (request : CoordinationApprovalSubmission)
  | cancelAction (request : CoordinationActionCancelRequest)
  | poll (did : Did)
  | hasOutstandingCoordinationWork (did : Did)

structure Call where
  readings : Readings
  operation : Operation

def CoordinationStore.perform (runtime : Runtime) (call : Call) (store : CoordinationStore) :
    Outcome :=
  match call.operation with
  | .createWorkflow request => store.createWorkflow runtime call.readings request
  | .submitApproval request => store.submitApproval runtime call.readings request
  | .cancelAction request => store.cancelAction runtime call.readings request
  | .poll did => store.poll runtime call.readings did
  | .hasOutstandingCoordinationWork did =>
    store.hasOutstandingCoordinationWork runtime call.readings did

/-- A store and the last reading of its clock. -/
structure World where
  store : CoordinationStore := {}
  clock : Option Int := none
  deriving DecidableEq

def step (runtime : Runtime) (world : World) (call : Call) : Option World :=
  if world.clock.all (· ≤ call.readings.now) then
    some ⟨(world.store.perform runtime call).2, some call.readings.now⟩
  else none

end Mpas.Coordination
