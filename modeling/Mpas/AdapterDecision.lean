import Mpas.Library.Unfoldings
import Mpas.SchemaDefaults
import Mpas.PolicyEngine
import Mpas.PackageSoundness
import Mpas.RelayDelivery
import Mpas.DispatchLedger

/-!
# What the action handler decides

The Verifier's handler between two `await`s, on the body of a request as it was
parsed: whether it is an Action Request for this Verifier, whether its package
is addressed to a loaded deployment and still in time, and, once the package is
verified, whether its proposer and its policy let it through.

* `receive`: up to the check of the ledger;
* `afterLedger`: the checks behind it, which record nothing;
* `authorizeAction`: after verification, up to the preparation of the target.
-/

namespace Mpas.AdapterDecision

open PackageVerification (Members TrustedSigner VerificationConfig FailureCode Verified at? part)
open PolicyEngine (PolicyConfig PolicyResult RejectionCode UnsatisfiedThreshold evaluatePolicy)
open Checks (throwIf)

/-! ## Deployments -/

structure ToolSurface where
  hash : HashObject
  toolNames : List String
  deriving DecidableEq, Repr

structure ApplicationPlugin where
  executionProfile : ExecutionProfile
  toolSurface : Option ToolSurface := none
  /-- the schema of each operation's payload -/
  operations : List (String × Json)

inductive ExecutionTarget
  | stdio (args : List String)
  | http (managedOAuth : Bool)
  deriving DecidableEq, Repr

structure LoadedDeploymentConfig where
  applicationDid : Did
  signerKeys : List TrustedSigner
  policy : PolicyConfig
  passThrough : Option String := none
  executionTarget : ExecutionTarget
  plugin : ApplicationPlugin

/-- The options of the server, and the libraries that it calls. -/
structure Verifier where
  routing : Mpas.Platform
  /-- with the clock that each call of `verifyActionPackage` is given -/
  platform : PackageVerification.Platform
  /-- `ajv.compile`; `none` when it throws -/
  compileSchema : Json → Option (Json → Bool)
  /-- the bytes of `JSON.stringify`; `none` when it throws -/
  measurePayloadBytes : Json → Option Nat
  adapterDid : Did
  configsByApplicationDid : OrderedMap Did LoadedDeploymentConfig
  maxEnvelopeValidityMs : JsNumber := PackageVerification.DEFAULT_MAX_ENVELOPE_VALIDITY_MS
  /-- a fixed clock -/
  now : Option JsNumber := none

/-- What `Date.now()` returns, each time that the handler asks for it. -/
structure Clock where
  structural : JsNumber
  expiry : JsNumber
  validity : JsNumber
  verification : JsNumber
  deriving DecidableEq

/-! ## Answers that record nothing -/

inductive PayloadErrorCode
  | PAYLOAD_NOT_OBJECT
  | UNKNOWN_OPERATION
  | PAYLOAD_SCHEMA_INVALID
  | PAYLOAD_RESOURCE_EXCEEDED
  deriving DecidableEq, Repr

inductive Refusal
  /-- `400 artifact_malformed` -/
  | badRequest
  | structure (code : FailureCode)
  | unknownApplication
  | upstreamBindingMismatch
  /-- an exception: the error handler answers with `500` -/
  | exception
  | expired
  | unsupportedExecutionProfile
  | envelopeValidityTooLong
  | verification (code : FailureCode)
  | payloadStructure
  | proposerNotAuthorized
  | payload (code : PayloadErrorCode)
  | numericConditionUnparseable
  | policy (code : RejectionCode)
  | additionalApprovalsRequired (unsatisfiedRules : List UnsatisfiedThreshold)
  | operationNotAttested
  | operationNotGoverned
  deriving DecidableEq

/-- The result and the code of the Action Response. -/
def Refusal.response : Refusal → Option (ActionResult × String)
  | .badRequest | .exception => none
  | .structure code => some (.malformed, reprStr code)
  | .unknownApplication => some (.rejected, "UNKNOWN_APPLICATION")
  | .upstreamBindingMismatch => some (.rejected, "UPSTREAM_BINDING_MISMATCH")
  | .expired => some (.expired, "EXPIRED_ACTION_ENVELOPE")
  | .unsupportedExecutionProfile => some (.notSupported, "UNSUPPORTED_EXECUTION_PROFILE")
  | .envelopeValidityTooLong => some (.rejected, "ENVELOPE_VALIDITY_TOO_LONG")
  | .verification .MALFORMED_APPROVAL_BUNDLE => some (.malformed, "MALFORMED_APPROVAL_BUNDLE")
  | .verification .EXPIRED_ACTION_ENVELOPE => some (.expired, "EXPIRED_ACTION_ENVELOPE")
  | .verification code => some (.rejected, reprStr code)
  | .payloadStructure => some (.malformed, "PAYLOAD_STRUCTURE_INVALID")
  | .proposerNotAuthorized => some (.rejected, "PROPOSER_NOT_AUTHORIZED")
  | .payload code => some (.rejected, reprStr code)
  | .numericConditionUnparseable => some (.malformed, "NUMERIC_CONDITION_UNPARSEABLE")
  | .policy code => some (.rejected, reprStr code)
  | .additionalApprovalsRequired _ => some (.additionalApprovalsRequired, "")
  | .operationNotAttested => some (.rejected, "OPERATION_NOT_ATTESTED")
  | .operationNotGoverned => some (.rejected, "OPERATION_NOT_GOVERNED")

/-! ## The request -/

def unwrapActionRequest (verifier : Verifier) (body : Json) : Option Json :=
  if body.member "type" = some (.str "DeliveryEnvelope") then
    match RelayDelivery.parseActionRequestEnvelope verifier.routing body with
    | .ok envelope =>
      if envelope.recipients.contains verifier.adapterDid ∧
          at? (some envelope.payload) ["actionPackage", "actionEnvelope", "proposer", "did"] =
            some (.str envelope.sender) then some envelope.payload
      else none
    | .error _ => none
  else (RelayDelivery.parseActionRequest verifier.routing body).toOption

/-- Characters that `/^[^\s]+@(sha256:[a-fA-F0-9]{64})$/` takes in front of the last 72. -/
def isPinnedImage (image : List Char) : Bool :=
  !image.isEmpty && image.all fun c => !JsNumber.isStrWhiteSpace c

/-- The digest at the end of an argument. -/
def digestPin (arg : String) : Option String :=
  let text := arg.toList
  let image := text.take (text.length - 72)
  let pin := text.drop (text.length - 72)
  if isPinnedImage image ∧ "@sha256:".toList.isPrefixOf pin ∧ pin.length = 72 ∧
      (pin.drop 8).all PackageVerification.isHex then
    some (String.ofList ((pin.drop 1).map Char.toLower))
  else none

/-- `none` where two images are pinned. -/
def upstreamDigestFromArgs (args : List String) : Option (Option String) :=
  match (args.filterMap digestPin).dedup with
  | [] => some none
  | [pin] => some (some pin)
  | _ => none

def upstreamBindingMatches (binding : Option Json) (surface : Option HashObject)
    (digest : Option String) : Bool :=
  match binding, surface with
  | none, surface => surface.isNone
  | some _, none => false
  | some binding, some surface =>
    decide (at? (some binding) ["toolSurface", "alg"] = some (.str surface.alg)) &&
      decide (at? (some binding) ["toolSurface", "value"] = some (.str surface.value)) &&
        decide (at? (some binding) ["upstreamDigest"] = digest.map .str)

/-- The digest that the target is pinned to; `none` where two images are. -/
def targetDigest : ExecutionTarget → Option (Option String)
  | .stdio args => upstreamDigestFromArgs args
  | .http _ => some none

/-- What the closure of a handler holds of its request. -/
structure Intake where
  request : Json
  package : Json
  loaded : LoadedDeploymentConfig
  clock : Clock

def Intake.envelope (intake : Intake) : Json := part intake.package "actionEnvelope"

def Intake.payload (intake : Intake) : Json := part intake.package "executionPayload"

/-- The text of a member that the shape of the package promises. -/
def textAt (value : Json) (path : List String) : String :=
  ((at? (some value) path).bind Json.asString).getD ""

def actionIdOf (envelope : Json) : ActionId where
  value := textAt envelope ["actionId", "value"]
  scope := (at? (some envelope) ["actionId", "scope"]).bind Json.asString

/-- Up to the check of the ledger. -/
def receive (verifier : Verifier) (clock : Clock) (body : Json) : Except Refusal Intake :=
  match unwrapActionRequest verifier body with
  | none => .error .badRequest
  | some request =>
    let package := part request "actionPackage"
    match PackageVerification.parseActionPackage verifier.platform package with
    | .error _ => .error .badRequest
    | .ok package => do
      let envelope := part package "actionEnvelope"
      (PackageVerification.validateActionEnvelope verifier.platform envelope
        { checkExpiry := false, now := clock.structural }).mapError fun rejection =>
          .structure rejection.code
      match verifier.configsByApplicationDid.get?
        (textAt envelope ["target", "applicationDid"]) with
      | none => .error .unknownApplication
      | some loaded =>
        match targetDigest loaded.executionTarget with
        | none => .error .exception
        | some digest =>
          throwIf (¬upstreamBindingMatches (request.member "upstreamBinding")
            (loaded.plugin.toolSurface.map ToolSurface.hash) digest) .upstreamBindingMismatch
          return { request, package, loaded, clock }

/-! ## Behind the ledger -/

def isActionEnvelopeExpired (verifier : Verifier) (envelope : Json) (clock : JsNumber) : Bool :=
  let expiresAt := PackageVerification.timeOf verifier.platform
    (at? (some envelope) ["expiresAt"])
  decide (expiresAt ≠ .nan) && expiresAt.le (verifier.now.getD clock)

/-- The id and the format that an envelope declares and a plugin supports. -/
def declaresProfile (envelope : Json) (profile : ExecutionProfile) : Bool :=
  decide (at? (some envelope) ["executionProfile", "id"] = some (.str profile.id)) &&
    decide ((at? (some envelope) ["executionProfile", "format"]).getD (.str "mcp.toolsCall") =
      .str (profile.format.getD "mcp.toolsCall"))

/-- The deterministic checks that record nothing. -/
def afterLedger (verifier : Verifier) (intake : Intake) : Except Refusal Unit := do
  throwIf (isActionEnvelopeExpired verifier intake.envelope intake.clock.expiry) .expired
  throwIf (¬declaresProfile intake.envelope intake.loaded.plugin.executionProfile)
    .unsupportedExecutionProfile
  throwIf (PackageVerification.exceedsMaxEnvelopeValidity verifier.platform intake.envelope
    verifier.maxEnvelopeValidityMs (verifier.now.getD intake.clock.validity))
    .envelopeValidityTooLong

/-! ## Verification -/

def verificationConfig (verifier : Verifier) (loaded : LoadedDeploymentConfig) :
    VerificationConfig where
  trustedSigners := loaded.signerKeys
  trustedApplicationDids := some [loaded.applicationDid]
  now := verifier.now
  maxEnvelopeValidityMs := some verifier.maxEnvelopeValidityMs

/-- The platform while the package of a request is verified. -/
def platformOf (verifier : Verifier) (intake : Intake) : PackageVerification.Platform :=
  { verifier.platform with clock := intake.clock.verification }

def verify (verifier : Verifier) (intake : Intake) : Except Refusal Verified :=
  (PackageVerification.verifyActionPackage (platformOf verifier intake)
    (verificationConfig verifier intake.loaded) intake.package).mapError fun rejection =>
      .verification rejection.code

/-! ## The payload -/

/-- A profile payload: its name and its arguments. -/
def validateMcpPayloadStructure : Json → Option (String × Members)
  | .obj record =>
    if (record.map Prod.fst).any fun key => decide (key ≠ "name" ∧ key ≠ "arguments") then none
    else match record.lookup "name", record.lookup "arguments" with
      | some (.str name), some (.obj arguments) =>
        if name = "" then none else some (name, arguments)
      | _, _ => none
  | _ => none

mutual

/-- The values of a JSON value, as the tree that they form. -/
def treeOf : Json → Unfolding.Tree
  | .arr items => .node (treesOfItems items)
  | .obj members => .node (treesOfMembers members)
  | _ => .node []

def treesOfItems : List Json → List Unfolding.Tree
  | [] => []
  | item :: items => treeOf item :: treesOfItems items

def treesOfMembers : List (String × Json) → List Unfolding.Tree
  | [] => []
  | (_, value) :: members => treeOf value :: treesOfMembers members

end

def maxPayloadBytes : Nat := 1048576

def maxPayloadDepth : Nat := 64

def maxPayloadNodes : Nat := 100000

def maxOperationSchemaDepth : Nat := 32

def maxOperationSchemaNodes : Nat := 4096

/-- What `measureJsonStructure` lets pass of a parsed value. -/
def withinStructure (maxDepth maxNodes : Nat) (value : Json) : Bool :=
  decide ((treeOf value).depth ≤ maxDepth) && decide ((treeOf value).nodes ≤ maxNodes)

def compileOperationSchema (verifier : Verifier) (schema : Json) :
    Except PayloadErrorCode (Json → Bool) :=
  if withinStructure maxOperationSchemaDepth maxOperationSchemaNodes schema then
    match verifier.compileSchema (SchemaDefaults.applyFailClosedDefaults schema) with
    | some validate => .ok validate
    | none => .error .PAYLOAD_SCHEMA_INVALID
  else .error .PAYLOAD_RESOURCE_EXCEEDED

/-- The name of the operation that the payload is valid for. -/
def validatePayloadAgainstPlugin (verifier : Verifier) (plugin : ApplicationPlugin)
    (payload : Json) : Except PayloadErrorCode String :=
  match payload.member "name" with
  | some (.str operationName) => do
    throwIf (¬withinStructure maxPayloadDepth maxPayloadNodes payload) .PAYLOAD_RESOURCE_EXCEEDED
    throwIf
      (¬(verifier.measurePayloadBytes payload).any fun bytes => decide (bytes ≤ maxPayloadBytes))
      .PAYLOAD_RESOURCE_EXCEEDED
    match plugin.operations.lookup operationName with
    | some schema => do
      let validate ← compileOperationSchema verifier schema
      throwIf (¬validate payload) .PAYLOAD_SCHEMA_INVALID
      return operationName
    | none =>
      -- an inherited function has no schema, and `undefined` does not compile
      if JsonSchema.inheritedNames.contains operationName then .error .PAYLOAD_SCHEMA_INVALID
      else .error .UNKNOWN_OPERATION
  | _ => .error .PAYLOAD_NOT_OBJECT

/-! ## The proposer -/

def signerGroup (policy : PolicyConfig) (name : String) : Option Json :=
  match policy.signerGroups with
  | .given groups => match groups.lookup name with
    | some .null => none
    | group => group
  | _ => none

/-- `none` where the group is of a kind that has no method `includes`. -/
def checkProposerAuthorization (proposerDid : Did) (policy : PolicyConfig) : Option Bool :=
  match (signerGroup policy "proposers").or (signerGroup policy "all") with
  | none => some false
  | some (.arr allowedProposers) => some (allowedProposers.contains (.str proposerDid))
  | some (.str text) => some (text ≠ "" && decide (proposerDid.toList <:+: text.toList))
  | some group => if group.truthy then none else some false

/-! ## The types of a verified package -/

/-- The Action Package as the policy engine reads it. -/
def packageOf (package : Json) : ActionPackage :=
  let envelope := part package "actionEnvelope"
  let hashAt (value : Json) (name : String) : HashObject :=
    ⟨textAt value [name, "alg"], textAt value [name, "value"]⟩
  { executionPayload := part package "executionPayload"
    actionEnvelope := {
      proposer := textAt envelope ["proposer", "did"]
      target := {
        applicationDid := textAt envelope ["target", "applicationDid"]
        profileFields := match at? (some envelope) ["target"] with
          | some (.obj members) => members.filter fun m => m.1 ≠ "applicationDid"
          | _ => [] }
      executionProfile := {
        id := textAt envelope ["executionProfile", "id"]
        format := (at? (some envelope) ["executionProfile", "format"]).bind Json.asString }
      executionPayloadHash := hashAt envelope "executionPayloadHash"
      actionId := actionIdOf envelope
      createdAt := textAt envelope ["createdAt"]
      expiresAt := textAt envelope ["expiresAt"] }
    -- no evaluation looks at the bundle: it has the verified Approvals
    approvalBundle := ⟨⟨"", ""⟩, [], none, none⟩
    createdAt := none }

def decisionOf (value : Option Json) : Option Decision :=
  [Decision.propose, .approve, .reject, .abstain].find? fun decision =>
    decide (value = some (.str decision.text))

/-- A verified Approval as the policy engine reads it. -/
def approvalOf (approval : PackageVerification.VerifiedApproval) : PolicyEngine.VerifiedApproval :=
  let decision := (decisionOf approval.decision).getD .abstain
  let createdAt := (approval.createdAt.bind Json.asString).getD ""
  { approval := {
      actionEnvelopeHash := ⟨textAt approval.approval ["actionEnvelopeHash", "alg"],
        textAt approval.approval ["actionEnvelopeHash", "value"]⟩
      decision
      signature := textAt approval.approval ["signature", "value"]
      createdAt
      expiresAt := (at? (some approval.approval) ["expiresAt"]).bind Json.asString }
    signerDid := approval.signerDid
    decision
    createdAt }

def approvalsOf (approvals : PackageVerification.VerifiedApprovals) :
    PolicyEngine.VerifiedApprovals where
  actionEnvelopeHash := approvals.actionEnvelopeHash
  approvals := approvals.approvals.map approvalOf

/-! ## Routing and policy -/

/-- `Object.hasOwn(policies, name)` -/
def inPolicy (policy : PolicyConfig) (operationName : String) : Bool :=
  match policy.policies with
  | .given operations => (operations.lookup operationName).isSome
  | .other value => (PolicyEngine.ownProperty operationName value).isSome
  | .absent => false

/-- How an operation gets through. -/
inductive Route
  | governed
  | passThrough
  deriving DecidableEq, Repr

/-- A payload that the plugin refuses, other than for its name, is governed too. -/
def routeOf (verifier : Verifier) (loaded : LoadedDeploymentConfig) (payload : Json)
    (operationName : String) : Except Refusal Route :=
  match validatePayloadAgainstPlugin verifier loaded.plugin payload with
  | .ok _ => .ok .governed
  | .error .UNKNOWN_OPERATION =>
    .ok (if inPolicy loaded.policy operationName then .governed else .passThrough)
  | .error code => .error (.payload code)

def governedVerdict (intake : Intake) (verified : Verified) : Except Refusal Unit :=
  match evaluatePolicy (packageOf intake.package) (approvalsOf verified.verifiedApprovals)
      intake.loaded.policy with
  | .error _ => .error .exception
  | .ok .satisfied => .ok ()
  | .ok (.malformed _) => .error .numericConditionUnparseable
  | .ok (.rejected code _) => .error (.policy code)
  | .ok (.additionalApprovalsRequired unsatisfied) =>
    .error (.additionalApprovalsRequired unsatisfied)

def passThroughVerdict (loaded : LoadedDeploymentConfig) (operationName : String) :
    Except Refusal Unit := do
  throwIf (loaded.plugin.toolSurface.any fun surface => !surface.toolNames.contains operationName)
    .operationNotAttested
  throwIf (loaded.passThrough = some "deny") .operationNotGoverned

def proposerVerdict (intake : Intake) : Except Refusal Unit :=
  match checkProposerAuthorization (textAt intake.envelope ["proposer", "did"])
      intake.loaded.policy with
  | none => .error .exception
  | some allowed => throwIf (¬allowed) .proposerNotAuthorized

def routeVerdict (intake : Intake) (verified : Verified) (operationName : String) :
    Route → Except Refusal Unit
  | .governed => governedVerdict intake verified
  | .passThrough => passThroughVerdict intake.loaded operationName

/-- What is transmitted to the target. -/
structure Call where
  intake : Intake
  verified : Verified
  route : Route
  operation : String
  arguments : Members

/-- After verification, up to the preparation of the target. -/
def authorizeAction (verifier : Verifier) (intake : Intake) : Except Refusal Call := do
  let verified ← verify verifier intake
  match validateMcpPayloadStructure intake.payload with
  | none => .error .payloadStructure
  | some (operation, arguments) => do
    proposerVerdict intake
    let route ← routeOf verifier intake.loaded intake.payload operation
    routeVerdict intake verified operation route
    return { intake, verified, route, operation, arguments }

end Mpas.AdapterDecision
