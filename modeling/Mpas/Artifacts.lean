import Mpas.Json

/-!
# Protocol artifacts

The Action Package and its parts, the approval expression that a Verifier sends
to Coordination, and the JSON text form of what gets hashed or compared.
-/

namespace Mpas

abbrev Did := String

abbrev Timestamp := String

structure HashObject where
  alg : String
  value : String
  deriving DecidableEq, Repr

structure ActionId where
  value : String
  scope : Option String := none
  deriving DecidableEq, Repr

inductive Decision
  | propose
  | approve
  | reject
  | abstain
  deriving DecidableEq, Repr

def Decision.text : Decision → String
  | .propose => "propose"
  | .approve => "approve"
  | .reject => "reject"
  | .abstain => "abstain"

theorem Decision.text_injective : Function.Injective Decision.text := by
  intro a b h
  cases a <;> cases b <;> first | rfl | exact absurd h (by decide)

structure ActionTarget where
  applicationDid : Did
  resource : Option String := none
  /-- Target fields that an execution profile defines. -/
  profileFields : List (String × Json) := []
  deriving DecidableEq

structure ExecutionProfile where
  id : Did
  format : Option String
  deriving DecidableEq, Repr

structure ActionEnvelope where
  proposer : Did
  target : ActionTarget
  executionProfile : ExecutionProfile
  executionPayloadHash : HashObject
  actionId : ActionId
  createdAt : Timestamp
  expiresAt : Timestamp
  deriving DecidableEq

structure Approval where
  actionEnvelopeHash : HashObject
  decision : Decision
  signature : String
  createdAt : Timestamp
  expiresAt : Option Timestamp := none
  deriving DecidableEq, Repr

structure ApprovalBundle where
  actionEnvelopeHash : HashObject
  approvals : List Approval
  assembledBy : Option Did
  createdAt : Option Timestamp
  deriving DecidableEq, Repr

structure ActionPackage where
  executionPayload : Json
  actionEnvelope : ActionEnvelope
  approvalBundle : ApprovalBundle
  createdAt : Option Timestamp
  deriving DecidableEq

/-! ## Text form -/

/-- An optional member: left out when it is `undefined`. -/
def optionalMember (key : String) : Option String → List (String × Json)
  | some s => [(key, .str s)]
  | none => []

def HashObject.toJson (hash : HashObject) : Json :=
  .obj [("alg", .str hash.alg), ("value", .str hash.value)]

def ActionId.toJson (actionId : ActionId) : Json :=
  .obj (("value", .str actionId.value) :: optionalMember "scope" actionId.scope)

def ActionTarget.toJson (target : ActionTarget) : Json :=
  .obj (("applicationDid", .str target.applicationDid) ::
    optionalMember "resource" target.resource ++ target.profileFields)

def ExecutionProfile.toJson (profile : ExecutionProfile) : Json :=
  .obj (("id", .str profile.id) :: optionalMember "format" profile.format)

def ActionEnvelope.toJson (envelope : ActionEnvelope) : Json :=
  .obj [("version", .str "1"), ("type", .str "ActionEnvelope"),
    ("proposer", .obj [("did", .str envelope.proposer)]),
    ("target", envelope.target.toJson),
    ("executionProfile", envelope.executionProfile.toJson),
    ("executionPayloadHash", envelope.executionPayloadHash.toJson),
    ("actionId", envelope.actionId.toJson),
    ("createdAt", .str envelope.createdAt), ("expiresAt", .str envelope.expiresAt)]

def Approval.toJson (approval : Approval) : Json :=
  .obj ([("version", .str "1"), ("type", .str "Approval"),
    ("actionEnvelopeHash", approval.actionEnvelopeHash.toJson),
    ("decision", .str approval.decision.text),
    ("signature", .obj [("format", .str "jws"), ("value", .str approval.signature)]),
    ("createdAt", .str approval.createdAt)] ++ optionalMember "expiresAt" approval.expiresAt)

def ApprovalBundle.toJson (bundle : ApprovalBundle) : Json :=
  .obj ([("version", .str "1"), ("type", .str "ApprovalBundle"),
    ("actionEnvelopeHash", bundle.actionEnvelopeHash.toJson),
    ("approvals", .arr (bundle.approvals.map Approval.toJson))] ++
    optionalMember "assembledBy" bundle.assembledBy ++ optionalMember "createdAt" bundle.createdAt)

def ActionPackage.toJson (package : ActionPackage) : Json :=
  .obj ([("version", .str "1"), ("type", .str "ActionPackage"),
    ("executionPayload", package.executionPayload),
    ("actionEnvelope", package.actionEnvelope.toJson),
    ("approvalBundle", package.approvalBundle.toJson)] ++
    optionalMember "createdAt" package.createdAt)

/-! ## Approval expressions -/

/-- The text of a threshold in Authorization Requirements: the policy's own, or
the sentence ``Requires <threshold> <role> approval(s).``. -/
inductive ThresholdDescription
  | own (description : Json)
  | requires (threshold role : Json)
  deriving DecidableEq

/-- A threshold of an approval expression. What the Verifier copied out of its
policy is a value of any kind here, and is checked nowhere on the way. -/
structure ThresholdRequirement where
  threshold : Json
  eligibleSigners : Json
  decision : Option Json
  description : Option ThresholdDescription
  deriving DecidableEq

structure OverrideSigner where
  signer : Did
  permissions : List String
  deriving DecidableEq, Repr

structure ApprovalRequirements where
  anyOf : Option (List ThresholdRequirement) := none
  allOf : Option (List ThresholdRequirement) := none
  overrideSigners : Option (List OverrideSigner) := none
  deriving DecidableEq

/-- Authorization Requirements whose result is `additionalApprovalsRequired`. -/
structure AuthorizationRequirements where
  actionEnvelopeHash : HashObject
  verifier : Did
  approvalRequirements : ApprovalRequirements
  policyRef : Option String := none
  createdAt : Option Timestamp
  expiresAt : Option Timestamp
  deriving DecidableEq

/-! ## Verifier responses -/

inductive ActionResult
  | executed
  | additionalApprovalsRequired
  | rejected
  | notSupported
  | malformed
  | policyUnavailable
  | pending
  | failed
  | indeterminate
  | expired
  | cancelled
  deriving DecidableEq, Repr

structure AdapterError where
  code : String
  message : String
  deriving DecidableEq, Repr

structure ActionResponse where
  verifier : Option Did := none
  actionEnvelopeHash : Option HashObject
  result : ActionResult
  authorizationRequirements : Option AuthorizationRequirements := none
  executionReceipt : Option String := none
  executionResult : Option Json := none
  error : Option AdapterError := none
  deriving DecidableEq

end Mpas
