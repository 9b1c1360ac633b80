import Mpas.Json
import Mpas.Library.Checks
import Mpas.Routing

/-!
# Verifying Action Packages

What a Verifier checks before it authorizes a dispatch: the shape of the
package, the time window of its envelope, the profile that the envelope
declares for its target, the hash of the payload, and each Approval of the
bundle, with what its signer signed. Members of objects are listed in the order
of `Object.keys`.

* `parseActionPackage`, `validateActionEnvelope`, `validateApprovalBundleStructure`: the shapes;
* `verifyApproval`, `verifyApprovals`: one Approval, and the loop over the bundle;
* `verifyActionPackage`: the chain.
-/

namespace Mpas.PackageVerification

open Checks

/-- The members of an object, in order. -/
abbrev Members := List (String × Json)

/-! ## What is not read here -/

/-- Clocks, dates, canonical JSON, keys and signatures. -/
structure Platform where
  /-- `Date.parse`; not a number where there is no date -/
  dateParse : String → JsNumber
  /-- `Date.now()` -/
  clock : JsNumber
  strictJsonParse : String → Option Json
  canonicalize : Json → String
  computeJsonHash : Json → HashObject
  decodeBase64url : String → ByteArray
  /-- the text of bytes that are no UTF-8, with replacement characters -/
  lossyText : ByteArray → String
  /-- `none` where it throws -/
  didJwkToJwk : Did → Option Json
  /-- `false` also where it throws -/
  samePublicKey : Json → Json → Bool
  /-- whether the signature check of a compact JWS returns -/
  verifySuiteCompactJws : String → Json → String → Bool

/-- `Buffer.toString("utf8")` -/
def Platform.text (platform : Platform) (bytes : ByteArray) : String :=
  (String.fromUTF8? bytes).getD (platform.lossyText bytes)

/-! ## Shapes -/

def at? (value : Option Json) : List String → Option Json
  | [] => value
  | name :: names => at? (value.bind (Json.member name)) names

def hasOwn (record : Members) (name : String) : Bool := (record.lookup name).isSome

def firstUnexpectedKey (record : Members) (allowedKeys : List String) : Option String :=
  (record.map Prod.fst).find? fun key => !allowedKeys.contains key

/-- A record with allowed members only. -/
def isRecordOf (allowedKeys : List String) : Option Json → Bool
  | some (.obj record) => (firstUnexpectedKey record allowedKeys).isNone
  | _ => false

def isText : Option Json → Bool
  | some (.str _) => true
  | _ => false

def isNonEmptyText : Option Json → Bool
  | some (.str text) => text ≠ ""
  | _ => false

/-- `/^did:[a-z0-9]+:\S+$/` -/
def isDidText (text : List Char) : Bool :=
  match text with
  | 'd' :: 'i' :: 'd' :: ':' :: rest =>
    let (method, rest) := rest.span fun c => c.isLower || c.isDigit
    !method.isEmpty && match rest with
      | ':' :: id => !id.isEmpty && id.all fun c => !JsNumber.isStrWhiteSpace c
      | _ => false
  | _ => false

def isDid : Option Json → Bool
  | some (.str text) => isDidText text.toList
  | _ => false

section Shapes

variable (platform : Platform)

/-- `Date.parse` of a member. -/
def timeOf : Option Json → JsNumber
  | some (.str text) => platform.dateParse text
  | _ => .nan

def isEnvelopeTimestamp : Option Json → Bool
  | some (.str text) => Routing.fitsTemplate "0000-00-00T00:00:00.000Z".toList text.toList &&
      decide (platform.dateParse text ≠ .nan)
  | _ => false

def isMpasTimestamp : Option Json → Bool
  | some (.str text) => (Routing.fitsTemplate "0000-00-00T00:00:00.000Z".toList text.toList ||
      Routing.fitsTemplate "0000-00-00T00:00:00Z".toList text.toList) &&
      decide (platform.dateParse text ≠ .nan)
  | _ => false

def hashAlgorithms : List String :=
  ["sha-256", "sha-384", "sha-512", "sha3-256", "sha3-384", "sha3-512"]

/-- `/^[A-Za-z0-9_-]+$/` -/
def isBase64urlText (text : List Char) : Bool :=
  !text.isEmpty && text.all fun c => c.isAlphanum || c == '_' || c == '-'

def isHashObject (value : Option Json) : Bool :=
  isRecordOf ["alg", "value"] value &&
    match at? value ["alg"], at? value ["value"] with
    | some (.str alg), some (.str text) =>
      hashAlgorithms.contains alg && isBase64urlText text.toList
    | _, _ => false

def isDecision (value : Option Json) : Bool :=
  value = some (.str "propose") || value = some (.str "approve") ||
    value = some (.str "reject") || value = some (.str "abstain")

def isCompactJws (value : String) : Bool :=
  let parts := value.toList.splitOn '.'
  parts.length = 3 && parts.all isBase64urlText

def hashesEqual (left right : Option Json) : Bool :=
  Json.strictEquals (at? left ["alg"]) (at? right ["alg"]) &&
    Json.strictEquals (at? left ["value"]) (at? right ["value"])

def hashJson (hash : HashObject) : Json := .obj [("alg", .str hash.alg), ("value", .str hash.value)]

/-! ## The Action Envelope -/

inductive FailureCode
  | INVALID_ACTION_PACKAGE
  | INVALID_ACTION_ENVELOPE
  | EXPIRED_ACTION_ENVELOPE
  | ENVELOPE_VALIDITY_TOO_LONG
  | UNSUPPORTED_EXECUTION_PROFILE
  | INVALID_EXECUTION_PAYLOAD
  | INVALID_ACTION_ID
  | PAYLOAD_HASH_MISMATCH
  | APPROVAL_BUNDLE_INVALID
  | MALFORMED_APPROVAL_BUNDLE
  | MISSING_PROPOSER_APPROVAL
  | UNKNOWN_APPLICATION
  deriving DecidableEq, Repr

/-- A rejection, of the package or of one of its parts. -/
structure Rejection where
  code : FailureCode
  message : String
  path : String
  deriving DecidableEq, Repr

structure ValidateEnvelopeOptions where
  checkExpiry : Bool := true
  checkTime : Bool := true
  now : JsNumber
  timestampToleranceMs : JsNumber := .finite 0

def sub (a b : JsNumber) : JsNumber := a.add b.negate

def envelopeKeys : List String :=
  ["version", "type", "proposer", "target", "executionProfile", "executionPayloadHash",
    "actionId", "createdAt", "expiresAt"]

def invalidEnvelope (message path : String) : Rejection := ⟨.INVALID_ACTION_ENVELOPE, message, path⟩

/-- The undeclared field that a rejection names. Its name counts as a condition,
so that of the empty name does not hold. -/
def rejectedKey (record : Members) (allowedKeys : List String) : Option String :=
  match firstUnexpectedKey record allowedKeys with
  | some key => if key = "" then none else some key
  | none => none

def rejectUndeclared (record : Members) (allowedKeys : List String)
    (rejection : String → Rejection) : Except Rejection Unit :=
  match rejectedKey record allowedKeys with
  | some key => .error (rejection key)
  | none => .ok ()

def validateActionEnvelope (envelope : Json) (options : ValidateEnvelopeOptions) :
    Except Rejection Unit :=
  match envelope with
  | .obj record => do
    rejectUndeclared record envelopeKeys fun key =>
      invalidEnvelope "Action Envelope contains an undeclared field." ("$." ++ key)
    envelopeKeys.forM fun field => throwIf (hasOwn record field = false)
      (invalidEnvelope ("Action Envelope missing required field: " ++ field) ("$." ++ field))
    throwIf (record.lookup "version" ≠ some (.str "1"))
      (invalidEnvelope "Action Envelope version must be \"1\"." "$.version")
    throwIf (record.lookup "type" ≠ some (.str "ActionEnvelope"))
      (invalidEnvelope "Action Envelope type must be \"ActionEnvelope\"." "$.type")
    throwIf (¬(isRecordOf ["did"] (record.lookup "proposer") ∧
        isDid (at? (some envelope) ["proposer", "did"])))
      (invalidEnvelope "Action Envelope proposer.did must be a DID." "$.proposer.did")
    throwIf (¬isDid (at? (some envelope) ["target", "applicationDid"]))
      (invalidEnvelope "Action Envelope target.applicationDid must be a DID."
        "$.target.applicationDid")
    throwIf (¬(isRecordOf ["id", "format"] (record.lookup "executionProfile") ∧
        isDid (at? (some envelope) ["executionProfile", "id"])))
      (invalidEnvelope "Action Envelope executionProfile.id must be a DID." "$.executionProfile.id")
    throwIf ((at? (some envelope) ["executionProfile", "format"]).isSome ∧
        ¬isText (at? (some envelope) ["executionProfile", "format"]))
      (invalidEnvelope "Action Envelope executionProfile.format must be a string."
        "$.executionProfile.format")
    throwIf (¬isHashObject (record.lookup "executionPayloadHash"))
      (invalidEnvelope "Action Envelope executionPayloadHash must be a well-formed hash object."
        "$.executionPayloadHash")
    throwIf (¬(isRecordOf ["value", "scope"] (record.lookup "actionId") ∧
        isNonEmptyText (at? (some envelope) ["actionId", "value"])))
      (invalidEnvelope "Action Envelope actionId.value is required." "$.actionId.value")
    throwIf ((at? (some envelope) ["actionId", "scope"]).isSome ∧
        ¬isNonEmptyText (at? (some envelope) ["actionId", "scope"]))
      (invalidEnvelope "Action Envelope actionId.scope must be non-empty." "$.actionId.scope")
    throwIf (¬isEnvelopeTimestamp platform (record.lookup "createdAt"))
      (invalidEnvelope
        "Action Envelope createdAt must be an MPAS timestamp with millisecond precision."
        "$.createdAt")
    throwIf (¬isEnvelopeTimestamp platform (record.lookup "expiresAt"))
      (invalidEnvelope
        "Action Envelope expiresAt must be an MPAS timestamp with millisecond precision."
        "$.expiresAt")
    let createdAt := timeOf platform (record.lookup "createdAt")
    let expiresAt := timeOf platform (record.lookup "expiresAt")
    throwIf (expiresAt.le createdAt)
      (invalidEnvelope "Action Envelope expiresAt must be after createdAt." "$.expiresAt")
    throwIf (options.checkTime ∧ (options.now.add options.timestampToleranceMs).lt createdAt)
      (invalidEnvelope "Action Envelope createdAt is beyond the accepted clock tolerance."
        "$.createdAt")
    throwIf (options.checkTime ∧ options.checkExpiry ∧
        expiresAt.le (sub options.now options.timestampToleranceMs))
      ⟨.EXPIRED_ACTION_ENVELOPE, "Action Envelope is expired.", "$.expiresAt"⟩
  | _ => .error (invalidEnvelope "Action Envelope must be a JSON object." "$")

/-! ## The Approval Bundle -/

def malformedBundle (message path : String) : Rejection :=
  ⟨.MALFORMED_APPROVAL_BUNDLE, message, path⟩

def bundleKeys : List String :=
  ["version", "type", "actionEnvelopeHash", "approvals", "assembledBy", "createdAt"]

def approvalKeys : List String :=
  ["version", "type", "actionEnvelopeHash", "decision", "signature", "createdAt", "expiresAt"]

def approvalPath (index : Nat) : String :=
  "$.approvalBundle.approvals[" ++ toString index ++ "]"

def isSignatureObject (signature : Option Json) : Bool :=
  isRecordOf ["format", "value"] signature &&
    decide (at? signature ["format"] = some (.str "jws")) &&
      match at? signature ["value"] with
      | some (.str value) => isCompactJws value
      | _ => false

def validateApprovalStructure (approval : Json) (path : String) : Except Rejection Unit :=
  match approval with
  | .obj record => do
    rejectUndeclared record approvalKeys fun key =>
      malformedBundle "Approval contains an undeclared field." (path ++ "." ++ key)
    throwIf (record.lookup "version" ≠ some (.str "1"))
      (malformedBundle "Approval version must be \"1\"." (path ++ ".version"))
    throwIf (record.lookup "type" ≠ some (.str "Approval"))
      (malformedBundle "Approval type must be \"Approval\"." (path ++ ".type"))
    throwIf (¬isHashObject (record.lookup "actionEnvelopeHash"))
      (malformedBundle "Approval actionEnvelopeHash must be a hash object."
        (path ++ ".actionEnvelopeHash"))
    throwIf (¬isDecision (record.lookup "decision"))
      (malformedBundle "Approval decision is not a Core decision." (path ++ ".decision"))
    throwIf (¬isSignatureObject (record.lookup "signature"))
      (malformedBundle "Approval signature must be a signature object." (path ++ ".signature"))
    throwIf (¬isMpasTimestamp platform (record.lookup "createdAt"))
      (malformedBundle "Approval createdAt must be an MPAS timestamp." (path ++ ".createdAt"))
    throwIf (hasOwn record "expiresAt" ∧ ¬isMpasTimestamp platform (record.lookup "expiresAt"))
      (malformedBundle "Approval expiresAt must be an MPAS timestamp." (path ++ ".expiresAt"))
  | _ => .error (malformedBundle "Approval must be a JSON object." path)

def validateApprovalStructures : Nat → List Json → Except Rejection Unit
  | _, [] => .ok ()
  | index, approval :: rest => do
    validateApprovalStructure platform approval (approvalPath index)
    validateApprovalStructures (index + 1) rest

def validateApprovalBundleStructure (bundle : Json) : Except Rejection Unit :=
  match bundle with
  | .obj record => do
    rejectUndeclared record bundleKeys fun key =>
      malformedBundle "Approval Bundle contains an undeclared field." ("$.approvalBundle." ++ key)
    throwIf (record.lookup "version" ≠ some (.str "1"))
      (malformedBundle "Approval Bundle version must be \"1\"." "$.approvalBundle.version")
    throwIf (record.lookup "type" ≠ some (.str "ApprovalBundle"))
      (malformedBundle "Approval Bundle type must be \"ApprovalBundle\"." "$.approvalBundle.type")
    throwIf (¬isHashObject (record.lookup "actionEnvelopeHash"))
      (malformedBundle "Approval Bundle actionEnvelopeHash must be a hash object."
        "$.approvalBundle.actionEnvelopeHash")
    throwIf (hasOwn record "assembledBy" ∧ ¬isDid (record.lookup "assembledBy"))
      (malformedBundle "Approval Bundle assembledBy must be a DID." "$.approvalBundle.assembledBy")
    throwIf (hasOwn record "createdAt" ∧ ¬isMpasTimestamp platform (record.lookup "createdAt"))
      (malformedBundle "Approval Bundle createdAt must be an MPAS timestamp."
        "$.approvalBundle.createdAt")
    match record.lookup "approvals" with
    | some (.arr (approval :: rest)) => validateApprovalStructures platform 0 (approval :: rest)
    | _ => .error (malformedBundle "Approval Bundle approvals must be a non-empty array."
        "$.approvalBundle.approvals")
  | _ => .error (malformedBundle "Approval Bundle must be a JSON object." "$.approvalBundle")

/-! ## The package -/

def packageKeys : List String :=
  ["version", "type", "executionPayload", "actionEnvelope", "approvalBundle", "createdAt"]

def invalidPackage (message path : String) : Rejection := ⟨.INVALID_ACTION_PACKAGE, message, path⟩

/-- An error of a part, as one of the package. -/
def asParseError (rejection : Rejection) (path : String) : Rejection :=
  { rejection with code := .INVALID_ACTION_PACKAGE, path }

def parseEnvelope (envelope : Option Json) : Except Rejection Unit :=
  match envelope with
  | none => .error (invalidPackage "Action Package missing required field: actionEnvelope"
      "$.actionEnvelope")
  | some (.obj envelope) =>
    (validateActionEnvelope platform (.obj envelope)
      { checkExpiry := false, checkTime := false, now := platform.clock }).mapError
        fun rejection => asParseError rejection
          ("$.actionEnvelope" ++ (rejection.path.drop 1).toString)
  | some _ => .error (invalidPackage "Action Package field actionEnvelope must be a JSON object."
      "$.actionEnvelope")

def parseBundle (bundle : Option Json) : Except Rejection Unit :=
  match bundle with
  | none => .error (invalidPackage "Action Package missing required field: approvalBundle"
      "$.approvalBundle")
  | some (.obj bundle) =>
    (validateApprovalBundleStructure platform (.obj bundle)).mapError
      fun rejection => asParseError rejection rejection.path
  | some _ => .error (invalidPackage "Action Package field approvalBundle must be a JSON object."
      "$.approvalBundle")

/-- The package as it came, when it has its shape. -/
def parseActionPackage (json : Json) : Except Rejection Json :=
  match json with
  | .obj record => do
    rejectUndeclared record packageKeys fun key =>
      invalidPackage "Action Package contains an undeclared field." ("$." ++ key)
    throwIf (record.lookup "version" ≠ some (.str "1"))
      (invalidPackage "Action Package version must be \"1\"." "$.version")
    throwIf (record.lookup "type" ≠ some (.str "ActionPackage"))
      (invalidPackage "Action Package type must be \"ActionPackage\"." "$.type")
    throwIf (hasOwn record "executionPayload" = false)
      (invalidPackage "Action Package missing required field: executionPayload"
        "$.executionPayload")
    throwIf (record.lookup "executionPayload" = some .null)
      (invalidPackage "Action Package executionPayload must not be null." "$.executionPayload")
    parseEnvelope platform (record.lookup "actionEnvelope")
    parseBundle platform (record.lookup "approvalBundle")
    throwIf (hasOwn record "createdAt" ∧ ¬isMpasTimestamp platform (record.lookup "createdAt"))
      (invalidPackage "Action Package createdAt must be an MPAS timestamp." "$.createdAt")
    return json
  | _ => .error (invalidPackage "Action Package must be a JSON object." "$")

/-! ## Signers -/

structure TrustedSigner where
  did : Did
  publicJwk : Option Json := none

def isDidJwk (did : Did) : Bool := "did:jwk:".toList.isPrefixOf did.toList

/-- For a did:jwk the key in the DID, whatever is configured. -/
def resolveTrustedSignerJwk (signer : TrustedSigner) : Option Json :=
  if isDidJwk signer.did then platform.didJwkToJwk signer.did else signer.publicJwk

/-- The key identifier that the header of the signature must name; `none` where it throws. -/
def verificationKid (publicKey : Json) (did : Did) : Option String :=
  if isDidJwk did then
    match platform.didJwkToJwk did with
    | some jwk => if platform.samePublicKey jwk publicKey then some (did ++ "#0") else none
    | none => none
  else
    match publicKey.member "kid" with
    | some (.str kid) => if kid = "" then none else some kid
    | _ => none

/-- A map by DID: of two signers with one DID the later. -/
def trustedByDid (trustedSigners : List TrustedSigner) (did : Did) : Option TrustedSigner :=
  trustedSigners.reverse.find? fun signer => decide (signer.did = did)

/-! ## Approvals -/

inductive ApprovalBundleCode
  | ACTION_ENVELOPE_HASH_MISMATCH
  | APPROVAL_HASH_MISMATCH
  | MALFORMED_APPROVAL_BUNDLE
  | UNTRUSTED_SIGNER
  | INVALID_SIGNATURE
  | APPROVAL_PAYLOAD_MISMATCH
  | NON_CANONICAL_APPROVAL_PAYLOAD
  | APPROVAL_TIME_INVALID
  deriving DecidableEq, Repr

structure ApprovalBundleError where
  code : ApprovalBundleCode
  message : String
  path : String
  deriving DecidableEq, Repr

structure ApprovalTimeOptions where
  actionEnvelope : Json
  now : JsNumber
  timestampToleranceMs : JsNumber

structure VerifiedApproval where
  approval : Json
  signerDid : Did
  decision : Option Json
  createdAt : Option Json

structure VerifiedApprovals where
  actionEnvelopeHash : HashObject
  approvals : List VerifiedApproval

def payloadKeys : List String :=
  ["type", "actionEnvelopeHash", "decision", "signerDid", "createdAt", "expiresAt"]

def isCanonicalApprovalPayload (value : Json) : Bool :=
  isRecordOf payloadKeys (some value) &&
    decide (at? (some value) ["type"] = some (.str "ApprovalPayload")) &&
    isHashObject (at? (some value) ["actionEnvelopeHash"]) &&
    isDecision (at? (some value) ["decision"]) &&
    isDid (at? (some value) ["signerDid"]) &&
    isMpasTimestamp platform (at? (some value) ["createdAt"]) &&
    ((at? (some value) ["expiresAt"]).isNone ||
      isMpasTimestamp platform (at? (some value) ["expiresAt"]))

/-- The middle part of a compact JWS. -/
def payloadPart (jws : String) : Option String :=
  ((jws.toList.splitOn '.')[1]?).map String.ofList

/-- The value that the signer signed, before the signature is checked. -/
def decodeApprovalJws (approval : Json) : Except (ApprovalBundleCode × String) Json :=
  match at? (some approval) ["signature", "value"] with
  | some (.str jws) =>
    match payloadPart jws with
    | some part =>
      let payloadText := platform.text (platform.decodeBase64url part)
      match platform.strictJsonParse payloadText with
      | some payload =>
        if isCanonicalApprovalPayload platform payload = false then
          .error (.APPROVAL_PAYLOAD_MISMATCH, "Signed Approval payload is malformed.")
        else if platform.canonicalize payload ≠ payloadText then
          .error (.NON_CANONICAL_APPROVAL_PAYLOAD,
            "Signed Approval payload bytes are not JCS canonical.")
        else .ok payload
      | none => .error (.APPROVAL_PAYLOAD_MISMATCH, "Signed Approval payload is malformed.")
    | none => .error (.APPROVAL_PAYLOAD_MISMATCH, "Signed Approval payload is malformed.")
  | _ => .error (.APPROVAL_PAYLOAD_MISMATCH, "Signed Approval payload is malformed.")

/-- Where an Approval has no end of its own, it ends with its envelope. -/
def effectiveExpiresAt (approval actionEnvelope : Json) : JsNumber :=
  match at? (some approval) ["expiresAt"] with
  | some value =>
    if value.truthy then timeOf platform (some value)
    else timeOf platform (at? (some actionEnvelope) ["expiresAt"])
  | none => timeOf platform (at? (some actionEnvelope) ["expiresAt"])

/-- The field and the message of the first time rule that is broken. -/
def validateApprovalTime (approval : Json) (options : ApprovalTimeOptions) :
    Option (String × String) :=
  let now := options.now
  let tolerance := options.timestampToleranceMs
  let createdAt := timeOf platform (at? (some approval) ["createdAt"])
  let envelopeCreatedAt := timeOf platform (at? (some options.actionEnvelope) ["createdAt"])
  let envelopeExpiresAt := timeOf platform (at? (some options.actionEnvelope) ["expiresAt"])
  let expiresAt := effectiveExpiresAt platform approval options.actionEnvelope
  if (now.add tolerance).lt createdAt then
    some ("createdAt", "Approval createdAt is beyond the accepted clock tolerance.")
  else if createdAt.lt (sub envelopeCreatedAt tolerance) then
    some ("createdAt", "Approval createdAt is before the Action Envelope temporal window.")
  else if (envelopeExpiresAt.add tolerance).lt createdAt then
    some ("createdAt", "Approval createdAt is after the Action Envelope expiresAt.")
  else if expiresAt.le createdAt then
    some ("expiresAt", "Approval expiresAt must be after createdAt.")
  else if (envelopeExpiresAt.add tolerance).lt expiresAt then
    some ("expiresAt", "Approval expiresAt cannot outlive the Action Envelope.")
  else if expiresAt.le (sub now tolerance) then
    some ("expiresAt", "Approval is expired.")
  else none

/-- What the loop does with one Approval. -/
def verifyApproval (trustedSigners : List TrustedSigner) (actionEnvelopeHash : HashObject)
    (options : ApprovalTimeOptions) (path : String) (approval : Json) :
    Except ApprovalBundleError VerifiedApproval := do
  throwIf (¬hashesEqual (at? (some approval) ["actionEnvelopeHash"])
      (some (hashJson actionEnvelopeHash)))
    ⟨.APPROVAL_HASH_MISMATCH,
      "Approval actionEnvelopeHash does not match the Action Envelope hash.",
      path ++ ".actionEnvelopeHash"⟩
  let payload ← (decodeApprovalJws platform approval).mapError fun (code, message) =>
    ⟨code, message, path ++ ".signature.value"⟩
  match at? (some payload) ["signerDid"], at? (some approval) ["signature", "value"] with
  | some (.str signerDid), some (.str jws) => do
    match trustedByDid trustedSigners signerDid with
    | none => .error ⟨.UNTRUSTED_SIGNER, "Approval signer is not trusted.", path ++ ".signature"⟩
    | some trustedSigner =>
      match resolveTrustedSignerJwk platform trustedSigner with
      | none => .error ⟨.UNTRUSTED_SIGNER,
          "No verification key could be resolved for the trusted signer.", path ++ ".signature"⟩
      | some signerJwk => do
        throwIf (¬(verificationKid platform signerJwk trustedSigner.did).any
            (platform.verifySuiteCompactJws jws signerJwk))
          ⟨.INVALID_SIGNATURE, "Approval signature could not be verified.", path ++ ".signature"⟩
        throwIf (¬(hashesEqual (at? (some payload) ["actionEnvelopeHash"])
              (at? (some approval) ["actionEnvelopeHash"]) ∧
            Json.strictEquals (at? (some payload) ["decision"])
              (at? (some approval) ["decision"]) ∧
            Json.strictEquals (at? (some payload) ["createdAt"])
              (at? (some approval) ["createdAt"]) ∧
            Json.strictEquals (at? (some payload) ["expiresAt"])
              (at? (some approval) ["expiresAt"]) ∧
            signerDid = trustedSigner.did))
          ⟨.APPROVAL_PAYLOAD_MISMATCH,
            "Signed Approval payload does not match the top-level Approval fields.", path⟩
        match validateApprovalTime platform approval options with
        | some (field, message) =>
          .error ⟨.APPROVAL_TIME_INVALID, message, path ++ "." ++ field⟩
        | none => return {
            approval, signerDid := trustedSigner.did
            decision := at? (some approval) ["decision"]
            createdAt := at? (some approval) ["createdAt"] }
  | _, _ => .error ⟨.UNTRUSTED_SIGNER, "Approval payload does not identify a trusted signer.", path⟩

def verifyApprovals (trustedSigners : List TrustedSigner) (actionEnvelopeHash : HashObject)
    (options : ApprovalTimeOptions) :
    Nat → List Json → Except ApprovalBundleError (List VerifiedApproval)
  | _, [] => .ok []
  | index, approval :: rest => do
    let verified ← verifyApproval platform trustedSigners actionEnvelopeHash options
      (approvalPath index) approval
    let others ← verifyApprovals trustedSigners actionEnvelopeHash options (index + 1) rest
    return verified :: others

/-- The elements of `bundle.approvals`. -/
def approvalsOf (bundle : Json) : List Json :=
  match at? (some bundle) ["approvals"] with
  | some (.arr approvals) => approvals
  | _ => []

def verifyApprovalBundle (bundle : Json) (actionEnvelopeHash : HashObject)
    (trustedSigners : List TrustedSigner) (options : ApprovalTimeOptions) :
    Except ApprovalBundleError VerifiedApprovals := do
  (validateApprovalBundleStructure platform bundle).mapError fun rejection =>
    ⟨.MALFORMED_APPROVAL_BUNDLE, rejection.message, rejection.path⟩
  throwIf (¬hashesEqual (at? (some bundle) ["actionEnvelopeHash"])
      (some (hashJson actionEnvelopeHash)))
    ⟨.ACTION_ENVELOPE_HASH_MISMATCH,
      "Approval Bundle actionEnvelopeHash does not match the Action Envelope hash.",
      "$.approvalBundle.actionEnvelopeHash"⟩
  let approvals ← verifyApprovals platform trustedSigners actionEnvelopeHash options 0
    (approvalsOf bundle)
  return { actionEnvelopeHash, approvals }

/-! ## The Verifier's configuration -/

structure TrustedExecutionProfile where
  id : Did
  format : String
  validatePayload : Json → Bool
  hashPayload : Json → HashObject
  validateActionId : Option (Json → Bool) := none

structure TrustedApplicationProfile where
  applicationDid : Did
  executionProfile : TrustedExecutionProfile

structure VerificationConfig where
  trustedSigners : List TrustedSigner
  trustedApplicationProfiles : Option (List TrustedApplicationProfile) := none
  trustedApplicationDids : Option (List Did) := none
  now : Option JsNumber := none
  timestampToleranceMs : Option JsNumber := none
  maxEnvelopeValidityMs : Option JsNumber := none

def isMcpToolCallPayload (payload : Json) : Bool :=
  isRecordOf ["name", "arguments"] (some payload) &&
    isNonEmptyText (at? (some payload) ["name"]) &&
    match at? (some payload) ["arguments"] with
    | some (.obj _) => true
    | _ => false

/-- The text has at each place of the template one of its characters. -/
def fitsClasses : List (Char → Bool) → List Char → Bool
  | [], [] => true
  | isOne :: template, c :: text => isOne c && fitsClasses template text
  | _, _ => false

def isHex (c : Char) : Bool := c.isDigit || ('a' ≤ c && c ≤ 'f') || ('A' ≤ c && c ≤ 'F')

/-- A letter of the pattern `/.../i`, in either case. -/
def isLetter (letter : Char) (c : Char) : Bool := c.toLower == letter

/-- `/^urn:uuid:[0-9a-f]{8}-[0-9a-f]{4}-[1-8][0-9a-f]{3}-[89ab][0-9a-f]{3}-[0-9a-f]{12}$/i` -/
def isUuidUrn (text : List Char) : Bool :=
  fitsClasses (("urn:uuid:".toList.map isLetter) ++ List.replicate 8 isHex ++ [(· == '-')] ++
    List.replicate 4 isHex ++ [(· == '-'), fun c => '1' ≤ c && c ≤ '8'] ++
    List.replicate 3 isHex ++ [(· == '-'), fun c => "89abAB".toList.contains c] ++
    List.replicate 3 isHex ++ [(· == '-')] ++ List.replicate 12 isHex) text

/-- `/^urn:ulid:[0-9A-HJKMNP-TV-Z]{26}$/` -/
def isUlidUrn (text : List Char) : Bool :=
  fitsClasses ("urn:ulid:".toList.map (fun letter c => c == letter) ++
    List.replicate 26 fun c => c.isDigit || c.isUpper && !"ILOU".toList.contains c) text

def hasSafeReplayDomain (actionId : Json) : Bool :=
  (match at? (some actionId) ["value"] with
    | some (.str value) =>
      isUuidUrn value.toList || isUlidUrn value.toList || isDidText value.toList
    | _ => false) || isNonEmptyText (at? (some actionId) ["scope"])

def MCP_TOOL_CALL_EXECUTION_PROFILE : TrustedExecutionProfile where
  id := "did:web:profiles.oma3.org:mcp"
  format := "mcp.toolsCall"
  validatePayload := isMcpToolCallPayload
  hashPayload := platform.computeJsonHash
  validateActionId := some hasSafeReplayDomain

def trustedApplicationBindings (config : VerificationConfig) : List TrustedApplicationProfile :=
  match config.trustedApplicationProfiles with
  | some profiles => profiles
  | none => (config.trustedApplicationDids.getD []).map fun applicationDid =>
      ⟨applicationDid, MCP_TOOL_CALL_EXECUTION_PROFILE platform⟩

def DEFAULT_MAX_ENVELOPE_VALIDITY_MS : JsNumber := .finite (24 * 60 * 60 * 1000)

def exceedsMaxEnvelopeValidity (envelope : Json) (maxValidityMs now : JsNumber) : Bool :=
  let expiresAt := timeOf platform (at? (some envelope) ["expiresAt"])
  if expiresAt = .nan then false else maxValidityMs.lt (sub expiresAt now)

def verifyPayloadBinding (payload envelope : Json) (profile : TrustedExecutionProfile) : Bool :=
  profile.validatePayload payload && hashesEqual (some (hashJson (profile.hashPayload payload)))
    (at? (some envelope) ["executionPayloadHash"])

def operationNameFromPayload (payload : Json) : Option String :=
  match at? (some payload) ["name"] with
  | some (.str name) => some name
  | _ => none

/-! ## The chain -/

structure Verified where
  actionId : Option Json
  applicationDid : Option Json
  operationName : Option String
  verifiedApprovals : VerifiedApprovals

/-- A member that the shape of the package promises. -/
def part (actionPackage : Json) (name : String) : Json :=
  (actionPackage.member name).getD .null

/-- The checks in front of the Approval Bundle. -/
def verifyAction (config : VerificationConfig) (actionPackage : Json) : Except Rejection Unit := do
  let now := config.now.getD platform.clock
  let timestampToleranceMs := config.timestampToleranceMs.getD (.finite 0)
  let envelope := part actionPackage "actionEnvelope"
  let payload := part actionPackage "executionPayload"
  validateActionEnvelope platform envelope { now, timestampToleranceMs }
  throwIf (exceedsMaxEnvelopeValidity platform envelope
      (config.maxEnvelopeValidityMs.getD DEFAULT_MAX_ENVELOPE_VALIDITY_MS) now)
    ⟨.ENVELOPE_VALIDITY_TOO_LONG,
      "Action Envelope remaining validity exceeds the configured maximum.",
      "$.actionEnvelope.expiresAt"⟩
  let applicationMatches := (trustedApplicationBindings platform config).filter fun binding =>
    some (.str binding.applicationDid) = at? (some envelope) ["target", "applicationDid"]
  throwIf (applicationMatches.isEmpty)
    ⟨.UNKNOWN_APPLICATION, "Action Envelope target.applicationDid is not trusted.",
      "$.actionEnvelope.target.applicationDid"⟩
  match applicationMatches.find? fun binding =>
      some (.str binding.executionProfile.id) = at? (some envelope) ["executionProfile", "id"] ∧
        some (.str binding.executionProfile.format) =
          at? (some envelope) ["executionProfile", "format"] with
  | none => .error ⟨.UNSUPPORTED_EXECUTION_PROFILE,
      "Action Envelope execution profile is not authorized for the target Application.",
      "$.actionEnvelope.executionProfile"⟩
  | some binding => do
    let executionProfile := binding.executionProfile
    throwIf (¬executionProfile.validatePayload payload)
      ⟨.INVALID_EXECUTION_PAYLOAD,
        "Execution Payload is malformed for the declared execution profile.",
        "$.executionPayload"⟩
    throwIf (¬(executionProfile.validateActionId.getD hasSafeReplayDomain)
        (part envelope "actionId"))
      ⟨.INVALID_ACTION_ID,
        "Action ID is not globally unique and has no trusted replay-domain scope.",
        "$.actionEnvelope.actionId.scope"⟩
    throwIf (¬verifyPayloadBinding payload envelope executionProfile)
      ⟨.PAYLOAD_HASH_MISMATCH, "Execution Payload hash does not match the Action Envelope.",
        "$.actionEnvelope.executionPayloadHash"⟩

def verifyActionPackage (config : VerificationConfig) (actionPackage : Json) :
    Except Rejection Verified := do
  let now := config.now.getD platform.clock
  let timestampToleranceMs := config.timestampToleranceMs.getD (.finite 0)
  let envelope := part actionPackage "actionEnvelope"
  let bundle := part actionPackage "approvalBundle"
  let _ ← (parseActionPackage platform actionPackage).mapError fun rejection =>
    if "$.approvalBundle".toList.isPrefixOf rejection.path.toList then
      { rejection with code := .MALFORMED_APPROVAL_BUNDLE }
    else rejection
  verifyAction platform config actionPackage
  validateApprovalBundleStructure platform bundle
  let verifiedApprovals ← (verifyApprovalBundle platform bundle
      (platform.computeJsonHash envelope) config.trustedSigners
      { actionEnvelope := envelope, now, timestampToleranceMs }).mapError fun error =>
    ⟨.APPROVAL_BUNDLE_INVALID, error.message, error.path⟩
  throwIf (¬verifiedApprovals.approvals.any fun verified =>
      decide (verified.decision = some (.str "propose")) &&
        decide (some (.str verified.signerDid) = at? (some envelope) ["proposer", "did"]))
    ⟨.MISSING_PROPOSER_APPROVAL,
      "Approval Bundle must include a verified propose Approval from actionEnvelope.proposer.did.",
      "$.approvalBundle.approvals"⟩
  return {
    actionId := at? (some envelope) ["actionId", "value"]
    applicationDid := at? (some envelope) ["target", "applicationDid"]
    operationName := operationNameFromPayload (part actionPackage "executionPayload")
    verifiedApprovals }

end Shapes

end Mpas.PackageVerification
