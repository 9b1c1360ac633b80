import Mpas.Artifacts

/-!
# Request equivalence

The fingerprint of a request for idempotency: what it consists of once the
metadata of its transport is taken away, layer by layer, hashed.

* `ActionRequest.fingerprint_eq`: the fingerprint of an Action Request does not
  depend on its key.
-/

namespace Mpas

/-- Functions of the platform and of libraries outside the repository. -/
structure Platform where
  computeJsonHash : Json → HashObject
  /-- `Date.parse` in milliseconds; `none` is `NaN` -/
  dateParse : String → Option Int
  /-- origin and protocol of `new URL(text)`; `none` when it throws -/
  urlOrigin : String → Option (String × String)
  /-- `JSON.stringify` -/
  stringify : Json → String

namespace Routing

structure RoutingValidationError where
  message : String
  path : String
  deriving DecidableEq, Repr

def MPAS_MAX_IDEMPOTENCY_KEY_LENGTH : Nat := 128

/-! ## Strings as sequences of UTF-16 code units -/

def codeUnits (c : Char) : List Nat :=
  if c.toNat < 0x10000 then [c.toNat]
  else [0xD800 + (c.toNat - 0x10000) / 0x400, 0xDC00 + (c.toNat - 0x10000) % 0x400]

def utf16 (s : String) : List Nat := s.toList.flatMap codeUnits

/-- `s.length`. -/
def lengthOf (s : String) : Nat := (utf16 s).length

def unitsLe : List Nat → List Nat → Bool
  | [], _ => true
  | _ :: _, [] => false
  | a :: as, b :: bs => if a = b then unitsLe as bs else decide (a < b)

/-- `[...texts].sort()`. -/
def sorted (texts : List String) : List String :=
  texts.mergeSort fun a b => unitsLe (utf16 a) (utf16 b)

/-! ## Checks -/

def requireRecord (value : Option Json) (path message : String) :
    Except RoutingValidationError (List (String × Json)) :=
  match value with
  | some (.obj members) => .ok members
  | _ => .error ⟨message, path⟩

def requireLiteral (platform : Platform) (value : Option Json) (expected path : String) :
    Except RoutingValidationError Unit :=
  if value = some (.str expected) then .ok ()
  else .error ⟨"Expected " ++ platform.stringify (.str expected) ++ ".", path⟩

/-- `/^did:[a-z0-9]+:\S+$/i` -/
def isDidText (text : String) : Bool :=
  match text.toList with
  | d :: i :: d' :: ':' :: rest =>
    let (method, rest) := rest.span fun c => c.isAlphanum
    (d == 'd' || d == 'D') && (i == 'i' || i == 'I') && (d' == 'd' || d' == 'D') &&
      !method.isEmpty && match rest with
        | ':' :: id => !id.isEmpty && id.all fun c => !JsNumber.isStrWhiteSpace c
        | _ => false
  | _ => false

def requireDid (value : Option Json) (path : String) : Except RoutingValidationError Did :=
  match value with
  | some (.str text) =>
    if isDidText text then .ok text else .error ⟨"Expected a DID string.", path⟩
  | _ => .error ⟨"Expected a DID string.", path⟩

/-- The text has a digit at each `0` of the template, and elsewhere its character. -/
def fitsTemplate : List Char → List Char → Bool
  | [], [] => true
  | t :: template, c :: text => (if t = '0' then c.isDigit else t == c) && fitsTemplate template text
  | _, _ => false

def requireTimestamp (platform : Platform) (value : Option Json) (path : String) :
    Except RoutingValidationError Timestamp :=
  match value with
  | some (.str text) =>
    if fitsTemplate "0000-00-00T00:00:00.000Z".toList text.toList ∧
        (platform.dateParse text).isSome then .ok text
    else .error ⟨"Expected an RFC 3339 timestamp.", path⟩
  | _ => .error ⟨"Expected an RFC 3339 timestamp.", path⟩

def requireOrigin (platform : Platform) (value : Option Json) (path : String) :
    Except RoutingValidationError String :=
  match value with
  | some (.str text) =>
    match platform.urlOrigin text with
    | some (origin, protocol) =>
      if origin = text ∧ (protocol = "https:" ∨ protocol = "http:") then .ok text
      else .error ⟨"Expected a canonical HTTP(S) origin.", path⟩
    | none => .error ⟨"Expected a canonical HTTP(S) origin.", path⟩
  | _ => .error ⟨"Expected an audience origin.", path⟩

mutual

def requireJsonValue (path : String) : Json → Except RoutingValidationError Unit
  | .null | .str _ | .bool _ => .ok ()
  | .num n => if n.isFinite then .ok () else .error ⟨"JSON numbers must be finite.", path⟩
  | .arr items => requireJsonItems path 0 items
  | .obj members => requireJsonMembers path members

def requireJsonItems (path : String) (index : Nat) : List Json → Except RoutingValidationError Unit
  | [] => .ok ()
  | item :: items => do
    requireJsonValue (path ++ "[" ++ toString index ++ "]") item
    requireJsonItems path (index + 1) items

def requireJsonMembers (path : String) : List (String × Json) → Except RoutingValidationError Unit
  | [] => .ok ()
  | (key, entry) :: members => do
    requireJsonValue (path ++ "." ++ key) entry
    requireJsonMembers path members

end

/-! ## Delivery Envelopes -/

structure DeliveryEnvelope where
  sender : Did
  recipients : List Did
  createdAt : Timestamp
  payload : Json
  expiresAt : Option Timestamp
  audience : Option String
  deriving DecidableEq

def requireDids (index : Nat) : List Json → Except RoutingValidationError (List Did)
  | [] => .ok []
  | recipient :: recipients => do
    let did ← requireDid (some recipient) ("$.recipients[" ++ toString index ++ "]")
    return did :: (← requireDids (index + 1) recipients)

def parseDeliveryEnvelope (platform : Platform) (value : Json) :
    Except RoutingValidationError DeliveryEnvelope := do
  let object ← requireRecord (some value) "$" "DeliveryEnvelope must be a JSON object."
  requireLiteral platform (object.lookup "version") "1" "$.version"
  requireLiteral platform (object.lookup "type") "DeliveryEnvelope" "$.type"
  let sender ← requireDid (object.lookup "sender") "$.sender"
  let recipients ← match object.lookup "recipients" with
    | some (.arr (first :: rest)) => requireDids 0 (first :: rest)
    | _ => .error ⟨"DeliveryEnvelope.recipients must be a non-empty array.", "$.recipients"⟩
  if ¬ recipients.Nodup then
    .error ⟨"DeliveryEnvelope.recipients must contain unique DIDs.", "$.recipients"⟩
  let createdAt ← requireTimestamp platform (object.lookup "createdAt") "$.createdAt"
  let expiresAt ← match object.lookup "expiresAt" with
    | none => .ok none
    | some value => (requireTimestamp platform (some value) "$.expiresAt").map some
  if expiresAt.any fun text =>
      match platform.dateParse text, platform.dateParse createdAt with
      | some expires, some created => decide (expires ≤ created)
      | _, _ => false then
    .error ⟨"DeliveryEnvelope.expiresAt must be later than createdAt.", "$.expiresAt"⟩
  let audience ← match object.lookup "audience" with
    | none => .ok none
    | some value => (requireOrigin platform (some value) "$.audience").map some
  match object.lookup "payload" with
  | none => .error ⟨"Expected a JSON value.", "$.payload"⟩
  | some payload =>
    requireJsonValue "$.payload" payload
    return { sender, recipients, createdAt, payload, expiresAt, audience }

/-! ## Fingerprints -/

def requestTypes : List String :=
  ["ActionRequest", "CoordinationActionRequest", "CoordinationApprovalSubmission",
    "CoordinationActionCancelRequest"]

/-- A request without its key and its audience. -/
def requestProjection (path : String) (members : List (String × Json)) :
    Except RoutingValidationError Json := do
  let projection := members.filter fun m => m.1 ≠ "idempotencyKey" ∧ m.1 ≠ "audience"
  requireJsonValue path (.obj projection)
  return .obj projection

mutual

def idempotencyProjection (platform : Platform) (path : String) :
    Json → Except RoutingValidationError Json
  | .obj members =>
    if members.lookup "type" = some (.str "DeliveryEnvelope") then do
      let envelope ← parseDeliveryEnvelope platform (.obj members)
      let payload ← payloadProjection platform (path ++ ".payload") members
      return .obj [("version", .str "1"), ("type", .str "DeliveryEnvelope"),
        ("sender", .str envelope.sender),
        ("recipients", .arr ((sorted envelope.recipients).map .str)), ("payload", payload)]
    else if requestTypes.any fun t => members.lookup "type" = some (.str t) then
      requestProjection path members
    else
      .error ⟨"No idempotency equivalence scope is registered for object type " ++
        (match members.lookup "type" with
          | some t => platform.stringify t
          | none => "undefined") ++ ".", path ++ ".type"⟩
  | _ => .error ⟨"Idempotent request layer must be a JSON object.", path⟩

/-- The projection of the member `payload`, which a parsed envelope has. -/
def payloadProjection (platform : Platform) (path : String) :
    List (String × Json) → Except RoutingValidationError Json
  | [] => .error ⟨"Expected a JSON value.", "$.payload"⟩
  | (key, value) :: members =>
    if key = "payload" then idempotencyProjection platform path value
    else payloadProjection platform path members

end

def computeIdempotencyFingerprint (platform : Platform) (request : Json) :
    Except RoutingValidationError String := do
  return (platform.computeJsonHash (← idempotencyProjection platform "$" request)).value

/-! ## Action Requests -/

structure ActionRequest where
  idempotencyKey : String
  actionPackage : Json
  upstreamBinding : Option Json := none
  deriving DecidableEq

def ActionRequest.toJson (request : ActionRequest) : Json :=
  .obj ([("version", .str "1"), ("type", .str "ActionRequest"),
    ("idempotencyKey", .str request.idempotencyKey), ("actionPackage", request.actionPackage)] ++
    match request.upstreamBinding with
    | some binding => [("upstreamBinding", binding)]
    | none => [])

def ActionRequest.fingerprint (platform : Platform) (request : ActionRequest) :
    Except RoutingValidationError String :=
  computeIdempotencyFingerprint platform request.toJson

/-- The key is not part of what is fingerprinted. -/
theorem ActionRequest.fingerprint_eq (platform : Platform) (request : ActionRequest) (key : String) :
    request.fingerprint platform = { request with idempotencyKey := key }.fingerprint platform := by
  obtain ⟨k, package, binding⟩ := request
  cases binding <;>
    simp [ActionRequest.fingerprint, computeIdempotencyFingerprint, ActionRequest.toJson,
      idempotencyProjection, requestProjection, requestTypes, List.lookup_cons]

end Routing

end Mpas
