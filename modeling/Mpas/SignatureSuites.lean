import Mpas.Library.Base64url
import Mpas.Library.Checks
import Mpas.Library.Utf8
import Mpas.StrictJsonParsing

/-!
# Signature suites and key identities

The keys that sign in the protocol, Ed25519 and P-256, as JSON Web Keys; the `did:jwk`
identity that a key is minted; the compact signatures that are made and verified with
them; and the signers that hold a key.

* `resolveSignatureSuite`, `validatePublicJwk`, `validateLocalJwk`: which keys are taken;
* `deriveDidJwk`, `didJwkToJwk`: the identity of a key, and the key of an identity;
* `verifySuiteCompactJws`, `signSuiteCompactJws`: signatures;
* `signMpasCompactJws`, `KeyManager.fromJwk`: signers, and the one that is local.
-/

namespace Mpas.SignatureSuites

open JsonText Checks Base64

inductive Failure
  | error (message : Text)
  /-- of the strict parser -/
  | json (error : StrictJson.ParseError)
  /-- of what node or jose do -/
  | platform (message : Text)

def fail {α : Type} (message : String) : Except Failure α := .error (.error (codes message))

def require (good : Prop) [Decidable good] (message : String) : Except Failure Unit :=
  throwIf (¬good) (.error (codes message))

inductive SignatureSuiteId
  | Ed25519
  | P256
  deriving DecidableEq

def SignatureSuiteId.text : SignatureSuiteId → Text
  | .Ed25519 => codes "Ed25519"
  | .P256 => codes "P-256"

inductive KeyOperation
  | sign
  | verify
  deriving DecidableEq

def KeyOperation.text : KeyOperation → Text
  | .sign => codes "sign"
  | .verify => codes "verify"

structure MpasSignatureSuite where
  id : SignatureSuiteId
  kty : Text
  jwsAlgorithm : Text
  httpSignatureAlgorithm : Text
  deriving DecidableEq

def ed25519 : MpasSignatureSuite :=
  { id := .Ed25519, kty := codes "OKP", jwsAlgorithm := codes "EdDSA"
    httpSignatureAlgorithm := codes "ed25519" }

def p256 : MpasSignatureSuite :=
  { id := .P256, kty := codes "EC", jwsAlgorithm := codes "ES256"
    httpSignatureAlgorithm := codes "ecdsa-p256-sha256" }

def suites : List MpasSignatureSuite := [ed25519, p256]

def p256Order : Nat := 0xffffffff00000000ffffffffffffffffbce6faada7179e84f3b9cac2fc632551

def privateMembers : List Text := ["d", "p", "q", "dp", "dq", "qi", "oth", "k"].map codes

/-- What node and jose do. `ν` are the numbers of JSON, `κ` the keys that are imported. -/
structure Platform (ν κ : Type) where
  /-- `Number` of a number's text -/
  number : Text → ν
  /-- how `JSON.stringify` writes a number -/
  written : ν → Text
  /-- whether a number counts as true -/
  truthy : ν → Bool
  canonicalize : Value ν → Text
  /-- `ECDH.convertKey` of the point with these coordinates -/
  convertKey : List UInt8 → List UInt8 → Except Text Unit
  /-- the coordinates of the public key of a P-256 scalar -/
  ecdhPublicKey : List UInt8 → List UInt8 × List UInt8
  /-- the public key of an Ed25519 seed -/
  ed25519PublicKey : List UInt8 → List UInt8
  /-- of a key and an algorithm -/
  importJWK : Value ν → Text → Except Text κ
  /-- the payload, the protected header and the key -/
  compactSign : List UInt8 → Value ν → κ → Except Text Text
  /-- the payload of a compact signature, with the algorithms that are allowed -/
  compactVerify : Text → κ → List Text → Except Text (List UInt8)

variable {ν κ : Type}

/-! ## Members -/

def member (name : String) : Value ν → Option (Value ν)
  | .object members => OrderedMap.lookup (codes name) members
  | _ => none

/-- `Object.hasOwn` -/
def hasOwn (name : Text) : Value ν → Bool
  | .object members => (OrderedMap.lookup name members).isSome
  | _ => false

/-- `value === text` -/
def isText (text : Text) : Option (Value ν) → Bool
  | some (.string s) => decide (s = text)
  | _ => false

def textOf : Option (Value ν) → Option Text
  | some (.string s) => some s
  | _ => none

def isObject : Value ν → Bool
  | .object _ => true
  | _ => false

/-- `value === false` -/
def isFalse : Option (Value ν) → Bool
  | some (.bool false) => true
  | _ => false

/-- `{ ...jwk, [name]: value }` -/
def withMember (name : String) (value : Value ν) : Value ν → Value ν
  | .object members => .object (OrderedMap.write (codes name) value members)
  | jwk => jwk

/-! ## Keys -/

def decodeBase64url (value : Text) (allowEmpty : Bool) : Except Failure (List UInt8) :=
  match urlSafe.digits value with
  | none => fail "Invalid unpadded base64url."
  | some ns => do
    require (allowEmpty ∨ value ≠ []) "Invalid unpadded base64url."
    require (urlSafe.encode (octets ns) = value) "Non-canonical base64url."
    return octets ns

def fixedBytes (value : Option (Value ν)) (name : String) : Except Failure (List UInt8) :=
  match textOf value with
  | none => fail ("JWK " ++ name ++ " must be base64url-encoded 32 bytes.")
  | some text => do
    let decoded ← decodeBase64url text false
    require (decoded.length = 32) ("JWK " ++ name ++ " must contain exactly 32 bytes.")
    return decoded

/-- `BigInt` of the bytes in base 16. -/
def bigEndian (bytes : List UInt8) : Nat := bytes.foldl (fun n b => n * 256 + b.toNat) 0

def validScalar (bytes : List UInt8) : Bool :=
  decide (0 < bigEndian bytes ∧ bigEndian bytes < p256Order)

def keyOperation (op : Value ν) : Option KeyOperation :=
  if isText (codes "sign") (some op) then some .sign
  else if isText (codes "verify") (some op) then some .verify
  else none

/-- The checks of `key_ops` throw one error; that its members are among the two operations
is looked at before that they differ. -/
def permits (value : Option (Value ν)) (operation : Option KeyOperation) : Bool :=
  match value with
  | some (.array values) =>
    match values.mapM keyOperation with
    | some ops => !ops.isEmpty && decide ops.Nodup && operation.all ops.contains
    | none => false
  | _ => false

def validateMetadata (jwk : Value ν) (suite : MpasSignatureSuite)
    (operation : Option KeyOperation) : Except Failure Unit := do
  require (hasOwn (codes "alg") jwk → isText suite.jwsAlgorithm (member "alg" jwk))
    "JWK alg does not match its suite."
  require (hasOwn (codes "use") jwk → isText (codes "sig") (member "use" jwk))
    "JWK use must permit signatures."
  require (hasOwn (codes "key_ops") jwk → permits (member "key_ops" jwk) operation)
    "JWK key_ops does not permit this operation."

section Keys

variable (platform : Platform ν κ)

/-- A point is looked at by OpenSSL: the bounds of the field, and whether it is on the curve. -/
def checkPoint (suite : MpasSignatureSuite) (x : List UInt8) (jwk : Value ν) :
    Except Failure Unit :=
  if suite.id = .P256 then do
    let y ← fixedBytes (member "y" jwk) "y"
    (platform.convertKey x y).mapError .platform
  else pure ()

def resolveSignatureSuite (jwk : Value ν) : Except Failure MpasSignatureSuite := do
  require (isObject jwk) "JWK must be an object."
  match suites.filter fun suite => isText suite.kty (member "kty" jwk) &&
      isText suite.id.text (member "crv" jwk) with
  | [suite] =>
    let x ← fixedBytes (member "x" jwk) "x"
    checkPoint platform suite x jwk
    validateMetadata jwk suite none
    return suite
  | _ => fail "Unsupported or ambiguous MPAS public-key suite."

def validatePublicJwk (jwk : Value ν) (operation : Option KeyOperation) :
    Except Failure MpasSignatureSuite := do
  let suite ← resolveSignatureSuite platform jwk
  require (¬privateMembers.any fun name => hasOwn name jwk)
    "Public JWK must not contain private key material."
  validateMetadata jwk suite operation
  return suite

def publicJwkFromLocal : Value ν → Value ν
  | .object members => .object (members.filter fun entry => !privateMembers.contains entry.1)
  | jwk => jwk

/-- A member of an object literal; `JSON.stringify` leaves out what is undefined. -/
def own (name : String) (jwk : Value ν) : List (Text × Value ν) :=
  ((member name jwk).map fun value => (codes name, value)).toList

def normalizePublicJwk (jwk : Value ν) : Except Failure (Value ν) := do
  let suite ← validatePublicJwk platform jwk none
  return .object ([(codes "crv", .string suite.id.text), (codes "kty", .string suite.kty)] ++
    own "x" jwk ++ if suite.id = .P256 then own "y" jwk else [])

/-- The public members that the private one has. -/
def derivedMembers (suite : MpasSignatureSuite) (d : List UInt8) :
    Except Failure (Text × Option Text) :=
  match suite.id with
  | .P256 => do
    require (validScalar d) "Invalid P-256 private scalar."
    let point := platform.ecdhPublicKey d
    return (urlSafe.encode point.1, some (urlSafe.encode point.2))
  | .Ed25519 => return (urlSafe.encode (platform.ed25519PublicKey d), none)

def validateLocalJwk (jwk : Value ν) : Except Failure MpasSignatureSuite := do
  let suite ← resolveSignatureSuite platform jwk
  require (¬(privateMembers.filter (· ≠ codes "d")).any fun name => hasOwn name jwk)
    "Unsupported private JWK parameters."
  if hasOwn (codes "d") jwk then
    let d ← fixedBytes (member "d" jwk) "d"
    let (x, y) ← derivedMembers platform suite d
    require (isText x (member "x" jwk) ∧ ∀ text ∈ y, isText text (member "y" jwk))
      "Public and private JWK material do not match."
    return suite
  else validatePublicJwk platform jwk none

def samePublicKey (left right : Value ν) : Except Failure Bool := do
  let left ← normalizePublicJwk platform left
  let right ← normalizePublicJwk platform right
  return decide (left.stringify platform.written = right.stringify platform.written)

/-! ## Signatures -/

def validateSignatureEncoding (suite : MpasSignatureSuite) (signature : List UInt8) :
    Except Failure Unit := do
  require (signature.length = 64) "MPAS signatures must be exactly 64 raw bytes."
  require (suite.id = .P256 → validScalar (signature.take 32) ∧ validScalar (signature.drop 32))
    "Invalid P-256 signature scalar."

def signSuiteCompactJws (jwk : Value ν) (payload : List UInt8) (kid : Text) :
    Except Failure Text := do
  let suite ← validateLocalJwk platform jwk
  require (hasOwn (codes "d") jwk) "Signing requires private key material."
  validateMetadata jwk suite (some .sign)
  let key ← (platform.importJWK jwk suite.jwsAlgorithm).mapError .platform
  let header := .object [(codes "alg", .string suite.jwsAlgorithm), (codes "kid", .string kid)]
  (platform.compactSign payload header key).mapError .platform

def verifySuiteCompactJws (jws : Text) (publicJwk : Value ν) (expectedKid : Text) :
    Except Failure (List UInt8) := do
  let suite ← validatePublicJwk platform publicJwk (some .verify)
  match jws.splitOn (code '.') with
  | [headerPart, payloadPart, signaturePart] =>
    let decoded ← decodeBase64url headerPart false
    let header ← (StrictJson.strictJsonParse platform.number (Utf8.decode decoded)).mapError .json
    require (isObject header ∧ isText suite.jwsAlgorithm (member "alg" header) ∧
        isText expectedKid (member "kid" header) ∧ ¬isFalse (member "b64" header))
      "Invalid protected JWS algorithm or key identifier."
    let _ ← decodeBase64url payloadPart true
    let signature ← decodeBase64url signaturePart false
    validateSignatureEncoding suite signature
    let key ← (platform.importJWK publicJwk suite.jwsAlgorithm).mapError .platform
    (platform.compactVerify jws key [suite.jwsAlgorithm]).mapError .platform
  | _ => fail "Invalid compact JWS."

/-! ## Identities -/

def didPrefix : Text := codes "did:jwk:"

def isDidJwk (did : Text) : Bool := didPrefix.isPrefixOf did

def deriveDidJwk (jwk : Value ν) : Except Failure Text := do
  let _ ← validateLocalJwk platform jwk
  let minimalPublicJwk ← normalizePublicJwk platform (publicJwkFromLocal jwk)
  return didPrefix ++ urlSafe.encode (Utf8.encode (platform.canonicalize minimalPublicJwk))

def didJwkToJwk (did : Text) : Except Failure (Value ν) := do
  throwIf (¬isDidJwk did) (.error (codes "Not a did:jwk DID: " ++ did))
  let encoded := did.drop didPrefix.length
  require (encoded ≠ [] ∧ (urlSafe.digits encoded).isSome)
    "did:jwk payload is not canonical unpadded base64url."
  match urlSafe.decode encoded with
  | none => fail "did:jwk payload is not valid base64url-encoded JSON."
  | some decoded =>
    match StrictJson.strictJsonParse platform.number (Utf8.decode decoded) with
    | .error _ => fail "did:jwk payload is not valid base64url-encoded JSON."
    | .ok jwk => do
      require (isObject jwk) "did:jwk payload must be a JWK object."
      let _ ← validatePublicJwk platform jwk (some .verify)
      return jwk

def didJwkToKid (did : Text) : Text := did ++ codes "#0"

/-- A DID of a trusted identity; without one the key is its own identity. -/
def verificationKid (publicKey : Value ν) (did : Option Text) : Except Failure Text := do
  let identity ← did.elim (deriveDidJwk platform publicKey) pure
  if isDidJwk identity then
    let embedded ← didJwkToJwk platform identity
    let same ← samePublicKey platform embedded publicKey
    require (same = true) "Verification key does not match DID."
    return didJwkToKid identity
  else
    match textOf (member "kid" publicKey) with
    | some (c :: kid) => return c :: kid
    | _ => fail "Trusted key binding requires kid."

/-! ## Signers -/

structure MpasSignerIdentity (ν : Type) where
  did : Text
  kid : Text
  algorithm : Text
  publicKey : Value ν

/-- A provider of signatures; what it returns is its own affair. -/
structure MpasJwsSigner (ν : Type) extends MpasSignerIdentity ν where
  signCompactJws : List UInt8 → Except Failure Text

/-- An identity with a key in it has this one. -/
def checkEmbedded (signer : MpasSignerIdentity ν) : Except Failure Unit :=
  if isDidJwk signer.did then do
    let embedded ← didJwkToJwk platform signer.did
    let same ← samePublicKey platform embedded signer.publicKey
    require (same = true ∧ signer.kid = didJwkToKid signer.did)
      "Signer DID or kid does not match public key."
  else pure ()

def validateSignerIdentity (signer : MpasSignerIdentity ν) :
    Except Failure MpasSignatureSuite := do
  let suite ← validatePublicJwk platform signer.publicKey none
  require (signer.algorithm = suite.jwsAlgorithm) "Signer algorithm does not match public key."
  require ((codes "did:").isPrefixOf signer.did ∧ signer.kid ≠ [])
    "Signer identity metadata is required."
  checkEmbedded platform signer
  return suite

def forVerification (publicKey : Value ν) : Value ν :=
  withMember "key_ops" (.array [.string (codes "verify")]) publicKey

def signMpasCompactJws (signer : MpasJwsSigner ν) (payload : List UInt8) :
    Except Failure Text := do
  let _ ← validateSignerIdentity platform signer.toMpasSignerIdentity
  let jws ← signer.signCompactJws payload
  let verified ← verifySuiteCompactJws platform jws (forVerification signer.publicKey) signer.kid
  require (payload = verified) "Signer returned a different JWS payload."
  return jws

/-! ## The local signer -/

structure KeyManagerOptions where
  did : Option Text := none
  suite : Option SignatureSuiteId := none

structure KeyManager (ν : Type) where
  jwk : Value ν
  did : Text
  algorithm : Text

/-- `jwk.kid!`; a signer's identity takes no other than a text. -/
def KeyManager.kid (manager : KeyManager ν) : Text :=
  (textOf (member "kid" manager.jwk)).getD []

def KeyManager.publicKey (manager : KeyManager ν) : Value ν := publicJwkFromLocal manager.jwk

def KeyManager.identity (manager : KeyManager ν) : MpasSignerIdentity ν :=
  { did := manager.did, kid := manager.kid, algorithm := manager.algorithm
    publicKey := manager.publicKey }

def KeyManager.signer (manager : KeyManager ν) : MpasJwsSigner ν :=
  { manager.identity with
    signCompactJws := fun payload => signSuiteCompactJws platform manager.jwk payload manager.kid }

/-- Whether a value counts as true. -/
def truthy : Value ν → Bool
  | .null => false
  | .bool b => b
  | .number n => platform.truthy n
  | .string s => !s.isEmpty
  | .array _ => true
  | .object _ => true

/-- Whether a DID has a key in it and it is this one. -/
def embeds (did : Text) (publicKey : Value ν) : Bool :=
  match didJwkToJwk platform did with
  | .error _ => false
  | .ok embedded =>
    match samePublicKey platform embedded publicKey with
    | .error _ => false
    | .ok same => same

def KeyManager.fromJwk (jwk : Value ν) (options : KeyManagerOptions) :
    Except Failure (KeyManager ν) := do
  let suite ← validateLocalJwk platform jwk
  require (∀ selected ∈ options.suite, selected = suite.id)
    "Selected signing suite does not match the configured key."
  let did ← options.did.elim (deriveDidJwk platform jwk) pure
  require (∀ did ∈ options.did, isDidJwk did → embeds platform did (publicJwkFromLocal jwk))
    "Configured DID does not match derived DID key."
  match if isDidJwk did then some (.string (didJwkToKid did)) else member "kid" jwk with
  | none => fail "Explicit non-did:jwk binding requires a configured kid."
  | some kid => do
    require (truthy platform kid) "Explicit non-did:jwk binding requires a configured kid."
    require (isDidJwk did → hasOwn (codes "kid") jwk →
        isText (didJwkToKid did) (member "kid" jwk)) "Configured kid does not match DID."
    let manager : KeyManager ν :=
      { jwk := withMember "kid" kid jwk, did, algorithm := suite.jwsAlgorithm }
    let _ ← validateSignerIdentity platform manager.identity
    return manager

end Keys

end Mpas.SignatureSuites
