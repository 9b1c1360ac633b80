import Mpas.Library.Checks
import Mpas.Library.Machine
import Mpas.Library.OrderedMap
import Mpas.Routing

/-!
# Delivery to a Verifier by the Action Relay

The relay numbers the deliveries to its clients and hands out pages of them.
The worker of a Verifier polls page after page, answers each Action of a page,
and moves its cursor past the page; its state is saved to disk at three places,
and a crash at any point leaves what was saved last.

* `RelayStore.pollDeliveries`, `RelayStore.storeEnvelope`: the relay;
* `World`, `step`: the relay, one worker and its disk, cut where the worker waits.
-/

namespace Mpas.RelayDelivery

open Routing (DeliveryEnvelope RoutingValidationError parseDeliveryEnvelope requireRecord
  requireLiteral requireOrigin requireJsonValue lengthOf MPAS_MAX_IDEMPOTENCY_KEY_LENGTH
  computeIdempotencyFingerprint)
open Checks (throwIf)

/-! ## Action Requests as deliveries -/

def envelopeJson (envelope : DeliveryEnvelope) : Json :=
  .obj ([("version", .str "1"), ("type", .str "DeliveryEnvelope"),
    ("sender", .str envelope.sender), ("recipients", .arr (envelope.recipients.map .str)),
    ("createdAt", .str envelope.createdAt), ("payload", envelope.payload)] ++
    optionalMember "expiresAt" envelope.expiresAt ++ optionalMember "audience" envelope.audience)

def isBase64url (c : Char) : Bool := c.isAlphanum || c == '-' || c == '_'

/-- `/^[A-Za-z0-9_-]{43}$/`, and no bits beyond the 32 bytes are set in the last character. -/
def isDigestText (text : String) : Bool :=
  decide (text.toList.length = 43) && text.toList.all isBase64url &&
    text.toList.getLast?.any fun c => "AEIMQUYcgkosw048".toList.contains c

/-- `/^sha256:[a-f0-9]{64}$/` -/
def isUpstreamDigest (text : String) : Bool :=
  "sha256:".toList.isPrefixOf text.toList &&
    let digits := text.toList.drop 7
    decide (digits.length = 64) &&
      digits.all fun c => c.isDigit || (decide ('a' ≤ c) && decide (c ≤ 'f'))

def parseUpstreamBinding (value : Json) : Except RoutingValidationError Json := do
  let binding ← requireRecord (some value) "$.upstreamBinding" "upstreamBinding must be an object."
  let hash ← requireRecord (binding.lookup "toolSurface") "$.upstreamBinding.toolSurface"
    "toolSurface must be a hash."
  let digest := ((hash.lookup "value").bind Json.asString).getD ""
  let upstreamDigest := binding.lookup "upstreamDigest"
  throwIf ((binding.any fun m => !(["toolSurface", "upstreamDigest"].contains m.1)) ||
      (hash.any fun m => !(["alg", "value"].contains m.1)) ||
      decide (hash.lookup "alg" ≠ some (.str "sha-256")) || !isDigestText digest ||
      upstreamDigest.any fun v => !(v.asString.any isUpstreamDigest))
    ⟨"Invalid upstream binding.", "$.upstreamBinding"⟩
  return .obj ([("toolSurface", .obj [("alg", .str "sha-256"), ("value", .str digest)])] ++
    (upstreamDigest.map fun v => ("upstreamDigest", v)).toList)

def validateOptionalIdempotencyKey (value : Option Json) (path : String) :
    Except RoutingValidationError (Option String) :=
  match value with
  | none => .ok none
  | some (.str key) =>
    if lengthOf key = 0 ∨ MPAS_MAX_IDEMPOTENCY_KEY_LENGTH < lengthOf key then
      .error ⟨"idempotencyKey must contain 1 to " ++ toString MPAS_MAX_IDEMPOTENCY_KEY_LENGTH ++
        " characters.", "$.idempotencyKey"⟩
    else .ok (some key)
  | some _ => .error ⟨"idempotencyKey must be a string.", path⟩

def parseActionRequest (platform : Platform) (value : Json) :
    Except RoutingValidationError Json := do
  let object ← requireRecord (some value) "$" "ActionRequest must be a JSON object."
  requireLiteral platform (object.lookup "version") "1" "$.version"
  requireLiteral platform (object.lookup "type") "ActionRequest" "$.type"
  let actionPackage ← requireRecord (object.lookup "actionPackage") "$.actionPackage"
    "ActionRequest.actionPackage is required."
  requireLiteral platform (actionPackage.lookup "version") "1" "$.actionPackage.version"
  requireLiteral platform (actionPackage.lookup "type") "ActionPackage" "$.actionPackage.type"
  let idempotencyKey ← validateOptionalIdempotencyKey (object.lookup "idempotencyKey")
    "$.idempotencyKey"
  let upstreamBinding ← match object.lookup "upstreamBinding" with
    | none => .ok none
    | some binding => (parseUpstreamBinding binding).map some
  let audience ← match object.lookup "audience" with
    | none => .ok none
    | some value => (requireOrigin platform (some value) "$.audience").map some
  let context := object.lookup "context"
  if let some value := context then
    let _ ← requireRecord (some value) "$.context" "ActionRequest.context must be a JSON object."
    requireJsonValue "$.context" value
  return .obj ([("version", .str "1"), ("type", .str "ActionRequest"),
    ("actionPackage", .obj actionPackage)] ++
    (upstreamBinding.map fun v => ("upstreamBinding", v)).toList ++
    optionalMember "idempotencyKey" idempotencyKey ++ optionalMember "audience" audience ++
    (context.map fun v => ("context", v)).toList)

def parseActionRequestEnvelope (platform : Platform) (value : Json) :
    Except RoutingValidationError DeliveryEnvelope := do
  let envelope ← parseDeliveryEnvelope platform value
  let payload ← parseActionRequest platform envelope.payload
  return { envelope with payload }

def isDeliveryEnvelopeExpired (platform : Platform) (envelope : DeliveryEnvelope) (now : Int) :
    Bool :=
  (envelope.expiresAt.bind platform.dateParse).any (· ≤ now)

/-! ## The relay -/

structure StoredDelivery where
  sequence : Nat
  recipient : Did
  envelope : DeliveryEnvelope
  deriving DecidableEq

/-- A page as the relay answers. A delivery is answered without its number and
recipient; they stay with it here to say which delivery it is. -/
structure Page where
  deliveries : List StoredDelivery
  nextCursor : Option String
  deriving DecidableEq

structure RelayStore where
  deliveries : List StoredDelivery := []
  nextDeliverySequence : Nat := 1
  deriving DecidableEq

inductive WorkerError
  | relayResponse (message : String)
  | relayUnavailable (message : String)
  | service (statusCode : Nat) (code message : String)
  | routing (error : RoutingValidationError)
  | other
  deriving DecidableEq

def DELIVERY_PAGE_SIZE : Nat := 100

def parseCursor : Option String → Except WorkerError Nat
  | none => .ok 0
  | some cursor =>
    if !cursor.toList.isEmpty && cursor.toList.all Char.isDigit then
      .ok (Nat.ofDigitChars 10 cursor.toList 0)
    else .error (.service 400 "INVALID_CURSOR" "Relay cursor is invalid.")

/-- Whether the relay would still hand out the envelope. -/
def isCurrent (platform : Platform) (now : Int) (envelope : DeliveryEnvelope) : Bool :=
  match envelope.expiresAt with
  | none => true
  | some expiresAt => (platform.dateParse expiresAt).any (now < ·)

namespace RelayStore

def pollDeliveries (platform : Platform) (store : RelayStore) (did : Did) (cursor : Option String)
    (now : Int) : Except WorkerError Page := do
  let after ← parseCursor cursor
  let deliveries := (store.deliveries.filter fun entry => decide (after < entry.sequence) &&
    decide (entry.recipient = did) && isCurrent platform now entry.envelope).take DELIVERY_PAGE_SIZE
  return { deliveries, nextCursor := deliveries.getLast?.map fun entry => toString entry.sequence }

/-- One recipient's entry of `storeEnvelope`. -/
def storeFor (envelope : DeliveryEnvelope) (store : RelayStore) (recipient : Did) : RelayStore where
  deliveries := store.deliveries ++ [⟨store.nextDeliverySequence, recipient, envelope⟩]
  nextDeliverySequence := store.nextDeliverySequence + 1

def storeEnvelope (store : RelayStore) (envelope : DeliveryEnvelope) : RelayStore :=
  envelope.recipients.foldl (storeFor envelope) store

end RelayStore

/-! ## The state of the worker -/

/-- `sequence` is the delivery that the response was built for; nothing reads it. -/
structure CachedResponse where
  envelope : DeliveryEnvelope
  delivered : Bool
  sequence : Nat
  deriving DecidableEq

structure VerifierRelayState where
  cursor : Option String := none
  responses : OrderedMap String CachedResponse := ∅
  deriving DecidableEq

namespace VerifierRelayState

def cache (state : VerifierRelayState) (fingerprint : String) (response : CachedResponse) :
    VerifierRelayState :=
  { state with responses := state.responses.set fingerprint response }

/-- `cached.delivered = true`. -/
def markDelivered (state : VerifierRelayState) (fingerprint : String) : VerifierRelayState :=
  { state with responses := state.responses.map fun key response =>
      if key = fingerprint then { response with delivered := true } else response }

/-- The cursor moves past a page, and the delivered responses are dropped. -/
def advance (state : VerifierRelayState) (cursor : String) : VerifierRelayState where
  cursor := some cursor
  responses := state.responses.filter fun _ response => !response.delivered

end VerifierRelayState

/-! ## One delivery -/

section

variable (platform : Platform) (verifierDid : Did)

def isActionRequestPayload (value : Json) : Bool :=
  decide (value.member "type" = some (.str "ActionRequest"))

def payloadType (value : Json) : String :=
  match value.member "type" with
  | some (.str text) => platform.stringify (.str text)
  | _ => "(missing)"

/-- The checks of a polled delivery, up to its expiry. -/
def openDelivery (delivery : DeliveryEnvelope) : Except WorkerError DeliveryEnvelope := do
  throwIf (!isActionRequestPayload delivery.payload)
    (.relayResponse ("Verifier received unsupported delivery payload type " ++
      payloadType platform delivery.payload ++ "."))
  let envelope ← (parseActionRequestEnvelope platform (envelopeJson delivery)).mapError fun _ =>
    .relayResponse "Action Relay returned an invalid Action request envelope."
  throwIf (verifierDid ∉ envelope.recipients)
    (.relayResponse "Polled Action request does not address this Verifier DID.")
  return envelope

def fingerprintOf (envelope : DeliveryEnvelope) : Except WorkerError String :=
  (computeIdempotencyFingerprint platform (envelopeJson envelope)).mapError .routing

/-- The hash of the Action Envelope in the payload of a request. -/
def expectedHash (envelope : DeliveryEnvelope) : HashObject :=
  platform.computeJsonHash
    (((envelope.payload.member "actionPackage").bind (·.member "actionEnvelope")).getD .null)

/-- The member `hash.key` of an optional object. -/
def memberOf (value : Option Json) (key : String) : Option Json := value.bind (·.member key)

def buildResponse (envelope : DeliveryEnvelope) (response : Json) (createdAt : Timestamp) :
    Except WorkerError DeliveryEnvelope := do
  throwIf (response.member "result" = some (.str "pending"))
    (.relayUnavailable
      "Verifier is still processing the delivered Action; retrying without advancing the cursor.")
  throwIf (memberOf (response.member "verifier") "did" ≠ some (.str verifierDid))
    (.relayResponse "Verifier response DID does not match the configured Verifier DID.")
  let hash := expectedHash platform envelope
  throwIf (memberOf (response.member "actionEnvelopeHash") "alg" ≠ some (.str hash.alg) ∨
      memberOf (response.member "actionEnvelopeHash") "value" ≠ some (.str hash.value))
    (.relayResponse "Verifier response does not match the delivered Action Envelope hash.")
  let built : DeliveryEnvelope := {
    sender := verifierDid
    recipients := [envelope.sender]
    createdAt
    payload := response
    expiresAt := none
    audience := none }
  (parseDeliveryEnvelope platform (envelopeJson built)).mapError .routing

end

/-! ## The worker, its disk and the relay -/

/-- What the worker waits for, or does next, in the first delivery that is left of a page. -/
inductive Task
  | consider
  | process (fingerprint : String)
  | saveResponse (fingerprint : String)
  | submit (fingerprint : String)
  | saveDelivered (fingerprint : String)
  deriving DecidableEq

/-- `idle` keeps the error that ended the last drain. -/
inductive Phase
  | down
  | idle (error : Option WorkerError)
  | polling
  | working (page : Page) (task : Task)
  | savingPage
  deriving DecidableEq

/-- What a history tells: a state was saved, or a response was sent to the relay
for the delivery with a number. -/
inductive Happening
  | saved (state : VerifierRelayState)
  | submitted (sequence : Nat) (envelope : DeliveryEnvelope)
  deriving DecidableEq

/-- The clocks are the latest readings. `accepted` lists the responses that the
relay has accepted, by the fingerprint they were submitted for. -/
structure World where
  relay : RelayStore := {}
  relayClock : Option Int := none
  workerClock : Option Int := none
  memory : VerifierRelayState := {}
  disk : VerifierRelayState := {}
  phase : Phase := .idle none
  accepted : List (String × DeliveryEnvelope) := []
  log : List Happening := []
  deriving DecidableEq

/-- What becomes of a submission: the relay answers that it accepted it or that
it did not, or there is no answer, and it may have been accepted or not. -/
inductive Submission
  | accepted
  | notAccepted
  | unanswered (accepted : Bool)
  deriving DecidableEq

inductive Event
  | deliver (value : Json)
  | pollNow
  | interrupted (error : Option WorkerError)
  | polled (now : Int)
  | considered (now : Int)
  | processed (response : Option Json) (createdAt : Timestamp)
  | saved (ok : Bool)
  | submitted (submission : Submission)
  | crash
  | restart

namespace World

section

variable (platform : Platform) (verifierDid : Did) (world : World)

def fail (error : WorkerError) : World := { world with phase := .idle (some error) }

/-- After the last delivery of a page. -/
def finishPage (nextCursor : Option String) : World :=
  match nextCursor with
  | none => world.fail (.relayResponse
      "Action Relay returned deliveries without an advancing cursor.")
  | some cursor =>
    if cursor = "" ∨ some cursor = world.memory.cursor then
      world.fail (.relayResponse "Action Relay returned deliveries without an advancing cursor.")
    else { world with memory := world.memory.advance cursor, phase := .savingPage }

/-- The first delivery of the page is done. -/
def nextDelivery (page : Page) : World :=
  match page.deliveries.tail with
  | [] => world.finishPage page.nextCursor
  | rest => { world with phase := .working { page with deliveries := rest } .consider }

def deliver (value : Json) : Option World :=
  match parseDeliveryEnvelope platform value with
  | .ok envelope => some { world with relay := world.relay.storeEnvelope envelope }
  | .error _ => none

def polled (now : Int) : Option World :=
  if world.relayClock.all (· ≤ now) then
    let world := { world with relayClock := some now }
    match world.relay.pollDeliveries platform verifierDid world.memory.cursor now with
    | .error error => some (world.fail error)
    | .ok page =>
      if page.deliveries.isEmpty then some { world with phase := .idle none }
      else some { world with phase := .working page .consider }
  else none

/-- The later of two readings. -/
def later (clock : Option Int) (now : Int) : Option Int := some (max (clock.getD now) now)

def considered (page : Page) (delivery : StoredDelivery) (now : Int) : World :=
  let world := { world with workerClock := later world.workerClock now }
  match openDelivery platform verifierDid delivery.envelope with
  | .error error => world.fail error
  | .ok envelope =>
    if isDeliveryEnvelopeExpired platform envelope now then world.nextDelivery page
    else
      match fingerprintOf platform envelope with
      | .error error => world.fail error
      | .ok fingerprint =>
        match world.memory.responses.get? fingerprint with
        | none => { world with phase := .working page (.process fingerprint) }
        | some cached =>
          if cached.delivered then world.nextDelivery page
          else { world with phase := .working page (.submit fingerprint) }

def processed (page : Page) (delivery : StoredDelivery) (fingerprint : String)
    (response : Option Json) (createdAt : Timestamp) : World :=
  match response, openDelivery platform verifierDid delivery.envelope with
  | none, _ => world.fail .other
  | some _, .error error => world.fail error
  | some response, .ok envelope =>
    match buildResponse platform verifierDid envelope response createdAt with
    | .error error => world.fail error
    | .ok built => { world with
        memory := world.memory.cache fingerprint ⟨built, false, delivery.sequence⟩
        phase := .working page (.saveResponse fingerprint) }

/-- `saveState` comes to its end, one way or the other. -/
def save (ok : Bool) (andThen : World → World) : World :=
  if ok then
    andThen { world with disk := world.memory, log := world.log ++ [.saved world.memory] }
  else world.fail (.relayResponse "Unable to persist Verifier relay state.")

def submitted (page : Page) (delivery : StoredDelivery) (fingerprint : String)
    (submission : Submission) : Option World :=
  match world.memory.responses.get? fingerprint with
  | none => none
  | some cached =>
    let world : World := { world with
      log := world.log ++ [Happening.submitted delivery.sequence cached.envelope] }
    let accepting : World := { world with
      relay := world.relay.storeEnvelope cached.envelope
      accepted := world.accepted ++ [(fingerprint, cached.envelope)] }
    match submission with
    | .accepted => some { accepting with
        memory := world.memory.markDelivered fingerprint
        phase := .working page (.saveDelivered fingerprint) }
    | .notAccepted => some (world.fail
        (.relayResponse "Action Relay did not accept the Verifier response delivery."))
    | .unanswered true => some (accepting.fail .other)
    | .unanswered false => some (world.fail .other)

end

end World

def step (platform : Platform) (verifierDid : Did) (world : World) (event : Event) : Option World :=
  match event, world.phase with
  | .deliver value, _ => world.deliver platform value
  | .pollNow, .idle _ => some { world with phase := .polling }
  | .interrupted error, .polling => some { world with phase := .idle error }
  | .polled now, .polling => world.polled platform verifierDid now
  | .considered now, .working page .consider =>
    page.deliveries.head?.map fun delivery =>
      world.considered platform verifierDid page delivery now
  | .processed response createdAt, .working page (.process fingerprint) =>
    page.deliveries.head?.map fun delivery =>
      world.processed platform verifierDid page delivery fingerprint response createdAt
  | .saved ok, .working page (.saveResponse fingerprint) =>
    some (world.save ok fun saved => { saved with phase := .working page (.submit fingerprint) })
  | .submitted submission, .working page (.submit fingerprint) =>
    page.deliveries.head?.bind fun delivery =>
      world.submitted page delivery fingerprint submission
  | .saved ok, .working page (.saveDelivered _) =>
    some (world.save ok fun saved => saved.nextDelivery page)
  | .saved ok, .savingPage =>
    some (world.save ok fun saved => { saved with phase := .polling })
  | .crash, .down => none
  | .crash, _ => some { world with phase := .down }
  | .restart, .down => some { world with memory := world.disk, phase := .idle none }
  | _, _ => none

end Mpas.RelayDelivery
