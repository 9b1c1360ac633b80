import Mpas.Timestamps
import Mpas.PackageVerdict
import Mpas.CoordinationStore
import Mpas.AdapterMediation

/-!
# Honest packages

The way of an Action Package that nobody tampers with: the Proposer builds it, or
the replacement of an earlier one, signers give their Approvals, Coordination
completes it, and the Verifier verifies it.

* `Made`: the packages that the SDK's builder makes;
* `completed_package_verifies`: completed, they are verified, with exactly these votes.
-/

namespace Mpas.HonestPackages

open PackageVerification (Members TrustedSigner VerificationConfig ApprovalTimeOptions at?
  part hashJson isDidText isBase64urlText isHashObject isCompactJws payloadPart SignedBy Decodes
  Accepts ApprovalShape BundleShape PackageShape envelopeOf bundleOf)
open Builders (ActionPackageBuilder BuildReadings toISOString)
open Timestamps (InRange)
open Coordination (StoredAction)
open Checks

/-! ## The builders -/

/-- The builder, with the target that it is configured for. -/
structure PackageBuilder extends ActionPackageBuilder where
  applicationDid : Did
  executionProfile : ExecutionProfile

/-- What a signer signs, as it is given to `canonicalize`. -/
def approvalPayload (actionEnvelopeHash : HashObject) (decision : Decision) (signerDid : Did)
    (createdAt : Timestamp) : Json :=
  .obj [("type", .str "ApprovalPayload"), ("actionEnvelopeHash", actionEnvelopeHash.toJson),
    ("decision", .str decision.text), ("signerDid", .str signerDid), ("createdAt", .str createdAt)]

structure ApprovalBuilder where
  signerDid : Did
  /-- the signature over a canonical JSON value -/
  sign : Json → String

section Building

variable (computeJsonHash : Json → HashObject)

def ApprovalBuilder.buildApproval (approver : ApprovalBuilder) (now : Int)
    (envelope : ActionEnvelope) (decision : Decision) : Approval :=
  let actionEnvelopeHash := computeJsonHash envelope.toJson
  let createdAt := toISOString now
  { actionEnvelopeHash, decision, createdAt
    signature := approver.sign
      (approvalPayload actionEnvelopeHash decision approver.signerDid createdAt) }

namespace PackageBuilder

variable (builder : PackageBuilder) (readings : BuildReadings)

def createPayload (toolName : String) (args : Members) : Json :=
  .obj [("name", .str toolName), ("arguments", .obj args)]

/-- `now.getTime() + defaultExpirationMinutes * 60 * 1000`, as a date. -/
def expiration : Int :=
  (readings.envelopeNow + builder.defaultExpirationMinutes * 60 * 1000 : ℚ).floor

def createEnvelope (payload : Json) : ActionEnvelope where
  proposer := builder.signerDid
  target := { applicationDid := builder.applicationDid }
  executionProfile := builder.executionProfile
  executionPayloadHash := (builder.hashPayload.getD computeJsonHash) payload
  actionId := { value := "urn:uuid:" ++ readings.randomUUID }
  createdAt := toISOString readings.envelopeNow
  expiresAt := toISOString (builder.expiration readings)

def buildFromPayload (payload : Json) : ActionPackage :=
  let envelope := builder.createEnvelope computeJsonHash readings payload
  let approval := builder.createProposerApproval computeJsonHash readings envelope
  builder.createPackage computeJsonHash readings payload envelope approval

def buildFromToolCall (toolName : String) (args : Members) : ActionPackage :=
  builder.buildFromPayload computeJsonHash readings (createPayload toolName args)

end PackageBuilder

/-- What the builder makes, from a tool call or in place of what it made before. -/
inductive Made (builder : PackageBuilder) (toolName : String) (args : Members) :
    BuildReadings → ActionPackage → Prop
  | built (readings : BuildReadings) : Made builder toolName args readings
      (builder.buildFromToolCall computeJsonHash readings toolName args)
  | replaced {before readings : BuildReadings} {prior package : ActionPackage}
      {asked requirements : AuthorizationRequirements}
      (hprior : Made builder toolName args before prior)
      (hreplaced : builder.buildCoordinationReplacement computeJsonHash readings prior asked =
        .ok (package, requirements)) :
      Made builder toolName args readings package

/-- However often it was replaced, a package is one that was built just now. -/
theorem Made.eq_build {builder : PackageBuilder} {toolName : String} {args : Members}
    {readings : BuildReadings} {package : ActionPackage}
    (h : Made computeJsonHash builder toolName args readings package) :
    package = builder.buildFromToolCall computeJsonHash readings toolName args := by
  induction h with
  | built readings => rfl
  | @replaced before readings prior package asked requirements hprior hreplaced ih =>
    subst ih
    unfold ActionPackageBuilder.buildCoordinationReplacement at hreplaced
    split at hreplaced
    · cases hreplaced
    · split at hreplaced
      · cases hreplaced
      · cases hreplaced
        rfl

end Building

/-! ## What a builder relies on -/

section Platform

variable (platform : PackageVerification.Platform)

/-- Hashes are SHA-256 in base64url. -/
def Hashes : Prop :=
  ∀ value, (platform.computeJsonHash value).alg = "sha-256" ∧
    isBase64urlText (platform.computeJsonHash value).value.toList = true

/-- An instant, which `Date.parse` reads back from what `toISOString` writes. -/
structure Dated (ms : Int) : Prop where
  range : InRange ms
  parsed : platform.dateParse (toISOString ms) = .finite ms

/-- What is read from the bytes that a signer signed: its members, sorted. -/
def canonicalPayload (actionEnvelopeHash : HashObject) (decision : Decision) (signerDid : Did)
    (createdAt : Timestamp) : Json :=
  .obj [("actionEnvelopeHash", actionEnvelopeHash.toJson), ("createdAt", .str createdAt),
    ("decision", .str decision.text), ("signerDid", .str signerDid),
    ("type", .str "ApprovalPayload")]

/-- What `signMpasCompactJws` has made sure of before it returns the JWS. -/
structure Signed (signer : TrustedSigner) (payload : Json) (jws : String) : Prop where
  compact : isCompactJws jws = true
  carries : ∃ middle, payloadPart jws = some middle ∧
    platform.decodeBase64url middle = (platform.canonicalize payload).toUTF8
  valid : SignedBy platform signer jws

/-- A decision of one signer at one instant. -/
structure Ballot where
  approver : ApprovalBuilder
  /-- what the Verifier is configured with -/
  key : Option Json
  decision : Decision
  now : Int

namespace Ballot

def signer (ballot : Ballot) : TrustedSigner := ⟨ballot.approver.signerDid, ballot.key⟩

def approval (envelope : ActionEnvelope) (ballot : Ballot) : Approval :=
  ballot.approver.buildApproval platform.computeJsonHash ballot.now envelope ballot.decision

/-- What is signed, by its kind. -/
def payload (kind : HashObject → Decision → Did → Timestamp → Json) (envelope : ActionEnvelope)
    (ballot : Ballot) : Json :=
  kind (platform.computeJsonHash envelope.toJson) ballot.decision ballot.approver.signerDid
    (toISOString ballot.now)

/-- A trusted signer has given it, between `created` and `now`. -/
structure Honest (trustedSigners : List TrustedSigner) (envelope : ActionEnvelope)
    (created now : Int) (ballot : Ballot) : Prop where
  did : isDidText ballot.approver.signerDid.toList = true
  trusted : PackageVerification.trustedByDid trustedSigners ballot.approver.signerDid =
    some ballot.signer
  dated : Dated platform ballot.now
  after : created ≤ ballot.now
  before : ballot.now ≤ now
  signed : Signed platform ballot.signer (ballot.payload platform approvalPayload envelope)
    (ballot.approval platform envelope).signature
  parses : platform.strictJsonParse
      (platform.canonicalize (ballot.payload platform approvalPayload envelope)) =
    some (ballot.payload platform canonicalPayload envelope)
  canonical : platform.canonicalize (ballot.payload platform canonicalPayload envelope) =
    platform.canonicalize (ballot.payload platform approvalPayload envelope)

end Ballot

end Platform

/-! ## Timestamps and hashes of the builder -/

section Shapes

variable {platform : PackageVerification.Platform}

theorem Dated.envelopeTimestamp {ms : Int} (h : Dated platform ms) :
    PackageVerification.isEnvelopeTimestamp platform (some (.str (toISOString ms))) = true := by
  simp only [PackageVerification.isEnvelopeTimestamp, Timestamps.toISOString_fits h.range, h.parsed]
  rfl

theorem Dated.mpasTimestamp {ms : Int} (h : Dated platform ms) :
    PackageVerification.isMpasTimestamp platform (some (.str (toISOString ms))) = true := by
  simp only [PackageVerification.isMpasTimestamp, Timestamps.toISOString_fits h.range, h.parsed]
  rfl

theorem Dated.timeOf {ms : Int} (h : Dated platform ms) :
    PackageVerification.timeOf platform (some (.str (toISOString ms))) = .finite ms :=
  h.parsed

theorem at_alg (hash : HashObject) : at? (some hash.toJson) ["alg"] = some (.str hash.alg) := rfl

theorem at_value (hash : HashObject) : at? (some hash.toJson) ["value"] = some (.str hash.value) :=
  rfl

theorem Hashes.hashObject (h : Hashes platform) (value : Json) :
    isHashObject (some (platform.computeJsonHash value).toJson) = true := by
  obtain ⟨halg, hvalue⟩ := h value
  have hrecord : PackageVerification.isRecordOf ["alg", "value"]
      (some (platform.computeJsonHash value).toJson) = true := rfl
  simp only [isHashObject, hrecord, at_alg, at_value, halg, hvalue, Bool.and_true]
  rfl

theorem hashesEqual_self (hash : HashObject) :
    PackageVerification.hashesEqual (some hash.toJson) (some (hashJson hash)) = true := by
  change PackageVerification.hashesEqual (some hash.toJson) (some hash.toJson) = true
  simp [PackageVerification.hashesEqual, at_alg, at_value, Json.strictEquals]

/-! ## Approvals -/

theorem Ballot.Honest.did_text {trustedSigners : List TrustedSigner} {envelope : ActionEnvelope}
    {created now : Int} {ballot : Ballot}
    (h : ballot.Honest platform trustedSigners envelope created now) :
    PackageVerification.isDid (some (.str ballot.approver.signerDid)) = true :=
  h.did

theorem isDecision_text (decision : Decision) :
    PackageVerification.isDecision (some (.str decision.text)) = true := by
  cases decision <;> decide

/-- What was signed has the form of a signed payload. -/
theorem canonicalPayload_shape {hash : HashObject} (hhash : isHashObject (some hash.toJson) = true)
    (decision : Decision) {signerDid : Did}
    (hdid : PackageVerification.isDid (some (.str signerDid)) = true) {ms : Int}
    (hdated : Dated platform ms) :
    PackageVerification.isCanonicalApprovalPayload platform
      (canonicalPayload hash decision signerDid (toISOString ms)) = true := by
  have hrecord : PackageVerification.isRecordOf PackageVerification.payloadKeys
      (some (canonicalPayload hash decision signerDid (toISOString ms))) = true := rfl
  have hat (name : String) :
      at? (some (canonicalPayload hash decision signerDid (toISOString ms))) [name] =
        [("actionEnvelopeHash", hash.toJson), ("createdAt", .str (toISOString ms)),
          ("decision", .str decision.text), ("signerDid", .str signerDid),
          ("type", .str "ApprovalPayload")].lookup name := rfl
  have htype : (decide ((some (.str "ApprovalPayload") : Option Json) =
    some (.str "ApprovalPayload"))) = true := decide_eq_true rfl
  unfold PackageVerification.isCanonicalApprovalPayload
  rw [hrecord]
  simp only [hat]
  change (true && decide ((some (.str "ApprovalPayload") : Option Json) =
      some (.str "ApprovalPayload")) && isHashObject (some hash.toJson) &&
    PackageVerification.isDecision (some (.str decision.text)) &&
    PackageVerification.isDid (some (.str signerDid)) &&
    PackageVerification.isMpasTimestamp platform (some (.str (toISOString ms))) &&
    (true || _)) = true
  rw [htype, hhash, isDecision_text, hdid, hdated.mpasTimestamp]
  rfl

/-- The Approval has its shape. -/
theorem Ballot.Honest.shape (hhashes : Hashes platform) {trustedSigners : List TrustedSigner}
    {envelope : ActionEnvelope} {created now : Int} {ballot : Ballot}
    (h : ballot.Honest platform trustedSigners envelope created now) :
    ∃ members, (ballot.approval platform envelope).toJson = .obj members ∧
      ApprovalShape platform members := by
  refine ⟨_, rfl, rfl, rfl, rfl, hhashes.hashObject _, isDecision_text _, ?_,
    h.dated.mpasTimestamp, fun hexpires => ?_⟩
  · change (true && true && isCompactJws (ballot.approval platform envelope).signature) = true
    rw [h.signed.compact]
    rfl
  · cases hexpires

/-! ## Time -/

/-- The Verifier's clock is inside of the envelope's window. -/
structure Window (created expires now tolerance : Int) : Prop where
  started : created ≤ now
  unexpired : now < expires
  nonneg : 0 ≤ tolerance
  created : InRange created
  expires : InRange expires
  tolerance : InRange tolerance

theorem finite_lt (a b : Int) : (JsNumber.finite a).lt (.finite b) = decide (a < b) := by
  simp [JsNumber.lt]

theorem finite_le (a b : Int) : (JsNumber.finite a).le (.finite b) = decide (a ≤ b) := by
  simp [JsNumber.le]

theorem Window.not_early {created expires now tolerance : Int}
    (h : Window created expires now tolerance) :
    ((JsNumber.finite now).add (.finite tolerance)).lt (.finite created) = false := by
  obtain ⟨hstarted, hunexpired, hnonneg, hc, he, ht⟩ := h
  unfold InRange at hc he ht
  rw [Timestamps.add_int (by omega), finite_lt]
  exact decide_eq_false (by omega)

theorem Window.not_expired {created expires now tolerance : Int}
    (h : Window created expires now tolerance) :
    (JsNumber.finite expires).le (PackageVerification.sub (.finite now) (.finite tolerance)) =
      false := by
  obtain ⟨hstarted, hunexpired, hnonneg, hc, he, ht⟩ := h
  unfold InRange at hc he ht
  rw [Timestamps.sub_int (by omega), finite_le]
  exact decide_eq_false (by omega)

/-- An Approval that was given in the window is in time. -/
theorem Window.approval_in_time {created expires now tolerance : Int}
    (h : Window created expires now tolerance) {approval envelope : Json} {ms : Int}
    (happroval : PackageVerification.timeOf platform (at? (some approval) ["createdAt"]) =
      .finite ms)
    (hcreated : PackageVerification.timeOf platform (at? (some envelope) ["createdAt"]) =
      .finite created)
    (hexpires : PackageVerification.timeOf platform (at? (some envelope) ["expiresAt"]) =
      .finite expires)
    (hnone : at? (some approval) ["expiresAt"] = none) (hafter : created ≤ ms)
    (hbefore : ms ≤ now) :
    PackageVerification.validateApprovalTime platform approval
      ⟨envelope, .finite now, .finite tolerance⟩ = none := by
  obtain ⟨hstarted, hunexpired, hnonneg, hc, he, ht⟩ := h
  unfold InRange at hc he ht
  have hend : PackageVerification.effectiveExpiresAt platform approval envelope =
      .finite expires := by
    simp only [PackageVerification.effectiveExpiresAt, hnone, hexpires]
  unfold PackageVerification.validateApprovalTime
  simp only [happroval, hcreated, hexpires, hend]
  rw [Timestamps.add_int (by omega), Timestamps.add_int (by omega), Timestamps.sub_int (by omega),
    Timestamps.sub_int (by omega)]
  simp only [finite_lt, finite_le, decide_eq_true_eq]
  rw [if_neg (by omega), if_neg (by omega), if_neg (by omega), if_neg (by omega),
    if_neg (by omega), if_neg (by omega)]

/-! ## The envelope -/

/-- The configuration of the builder, as far as its constructor checks it, and the
Verifier's for the same target. -/
structure Configured (config : VerificationConfig) (builder : PackageBuilder)
    (readings : BuildReadings) : Prop where
  did : isDidText builder.signerDid.toList = true
  application : isDidText builder.applicationDid.toList = true
  /-- at least a millisecond, at most a day -/
  lasting : 1 ≤ builder.defaultExpirationMinutes * 60 * 1000
  bounded : builder.defaultExpirationMinutes ≤ 24 * 60
  uuid : PackageVerification.isUuidUrn ("urn:uuid:" ++ readings.randomUUID).toList = true
  hashPayload : builder.hashPayload = none
  profile : builder.executionProfile = ⟨"did:web:profiles.oma3.org:mcp", some "mcp.toolsCall"⟩
  profiles : config.trustedApplicationProfiles = none
  trusted : builder.applicationDid ∈ config.trustedApplicationDids.getD []
  validity :
    config.maxEnvelopeValidityMs.getD PackageVerification.DEFAULT_MAX_ENVELOPE_VALIDITY_MS =
      PackageVerification.DEFAULT_MAX_ENVELOPE_VALIDITY_MS

variable {config : VerificationConfig} {builder : PackageBuilder} {readings : BuildReadings}

theorem Configured.expiration_bounds (h : Configured config builder readings) :
    readings.envelopeNow < builder.expiration readings ∧
      builder.expiration readings ≤ readings.envelopeNow + 86400000 := by
  have hlasting := h.lasting
  have hbounded := h.bounded
  constructor
  · rw [← Int.add_one_le_iff, PackageBuilder.expiration, Rat.le_floor_iff]
    push_cast
    linarith
  · have hle : ((builder.expiration readings : Int) : ℚ) ≤ readings.envelopeNow + 86400000 :=
      (Rat.floor_le _).trans (by linarith)
    exact_mod_cast hle

/-- The envelope of a tool call. -/
def envelopeOfCall (platform : PackageVerification.Platform) (builder : PackageBuilder)
    (readings : BuildReadings) (toolName : String) (args : Members) : ActionEnvelope :=
  builder.createEnvelope platform.computeJsonHash readings
    (PackageBuilder.createPayload toolName args)

/-- The members of its envelope. -/
def envelopeMembers (platform : PackageVerification.Platform) (builder : PackageBuilder)
    (readings : BuildReadings) (toolName : String) (args : Members) : Members :=
  [("version", .str "1"), ("type", .str "ActionEnvelope"),
    ("proposer", .obj [("did", .str builder.signerDid)]),
    ("target", .obj [("applicationDid", .str builder.applicationDid)]),
    ("executionProfile",
      .obj [("id", .str "did:web:profiles.oma3.org:mcp"), ("format", .str "mcp.toolsCall")]),
    ("executionPayloadHash",
      (platform.computeJsonHash (PackageBuilder.createPayload toolName args)).toJson),
    ("actionId", .obj [("value", .str ("urn:uuid:" ++ readings.randomUUID))]),
    ("createdAt", .str (toISOString readings.envelopeNow)),
    ("expiresAt", .str (toISOString (builder.expiration readings)))]

theorem Configured.envelope_json (h : Configured config builder readings) (toolName : String)
    (args : Members) : (envelopeOfCall platform builder readings toolName args).toJson =
      .obj (envelopeMembers platform builder readings toolName args) := by
  simp only [envelopeOfCall, PackageBuilder.createEnvelope, h.hashPayload, h.profile,
    Option.getD_none]
  rfl

theorem Configured.envelope_valid (hhashes : Hashes platform)
    (h : Configured config builder readings)
    (hcreated : Dated platform readings.envelopeNow)
    (hexpires : Dated platform (builder.expiration readings)) (toolName : String) (args : Members)
    {options : PackageVerification.ValidateEnvelopeOptions}
    (htime : options.checkTime = true → ∃ now tolerance : Int, options.now = .finite now ∧
      options.timestampToleranceMs = .finite tolerance ∧
        Window readings.envelopeNow (builder.expiration readings) now tolerance) :
    PackageVerification.validateActionEnvelope platform
      (.obj (envelopeMembers platform builder readings toolName args)) options = .ok () := by
  have hactionId : PackageVerification.isNonEmptyText
      (some (.str ("urn:uuid:" ++ readings.randomUUID))) = true := by
    simp [PackageVerification.isNonEmptyText]
  obtain ⟨hstart, -⟩ := h.expiration_bounds
  have horder : (JsNumber.finite (builder.expiration readings)).le (.finite readings.envelopeNow) =
      false := by
    rw [finite_le]
    exact decide_eq_false (by omega)
  unfold PackageVerification.validateActionEnvelope
  simp only [bind_eq_ok, PackageVerification.rejectUndeclared_eq_ok, throwIf_eq_ok, not_not]
  refine ⟨(), rfl, (), rfl, (), rfl, (), rfl, (), ⟨rfl, h.did⟩, (), h.application, (), ⟨rfl, rfl⟩,
    (), fun hformat => hformat.2 rfl, (), hhashes.hashObject _, (), ⟨rfl, hactionId⟩, (),
    fun hscope => ?_, (), hcreated.envelopeTimestamp, (), hexpires.envelopeTimestamp, (), ?_, (),
    fun hlate => ?_, fun hexpired => ?_⟩
  · cases hscope.1
  · change ¬(PackageVerification.timeOf platform (some (.str (toISOString _)))).le
      (PackageVerification.timeOf platform (some (.str (toISOString _)))) = true
    rw [hexpires.timeOf, hcreated.timeOf, horder]
    decide
  · obtain ⟨now, tolerance, hnow, htolerance, hwindow⟩ := htime hlate.1
    have hlater : ((options.now.add options.timestampToleranceMs).lt
        (PackageVerification.timeOf platform (some (.str (toISOString _))))) = true := hlate.2
    rw [hnow, htolerance, hcreated.timeOf] at hlater
    exact absurd hlater (by rw [hwindow.not_early]; decide)
  · obtain ⟨now, tolerance, hnow, htolerance, hwindow⟩ := htime hexpired.1
    have hlater : ((PackageVerification.timeOf platform (some (.str (toISOString _)))).le
        (PackageVerification.sub options.now options.timestampToleranceMs)) = true := hexpired.2.2
    rw [hnow, htolerance, hexpires.timeOf] at hlater
    exact absurd hlater (by rw [hwindow.not_expired]; decide)

/-- Inside of the window, what is left of it is no more than the default maximum. -/
theorem Configured.validity_bounded (h : Configured config builder readings)
    (hexpires : Dated platform (builder.expiration readings)) {now tolerance : Int}
    (hwindow : Window readings.envelopeNow (builder.expiration readings) now tolerance)
    (toolName : String) (args : Members) :
    PackageVerification.exceedsMaxEnvelopeValidity platform
      (.obj (envelopeMembers platform builder readings toolName args))
      (config.maxEnvelopeValidityMs.getD PackageVerification.DEFAULT_MAX_ENVELOPE_VALIDITY_MS)
      (.finite now) = false := by
  obtain ⟨-, hbound⟩ := h.expiration_bounds
  have hstarted := hwindow.started
  have hunexpired := hwindow.unexpired
  have htime : PackageVerification.timeOf platform
      (at? (some (.obj (envelopeMembers platform builder readings toolName args))) ["expiresAt"]) =
        .finite (builder.expiration readings) := hexpires.timeOf
  have hday : PackageVerification.DEFAULT_MAX_ENVELOPE_VALIDITY_MS =
      .finite ((86400000 : Int) : ℚ) := by
    simp only [PackageVerification.DEFAULT_MAX_ENVELOPE_VALIDITY_MS]
    norm_num
  rw [h.validity, hday]
  unfold PackageVerification.exceedsMaxEnvelopeValidity
  simp only [htime]
  rw [if_neg (by simp), Timestamps.sub_int (by omega), finite_lt]
  exact decide_eq_false (by omega)

/-- The profile that the Verifier finds for the target. -/
theorem Configured.binding_found (platform : PackageVerification.Platform)
    (h : Configured config builder readings) (toolName : String) (args : Members) : ∃ binding,
      ((PackageVerification.trustedApplicationBindings platform config).filter fun binding =>
        decide (some (.str binding.applicationDid) = at?
          (some (.obj (envelopeMembers platform builder readings toolName args)))
            ["target", "applicationDid"])).find? (fun binding =>
        decide (some (.str binding.executionProfile.id) = at?
            (some (.obj (envelopeMembers platform builder readings toolName args)))
              ["executionProfile", "id"] ∧
          some (.str binding.executionProfile.format) = at?
            (some (.obj (envelopeMembers platform builder readings toolName args)))
              ["executionProfile", "format"])) = some binding ∧
      binding.executionProfile = PackageVerification.MCP_TOOL_CALL_EXECUTION_PROFILE platform := by
  have hbindings : PackageVerification.trustedApplicationBindings platform config =
      (config.trustedApplicationDids.getD []).map fun applicationDid =>
        ⟨applicationDid, PackageVerification.MCP_TOOL_CALL_EXECUTION_PROFILE platform⟩ := by
    simp only [PackageVerification.trustedApplicationBindings, h.profiles]
  have hmember : (⟨builder.applicationDid,
      PackageVerification.MCP_TOOL_CALL_EXECUTION_PROFILE platform⟩ :
        PackageVerification.TrustedApplicationProfile) ∈
      (PackageVerification.trustedApplicationBindings platform config).filter fun binding =>
        decide (some (.str binding.applicationDid) = at?
          (some (.obj (envelopeMembers platform builder readings toolName args)))
            ["target", "applicationDid"]) := by
    rw [List.mem_filter, hbindings]
    exact ⟨List.mem_map.mpr ⟨_, h.trusted, rfl⟩, decide_eq_true rfl⟩
  cases hfound : ((PackageVerification.trustedApplicationBindings platform config).filter
      fun binding => decide (some (.str binding.applicationDid) = at?
        (some (.obj (envelopeMembers platform builder readings toolName args)))
          ["target", "applicationDid"])).find? (fun binding =>
        decide (some (.str binding.executionProfile.id) = at?
            (some (.obj (envelopeMembers platform builder readings toolName args)))
              ["executionProfile", "id"] ∧
          some (.str binding.executionProfile.format) = at?
            (some (.obj (envelopeMembers platform builder readings toolName args)))
              ["executionProfile", "format"])) with
  | none =>
    have hmissed := List.find?_eq_none.mp hfound _ hmember
    exact absurd (decide_eq_true ⟨rfl, rfl⟩) hmissed
  | some binding =>
    have hlisted := (List.mem_filter.mp (List.mem_of_find?_eq_some hfound)).1
    rw [hbindings] at hlisted
    obtain ⟨applicationDid, -, rfl⟩ := List.mem_map.mp hlisted
    exact ⟨_, rfl, rfl⟩

theorem createPayload_mcp {toolName : String} (hname : toolName ≠ "") (args : Members) :
    PackageVerification.isMcpToolCallPayload (PackageBuilder.createPayload toolName args) =
      true := by
  have hnonempty : PackageVerification.isNonEmptyText (some (.str toolName)) = true := by
    simp [PackageVerification.isNonEmptyText, hname]
  change (true && PackageVerification.isNonEmptyText (some (.str toolName)) && true) = true
  rw [hnonempty]
  rfl

theorem Configured.action_verified (hhashes : Hashes platform)
    (h : Configured config builder readings) (hcreated : Dated platform readings.envelopeNow)
    (hexpires : Dated platform (builder.expiration readings)) {now tolerance : Int}
    (hnow : config.now.getD platform.clock = .finite now)
    (htolerance : config.timestampToleranceMs.getD (.finite 0) = .finite tolerance)
    (hwindow : Window readings.envelopeNow (builder.expiration readings) now tolerance)
    {toolName : String} (hname : toolName ≠ "") {args : Members} {actionPackage : Json}
    (henvelope : part actionPackage "actionEnvelope" =
      .obj (envelopeMembers platform builder readings toolName args))
    (hpayload : part actionPackage "executionPayload" =
      PackageBuilder.createPayload toolName args) :
    PackageVerification.verifyAction platform config actionPackage = .ok () := by
  obtain ⟨binding, hfound, hprofile⟩ := h.binding_found platform toolName args
  have hmcp := createPayload_mcp hname args
  have hdomain : PackageVerification.hasSafeReplayDomain
      (.obj [("value", .str ("urn:uuid:" ++ readings.randomUUID))]) = true := by
    have huuid : (PackageVerification.isUuidUrn ("urn:uuid:" ++ readings.randomUUID).toList ||
        PackageVerification.isUlidUrn ("urn:uuid:" ++ readings.randomUUID).toList ||
        isDidText ("urn:uuid:" ++ readings.randomUUID).toList) = true := by
      rw [h.uuid]
      rfl
    change ((PackageVerification.isUuidUrn ("urn:uuid:" ++ readings.randomUUID).toList ||
      PackageVerification.isUlidUrn ("urn:uuid:" ++ readings.randomUUID).toList ||
      isDidText ("urn:uuid:" ++ readings.randomUUID).toList) || false) = true
    rw [huuid]
    rfl
  have hbinding : PackageVerification.hashesEqual
      (some (hashJson (platform.computeJsonHash (PackageBuilder.createPayload toolName args))))
      (some (platform.computeJsonHash (PackageBuilder.createPayload toolName args)).toJson) =
        true := by
    rw [show hashJson _ = HashObject.toJson _ from rfl]
    exact hashesEqual_self _
  unfold PackageVerification.verifyAction
  simp only [henvelope, hpayload, hnow, htolerance]
  rw [bind_eq_ok]
  refine ⟨(), h.envelope_valid hhashes hcreated hexpires toolName args
    fun _ => ⟨now, tolerance, rfl, rfl, hwindow⟩, ?_⟩
  rw [h.validity_bounded hexpires hwindow, throwIf_bind_eq_ok]
  refine ⟨Bool.false_ne_true, ?_⟩
  rw [throwIf_bind_eq_ok]
  refine ⟨?_, ?_⟩
  · intro hempty
    rw [List.isEmpty_iff.mp hempty] at hfound
    cases hfound
  · rw [hfound]
    dsimp only
    rw [hprofile]
    rw [throwIf_bind_eq_ok, throwIf_bind_eq_ok, throwIf_eq_ok, not_not, not_not, not_not]
    refine ⟨hmcp, hdomain, Bool.and_eq_true_iff.mpr ⟨hmcp, hbinding⟩⟩

/-! ## Its Approvals -/

section Ballots

variable {trustedSigners : List TrustedSigner} {envelope : ActionEnvelope} {created now : Int}
  {ballot ballot' : Ballot}

theorem Ballot.Honest.decodes (hhashes : Hashes platform)
    (h : ballot.Honest platform trustedSigners envelope created now) :
    ∃ middle, Decodes platform (ballot.approval platform envelope).toJson
      (ballot.payload platform canonicalPayload envelope)
      (ballot.approval platform envelope).signature middle := by
  obtain ⟨middle, hpart, hbytes⟩ := h.signed.carries
  have htext : platform.text (platform.decodeBase64url middle) =
      platform.canonicalize (ballot.payload platform approvalPayload envelope) := by
    rw [hbytes, PackageVerification.text_toUTF8]
  refine ⟨middle, rfl, hpart, ?_, ?_, ?_⟩
  · rw [htext, h.parses]
  · exact canonicalPayload_shape (hhashes.hashObject _) _ h.did_text h.dated
  · rw [htext, h.canonical]

theorem strictEquals_str_self (text : String) :
    Json.strictEquals (some (.str text)) (some (.str text)) = true := by
  simp [Json.strictEquals]

/-- An honest Approval is accepted. -/
theorem Ballot.Honest.accepts (hhashes : Hashes platform) {expires tolerance : Int}
    {envelopeJson : Json} (h : ballot.Honest platform trustedSigners envelope created now)
    (hwindow : Window created expires now tolerance)
    (hcreated : PackageVerification.timeOf platform (at? (some envelopeJson) ["createdAt"]) =
      .finite created)
    (hexpires : PackageVerification.timeOf platform (at? (some envelopeJson) ["expiresAt"]) =
      .finite expires) :
    Accepts platform trustedSigners (platform.computeJsonHash envelope.toJson)
      ⟨envelopeJson, .finite now, .finite tolerance⟩ (ballot.approval platform envelope).toJson
      ballot.signer := by
  obtain ⟨middle, hdecodes⟩ := h.decodes hhashes
  refine ⟨hashesEqual_self _, h.trusted, ⟨_, _, middle, hdecodes, h.signed.valid,
    ⟨hashesEqual_self _, strictEquals_str_self _, strictEquals_str_self _, rfl⟩, rfl⟩, ?_⟩
  exact hwindow.approval_in_time h.dated.timeOf hcreated hexpires rfl h.after h.before

/-- One signature is over one decision. -/
theorem Ballot.Honest.decision_eq (h : ballot.Honest platform trustedSigners envelope created now)
    (h' : ballot'.Honest platform trustedSigners envelope created now)
    (hsame : (ballot.approval platform envelope).signature =
      (ballot'.approval platform envelope).signature) : ballot.decision = ballot'.decision := by
  obtain ⟨middle, hpart, hbytes⟩ := h.signed.carries
  obtain ⟨middle', hpart', hbytes'⟩ := h'.signed.carries
  rw [← hsame, hpart] at hpart'
  cases hpart'
  have htext := congrArg platform.text (hbytes.symm.trans hbytes')
  rw [PackageVerification.text_toUTF8, PackageVerification.text_toUTF8] at htext
  have hparsed := h.parses
  rw [htext, h'.parses] at hparsed
  have hdecision := congrArg (fun payload => at? (some payload) ["decision"])
    (Option.some.inj hparsed)
  have htexts : ballot'.decision.text = ballot.decision.text :=
    Json.str.inj (Option.some.inj hdecision)
  exact (Decision.text_injective htexts).symm

end Ballots

/-! ## The completed package -/

/-- The Proposer's own. -/
def proposal (builder : PackageBuilder) (readings : BuildReadings) (key : Option Json) :
    Ballot where
  approver := ⟨builder.signerDid, builder.sign⟩
  key := key
  decision := .propose
  now := readings.approvalNow

/-- The package of a tool call with the Approvals of its bundle. -/
def completedPackage (platform : PackageVerification.Platform) (builder : PackageBuilder)
    (readings : BuildReadings) (toolName : String) (args : Members) (ballots : List Ballot)
    (completedAt : Int) : ActionPackage :=
  let package := builder.buildFromToolCall platform.computeJsonHash readings toolName args
  { package with
    approvalBundle := { package.approvalBundle with
      approvals := ballots.map (Ballot.approval platform package.actionEnvelope)
      createdAt := some (toISOString completedAt) } }

variable {toolName : String} {args : Members} {ballots : List Ballot}
variable {now tolerance completedAt : Int}

theorem Configured.package_shape (hhashes : Hashes platform)
    (h : Configured config builder readings) (hcreated : Dated platform readings.envelopeNow)
    (hexpires : Dated platform (builder.expiration readings))
    (hpackaged : Dated platform readings.packageNow) (hcompleted : Dated platform completedAt)
    (hballots : ∀ ballot ∈ ballots, ballot.Honest platform config.trustedSigners
      (envelopeOfCall platform builder readings toolName args) readings.envelopeNow now)
    (hsome : ballots ≠ []) :
    ∃ record,
      (completedPackage platform builder readings toolName args ballots completedAt).toJson =
        .obj record ∧ PackageShape platform record := by
  refine ⟨_, rfl, rfl, rfl, rfl, rfl, by rintro ⟨⟩, ?_, ?_, fun _ => hpackaged.mpasTimestamp⟩
  · refine ⟨_, congrArg some (h.envelope_json toolName args), ?_⟩
    exact h.envelope_valid hhashes hcreated hexpires toolName args
      fun hchecked => Bool.noConfusion hchecked
  · refine ⟨_, rfl, rfl, rfl, rfl, hhashes.hashObject _, fun _ => h.did,
      fun _ => hcompleted.mpasTimestamp, ?_⟩
    cases ballots with
    | nil => exact absurd rfl hsome
    | cons first rest =>
      refine ⟨_, _, rfl, fun approval hmem => ?_⟩
      rw [← List.map_cons, ← List.map_cons, List.map_map] at hmem
      obtain ⟨ballot, hballot, rfl⟩ := List.mem_map.mp hmem
      exact (hballots ballot hballot).shape hhashes

/-- What is true around the package while it is verified. -/
structure Surroundings (platform : PackageVerification.Platform) (config : VerificationConfig)
    (builder : PackageBuilder) (readings : BuildReadings) (now tolerance completedAt : Int) :
    Prop where
  hashes : Hashes platform
  configured : Configured config builder readings
  created : Dated platform readings.envelopeNow
  expires : Dated platform (builder.expiration readings)
  packaged : Dated platform readings.packageNow
  finished : Dated platform completedAt
  clock : config.now.getD platform.clock = .finite now
  tolerated : config.timestampToleranceMs.getD (.finite 0) = .finite tolerance
  window : Window readings.envelopeNow (builder.expiration readings) now tolerance

theorem completed_envelope :
    envelopeOf
        (completedPackage platform builder readings toolName args ballots completedAt).toJson =
      (envelopeOfCall platform builder readings toolName args).toJson := rfl

theorem completed_approvals :
    PackageVerification.approvalsOf (bundleOf
        (completedPackage platform builder readings toolName args ballots completedAt).toJson) =
      ballots.map fun ballot => (ballot.approval platform
        (envelopeOfCall platform builder readings toolName args)).toJson := by
  change (ballots.map _).map Approval.toJson = _
  rw [List.map_map]
  rfl

/-- Each of the package's Approvals is accepted. -/
theorem Surroundings.accepted (h : Surroundings platform config builder readings now tolerance
      completedAt) {ballot : Ballot}
    (hballot : ballot.Honest platform config.trustedSigners
      (envelopeOfCall platform builder readings toolName args) readings.envelopeNow now) :
    PackageVerification.AcceptedIn platform config
      (completedPackage platform builder readings toolName args ballots completedAt).toJson
      (ballot.approval platform (envelopeOfCall platform builder readings toolName args)).toJson
      ballot.signer := by
  unfold PackageVerification.AcceptedIn PackageVerification.timeOptions
  rw [completed_envelope, h.clock, h.tolerated]
  exact hballot.accepts h.hashes h.window h.created.timeOf h.expires.timeOf

/-- The completed package passes all checks. -/
theorem Surroundings.passes (h : Surroundings platform config builder readings now tolerance
      completedAt) (hname : toolName ≠ "")
    (hballots : ∀ ballot ∈ ballots, ballot.Honest platform config.trustedSigners
      (envelopeOfCall platform builder readings toolName args) readings.envelopeNow now)
    {key : Option Json} (hproposal : proposal builder readings key ∈ ballots) :
    PackageVerification.Passes platform config
      (completedPackage platform builder readings toolName args ballots completedAt).toJson where
  shape := h.configured.package_shape h.hashes h.created h.expires h.packaged h.finished hballots
    (List.ne_nil_of_mem hproposal)
  action := h.configured.action_verified h.hashes h.created h.expires h.clock h.tolerated h.window
    hname (h.configured.envelope_json toolName args) rfl
  hash := hashesEqual_self _
  approvals approval hmem := by
    rw [completed_approvals] at hmem
    obtain ⟨ballot, hballot, rfl⟩ := List.mem_map.mp hmem
    exact ⟨ballot.signer, h.accepted (hballots ballot hballot)⟩
  proposed := by
    refine ⟨_, ?_, _, h.accepted (hballots _ hproposal), rfl, rfl⟩
    rw [completed_approvals]
    exact List.mem_map.mpr ⟨_, hproposal, rfl⟩

/-- The votes of the verified package are those of its Approvals. -/
theorem Surroundings.verified_ballots (h : Surroundings platform config builder readings now
      tolerance completedAt)
    (hballots : ∀ ballot ∈ ballots, ballot.Honest platform config.trustedSigners
      (envelopeOfCall platform builder readings toolName args) readings.envelopeNow now)
    {verified : PackageVerification.Verified}
    (hverified : PackageVerification.verifyActionPackage platform config
      (completedPackage platform builder readings toolName args ballots completedAt).toJson =
        .ok verified) :
    verified.verifiedApprovals.approvals = ballots.map fun ballot =>
      PackageVerification.verifiedApproval (ballot.approval platform
        (envelopeOfCall platform builder readings toolName args)).toJson ballot.signer := by
  have hall := AdapterMediation.verified_approvals hverified
  rw [completed_approvals, List.forall₂_map_left_iff] at hall
  have heach := (List.forall₂_and_left ballots _).mpr ⟨hballots, hall⟩
  have hsame : List.Forall₂ (· = ·) (ballots.map fun ballot =>
      PackageVerification.verifiedApproval (ballot.approval platform
        (envelopeOfCall platform builder readings toolName args)).toJson ballot.signer)
      verified.verifiedApprovals.approvals := by
    refine List.forall₂_map_left_iff.mpr (heach.imp fun ballot v hv => ?_)
    obtain ⟨hballot, signer, haccepted, rfl⟩ := hv
    rw [haccepted.unique (h.accepted hballot)]
  rw [List.forall₂_eq_eq_eq] at hsame
  exact hsame.symm

/-! ## Coordination -/

/-- Coordination has the package and, of what was submitted for it, these Approvals. -/
structure Gathered (platform : PackageVerification.Platform) (package : ActionPackage)
    (stored : StoredAction) (collected : List Ballot) : Prop where
  sent : stored.actionPackage = ↑package
  hash : stored.actionRef.actionEnvelopeHash =
    platform.computeJsonHash package.actionEnvelope.toJson
  approvals : stored.approvals.map (·.approval) =
    collected.map (Ballot.approval platform package.actionEnvelope)
  /-- a signer's builder approves or rejects -/
  decisions : ∀ ballot ∈ collected, ballot.decision = .approve ∨ ballot.decision = .reject

/-- No Approval is taken for the Proposer's. -/
theorem Gathered.kept {trustedSigners : List TrustedSigner} {envelope : ActionEnvelope}
    {created : Int} {first : Ballot} {collected : List Ballot}
    (hfirst : first.Honest platform trustedSigners envelope created now)
    (hpropose : first.decision = .propose)
    (hcollected : ∀ ballot ∈ collected, ballot.Honest platform trustedSigners envelope created now)
    (hdecisions : ∀ ballot ∈ collected, ballot.decision = .approve ∨ ballot.decision = .reject) :
    ((collected.map (Ballot.approval platform envelope)).filter fun approval =>
        !([first.approval platform envelope].map (·.signature)).contains approval.signature) =
      collected.map (Ballot.approval platform envelope) := by
  rw [List.filter_eq_self]
  intro approval hmem
  obtain ⟨ballot, hballot, rfl⟩ := List.mem_map.mp hmem
  have hdiffers : (ballot.approval platform envelope).signature ≠
      (first.approval platform envelope).signature := by
    intro hsame
    have hdecision := (hcollected ballot hballot).decision_eq hfirst hsame
    rw [hpropose] at hdecision
    rcases hdecisions ballot hballot with h | h <;> rw [h] at hdecision <;> cases hdecision
  simpa using hdiffers

/-- What was not in the package yet is added to its Approvals. -/
theorem buildCompletedActionPackage_sent {stored : StoredAction} {package : ActionPackage}
    (hsent : stored.actionPackage = ↑package) (runtime : Coordination.Runtime)
    (coordination : Coordination.Readings) :
    Coordination.buildCompletedActionPackage runtime coordination stored =
      .ok ↑({ package with
        approvalBundle := { package.approvalBundle with
          actionEnvelopeHash := stored.actionRef.actionEnvelopeHash
          approvals := package.approvalBundle.approvals ++
            (stored.approvals.map (·.approval)).filter fun approval =>
              !(package.approvalBundle.approvals.map (·.signature)).contains approval.signature
          createdAt := some (runtime.toISOString coordination.date) } } : ActionPackage) := by
  have hknown : ∀ approval : Approval,
      ((package.approvalBundle.approvals.map fun known => some (Json.str known.signature)).any
        fun value => Json.strictEquals value (some (.str approval.signature))) =
      (package.approvalBundle.approvals.map (·.signature)).contains approval.signature := by
    intro approval
    rw [Bool.eq_iff_iff]
    simp [Json.strictEquals]
  unfold Coordination.buildCompletedActionPackage
  rw [hsent]
  simp only [Coordination.SubmittedPackage.signatures, bind, Except.bind, hknown]
  rfl

theorem Gathered.completes {package : ActionPackage} {stored : StoredAction}
    {collected : List Ballot} {key : Option Json} {trustedSigners : List TrustedSigner}
    {runtime : Coordination.Runtime} (h : Gathered platform package stored collected)
    (coordination : Coordination.Readings)
    (hpackage : package = builder.buildFromToolCall platform.computeJsonHash readings toolName args)
    (htext : runtime.toISOString = toISOString)
    (hballots : ∀ ballot ∈ proposal builder readings key :: collected,
      ballot.Honest platform trustedSigners package.actionEnvelope readings.envelopeNow now) :
    Coordination.buildCompletedActionPackage runtime coordination stored =
      .ok ↑(completedPackage platform builder readings toolName args
        (proposal builder readings key :: collected) coordination.date) := by
  subst hpackage
  have hkept := Gathered.kept (hballots _ List.mem_cons_self) rfl
    (fun ballot hmem => hballots ballot (List.mem_cons_of_mem _ hmem)) h.decisions
  rw [buildCompletedActionPackage_sent h.sent, h.approvals, h.hash, htext]
  unfold completedPackage
  congr 3
  dsimp only
  congr 1
  exact congrArg (_ :: ·) hkept

/-- What an update hands out is the completed package. -/
theorem update_package {stored : StoredAction} {returned : Coordination.SubmittedPackage}
    {runtime : Coordination.Runtime} {coordination : Coordination.Readings}
    {update : Coordination.ActionUpdate}
    (h : Coordination.buildActionUpdate runtime coordination stored = .ok update)
    (hreturned : update.actionPackage = some returned) :
    Coordination.buildCompletedActionPackage runtime coordination stored = .ok returned := by
  unfold Coordination.buildActionUpdate at h
  dsimp only at h
  cases hstate : stored.state <;> rw [hstate] at h
  case cancelled | rejected | expired =>
    cases h
    cases hreturned
  case awaitingApprovals =>
    obtain ⟨progress, -, h⟩ := bind_eq_ok.mp h
    cases h
    cases hreturned
  case readyForSubmission =>
    obtain ⟨progress, -, h⟩ := bind_eq_ok.mp h
    obtain ⟨package, hpackage, h⟩ := bind_eq_ok.mp h
    obtain ⟨completed, hcompleted, rfl⟩ := Checks.map_eq_ok.mp hpackage
    cases h
    rwa [← Option.some.inj hreturned]

/-- Coordination hands `returned` out, as the completed package of what the builder made. -/
structure HandedOut (platform : PackageVerification.Platform) (builder : PackageBuilder)
    (readings : BuildReadings) (toolName : String) (args : Members) (collected : List Ballot)
    (runtime : Coordination.Runtime) (coordination : Coordination.Readings)
    (returned : ActionPackage) : Prop where
  text : runtime.toISOString = toISOString
  out : ∃ package stored update,
    Made platform.computeJsonHash builder toolName args readings package ∧
    Gathered platform package stored collected ∧
    Coordination.buildActionUpdate runtime coordination stored = .ok update ∧
    update.actionPackage = some ↑returned

theorem HandedOut.eq_completed {returned : ActionPackage} {collected : List Ballot}
    {key : Option Json} {trustedSigners : List TrustedSigner} {runtime : Coordination.Runtime}
    {coordination : Coordination.Readings}
    (h : HandedOut platform builder readings toolName args collected runtime coordination returned)
    (hballots : ∀ ballot ∈ proposal builder readings key :: collected,
      ballot.Honest platform trustedSigners
        (envelopeOfCall platform builder readings toolName args) readings.envelopeNow now) :
    returned = completedPackage platform builder readings toolName args
      (proposal builder readings key :: collected) coordination.date := by
  obtain ⟨package, stored, update, hmade, hgathered, hupdate, hreturned⟩ := h.out
  have hpackage := hmade.eq_build
  have hsame : package.actionEnvelope = envelopeOfCall platform builder readings toolName args := by
    rw [hpackage]
    rfl
  have hcompleted := hgathered.completes coordination hpackage h.text
    (hsame ▸ hballots)
  rw [update_package hupdate hreturned] at hcompleted
  exact congrArg Coordination.SubmittedPackage.toActionPackage (Except.ok.inj hcompleted)

/-- **Honest packages verify.** Whatever the Proposer's builder made, from a tool
call or in place of an earlier package, when Coordination hands it out as ready it is
verified in the whole window of its envelope, with the votes of its signers and no others. -/
theorem completed_package_verifies {returned : ActionPackage} {collected : List Ballot}
    {key : Option Json} {runtime : Coordination.Runtime} {coordination : Coordination.Readings}
    (h : Surroundings platform config builder readings now tolerance coordination.date)
    (hname : toolName ≠ "")
    (hreturned : HandedOut platform builder readings toolName args collected runtime coordination
      returned)
    (hballots : ∀ ballot ∈ proposal builder readings key :: collected,
      ballot.Honest platform config.trustedSigners
        (envelopeOfCall platform builder readings toolName args) readings.envelopeNow now) :
    ∃ verified, PackageVerification.verifyActionPackage platform config returned.toJson =
        .ok verified ∧
      verified.verifiedApprovals.approvals.map (fun v => (v.signerDid, v.decision)) =
        (proposal builder readings key :: collected).map fun ballot =>
          (ballot.approver.signerDid, some (.str ballot.decision.text)) := by
  rw [hreturned.eq_completed hballots]
  obtain ⟨verified, hverified⟩ := PackageVerification.verifyActionPackage_eq_ok.mpr
    (h.passes hname hballots List.mem_cons_self)
  refine ⟨verified, hverified, ?_⟩
  rw [h.verified_ballots hballots hverified, List.map_map]
  rfl

end Shapes

/-! ## A package of two signers -/

namespace Example

open PackageVerification (compact compact_parts base64url_of_ofList text_toUTF8)
open PackageVerification.Example (payloadHash header header_base64url key)

def envelopeHash : HashObject := ⟨"sha-256", "8V1CVSIt_wRwug1KBZbJrLJZieec5CqJtk0EgbniUcE"⟩

/-- What Alice signs, and what Bob signs. -/
def proposalText : String :=
  "\x7b\"actionEnvelopeHash\":\x7b\"alg\":\"sha-256\",\"value\":\"8V1CVSIt_wRwug1KBZbJrLJZieec5CqJtk0EgbniUcE\"\x7d,\"createdAt\":\"2026-01-01T00:00:00.000Z\",\"decision\":\"propose\",\"signerDid\":\"did:web:alice.example\",\"type\":\"ApprovalPayload\"\x7d"

def approvalText : String :=
  "\x7b\"actionEnvelopeHash\":\x7b\"alg\":\"sha-256\",\"value\":\"8V1CVSIt_wRwug1KBZbJrLJZieec5CqJtk0EgbniUcE\"\x7d,\"createdAt\":\"2026-01-01T00:01:00.000Z\",\"decision\":\"approve\",\"signerDid\":\"did:web:bob.example\",\"type\":\"ApprovalPayload\"\x7d"

def proposalMiddle : String :=
  "eyJhY3Rpb25FbnZlbG9wZUhhc2giOnsiYWxnIjoic2hhLTI1NiIsInZhbHVlIjoiOFYxQ1ZTSXRfd1J3dWcxS0JaYkpyTEpaaWVlYzVDcUp0azBFZ2JuaVVjRSJ9LCJjcmVhdGVkQXQiOiIyMDI2LTAxLTAxVDAwOjAwOjAwLjAwMFoiLCJkZWNpc2lvbiI6InByb3Bvc2UiLCJzaWduZXJEaWQiOiJkaWQ6d2ViOmFsaWNlLmV4YW1wbGUiLCJ0eXBlIjoiQXBwcm92YWxQYXlsb2FkIn0"

def approvalMiddle : String :=
  "eyJhY3Rpb25FbnZlbG9wZUhhc2giOnsiYWxnIjoic2hhLTI1NiIsInZhbHVlIjoiOFYxQ1ZTSXRfd1J3dWcxS0JaYkpyTEpaaWVlYzVDcUp0azBFZ2JuaVVjRSJ9LCJjcmVhdGVkQXQiOiIyMDI2LTAxLTAxVDAwOjAxOjAwLjAwMFoiLCJkZWNpc2lvbiI6ImFwcHJvdmUiLCJzaWduZXJEaWQiOiJkaWQ6d2ViOmJvYi5leGFtcGxlIiwidHlwZSI6IkFwcHJvdmFsUGF5bG9hZCJ9"

def proposalSignature : String :=
  "ZZ3ujCxdajmDf0GCM73JiS218A2tEVKHJUuBjNMBlKE5_b9tZCXGY1Ev1rBxsDnKKWjLsLu5pus6HAYY5TyPDw"

def approvalHeader : String :=
  "eyJhbGciOiJFZERTQSIsImtpZCI6ImRpZDp3ZWI6Ym9iLmV4YW1wbGUja2V5LTEifQ"

def approvalSignature : String :=
  "A2c29GAyF0hkLeeSo-Shi9r07NLg7CSgAlXZD5kwaWGDels5mSia1d4ooQAIOA2vOV785Uv5PLCJuaC-eAatBw"

def proposalJws : String := compact header proposalMiddle proposalSignature

def approvalJws : String := compact approvalHeader approvalMiddle approvalSignature

def bobKey : Json := .obj [("kty", .str "OKP"), ("crv", .str "Ed25519"),
  ("x", .str "PUAXw-hDiVqStwqnTRt-vJyYLM8uxJaMwM1V8Sr0Zgw"),
  ("kid", .str "did:web:bob.example#key-1")]

def platform : PackageVerification.Platform where
  dateParse text := ([
    ("2026-01-01T00:00:00.000Z", JsNumber.finite 1767225600000),
    ("2026-01-01T00:01:00.000Z", .finite 1767225660000),
    ("2026-01-01T00:30:00.000Z", .finite 1767227400000)].lookup text).getD .nan
  clock := .finite 1767225720000
  strictJsonParse text :=
    if text = proposalText then some (canonicalPayload envelopeHash .propose
      "did:web:alice.example" "2026-01-01T00:00:00.000Z")
    else if text = approvalText then some (canonicalPayload envelopeHash .approve
      "did:web:bob.example" "2026-01-01T00:01:00.000Z")
    else none
  canonicalize json :=
    if at? (some json) ["decision"] = some (.str "propose") then proposalText else approvalText
  computeJsonHash json := if (json.member "name").isSome then payloadHash else envelopeHash
  decodeBase64url text :=
    (if text = proposalMiddle then proposalText else approvalText).toUTF8
  lossyText _ := ""
  didJwkToJwk _ := none
  samePublicKey left right := decide (left = right)
  verifySuiteCompactJws jws jwk kid := decide (
    (jws = proposalJws ∧ jwk = key ∧ kid = "did:web:alice.example#key-1") ∨
    (jws = approvalJws ∧ jwk = bobKey ∧ kid = "did:web:bob.example#key-1"))

def trustedSigners : List TrustedSigner :=
  [⟨"did:web:alice.example", some key⟩, ⟨"did:web:bob.example", some bobKey⟩]

def config : VerificationConfig where
  trustedSigners := trustedSigners
  trustedApplicationDids := some ["did:web:app.example"]

def builder : PackageBuilder where
  signerDid := "did:web:alice.example"
  defaultExpirationMinutes := 30
  hashPayload := none
  sign _ := proposalJws
  applicationDid := "did:web:app.example"
  executionProfile := ⟨"did:web:profiles.oma3.org:mcp", some "mcp.toolsCall"⟩

def readings : BuildReadings where
  envelopeNow := 1767225600000
  approvalNow := 1767225600000
  packageNow := 1767225600000
  randomUUID := "123e4567-e89b-42d3-a456-426614174000"

def bob : Ballot where
  approver := ⟨"did:web:bob.example", fun _ => approvalJws⟩
  key := some bobKey
  decision := .approve
  now := 1767225660000

theorem expiration_eq : builder.expiration readings = 1767227400000 := by
  unfold PackageBuilder.expiration builder readings
  norm_num
  rfl

theorem created_text : toISOString 1767225600000 = "2026-01-01T00:00:00.000Z" := by decide

theorem approved_text : toISOString 1767225660000 = "2026-01-01T00:01:00.000Z" := by decide

theorem expires_text : toISOString 1767227400000 = "2026-01-01T00:30:00.000Z" := by decide

theorem created_dated : Dated platform 1767225600000 where
  range := ⟨by decide, by decide⟩
  parsed := by rw [created_text]; rfl

theorem approved_dated : Dated platform 1767225660000 where
  range := ⟨by decide, by decide⟩
  parsed := by rw [approved_text]; rfl

theorem expires_dated : Dated platform 1767227400000 where
  range := ⟨by decide, by decide⟩
  parsed := by rw [expires_text]; rfl

theorem hashes : Hashes platform := by
  intro value
  change (if (value.member "name").isSome then payloadHash else envelopeHash).alg = _ ∧
    isBase64urlText
      (if (value.member "name").isSome then payloadHash else envelopeHash).value.toList = _
  split
  · exact ⟨rfl, base64url_of_ofList payloadHash.value rfl rfl⟩
  · exact ⟨rfl, base64url_of_ofList envelopeHash.value rfl rfl⟩

theorem texts_differ : approvalText ≠ proposalText := by
  simp [approvalText, proposalText]

theorem middles_differ : approvalMiddle ≠ proposalMiddle := by
  simp [approvalMiddle, proposalMiddle]

theorem configured : Configured config builder readings where
  did := by decide
  application := by decide
  lasting := by norm_num [builder]
  bounded := by norm_num [builder]
  uuid := by decide
  hashPayload := rfl
  profile := rfl
  profiles := rfl
  trusted := List.mem_singleton_self _
  validity := rfl

theorem window : Window 1767225600000 1767227400000 1767225720000 0 :=
  ⟨by decide, by decide, le_rfl, created_dated.range, expires_dated.range, ⟨le_rfl, by decide⟩⟩

theorem surroundings :
    Surroundings platform config builder readings 1767225720000 0 1767225660000 where
  hashes := hashes
  configured := configured
  created := created_dated
  expires := expiration_eq ▸ expires_dated
  packaged := created_dated
  finished := approved_dated
  clock := by norm_num [config, platform]
  tolerated := by norm_num [config]
  window := expiration_eq ▸ window

/-- The envelope of Alice's call. -/
def envelope : ActionEnvelope := envelopeOfCall platform builder readings "send" []

theorem envelope_hash : platform.computeJsonHash envelope.toJson = envelopeHash := rfl

/-- A JWS that is put together from its parts carries its middle. -/
theorem compact_carries {header middle signature : String}
    (hheader : isBase64urlText header.toList = true)
    (hmiddle : isBase64urlText middle.toList = true)
    (hsignature : isBase64urlText signature.toList = true) :
    isCompactJws (compact header middle signature) = true ∧
      payloadPart (compact header middle signature) = some middle := by
  have hparts := compact_parts hheader hmiddle hsignature
  constructor
  · unfold isCompactJws
    rw [hparts]
    simp [hheader, hmiddle, hsignature]
  · rw [payloadPart, hparts]
    simp only [List.getElem?_cons_succ, List.getElem?_cons_zero, Option.map_some,
      String.ofList_toList]

set_option maxRecDepth 4000 in
theorem proposal_parts : isCompactJws proposalJws = true ∧
    payloadPart proposalJws = some proposalMiddle :=
  compact_carries header_base64url (base64url_of_ofList proposalMiddle rfl rfl)
    (base64url_of_ofList proposalSignature rfl rfl)

set_option maxRecDepth 4000 in
theorem approval_parts : isCompactJws approvalJws = true ∧
    payloadPart approvalJws = some approvalMiddle :=
  compact_carries (base64url_of_ofList approvalHeader rfl rfl)
    (base64url_of_ofList approvalMiddle rfl rfl) (base64url_of_ofList approvalSignature rfl rfl)

/-- What Alice signs, of either kind. -/
theorem proposal_text (kind : HashObject → Decision → Did → Timestamp → Json)
    (h : ∀ hash decision signerDid createdAt, at? (some (kind hash decision signerDid createdAt))
      ["decision"] = some (.str decision.text)) :
    platform.canonicalize ((proposal builder readings (some key)).payload platform kind envelope) =
      proposalText :=
  if_pos (h _ _ _ _)

theorem approval_text (kind : HashObject → Decision → Did → Timestamp → Json)
    (h : ∀ hash decision signerDid createdAt, at? (some (kind hash decision signerDid createdAt))
      ["decision"] = some (.str decision.text)) :
    platform.canonicalize (bob.payload platform kind envelope) = approvalText := by
  refine if_neg fun hpropose => ?_
  have hdecision : Decision.approve.text = "propose" :=
    Json.str.inj (Option.some.inj ((h _ _ _ _).symm.trans hpropose))
  exact absurd hdecision (by decide)

theorem decoded_proposal : platform.decodeBase64url proposalMiddle = proposalText.toUTF8 := by
  simp only [platform, if_true]

theorem decoded_approval : platform.decodeBase64url approvalMiddle = approvalText.toUTF8 := by
  simp only [platform, middles_differ, if_false]

theorem parsed_proposal : platform.strictJsonParse proposalText =
    some (canonicalPayload envelopeHash .propose "did:web:alice.example"
      "2026-01-01T00:00:00.000Z") := by
  simp only [platform, if_true]

theorem parsed_approval : platform.strictJsonParse approvalText =
    some (canonicalPayload envelopeHash .approve "did:web:bob.example"
      "2026-01-01T00:01:00.000Z") := by
  simp only [platform, texts_differ, if_false, if_true]

theorem proposal_signed : Signed platform (proposal builder readings (some key)).signer
    ((proposal builder readings (some key)).payload platform approvalPayload envelope)
    proposalJws where
  compact := proposal_parts.1
  carries := by
    rw [proposal_text approvalPayload fun _ _ _ _ => rfl]
    exact ⟨proposalMiddle, proposal_parts.2, decoded_proposal⟩
  valid := ⟨key, "did:web:alice.example#key-1", rfl, rfl, by simp [platform]⟩

theorem approval_signed : Signed platform bob.signer
    (bob.payload platform approvalPayload envelope) approvalJws where
  compact := approval_parts.1
  carries := by
    rw [approval_text approvalPayload fun _ _ _ _ => rfl]
    exact ⟨approvalMiddle, approval_parts.2, decoded_approval⟩
  valid := ⟨bobKey, "did:web:bob.example#key-1", rfl, rfl, by simp [platform]⟩

theorem proposal_honest : (proposal builder readings (some key)).Honest platform trustedSigners
    envelope 1767225600000 1767225720000 where
  did := by decide
  trusted := rfl
  dated := created_dated
  after := by decide
  before := by decide
  signed := proposal_signed
  parses := by
    rw [proposal_text approvalPayload fun _ _ _ _ => rfl]
    unfold Ballot.payload
    rw [envelope_hash]
    have htime : toISOString (proposal builder readings (some key)).now =
        "2026-01-01T00:00:00.000Z" := created_text
    rw [htime, parsed_proposal]
    rfl
  canonical := (proposal_text canonicalPayload fun _ _ _ _ => rfl).trans
    (proposal_text approvalPayload fun _ _ _ _ => rfl).symm

theorem approval_honest : bob.Honest platform trustedSigners envelope 1767225600000
    1767225720000 where
  did := by decide
  trusted := rfl
  dated := approved_dated
  after := by decide
  before := by decide
  signed := approval_signed
  parses := by
    rw [approval_text approvalPayload fun _ _ _ _ => rfl]
    unfold Ballot.payload
    rw [envelope_hash]
    have htime : toISOString bob.now = "2026-01-01T00:01:00.000Z" := approved_text
    rw [htime, parsed_approval]
    rfl
  canonical := (approval_text canonicalPayload fun _ _ _ _ => rfl).trans
    (approval_text approvalPayload fun _ _ _ _ => rfl).symm

/-! ### What Coordination has -/

def runtime : Coordination.Runtime where
  computeJsonHash := platform.computeJsonHash
  dateParse _ := none
  toISOString := toISOString
  parsePart _ := none

def coordination : Coordination.Readings := ⟨1767225660000, 1767225660000⟩

/-- Bob's approval was asked for, and has come. -/
def stored : StoredAction where
  actionPackage := builder.buildFromToolCall platform.computeJsonHash readings "send" []
  authorizationRequirements := {
    actionEnvelopeHash := envelopeHash
    verifier := "did:web:verifier.example"
    approvalRequirements := { anyOf := some [{
      threshold := .num (.finite 1)
      eligibleSigners := .arr [.str "did:web:bob.example"]
      decision := some (.str "approve")
      description := none }] }
    createdAt := none
    expiresAt := none }
  actionRef := ⟨envelope.actionId, envelopeHash⟩
  state := .readyForSubmission
  approvals := [⟨bob.approval platform envelope, .str "did:web:bob.example", .approve⟩]
  createdAt := "2026-01-01T00:00:00.000Z"
  updatedAt := "2026-01-01T00:01:00.000Z"

theorem gathered : Gathered platform
    (builder.buildFromToolCall platform.computeJsonHash readings "send" []) stored [bob] where
  sent := rfl
  hash := envelope_hash.symm
  approvals := rfl
  decisions ballot hmem := by
    cases List.mem_singleton.mp hmem
    exact Or.inl rfl

theorem ballots_honest : ∀ ballot ∈ [proposal builder readings (some key), bob],
    ballot.Honest platform trustedSigners envelope 1767225600000 1767225720000 := by
  intro ballot hmem
  rcases List.mem_cons.mp hmem with rfl | hmem
  · exact proposal_honest
  · cases List.mem_singleton.mp hmem
    exact approval_honest

/-- The package with both Approvals. -/
def returned : ActionPackage :=
  completedPackage platform builder readings "send" [] [proposal builder readings (some key), bob]
    coordination.date

def aliceApproval : Json :=
  ((proposal builder readings (some key)).approval platform envelope).toJson

def bobApproval : Json := (bob.approval platform envelope).toJson

theorem updated : ∃ update, Coordination.buildActionUpdate runtime coordination stored =
    .ok update ∧ update.actionPackage = some ↑returned := by
  have hprogress : ∃ progress, Coordination.progressFor
      stored.authorizationRequirements.approvalRequirements stored.approvals = .ok progress :=
    ⟨_, rfl⟩
  obtain ⟨progress, hprogress⟩ := hprogress
  have hcompleted : Coordination.buildCompletedActionPackage runtime coordination stored =
      .ok ↑returned := gathered.completes _ rfl rfl ballots_honest
  refine ⟨_, bind_eq_ok.mpr ⟨progress, hprogress, bind_eq_ok.mpr ⟨some ↑returned, ?_, rfl⟩⟩, rfl⟩
  exact Checks.map_eq_ok.mpr ⟨_, hcompleted, rfl⟩

theorem returned_passes : PackageVerification.Passes platform config returned.toJson :=
  surroundings.passes (by decide) ballots_honest List.mem_cons_self

theorem returned_plain : PackageVerification.Plain platform returned.toJson where
  package := by decide
  bundle := by decide
  approvals approval hmem := by
    have happrovals : approval ∈ [(proposal builder readings (some key)).approval platform envelope,
        bob.approval platform envelope].map Approval.toJson := hmem
    obtain ⟨made, -, rfl⟩ := List.mem_map.mp happrovals
    cases hexpires : made.expiresAt <;> simp [Approval.toJson, optionalMember, hexpires,
      PackageVerification.names]
  text _ _ _ middle _ _ := by
    simp only [platform]
    exact PackageVerification.toUTF8_valid _

theorem handed_out :
    HandedOut platform builder readings "send" [] [bob] runtime coordination returned := by
  obtain ⟨update, hupdate, hreturned⟩ := updated
  exact ⟨rfl, _, stored, update, .built readings, gathered, hupdate, hreturned⟩

end Example

/-- Alice's call, which Bob has approved, is verified with their two votes. -/
theorem two_signers_verified : ∃ verified,
    PackageVerification.verifyActionPackage Example.platform Example.config
      Example.returned.toJson = .ok verified ∧
    verified.verifiedApprovals.approvals.map (fun v => (v.signerDid, v.decision)) =
      [("did:web:alice.example", some (.str "propose")),
        ("did:web:bob.example", some (.str "approve"))] :=
  completed_package_verifies Example.surroundings (by decide) Example.handed_out
    Example.ballots_honest

/-- It is what they approved, and is verified with Bob's Approval before Alice's. -/
theorem exchanged_approvals_sound :
    PackageVerification.approvalsOf (bundleOf Example.returned.toJson) =
        [Example.aliceApproval, Example.bobApproval] ∧
      PackageVerification.Sound Example.platform Example.config Example.returned.toJson ∧
      PackageVerification.Verifies Example.platform Example.config
        (PackageVerification.withApprovals [Example.bobApproval, Example.aliceApproval]
          Example.returned.toJson) := by
  obtain ⟨horder, hsound⟩ := PackageVerification.verified_order_and_soundness Example.platform
    Example.config Example.returned.toJson
  have hverified : PackageVerification.Verifies Example.platform Example.config
      Example.returned.toJson :=
    PackageVerification.verifyActionPackage_eq_ok.mpr Example.returned_passes
  have hexchanged := horder [Example.bobApproval, Example.aliceApproval] (List.Perm.swap ..)
  exact ⟨rfl, (hsound hverified).mpr Example.returned_plain, hexchanged.mpr hverified⟩

end Mpas.HonestPackages
