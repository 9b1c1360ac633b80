import Mpas.HonestPackages

/-!
# Honest Actions are executed

The other side of complete mediation: the request of an honest package, whose
votes meet the policy of its deployment, is not refused. Wherever the Verifier
is, what the package says is transmitted.

* `received`, `authorized`: the request passes what the handler decides;
* `honest_action_executes`: and the call is made.
-/

namespace Mpas.HonestDispatch

open AdapterDecision AdapterMediation Machine Checks HonestPackages
open PackageVerification (Members TrustedSigner at? part)
open Builders (BuildReadings toISOString)
open ApprovalRequirements (SignerDecision ConflictFree)
open Routing (RoutingValidationError requireJsonValue requireJsonItems requireJsonMembers)
open AdapterServer (Server)

/-! ## Numbers of a request -/

mutual

/-- Every number is finite, as in what was parsed. -/
def finiteNumbers : Json → Bool
  | .num n => n.isFinite
  | .arr items => finiteItems items
  | .obj members => finiteMembers members
  | .null | .str _ | .bool _ => true

def finiteItems : List Json → Bool
  | [] => true
  | item :: items => finiteNumbers item && finiteItems items

def finiteMembers : List (String × Json) → Bool
  | [] => true
  | (_, value) :: members => finiteNumbers value && finiteMembers members

end

mutual

theorem requireJsonValue_eq_ok (path : String) : ∀ value : Json,
    requireJsonValue path value = .ok () ↔ finiteNumbers value = true
  | .null | .str _ | .bool _ => by simp [requireJsonValue, finiteNumbers]
  | .num n => by simp [requireJsonValue, finiteNumbers]
  | .arr items => by
    rw [requireJsonValue, finiteNumbers]
    exact requireJsonItems_eq_ok path 0 items
  | .obj members => by
    rw [requireJsonValue, finiteNumbers]
    exact requireJsonMembers_eq_ok path members

theorem requireJsonItems_eq_ok (path : String) (index : Nat) : ∀ items : List Json,
    requireJsonItems path index items = .ok () ↔ finiteItems items = true
  | [] => by simp [requireJsonItems, finiteItems]
  | item :: items => by
    rw [requireJsonItems, bind_eq_ok, finiteItems, Bool.and_eq_true]
    constructor
    · rintro ⟨_, hitem, hitems⟩
      exact ⟨(requireJsonValue_eq_ok _ item).mp hitem,
        (requireJsonItems_eq_ok path _ items).mp hitems⟩
    · rintro ⟨hitem, hitems⟩
      exact ⟨(), (requireJsonValue_eq_ok _ item).mpr hitem,
        (requireJsonItems_eq_ok path _ items).mpr hitems⟩

theorem requireJsonMembers_eq_ok (path : String) : ∀ members : List (String × Json),
    requireJsonMembers path members = .ok () ↔ finiteMembers members = true
  | [] => by simp [requireJsonMembers, finiteMembers]
  | (key, value) :: members => by
    rw [requireJsonMembers, bind_eq_ok, finiteMembers, Bool.and_eq_true]
    constructor
    · rintro ⟨_, hvalue, hmembers⟩
      exact ⟨(requireJsonValue_eq_ok _ value).mp hvalue,
        (requireJsonMembers_eq_ok path members).mp hmembers⟩
    · rintro ⟨hvalue, hmembers⟩
      exact ⟨(), (requireJsonValue_eq_ok _ value).mpr hvalue,
        (requireJsonMembers_eq_ok path members).mpr hmembers⟩

end

theorem finiteItems_eq_all (items : List Json) :
    finiteItems items = items.all finiteNumbers := by
  induction items with
  | nil => rfl
  | cons item items ih => rw [finiteItems, List.all_cons, ih]

/-! ## The request -/

/-- What a bridge for the deployment says that it was generated for. -/
def bindingOf (surface : Option HashObject) (digest : Option String) : Option Json :=
  surface.map fun hash =>
    .obj (("toolSurface", hash.toJson) :: optionalMember "upstreamDigest" digest)

/-- A hash as `computeToolSurfaceHash` makes it. -/
def IsDigest (hash : HashObject) : Prop :=
  hash.alg = "sha-256" ∧ RelayDelivery.isDigestText hash.value = true

theorem toLower_hex {c : Char} (h : PackageVerification.isHex c = true) :
    (c.toLower.isDigit || (decide ('a' ≤ c.toLower) && decide (c.toLower ≤ 'f'))) = true := by
  have hsmall : c.toNat < 128 := by
    simp only [PackageVerification.isHex, Bool.or_eq_true, Char.isDigit, Bool.and_eq_true,
      decide_eq_true_eq, Char.le_def] at h
    have hcode : c.toNat = c.val.toNat := rfl
    have hnine : ('9' : Char).val.toNat = 57 := rfl
    have hf : ('f' : Char).val.toNat = 102 := rfl
    have hF : ('F' : Char).val.toNat = 70 := rfl
    rcases h with (h | h) | h <;> have hle := UInt32.le_iff_toNat_le.mp h.2 <;> omega
  have hall : ∀ n : Fin 128, PackageVerification.isHex (Char.ofNat n) = true →
      ((Char.ofNat n).toLower.isDigit || (decide ('a' ≤ (Char.ofNat n).toLower) &&
        decide ((Char.ofNat n).toLower ≤ 'f'))) = true := by decide
  have hc := hall ⟨c.toNat, hsmall⟩
  simp only [Char.ofNat_toNat] at hc
  exact hc h

/-- A pin in the arguments of a target is a digest in the form of requests. -/
theorem digestPin_isUpstreamDigest {arg pin : String} (h : digestPin arg = some pin) :
    RelayDelivery.isUpstreamDigest pin = true := by
  unfold digestPin at h
  dsimp only at h
  split at h
  · rename_i hpin
    obtain ⟨-, hprefix, hlength, hhex⟩ := hpin
    cases h
    obtain ⟨digits, hdigits⟩ := List.isPrefixOf_iff_prefix.mp hprefix
    rw [← hdigits] at hlength hhex ⊢
    have hcount : digits.length = 64 := by
      rw [List.length_append] at hlength
      have hmark : "@sha256:".toList.length = 8 := rfl
      omega
    have htext : (String.ofList ((("@sha256:".toList ++ digits).drop 1).map Char.toLower)).toList =
        "sha256:".toList ++ digits.map Char.toLower := String.toList_ofList
    have hdrop : ("sha256:".toList ++ digits.map Char.toLower).drop 7 =
        digits.map Char.toLower := rfl
    have hall : digits.all PackageVerification.isHex = true := hhex
    unfold RelayDelivery.isUpstreamDigest
    rw [htext, hdrop]
    dsimp only
    rw [List.length_map, hcount, List.all_map]
    simp only [decide_true, Bool.true_and, Bool.and_eq_true]
    refine ⟨List.isPrefixOf_iff_prefix.mpr (List.prefix_append _ _), ?_⟩
    rw [List.all_eq_true] at hall ⊢
    exact fun c hc => toLower_hex (hall c hc)
  · cases h

theorem targetDigest_isUpstreamDigest {target : ExecutionTarget} {digest : String}
    (h : targetDigest target = some (some digest)) :
    RelayDelivery.isUpstreamDigest digest = true := by
  cases target with
  | http managed => cases h
  | stdio args =>
    simp only [targetDigest, upstreamDigestFromArgs] at h
    split at h
    · cases h
    · rename_i pin hpins
      cases h
      have hmem : digest ∈ (args.filterMap digestPin).dedup := by
        rw [hpins]
        exact List.mem_singleton_self _
      obtain ⟨arg, -, hpin⟩ := List.mem_filterMap.mp (List.mem_dedup.mp hmem)
      exact digestPin_isUpstreamDigest hpin
    · cases h

/-- What a bridge is bound to, as it is parsed: it comes out as it went in. -/
theorem parseUpstreamBinding_binding {hash : HashObject} (hhash : IsDigest hash)
    {digest : Option String} (hdigest : ∀ d ∈ digest, RelayDelivery.isUpstreamDigest d = true) :
    RelayDelivery.parseUpstreamBinding
        (.obj (("toolSurface", hash.toJson) :: optionalMember "upstreamDigest" digest)) =
      .ok (.obj (("toolSurface", hash.toJson) :: optionalMember "upstreamDigest" digest)) := by
  obtain ⟨alg, value⟩ := hash
  obtain ⟨rfl, hvalue⟩ := hhash
  dsimp only at hvalue
  unfold RelayDelivery.parseUpstreamBinding
  refine bind_eq_ok.mpr ⟨_, rfl, bind_eq_ok.mpr ⟨_, rfl, ?_⟩⟩
  cases digest with
  | none =>
    refine throwIf_bind_eq_ok.mpr ⟨?_, rfl⟩
    simp [optionalMember, List.lookup_cons, Json.asString, hvalue]
  | some d =>
    have hd := hdigest d rfl
    refine throwIf_bind_eq_ok.mpr ⟨?_, rfl⟩
    simp [optionalMember, List.lookup_cons, Json.asString, hvalue, hd]

/-- The binding that the Verifier compares with. -/
theorem binding_matches (surface : Option HashObject) (digest : Option String) :
    upstreamBindingMatches (bindingOf surface digest) surface digest = true := by
  cases surface with
  | none => rfl
  | some hash =>
    have hdigest : at? (some (.obj (("toolSurface", hash.toJson) ::
        optionalMember "upstreamDigest" digest))) ["upstreamDigest"] = digest.map .str := by
      cases digest <;> rfl
    change (decide ((some (.str hash.alg) : Option Json) = some (.str hash.alg)) &&
      decide ((some (.str hash.value) : Option Json) = some (.str hash.value)) &&
        decide (at? (some (.obj (("toolSurface", hash.toJson) ::
          optionalMember "upstreamDigest" digest))) ["upstreamDigest"] = digest.map .str)) = true
    rw [hdigest]
    simp

/-- The request of a package, as a bridge sends it. -/
def requestOf (key : String) (package : ActionPackage) (binding : Option Json) : Json :=
  ({ idempotencyKey := key, actionPackage := package.toJson, upstreamBinding := binding } :
    Routing.ActionRequest).toJson

/-- And as it was parsed. -/
def parsedRequest (key : String) (package : ActionPackage) (binding : Option Json) : Json :=
  .obj ([("version", .str "1"), ("type", .str "ActionRequest"),
      ("actionPackage", package.toJson)] ++
    (binding.map fun v => ("upstreamBinding", v)).toList ++ [("idempotencyKey", .str key)])

theorem parsedRequest_binding (key : String) (package : ActionPackage) (binding : Option Json) :
    (parsedRequest key package binding).member "upstreamBinding" = binding := by
  cases binding <;> rfl

def ValidKey (key : String) : Prop :=
  Routing.lengthOf key ≠ 0 ∧ Routing.lengthOf key ≤ Routing.MPAS_MAX_IDEMPOTENCY_KEY_LENGTH

section Request

variable {verifier : Verifier} {key : String} {package : ActionPackage}
  {surface : Option HashObject} {digest : Option String}

theorem unwrapActionRequest_request (hkey : ValidKey key)
    (hsurface : ∀ hash ∈ surface, IsDigest hash)
    (hdigest : ∀ d ∈ digest, RelayDelivery.isUpstreamDigest d = true) :
    unwrapActionRequest verifier (requestOf key package (bindingOf surface digest)) =
      some (parsedRequest key package (bindingOf surface digest)) := by
  have hvalid : RelayDelivery.validateOptionalIdempotencyKey (some (.str key)) "$.idempotencyKey" =
      .ok (some key) := by
    unfold RelayDelivery.validateOptionalIdempotencyKey
    simp only
    rw [if_neg (by rintro (h | h); exacts [hkey.1 h, absurd hkey.2 (not_le.mpr h)])]
  have htype : (requestOf key package (bindingOf surface digest)).member "type" ≠
      some (.str "DeliveryEnvelope") := by
    change (some (.str "ActionRequest") : Option Json) ≠ some (.str "DeliveryEnvelope")
    decide
  have hparsed : RelayDelivery.parseActionRequest verifier.routing
      (requestOf key package (bindingOf surface digest)) =
        .ok (parsedRequest key package (bindingOf surface digest)) := by
    unfold RelayDelivery.parseActionRequest
    refine bind_eq_ok.mpr ⟨_, rfl, bind_eq_ok.mpr ⟨(), rfl, bind_eq_ok.mpr ⟨(), rfl,
      bind_eq_ok.mpr ⟨_, rfl, bind_eq_ok.mpr ⟨(), rfl, bind_eq_ok.mpr ⟨(), rfl,
      bind_eq_ok.mpr ⟨some key, hvalid, ?_⟩⟩⟩⟩⟩⟩⟩
    cases surface with
    | none => rfl
    | some hash =>
      have hbinding := parseUpstreamBinding_binding (hsurface hash rfl) hdigest
      refine bind_eq_ok.mpr ⟨some (.obj (("toolSurface", hash.toJson) ::
        optionalMember "upstreamDigest" digest)), ?_, rfl⟩
      rw [hbinding]
      rfl
  unfold unwrapActionRequest
  rw [if_neg htype, hparsed]
  rfl

theorem finiteMembers_filter (keep : String × Json → Bool) {members : List (String × Json)}
    (h : finiteMembers members = true) : finiteMembers (members.filter keep) = true := by
  induction members with
  | nil => rfl
  | cons member members ih =>
    obtain ⟨name, value⟩ := member
    obtain ⟨hvalue, hmembers⟩ := Bool.and_eq_true_iff.mp h
    rw [List.filter_cons]
    split
    · exact Bool.and_eq_true_iff.mpr ⟨hvalue, ih hmembers⟩
    · exact ih hmembers

theorem finite_parsedRequest (h : finiteNumbers package.toJson = true) :
    finiteNumbers (parsedRequest key package (bindingOf surface digest)) = true := by
  cases surface with
  | none =>
    change (true && (true && (finiteNumbers package.toJson && (true && true)))) = true
    rw [h]
    rfl
  | some hash =>
    change (true && (true && (finiteNumbers package.toJson &&
      (finiteNumbers (.obj
        (("toolSurface", hash.toJson) :: optionalMember "upstreamDigest" digest)) &&
        (true && true))))) = true
    rw [h]
    cases digest <;> rfl

/-- A request with finite numbers has a fingerprint. -/
theorem fingerprint_isSome (verifier : Verifier) (h : finiteNumbers package.toJson = true) :
    ∃ fingerprint, (Routing.computeIdempotencyFingerprint verifier.routing
      (parsedRequest key package (bindingOf surface digest))).toOption = some fingerprint := by
  have hscope : Routing.idempotencyProjection verifier.routing "$"
      (parsedRequest key package (bindingOf surface digest)) = Routing.requestProjection "$"
        ([("version", .str "1"), ("type", .str "ActionRequest"),
            ("actionPackage", package.toJson)] ++
          ((bindingOf surface digest).map fun v => ("upstreamBinding", v)).toList ++
            [("idempotencyKey", .str key)]) := by
    unfold parsedRequest Routing.idempotencyProjection
    rw [if_neg (by simp [List.lookup_cons]), if_pos (by simp [List.lookup_cons,
      Routing.requestTypes])]
  have hprojection : ∃ projection, Routing.idempotencyProjection verifier.routing "$"
      (parsedRequest key package (bindingOf surface digest)) = .ok projection :=
    ⟨_, hscope.trans (bind_eq_ok.mpr ⟨(), (requireJsonValue_eq_ok _ _).mpr
      (finiteMembers_filter _ (finite_parsedRequest h)), rfl⟩)⟩
  obtain ⟨projection, hprojection⟩ := hprojection
  refine ⟨(verifier.routing.computeJsonHash projection).value, ?_⟩
  unfold Routing.computeIdempotencyFingerprint
  rw [hprojection]
  rfl

end Request

/-! ## The package -/

section Package

variable {platform : PackageVerification.Platform} {config : PackageVerification.VerificationConfig}
  {builder : PackageBuilder} {readings : BuildReadings} {toolName : String} {args : Members}
  {ballots : List Ballot} {completedAt : Int}

theorem finite_completed (h : Configured config builder readings)
    (hargs : finiteMembers args = true) :
    finiteNumbers
      (completedPackage platform builder readings toolName args ballots completedAt).toJson =
        true := by
  have henvelope : finiteNumbers (envelopeOfCall platform builder readings toolName args).toJson =
      true := by
    rw [h.envelope_json]
    rfl
  have happrovals : finiteItems ((ballots.map (Ballot.approval platform
      (envelopeOfCall platform builder readings toolName args))).map Approval.toJson) = true := by
    rw [finiteItems_eq_all, List.map_map, List.all_map, List.all_eq_true]
    exact fun ballot _ => rfl
  change (true && (true && ((true && (finiteMembers args && true)) &&
    (finiteNumbers (envelopeOfCall platform builder readings toolName args).toJson &&
      ((true && (true && (true && (finiteItems ((ballots.map (Ballot.approval platform
        (envelopeOfCall platform builder readings toolName args))).map Approval.toJson) &&
          true)))) && true))))) = true
  rw [hargs, henvelope, happrovals]
  rfl

end Package

/-! ## The Verifier -/

/-- A tool call, and how its package came about. -/
structure Action where
  builder : PackageBuilder
  readings : BuildReadings
  toolName : String
  args : Members
  ballots : List Ballot
  completedAt : Int
  idempotencyKey : String

namespace Action

variable (action : Action) (platform : PackageVerification.Platform)

def created : Int := action.readings.envelopeNow

def expires : Int := action.builder.expiration action.readings

def envelope : ActionEnvelope :=
  envelopeOfCall platform action.builder action.readings action.toolName action.args

def package : ActionPackage :=
  completedPackage platform action.builder action.readings action.toolName action.args
    action.ballots action.completedAt

def votes : List SignerDecision :=
  action.ballots.map fun ballot => ⟨ballot.approver.signerDid, ballot.decision⟩

end Action

/-- The deployment that the builder is configured for. -/
structure Deployed (verifier : Verifier) (loaded : LoadedDeploymentConfig) (applicationDid : Did)
    (digest : Option String) : Prop where
  registered : verifier.configsByApplicationDid.get? applicationDid = some loaded
  target : targetDigest loaded.executionTarget = some digest
  surface : ∀ surface ∈ loaded.plugin.toolSurface, IsDigest surface.hash
  profile : loaded.plugin.executionProfile.id = "did:web:profiles.oma3.org:mcp"
  format : loaded.plugin.executionProfile.format.getD "mcp.toolsCall" = "mcp.toolsCall"

/-- A reading of the clock in the window of an envelope. -/
def Reads (reading : JsNumber) (created expires : Int) : Prop :=
  ∃ ms : Int, reading = .finite ms ∧ created ≤ ms ∧ ms < expires

/-- The handler is done before the envelope expires. -/
structure Ticks (verifier : Verifier) (clock : Clock) (created expires now : Int) : Prop where
  structural : Reads clock.structural created expires
  expiry : Reads (verifier.now.getD clock.expiry) created expires
  validity : Reads (verifier.now.getD clock.validity) created expires
  verification : verifier.now.getD clock.verification = .finite now
  started : created ≤ now
  unexpired : now < expires

/-- What an honest request relies on. -/
structure Honest (verifier : Verifier) (loaded : LoadedDeploymentConfig) (digest : Option String)
    (clock : Clock) (now : Int) (action : Action) : Prop where
  hashes : Hashes verifier.platform
  configured : Configured (verificationConfig verifier loaded) action.builder action.readings
  created : Dated verifier.platform action.created
  expires : Dated verifier.platform action.expires
  packaged : Dated verifier.platform action.readings.packageNow
  finished : Dated verifier.platform action.completedAt
  deployed : Deployed verifier loaded action.builder.applicationDid digest
  ticks : Ticks verifier clock action.created action.expires now
  named : action.toolName ≠ ""
  finite : finiteMembers action.args = true
  key : ValidKey action.idempotencyKey
  voted : ∀ ballot ∈ action.ballots, ballot.Honest verifier.platform loaded.signerKeys
    (action.envelope verifier.platform) action.created now
  proposed : ∃ key, proposal action.builder action.readings key ∈ action.ballots

theorem window_of_reads {created expires ms : Int} (hcreated : Timestamps.InRange created)
    (hexpires : Timestamps.InRange expires) (hstarted : created ≤ ms) (hunexpired : ms < expires) :
    Window created expires ms 0 :=
  ⟨hstarted, hunexpired, le_rfl, hcreated, hexpires, ⟨le_rfl, by decide⟩⟩

/-- What an honest Approval relies on does not change with the clock. -/
theorem ballot_reclocked {platform : PackageVerification.Platform}
    {trustedSigners : List TrustedSigner} {envelope : ActionEnvelope} {created now : Int}
    {ballot : Ballot} (clock : JsNumber)
    (h : ballot.Honest platform trustedSigners envelope created now) :
    ballot.Honest { platform with clock } trustedSigners envelope created now :=
  ⟨h.did, h.trusted, ⟨h.dated.range, h.dated.parsed⟩, h.after, h.before,
    ⟨h.signed.compact, h.signed.carries, h.signed.valid⟩, h.parses, h.canonical⟩

section Handler

variable {verifier : Verifier} {loaded : LoadedDeploymentConfig} {digest : Option String}
  {clock : Clock} {now : Int} {action : Action}

/-- What a bridge is bound to, for this deployment. -/
def upstreamOf (loaded : LoadedDeploymentConfig) (digest : Option String) : Option Json :=
  bindingOf (loaded.plugin.toolSurface.map ToolSurface.hash) digest

/-- What the handler holds of its request. -/
def intakeOf (verifier : Verifier) (loaded : LoadedDeploymentConfig) (digest : Option String)
    (clock : Clock) (action : Action) : Intake where
  request := parsedRequest action.idempotencyKey (action.package verifier.platform)
    (upstreamOf loaded digest)
  package := (action.package verifier.platform).toJson
  loaded := loaded
  clock := clock

theorem Honest.envelope_json (h : Honest verifier loaded digest clock now action) :
    (intakeOf verifier loaded digest clock action).envelope =
      .obj (envelopeMembers verifier.platform action.builder action.readings action.toolName
        action.args) :=
  h.configured.envelope_json action.toolName action.args

theorem Honest.received (h : Honest verifier loaded digest clock now action) :
    receive verifier clock (requestOf action.idempotencyKey (action.package verifier.platform)
        (upstreamOf loaded digest)) = .ok (intakeOf verifier loaded digest clock action) := by
  obtain ⟨proposalKey, hproposal⟩ := h.proposed
  obtain ⟨ms, hms, hstarted, hunexpired⟩ := h.ticks.structural
  have hsurface : ∀ hash ∈ loaded.plugin.toolSurface.map ToolSurface.hash, IsDigest hash := by
    intro hash hmem
    obtain ⟨surface, hfound, rfl⟩ := Option.map_eq_some_iff.mp hmem
    exact h.deployed.surface surface hfound
  have hdigest : ∀ d ∈ digest, RelayDelivery.isUpstreamDigest d = true := by
    intro d hd
    exact targetDigest_isUpstreamDigest (h.deployed.target.trans (congrArg some hd))
  obtain ⟨record, hrecord, hshape⟩ := h.configured.package_shape h.hashes h.created h.expires
    h.packaged h.finished h.voted (List.ne_nil_of_mem hproposal)
  have hwindow := window_of_reads h.created.range h.expires.range hstarted hunexpired
  have hvalid : PackageVerification.validateActionEnvelope verifier.platform
      (intakeOf verifier loaded digest clock action).envelope
        { checkExpiry := false, now := clock.structural } = .ok () := by
    rw [h.envelope_json]
    exact h.configured.envelope_valid h.hashes h.created h.expires action.toolName action.args
      fun _ => ⟨ms, 0, hms, by simp, hwindow⟩
  exact receive_eq_ok_iff.mpr ⟨_, _, loaded, digest,
    unwrapActionRequest_request h.key hsurface hdigest,
    PackageVerification.parseActionPackage_eq_ok.mpr ⟨record, hrecord, hshape, rfl⟩, hvalid,
    h.deployed.registered, h.deployed.target,
    (parsedRequest_binding _ _ _).symm ▸ binding_matches _ _, rfl⟩

theorem Honest.in_time (h : Honest verifier loaded digest clock now action) :
    afterLedger verifier (intakeOf verifier loaded digest clock action) = .ok () := by
  obtain ⟨ms, hms, -, hunexpired⟩ := h.ticks.expiry
  obtain ⟨ms', hms', hstarted', hunexpired'⟩ := h.ticks.validity
  have hexpires : PackageVerification.timeOf verifier.platform
      (at? (some (intakeOf verifier loaded digest clock action).envelope) ["expiresAt"]) =
        .finite action.expires := by
    rw [h.envelope_json]
    exact h.expires.timeOf
  have hexpired : isActionEnvelopeExpired verifier
      (intakeOf verifier loaded digest clock action).envelope clock.expiry = false := by
    simp only [isActionEnvelopeExpired, hexpires, hms, finite_le]
    simp only [Bool.and_eq_false_imp, decide_eq_false_iff_not]
    exact fun _ => by omega
  have hprofile : declaresProfile (intakeOf verifier loaded digest clock action).envelope
      loaded.plugin.executionProfile = true := by
    rw [h.envelope_json]
    unfold declaresProfile
    rw [h.deployed.profile, h.deployed.format]
    rfl
  have hvalidity := h.configured.validity_bounded h.expires
    (window_of_reads h.created.range h.expires.range hstarted' hunexpired') action.toolName
    action.args
  rw [← h.envelope_json, ← hms'] at hvalidity
  unfold afterLedger
  refine throwIf_bind_eq_ok.mpr ⟨Bool.eq_false_iff.mp hexpired, throwIf_bind_eq_ok.mpr
    ⟨not_not.mpr hprofile, throwIf_eq_ok.mpr (Bool.eq_false_iff.mp ?_)⟩⟩
  exact hvalidity

/-! ### Verification and policy -/

theorem Honest.surroundings (h : Honest verifier loaded digest clock now action) :
    Surroundings (platformOf verifier (intakeOf verifier loaded digest clock action))
      (verificationConfig verifier loaded) action.builder action.readings now 0
      action.completedAt where
  hashes := h.hashes
  configured := h.configured
  created := ⟨h.created.range, h.created.parsed⟩
  expires := ⟨h.expires.range, h.expires.parsed⟩
  packaged := ⟨h.packaged.range, h.packaged.parsed⟩
  finished := ⟨h.finished.range, h.finished.parsed⟩
  clock := h.ticks.verification
  tolerated := by simp [verificationConfig]
  window := window_of_reads h.created.range h.expires.range h.ticks.started h.ticks.unexpired

/-- The package is verified, and these are the votes that the policy sees. -/
theorem Honest.verified (h : Honest verifier loaded digest clock now action) :
    ∃ verified, verify verifier (intakeOf verifier loaded digest clock action) = .ok verified ∧
      (AdapterDecision.approvalsOf verified.verifiedApprovals).decisions = action.votes := by
  obtain ⟨proposalKey, hproposal⟩ := h.proposed
  have hvoted : ∀ ballot ∈ action.ballots, ballot.Honest
      (platformOf verifier (intakeOf verifier loaded digest clock action))
      (verificationConfig verifier loaded).trustedSigners
      (action.envelope verifier.platform) action.created now :=
    fun ballot hmem => ballot_reclocked _ (h.voted ballot hmem)
  obtain ⟨verified, hverified⟩ := PackageVerification.verifyActionPackage_eq_ok.mpr
    (h.surroundings.passes h.named hvoted hproposal)
  have hballots := h.surroundings.verified_ballots hvoted hverified
  refine ⟨verified, by unfold verify; exact mapError_eq_ok.mpr hverified, ?_⟩
  unfold PolicyEngine.VerifiedApprovals.decisions AdapterDecision.approvalsOf
  dsimp only
  rw [hballots, List.map_map, List.map_map]
  refine List.map_congr_left fun ballot _ => ?_
  have hdecision : decisionOf (PackageVerification.verifiedApproval (ballot.approval
      (platformOf verifier (intakeOf verifier loaded digest clock action))
        (action.envelope verifier.platform)).toJson ballot.signer).decision =
      some ballot.decision := decisionOf_text rfl
  exact congrArg (fun decision => (⟨ballot.approver.signerDid, decision.getD .abstain⟩ :
    SignerDecision)) hdecision

/-- What the deployment's plugin and policy say of the Action. -/
structure Permitted (verifier : Verifier) (loaded : LoadedDeploymentConfig)
    (digest : Option String) (clock : Clock) (action : Action) : Prop where
  governed : Governed verifier (intakeOf verifier loaded digest clock action) action.toolName
  proposer : checkProposerAuthorization action.builder.signerDid loaded.policy = some true
  agreed : ConflictFree action.votes
  meets : PolicyEngine.Meets loaded.policy
    (packageOf (action.package verifier.platform).toJson)
    (PolicyEngine.votesOf action.builder.signerDid action.votes)

theorem payload_structure {toolName : String} (hname : toolName ≠ "") (args : Members) :
    validateMcpPayloadStructure (PackageBuilder.createPayload toolName args) =
      some (toolName, args) := by
  change (if toolName = "" then none else some (toolName, args)) = _
  rw [if_neg hname]

theorem route_governed {intake : Intake} {operation : String}
    (h : Governed verifier intake operation) :
    routeOf verifier intake.loaded intake.payload operation = .ok .governed := by
  unfold routeOf
  rcases h with h | ⟨h, hpolicy⟩
  · rw [h]
  · rw [h]
    dsimp only
    rw [hpolicy]
    rfl

theorem Honest.authorized (h : Honest verifier loaded digest clock now action)
    (hpermitted : Permitted verifier loaded digest clock action) :
    ∃ call, authorizeAction verifier (intakeOf verifier loaded digest clock action) = .ok call ∧
      call.operation = action.toolName ∧ call.arguments = action.args := by
  obtain ⟨verified, hverified, hvotes⟩ := h.verified
  have hsatisfied : PolicyEngine.evaluatePolicy
      (packageOf (intakeOf verifier loaded digest clock action).package)
      (AdapterDecision.approvalsOf verified.verifiedApprovals) loaded.policy = .ok .satisfied := by
    rw [PolicyEngine.evaluatePolicy_satisfied_iff, hvotes]
    exact ⟨hpermitted.agreed, hpermitted.meets⟩
  have hstructure := payload_structure h.named action.args
  have hproposer : proposerVerdict (intakeOf verifier loaded digest clock action) = .ok () := by
    have hdid : textAt (intakeOf verifier loaded digest clock action).envelope ["proposer", "did"] =
        action.builder.signerDid := rfl
    have hallowed : checkProposerAuthorization action.builder.signerDid
        (intakeOf verifier loaded digest clock action).loaded.policy = some true :=
      hpermitted.proposer
    unfold proposerVerdict
    rw [hdid, hallowed]
    rfl
  have hgoverned : routeVerdict (intakeOf verifier loaded digest clock action) verified
      action.toolName .governed = .ok () := by
    have hloaded : (intakeOf verifier loaded digest clock action).loaded = loaded := rfl
    simp only [routeVerdict, governedVerdict, hloaded, hsatisfied]
  refine ⟨⟨intakeOf verifier loaded digest clock action, verified, .governed, action.toolName,
    action.args⟩, ?_, rfl, rfl⟩
  unfold authorizeAction
  refine bind_eq_ok.mpr ⟨verified, hverified, ?_⟩
  have hpayload : (intakeOf verifier loaded digest clock action).payload =
      PackageBuilder.createPayload action.toolName action.args := rfl
  rw [hpayload, hstructure]
  exact bind_eq_ok.mpr ⟨(), hproposer, bind_eq_ok.mpr
    ⟨.governed, route_governed hpermitted.governed, bind_eq_ok.mpr ⟨(), hgoverned, rfl⟩⟩⟩

/-- What the ledger is asked for. -/
theorem Honest.submission (h : Honest verifier loaded digest clock now action) :
    ∃ fingerprint, submissionOf verifier (intakeOf verifier loaded digest clock action) = {
      actionId := { value := "urn:uuid:" ++ action.readings.randomUUID }
      envelopeHash :=
        (verifier.platform.computeJsonHash (action.envelope verifier.platform).toJson).value
      expiresAt := toISOString action.expires
      fingerprint := some fingerprint } := by
  obtain ⟨fingerprint, hfingerprint⟩ := fingerprint_isSome verifier
    (finite_completed h.configured h.finite)
  refine ⟨fingerprint, ?_⟩
  have hactionId : actionIdOf (intakeOf verifier loaded digest clock action).envelope =
      { value := "urn:uuid:" ++ action.readings.randomUUID } := by
    rw [h.envelope_json]
    rfl
  have hexpires : textAt (intakeOf verifier loaded digest clock action).envelope ["expiresAt"] =
      toISOString action.expires := by
    rw [h.envelope_json]
    rfl
  have henvelope : (intakeOf verifier loaded digest clock action).envelope =
      (action.envelope verifier.platform).toJson := rfl
  unfold submissionOf
  rw [hactionId, hexpires, henvelope]
  congr 1

end Handler

/-! ## The execution -/

/-- **Honest Actions are executed.** A package that Coordination hands out for what
the Proposer's builder made, whose votes meet the policy, is not refused in the window of
its envelope: from whatever state the Verifier is in, if its ledger does not know
the Action, its tool call is transmitted, and the journal has it before. -/
theorem honest_action_executes {verifier : Verifier} {loaded : LoadedDeploymentConfig}
    {digest : Option String} {clock : Clock} {now : Int} {action : Action}
    {collected : List Ballot} {runtime : Coordination.Runtime}
    {coordination : Coordination.Readings} {returned : ActionPackage}
    (h : Honest verifier loaded digest clock now action)
    (hpermitted : Permitted verifier loaded digest clock action)
    (hreturned : HandedOut verifier.platform action.builder action.readings action.toolName
      action.args collected runtime coordination returned)
    (hballots : ∃ key, action.ballots = proposal action.builder action.readings key :: collected)
    (hcompleted : action.completedAt = coordination.date)
    {w : World} {server : Server} {i : Nat} (hserver : w.adapter.server = some server)
    (hfree : server.handlers.has i = false)
    (habsent : DispatchLedger.check server.entries
      { value := "urn:uuid:" ++ action.readings.randomUUID }
      (verifier.platform.computeJsonHash
        (action.envelope verifier.platform).toJson).value = .absent)
    (dispatchedAt : Timestamp) :
    ∃ call w', exec (step verifier) w
        (.submit i (requestOf action.idempotencyKey returned (upstreamOf loaded digest)) clock ::
          .verified i :: preparation loaded i dispatchedAt) = some w' ∧
      w'.transmitted = w.transmitted ++ [call] ∧
      call.operation = action.toolName ∧ call.arguments = action.args ∧
      Authorized verifier call ∧
      w'.adapter.journal = w.adapter.journal.append (DispatchLedger.executingEvent
        { value := "urn:uuid:" ++ action.readings.randomUUID }
        (verifier.platform.computeJsonHash (action.envelope verifier.platform).toJson).value
        (toISOString action.expires) dispatchedAt) .line := by
  obtain ⟨key, hballots⟩ := hballots
  have hpackage : returned = action.package verifier.platform := by
    rw [hreturned.eq_completed (hballots ▸ h.voted), ← hballots, ← hcompleted]
    rfl
  subst hpackage
  obtain ⟨call, hcall, hoperation, harguments⟩ := h.authorized hpermitted
  obtain ⟨fingerprint, hsubmission⟩ := h.submission
  have hunknown : DispatchLedger.check server.entries
      (submissionOf verifier (intakeOf verifier loaded digest clock action)).actionId
      (submissionOf verifier (intakeOf verifier loaded digest clock action)).envelopeHash =
        .absent := by
    rw [hsubmission]
    exact habsent
  have hfingerprint : (submissionOf verifier
      (intakeOf verifier loaded digest clock action)).fingerprint = some fingerprint := by
    rw [hsubmission]
  have hreceived : receive verifier (intakeOf verifier loaded digest clock action).clock
      (requestOf action.idempotencyKey (action.package verifier.platform)
        (upstreamOf loaded digest)) =
          .ok (intakeOf verifier loaded digest clock action) := h.received
  obtain ⟨w', hw', htransmitted, hjournal⟩ := dispatches hserver hfree hreceived h.in_time hcall
    hunknown hfingerprint dispatchedAt
  rw [hsubmission] at hjournal
  have hauthorized := (authorizeAction_authorized (receive_eq_ok h.received) h.in_time hcall).1
  exact ⟨call, w', hw', htransmitted, hoperation, harguments, hauthorized, hjournal⟩

namespace Example

open HonestPackages.Example (builder readings bob coordination)
open PackageVerification.Example (key)

/-- The policy asks for one approval of Bob's. -/
def loaded : LoadedDeploymentConfig where
  applicationDid := "did:web:app.example"
  signerKeys := HonestPackages.Example.trustedSigners
  policy := {
    defaultRequirement := .proposerOnly []
    policies := .given [("send", .given [.given { requirements := some (.threshold {
      threshold := some (.num (.finite 1))
      eligibleSigners := some (.arr [.str "did:web:bob.example"]) }) }])]
    signerGroups := .given [("proposers", .arr [.str "did:web:alice.example"])] }
  executionTarget := .stdio ["mcp-server"]
  plugin := {
    executionProfile := ⟨"did:web:profiles.oma3.org:mcp", none⟩
    operations := [("read", .obj [])] }

def verifier : Verifier where
  routing := {
    computeJsonHash := HonestPackages.Example.platform.computeJsonHash
    dateParse := fun _ => none
    urlOrigin := fun _ => none
    stringify := fun _ => "" }
  platform := HonestPackages.Example.platform
  compileSchema _ := none
  measurePayloadBytes _ := some 33
  adapterDid := "did:web:verifier.example"
  configsByApplicationDid := (∅ : OrderedMap Did LoadedDeploymentConfig).set
    "did:web:app.example" loaded

def clock : Clock :=
  ⟨.finite 1767225720000, .finite 1767225720000, .finite 1767225720000, .finite 1767225720000⟩

def action : Action where
  builder := builder
  readings := readings
  toolName := "send"
  args := []
  ballots := [proposal builder readings (some key), bob]
  completedAt := coordination.date
  idempotencyKey := "1"

theorem reads : Reads (.finite 1767225720000) action.created action.expires :=
  ⟨1767225720000, by norm_num, by decide, by
    change _ < builder.expiration readings
    rw [HonestPackages.Example.expiration_eq]
    decide⟩

theorem honest : Honest verifier loaded none clock 1767225720000 action where
  hashes := HonestPackages.Example.hashes
  configured := { HonestPackages.Example.configured with
    profiles := rfl, trusted := List.mem_singleton_self _, validity := rfl }
  created := HonestPackages.Example.created_dated
  expires := by
    change Dated _ (builder.expiration readings)
    rw [HonestPackages.Example.expiration_eq]
    exact HonestPackages.Example.expires_dated
  packaged := HonestPackages.Example.created_dated
  finished := HonestPackages.Example.approved_dated
  deployed := {
    registered := rfl
    target := rfl
    surface := by rintro surface ⟨⟩
    profile := rfl
    format := rfl }
  ticks := {
    structural := reads
    expiry := reads
    validity := reads
    verification := by norm_num [verifier, clock]
    started := by decide
    unexpired := by
      change _ < builder.expiration readings
      rw [HonestPackages.Example.expiration_eq]
      decide }
  named := by decide
  finite := rfl
  key := ⟨by decide, by decide⟩
  voted := HonestPackages.Example.ballots_honest
  proposed := ⟨some key, List.mem_cons_self⟩

theorem permitted : Permitted verifier loaded none clock action where
  governed := Or.inr ⟨rfl, rfl⟩
  proposer := by decide +kernel
  agreed x hx y hy hsame := by
    have hdistinct : (action.votes.map SignerDecision.signerDid).Nodup := by decide
    rw [List.inj_on_of_nodup_map hdistinct hx hy hsame]
  meets := ⟨_, rfl, rfl⟩

end Example

/-- Alice's call is transmitted, once Bob has approved it. -/
theorem approved_call_transmitted : ∃ events w, Run (step Example.verifier) Free
      { adapter := { journal := ⟨[], .clean⟩, server := some { entries := ∅ } } } events w ∧
    w.transmitted.map (fun call => (call.operation, call.arguments)) = [("send", [])] := by
  obtain ⟨call, w, hw, htransmitted, hoperation, harguments, -, -⟩ :=
    honest_action_executes Example.honest Example.permitted HonestPackages.Example.handed_out
      ⟨some PackageVerification.Example.key, rfl⟩ rfl
      (w := { adapter := { journal := ⟨[], .clean⟩, server := some { entries := ∅ } } })
      (i := 0) rfl rfl ((DispatchLedger.check_eq_absent_iff _ _ _).mpr ⟨rfl, rfl⟩)
      "2026-01-01T00:02:00.000Z"
  refine ⟨_, w, run_of_exec hw, ?_⟩
  rw [htransmitted]
  simp [hoperation, harguments, Example.action]

end Mpas.HonestDispatch
