import Mpas.AdapterDecision
import Mpas.AdapterSafety
import Mpas.PackageVerdict
import Mpas.PolicyMeaning

/-!
# Complete mediation

The adapter server with what its handlers decide: a run of it is one of
`AdapterServer`, in which verification and policy are computed from the bodies
of the requests, and each call of `transmit` is that of a handler's closure.

* `Authorized`: what a call must be for the Verifier to make it;
* `authorizeAction_authorized`: the decisions establish it;
* `complete_mediation`: every call of every run is authorized, and is that of a
  request that the run received.
-/

namespace Mpas.AdapterMediation

open AdapterDecision Checks Machine
open PackageVerification (TrustedSigner SignedBy Decodes TimeRules IsHash envelopeOf bundleOf at?
  part)
open ApprovalRequirements (SignerDecision ConflictFree)
open PolicyEngine (Meets)
open DispatchLedger (DispatchJournal AppendOutcome)
open AdapterServer (Submission Effect Reply AfterVerification Handler Server transmits)

/-! ## What is authorized -/

/-- A trusted signer has signed the decision, for this envelope, in time. -/
def Vouched (verifier : Verifier) (intake : Intake) (vote : SignerDecision) : Prop :=
  ∃ approval ∈ PackageVerification.approvalsOf (bundleOf intake.package),
    ∃ signer ∈ intake.loaded.signerKeys, ∃ payload jws middle,
      signer.did = vote.signerDid ∧
      SignedBy (platformOf verifier intake) signer jws ∧
      Decodes (platformOf verifier intake) approval payload jws middle ∧
      at? (some payload) ["signerDid"] = some (.str vote.signerDid) ∧
      at? (some payload) ["decision"] = some (.str vote.decision.text) ∧
      IsHash (at? (some payload) ["actionEnvelopeHash"])
        (verifier.platform.computeJsonHash intake.envelope) ∧
      TimeRules (platformOf verifier intake) intake.envelope approval
        (verifier.now.getD intake.clock.verification) (.finite 0)

def proposerOf (intake : Intake) : Did := textAt intake.envelope ["proposer", "did"]

/-- The plugin or the policy knows the operation, and the plugin does not refuse its payload. -/
def Governed (verifier : Verifier) (intake : Intake) (operation : String) : Prop :=
  validatePayloadAgainstPlugin verifier intake.loaded.plugin intake.payload = .ok operation ∨
    (validatePayloadAgainstPlugin verifier intake.loaded.plugin intake.payload =
      .error .UNKNOWN_OPERATION ∧ inPolicy intake.loaded.policy operation = true)

/-- Votes of others than the proposer meet what the policy requires of the Action. -/
def Satisfied (verifier : Verifier) (intake : Intake) : Prop :=
  ∃ votes, (∀ vote ∈ votes, vote.signerDid ≠ proposerOf intake ∧ Vouched verifier intake vote) ∧
    Meets intake.loaded.policy (packageOf intake.package) votes

/-- An operation that nothing governs, which the deployment lets through. -/
structure PassesThrough (verifier : Verifier) (intake : Intake) (operation : String) : Prop where
  unknown : validatePayloadAgainstPlugin verifier intake.loaded.plugin intake.payload =
    .error .UNKNOWN_OPERATION
  ungoverned : inPolicy intake.loaded.policy operation = false
  attested : ∀ surface, intake.loaded.plugin.toolSurface = some surface →
    operation ∈ surface.toolNames
  allowed : intake.loaded.passThrough ≠ some "deny"

structure Authorized (verifier : Verifier) (call : Call) : Prop where
  addressed : verifier.configsByApplicationDid.get?
    (textAt call.intake.envelope ["target", "applicationDid"]) = some call.intake.loaded
  bound : ∃ digest, targetDigest call.intake.loaded.executionTarget = some digest ∧
    upstreamBindingMatches (call.intake.request.member "upstreamBinding")
      (call.intake.loaded.plugin.toolSurface.map ToolSurface.hash) digest = true
  unexpired : isActionEnvelopeExpired verifier call.intake.envelope call.intake.clock.expiry = false
  profile : declaresProfile call.intake.envelope call.intake.loaded.plugin.executionProfile = true
  /-- what is transmitted is the payload, and the envelope has its hash -/
  payload : ∃ record, call.intake.payload = .obj record ∧
    record.lookup "name" = some (.str call.operation) ∧
    record.lookup "arguments" = some (.obj call.arguments) ∧
    ∀ key ∈ record.map Prod.fst, key = "name" ∨ key = "arguments"
  hash : IsHash (at? (some call.intake.envelope) ["executionPayloadHash"])
    (verifier.platform.computeJsonHash call.intake.payload)
  proposed : Vouched verifier call.intake ⟨proposerOf call.intake, .propose⟩
  permitted : checkProposerAuthorization (proposerOf call.intake) call.intake.loaded.policy =
    some true
  route : (Governed verifier call.intake call.operation ∧ Satisfied verifier call.intake) ∨
    PassesThrough verifier call.intake call.operation

/-! ## What the decisions establish -/

section

variable {verifier : Verifier} {intake : Intake}

theorem decisionOf_text {value : Option Json} {decision : Decision}
    (h : value = some (.str decision.text)) : decisionOf value = some decision := by
  subst h
  cases decision <;> decide

theorem text_of_isDecision {value : Option Json}
    (h : PackageVerification.isDecision value = true) :
    ∃ decision : Decision, value = some (.str decision.text) := by
  simp only [PackageVerification.isDecision, Bool.or_eq_true, decide_eq_true_eq] at h
  obtain ((h | h) | h) | h := h
  · exact ⟨.propose, h⟩
  · exact ⟨.approve, h⟩
  · exact ⟨.reject, h⟩
  · exact ⟨.abstain, h⟩

/-- The verified Approvals are those of the bundle. -/
theorem verified_approvals {platform : PackageVerification.Platform}
    {config : PackageVerification.VerificationConfig} {actionPackage : Json}
    {verified : PackageVerification.Verified}
    (h : PackageVerification.verifyActionPackage platform config actionPackage = .ok verified) :
    List.Forall₂ (fun approval v => ∃ signer,
        PackageVerification.AcceptedIn platform config actionPackage approval signer ∧
          v = PackageVerification.verifiedApproval approval signer)
      (PackageVerification.approvalsOf (bundleOf actionPackage))
      verified.verifiedApprovals.approvals := by
  unfold PackageVerification.verifyActionPackage at h
  simp only [bind_eq_ok, mapError_eq_ok, throwIf_eq_ok] at h
  obtain ⟨_, -, _, -, _, -, approvals, happrovals, _, -, heq⟩ := h
  cases heq
  unfold PackageVerification.verifyApprovalBundle at happrovals
  simp only [bind_eq_ok, mapError_eq_ok, throwIf_eq_ok] at happrovals
  obtain ⟨_, -, _, -, verifieds, hall, heq⟩ := happrovals
  cases heq
  exact PackageVerification.verifyApprovals_eq_ok.mp hall

/-- An accepted Approval vouches for its decision. -/
theorem vouched_of_accepted {approval : Json} {signer : TrustedSigner}
    (hmem : approval ∈ PackageVerification.approvalsOf (bundleOf intake.package))
    (h : PackageVerification.AcceptedIn (platformOf verifier intake)
      (verificationConfig verifier intake.loaded) intake.package approval signer) :
    ∃ decision : Decision, at? (some approval) ["decision"] = some (.str decision.text) ∧
      Vouched verifier intake ⟨signer.did, decision⟩ := by
  obtain ⟨payload, jws, middle, hdecodes, hsigned, hmatches, hdid⟩ := h.signed
  have hshape := hdecodes.shape
  simp only [PackageVerification.isCanonicalApprovalPayload, Bool.and_eq_true] at hshape
  obtain ⟨decision, hdecision⟩ := text_of_isDecision hshape.1.1.1.2
  have hsame := hmatches.same
  have hhash := PackageVerification.isHash_of_hashesEqual h.hash
  refine ⟨decision, hsame.decision ▸ hdecision, approval, hmem, signer,
    (PackageVerification.trustedByDid_did h.trusted).1, payload, jws, middle, rfl, hsigned,
    hdecodes, hdid, hdecision, ⟨?_, ?_⟩, PackageVerification.timeRules_of_valid h.time⟩
  · exact hsame.alg.trans hhash.1
  · exact hsame.value.trans hhash.2

/-- The votes that the policy engine is given are vouched for. -/
theorem votes_vouched {verified : PackageVerification.Verified}
    (h : verify verifier intake = .ok verified) :
    ∀ vote ∈ (AdapterDecision.approvalsOf verified.verifiedApprovals).decisions,
      Vouched verifier intake vote := by
  have hall := verified_approvals (mapError_eq_ok.mp h)
  intro vote hvote
  simp only [PolicyEngine.VerifiedApprovals.decisions, AdapterDecision.approvalsOf,
    List.map_map, List.mem_map, Function.comp_apply] at hvote
  obtain ⟨v, hv, rfl⟩ := hvote
  obtain ⟨approval, hmem, signer, haccepted, rfl⟩ := PackageVerification.forall₂_mem_right hall hv
  obtain ⟨decision, hdecision, hvouched⟩ := vouched_of_accepted hmem haccepted
  have hread : decisionOf (PackageVerification.verifiedApproval approval signer).decision =
      some decision := decisionOf_text hdecision
  simp only [approvalOf, hread, Option.getD_some]
  exact hvouched

/-- The proposer has signed a proposal of the package. -/
theorem proposer_vouched {verified : PackageVerification.Verified}
    (h : verify verifier intake = .ok verified) :
    Vouched verifier intake ⟨proposerOf intake, .propose⟩ := by
  have hpasses := PackageVerification.verifyActionPackage_eq_ok.mp ⟨_, mapError_eq_ok.mp h⟩
  obtain ⟨approval, hmem, signer, haccepted, hpropose, hproposer⟩ := hpasses.proposed
  obtain ⟨decision, hdecision, hvouched⟩ := vouched_of_accepted hmem haccepted
  have hdid : proposerOf intake = signer.did := by
    have hat : at? (some intake.envelope) ["proposer", "did"] = some (.str signer.did) :=
      hproposer.symm
    simp [proposerOf, textAt, hat, Json.asString]
  have hsame : decision = .propose := by
    rw [hpropose, Option.some.injEq, Json.str.injEq] at hdecision
    exact Decision.text_injective hdecision.symm
  rw [hdid, ← hsame]
  exact hvouched

theorem payloadStructure_eq_some {payload : Json} {name : String}
    {arguments : PackageVerification.Members}
    (h : validateMcpPayloadStructure payload = some (name, arguments)) :
    ∃ record, payload = .obj record ∧ record.lookup "name" = some (.str name) ∧
      record.lookup "arguments" = some (.obj arguments) ∧
      ∀ key ∈ record.map Prod.fst, key = "name" ∨ key = "arguments" := by
  unfold validateMcpPayloadStructure at h
  split at h
  · rename_i record
    split at h
    · cases h
    · rename_i hkeys
      split at h
      · rename_i text members hname harguments
        split at h
        · cases h
        · cases h
          refine ⟨record, rfl, hname, harguments, fun key hkey => ?_⟩
          simp only [List.any_eq_true, decide_eq_true_eq, not_exists, not_and] at hkeys
          by_contra hother
          rw [not_or] at hother
          exact hkeys key hkey hother.1 hother.2
      · cases h
  · cases h

/-- The hash that the envelope has is that of the payload. -/
theorem payload_hash {verified : PackageVerification.Verified}
    (h : verify verifier intake = .ok verified) :
    IsHash (at? (some intake.envelope) ["executionPayloadHash"])
      (verifier.platform.computeJsonHash intake.payload) := by
  have hpasses := PackageVerification.verifyActionPackage_eq_ok.mp ⟨_, mapError_eq_ok.mp h⟩
  obtain ⟨-, -, binding, hbinding, -, -, -, -, hhash⟩ :=
    PackageVerification.verifyAction_establishes hpasses.action
  simp only [PackageVerification.trustedApplicationBindings, verificationConfig,
    Option.getD_some, List.map_cons, List.map_nil, List.mem_singleton] at hbinding
  subst hbinding
  exact hhash

theorem validatePayload_name {plugin : ApplicationPlugin} {payload : Json} {name : String}
    (h : validatePayloadAgainstPlugin verifier plugin payload = .ok name) :
    payload.member "name" = some (.str name) := by
  unfold validatePayloadAgainstPlugin at h
  split at h
  · rename_i operation hname
    obtain ⟨-, h⟩ := throwIf_bind_eq_ok.mp h
    obtain ⟨-, h⟩ := throwIf_bind_eq_ok.mp h
    split at h
    · obtain ⟨_, -, h⟩ := bind_eq_ok.mp h
      obtain ⟨-, h⟩ := throwIf_bind_eq_ok.mp h
      cases h
      exact hname
    · split at h <;> cases h
  · cases h

theorem proposerVerdict_eq_ok (h : proposerVerdict intake = .ok ()) :
    checkProposerAuthorization (proposerOf intake) intake.loaded.policy = some true := by
  unfold proposerVerdict at h
  unfold proposerOf
  split at h
  · cases h
  · rename_i allowed hgate
    rw [hgate, not_not.mp (throwIf_eq_ok.mp h)]

theorem passThroughVerdict_eq_ok {loaded : LoadedDeploymentConfig} {operation : String}
    (h : passThroughVerdict loaded operation = .ok ()) :
    (∀ surface, loaded.plugin.toolSurface = some surface → operation ∈ surface.toolNames) ∧
      loaded.passThrough ≠ some "deny" := by
  obtain ⟨hattested, h⟩ := throwIf_bind_eq_ok.mp h
  refine ⟨fun surface hsurface => ?_, throwIf_eq_ok.mp h⟩
  simpa [hsurface] using hattested

theorem governedVerdict_eq_ok {verified : PackageVerification.Verified}
    (hverified : verify verifier intake = .ok verified)
    (h : governedVerdict intake verified = .ok ()) : Satisfied verifier intake := by
  unfold governedVerdict at h
  split at h <;> try cases h
  rename_i hsatisfied
  obtain ⟨-, hmeets⟩ := (PolicyEngine.evaluatePolicy_satisfied_iff _ _ _).mp hsatisfied
  refine ⟨_, fun vote hvote => ?_, hmeets⟩
  obtain ⟨hmem, hother⟩ := List.mem_filter.mp hvote
  exact ⟨of_decide_eq_true hother, votes_vouched hverified vote hmem⟩

theorem routeOf_eq_ok {operation : String} {route : Route}
    (hname : intake.payload.member "name" = some (.str operation))
    (h : routeOf verifier intake.loaded intake.payload operation = .ok route) :
    (route = .governed ∧ Governed verifier intake operation) ∨
      (route = .passThrough ∧ inPolicy intake.loaded.policy operation = false ∧
        validatePayloadAgainstPlugin verifier intake.loaded.plugin intake.payload =
          .error .UNKNOWN_OPERATION) := by
  unfold routeOf at h
  split at h
  · rename_i validated hvalid
    cases h
    have hsame : some (Json.str validated) = some (.str operation) :=
      (validatePayload_name hvalid).symm.trans hname
    cases hsame
    exact Or.inl ⟨rfl, Or.inl hvalid⟩
  · rename_i hunknown
    cases hpolicy : inPolicy intake.loaded.policy operation with
    | true =>
      rw [hpolicy] at h
      cases h
      exact Or.inl ⟨rfl, Or.inr ⟨hunknown, hpolicy⟩⟩
    | false =>
      rw [hpolicy] at h
      cases h
      exact Or.inr ⟨rfl, rfl, hunknown⟩
  · cases h

/-- An Action Request is addressed to a loaded deployment, and bound to its surface. -/
structure Addressed (verifier : Verifier) (intake : Intake) : Prop where
  loaded : verifier.configsByApplicationDid.get?
    (textAt intake.envelope ["target", "applicationDid"]) = some intake.loaded
  bound : ∃ digest, targetDigest intake.loaded.executionTarget = some digest ∧
    upstreamBindingMatches (intake.request.member "upstreamBinding")
      (intake.loaded.plugin.toolSurface.map ToolSurface.hash) digest = true

theorem receive_eq_ok_iff {clock : Clock} {body : Json} :
    receive verifier clock body = .ok intake ↔ ∃ request package loaded digest,
      unwrapActionRequest verifier body = some request ∧
      PackageVerification.parseActionPackage verifier.platform (part request "actionPackage") =
        .ok package ∧
      PackageVerification.validateActionEnvelope verifier.platform (part package "actionEnvelope")
        { checkExpiry := false, now := clock.structural } = .ok () ∧
      verifier.configsByApplicationDid.get?
        (textAt (part package "actionEnvelope") ["target", "applicationDid"]) = some loaded ∧
      targetDigest loaded.executionTarget = some digest ∧
      upstreamBindingMatches (request.member "upstreamBinding")
        (loaded.plugin.toolSurface.map ToolSurface.hash) digest = true ∧
      intake = { request, package, loaded, clock } := by
  constructor
  · intro h
    unfold receive at h
    split at h
    · cases h
    · rename_i request hrequest
      dsimp only at h
      split at h
      · cases h
      · rename_i package hpackage
        obtain ⟨_, hvalid, h⟩ := bind_eq_ok.mp h
        split at h
        · cases h
        · rename_i loaded hloaded
          split at h
          · cases h
          · rename_i digest hdigest
            obtain ⟨hbound, h⟩ := throwIf_bind_eq_ok.mp h
            cases h
            exact ⟨request, package, loaded, digest, hrequest, hpackage, mapError_eq_ok.mp hvalid,
              hloaded, hdigest, not_not.mp hbound, rfl⟩
  · rintro ⟨request, package, loaded, digest, hrequest, hpackage, hvalid, hloaded, hdigest, hbound,
      rfl⟩
    unfold receive
    simp only [hrequest, hpackage]
    refine bind_eq_ok.mpr ⟨(), mapError_eq_ok.mpr hvalid, ?_⟩
    simp only [hloaded, hdigest]
    exact throwIf_bind_eq_ok.mpr ⟨not_not.mpr hbound, rfl⟩

theorem receive_eq_ok {clock : Clock} {body : Json}
    (h : receive verifier clock body = .ok intake) : Addressed verifier intake := by
  obtain ⟨request, package, loaded, digest, -, -, -, hloaded, hdigest, hbound, rfl⟩ :=
    receive_eq_ok_iff.mp h
  exact ⟨hloaded, digest, hdigest, hbound⟩

/-- **The decisions establish the authorization** of the call that they allow. -/
theorem authorizeAction_authorized {call : Call} (haddressed : Addressed verifier intake)
    (hafter : afterLedger verifier intake = .ok ())
    (h : authorizeAction verifier intake = .ok call) :
    Authorized verifier call ∧ call.intake = intake := by
  obtain ⟨hunexpired, hafter⟩ := throwIf_bind_eq_ok.mp hafter
  obtain ⟨hprofile, -⟩ := throwIf_bind_eq_ok.mp hafter
  obtain ⟨verified, hverified, h⟩ := bind_eq_ok.mp h
  split at h
  · cases h
  · rename_i operation arguments hstructure
    obtain ⟨record, hrecord, hname, harguments, hkeys⟩ := payloadStructure_eq_some hstructure
    obtain ⟨_, hproposer, h⟩ := bind_eq_ok.mp h
    obtain ⟨route, hroute, h⟩ := bind_eq_ok.mp h
    obtain ⟨_, hverdict, h⟩ := bind_eq_ok.mp h
    cases h
    refine ⟨⟨haddressed.loaded, haddressed.bound, Bool.eq_false_iff.mpr hunexpired,
      not_not.mp hprofile, ⟨record, hrecord, hname, harguments, hkeys⟩, payload_hash hverified,
      proposer_vouched hverified, proposerVerdict_eq_ok hproposer, ?_⟩, rfl⟩
    have hmember : intake.payload.member "name" = some (.str operation) := by
      rw [hrecord]
      exact hname
    rcases routeOf_eq_ok hmember hroute with ⟨rfl, hgoverned⟩ | ⟨rfl, hpolicy, hunknown⟩
    · exact Or.inl ⟨hgoverned, governedVerdict_eq_ok hverified hverdict⟩
    · obtain ⟨hattested, hallowed⟩ := passThroughVerdict_eq_ok hverdict
      exact Or.inr ⟨hunknown, hpolicy, hattested, hallowed⟩

/-! ## The server with its decisions -/

def submissionOf (verifier : Verifier) (intake : Intake) : Submission where
  actionId := actionIdOf intake.envelope
  envelopeHash := (verifier.platform.computeJsonHash intake.envelope).value
  expiresAt := textAt intake.envelope ["expiresAt"]
  fingerprint := (Routing.computeIdempotencyFingerprint verifier.routing intake.request).toOption

/-- A managed OAuth target gets no stored credential. -/
def afterVerification (loaded : LoadedDeploymentConfig) : AfterVerification :=
  if loaded.executionTarget = .http true then .prepare else .credential

structure World where
  adapter : AdapterServer.World
  /-- what the closures of the running process hold: requests that were read, -/
  intakes : OrderedMap Nat Intake := ∅
  /-- and calls that were authorized -/
  calls : OrderedMap Nat Call := ∅
  /-- the calls whose dispatch the ledger has admitted, in order -/
  admitted : List Call := []
  transmitted : List Call := []

inductive Event
  | submit (h : Nat) (body : Json) (clock : Clock)
  /-- the checks of the signatures are done -/
  | verified (h : Nat)
  | resume (h : Nat) (reply : Reply)
  | crash
  | restart (now : Timestamp) (outcomes : List AppendOutcome)

/-- The submission of a body that is refused before its ledger check. -/
def unread : Submission := ⟨{ value := "" }, "", "", none⟩

/-- Whether a step has appended an `executing` event, and has transmitted. -/
def admits (before after : List Effect) : Bool :=
  (after.drop before.length).any fun effect => match effect with
    | .executingAppended _ => true
    | .transmit _ => false

def transmitsSince (before after : List Effect) : Bool :=
  (after.drop before.length).any fun effect => match effect with
    | .transmit _ => true
    | .executingAppended _ => false

/-- The closure of handler `h` goes on. -/
def World.advance (w : World) (h : Nat) (adapter : AdapterServer.World) : World :=
  let call := (w.calls.get? h).toList
  { w with
    adapter
    admitted := w.admitted ++ if admits w.adapter.log adapter.log then call else []
    transmitted := w.transmitted ++ if transmitsSince w.adapter.log adapter.log then call else [] }

def step (verifier : Verifier) (w : World) : Event → Option World
  | .submit h body clock =>
    match receive verifier clock body with
    | .error _ => (AdapterServer.step w.adapter (.submit h unread false false)).map fun adapter =>
        { w with adapter }
    | .ok intake =>
      let timely := decide (afterLedger verifier intake = .ok ())
      (AdapterServer.step w.adapter (.submit h (submissionOf verifier intake) true timely)).map
        fun adapter => { w with adapter, intakes := w.intakes.set h intake }
  | .verified h => (w.intakes.get? h).bind fun intake =>
    match authorizeAction verifier intake with
    | .error _ => (AdapterServer.step w.adapter (.resume h (.verified .answer))).map fun adapter =>
        { w with adapter }
    | .ok call =>
      (AdapterServer.step w.adapter
          (.resume h (.verified (afterVerification intake.loaded)))).map
        fun adapter => { w with adapter, calls := w.calls.set h call }
  | .resume _ (.verified _) => none
  | .resume h reply => (AdapterServer.step w.adapter (.resume h reply)).map (w.advance h)
  | .crash => (AdapterServer.step w.adapter .crash).map fun adapter =>
      { w with adapter, intakes := ∅, calls := ∅ }
  | .restart now outcomes => (AdapterServer.step w.adapter (.restart now outcomes)).map
      fun adapter => { w with adapter }

/-! ## What a step of the server does to its handlers -/

/-- Handler `h` has this submission, and is in this phase; the others stay. -/
structure Moved (server server' : Server) (h : Nat) (submission : Submission)
    (phase : AdapterServer.Phase) : Prop where
  others : ∀ k, k ≠ h → server'.handlers.get? k = server.handlers.get? k
  self : ∃ handler, server'.handlers.get? h = some handler ∧ handler.submission = submission ∧
    handler.phase = phase

theorem setPhase_moved {server server' : Server} (h : Nat) (handler : Handler)
    (phase : AdapterServer.Phase) (hsame : server'.handlers = server.handlers := by rfl) :
    Moved server (server'.setPhase h handler phase) h handler.submission phase where
  others k hk := by
    show (server'.handlers.set h _).get? k = _
    rw [OrderedMap.get?_set_ne _ _ (Ne.symm hk), hsame]
  self := ⟨{ handler with phase }, OrderedMap.get?_set_self _ _ _, rfl, rfl⟩

/-- The phases in front of the ledger's gate. -/
def beforeGate : AdapterServer.Phase → Bool
  | .verifying | .gettingCredential | .preparing => true
  | _ => false

/-- How a handler comes into a phase in front of the gate. -/
inductive Follows : AdapterServer.Phase → Reply → AdapterServer.Phase → Prop
  | credential : Follows .verifying (.verified .credential) .gettingCredential
  | prepare : Follows .verifying (.verified .prepare) .preparing
  | resolved : Follows .gettingCredential (.credential true) .preparing

theorem Follows.ne_verifying {before after : AdapterServer.Phase} {reply : Reply}
    (h : Follows before reply after) : after ≠ .verifying := by
  cases h <;> simp

/-- What the gate and the record do to the other handlers: nothing. -/
theorem authorize_moved {w : AdapterServer.World} {server server' : Server} {h : Nat}
    {handler : Handler} {now : Timestamp} {append : AppendOutcome}
    (hs : (AdapterServer.authorize w server h handler now append).server = some server') :
    ∃ phase, Moved server server' h handler.submission phase ∧ beforeGate phase = false := by
  rcases AdapterServer.authorize_cases w server h handler now append
    with ⟨-, -, heq⟩ | ⟨journal, after, heq, -, hafter⟩
  · rw [heq] at hs
    unfold AdapterServer.startDispatch at hs
    dsimp only at hs
    split at hs <;> cases hs
    · exact ⟨.finished .exception, setPhase_moved h _ _, rfl⟩
    · exact ⟨.transmitting, setPhase_moved h _ _, rfl⟩
  · rw [heq] at hs
    rcases hafter with rfl | rfl | ⟨entry, sameRequest, rfl⟩ | ⟨code, rfl⟩ <;> cases hs
    · exact ⟨.finished .exception, setPhase_moved h _ _, rfl⟩
    · exact ⟨.joining entry sameRequest true, setPhase_moved h _ _, rfl⟩
    · exact ⟨.closingUnused code, setPhase_moved h _ _, rfl⟩

theorem record_moved {w : AdapterServer.World} {server server' : Server} {h : Nat}
    {handler : Handler} {classified : AdapterServer.Classified} {receipt : String}
    {now : Timestamp} {append : AppendOutcome}
    (hs : (AdapterServer.record w server h handler classified receipt now append).server =
      some server') :
    ∃ phase, Moved server server' h handler.submission phase ∧ beforeGate phase = false := by
  unfold AdapterServer.record at hs
  dsimp only at hs
  split at hs <;> cases hs
  · exact ⟨.settling none, setPhase_moved h _ _, rfl⟩
  · exact ⟨.settling (some _), setPhase_moved h _ _, rfl⟩

theorem resume_moved {w w' : AdapterServer.World} {server server' : Server} {h : Nat}
    {handler : Handler} {reply : Reply}
    (hr : AdapterServer.resume w server h handler reply = some w')
    (hs : w'.server = some server') :
    ∃ phase, Moved server server' h handler.submission phase ∧
      (beforeGate phase = true → Follows handler.phase reply phase) := by
  unfold AdapterServer.resume at hr
  simp only at hr
  split at hr
  case h_1 hphase =>
    cases hr
    cases hs
    exact ⟨_, setPhase_moved h _ _, fun hgate => by cases hgate⟩
  case h_2 hphase =>
    cases hr
    cases hs
    exact ⟨_, setPhase_moved h _ _, fun _ => hphase ▸ .credential⟩
  case h_3 hphase =>
    cases hr
    cases hs
    exact ⟨_, setPhase_moved h _ _, fun _ => hphase ▸ .prepare⟩
  case h_4 ok hphase =>
    cases hr
    cases hs
    refine ⟨_, setPhase_moved h _ _, fun hgate => ?_⟩
    cases ok
    · cases hgate
    · exact hphase ▸ .resolved
  case h_5 ok now append hphase =>
    cases ok
    · cases hr
      cases hs
      exact ⟨_, setPhase_moved h _ _, fun hgate => by cases hgate⟩
    · cases hr
      obtain ⟨phase, hmoved, hgate⟩ := authorize_moved hs
      exact ⟨phase, hmoved, fun h => by rw [hgate] at h; cases h⟩
  case h_6 =>
    split at hr
    · split at hr
      · cases hr
        cases hs
        exact ⟨_, setPhase_moved h _ _, fun hgate => by cases hgate⟩
      · cases hr
    · split at hr
      · cases hr
        cases hs
        exact ⟨_, setPhase_moved h _ _, fun hgate => by cases hgate⟩
      · cases hr
        cases hs
        refine ⟨_, setPhase_moved h _ _, fun hgate => ?_⟩
        split at hgate <;> cases hgate
  case h_8 =>
    obtain ⟨response, -, hr⟩ := Option.bind_eq_some_iff.mp hr
    cases hr
    cases hs
    exact ⟨_, setPhase_moved h _ _, fun hgate => by cases hgate⟩
  case h_9 code ok hphase =>
    cases hr
    cases hs
    exact ⟨_, setPhase_moved h _ _, fun hgate => by cases ok <;> cases hgate⟩
  case h_14 classified receipt now append hphase =>
    cases hr
    obtain ⟨phase, hmoved, hgate⟩ := record_moved hs
    exact ⟨phase, hmoved, fun h => by rw [hgate] at h; cases h⟩
  case h_16 => cases hr
  all_goals
    cases hr
    cases hs
    exact ⟨_, setPhase_moved h _ _, fun hgate => by cases hgate⟩

/-- What a reply adds to the log is the dispatch of its handler, at the gate. -/
theorem resume_log {w w' : AdapterServer.World} {h : Nat} {reply : Reply}
    (hs : AdapterServer.step w (.resume h reply) = some w') :
    w'.log = w.log ∨ ∃ server handler, w.server = some server ∧
      server.handlers.get? h = some handler ∧ handler.phase = .preparing ∧
        (w'.log = w.log ++ [.executingAppended handler.submission.actionId] ∨
          w'.log = w.log ++ [.executingAppended handler.submission.actionId,
            .transmit handler.submission.actionId]) := by
  obtain ⟨server, hserver, hs⟩ := Option.bind_eq_some_iff.mp hs
  obtain ⟨handler, hhandler, hs⟩ := Option.bind_eq_some_iff.mp hs
  rcases AdapterServer.resume_cases hs with ⟨server', rfl, -⟩ | ⟨now, append, hphase, -, rfl⟩ |
    ⟨classified, receipt, now, append, -, -, rfl⟩
  · exact Or.inl rfl
  · rcases AdapterServer.authorize_cases w server h handler now append
      with ⟨-, -, heq⟩ | ⟨journal, server', heq, -⟩
    · refine Or.inr ⟨server, handler, hserver, hhandler, hphase, ?_⟩
      obtain ⟨server', -, hstart | hstart⟩ := AdapterServer.startDispatch_cases _ _ h handler
      · rw [heq, hstart]
        exact Or.inl rfl
      · rw [heq, hstart]
        exact Or.inr (List.append_assoc _ _ _)
    · rw [heq]
      exact Or.inl rfl
  · obtain ⟨journal, server', heq, -⟩ :=
      AdapterServer.record_cases w server h handler classified receipt now append
    rw [heq]
    exact Or.inl rfl

/-- A submission that goes on to its verification was well formed and in time. -/
theorem submit_moved {w w' : AdapterServer.World} {h : Nat} {submission : Submission}
    {wellFormed timely : Bool}
    (hs : AdapterServer.step w (.submit h submission wellFormed timely) = some w') :
    w'.log = w.log ∧ ∃ server server' phase, w.server = some server ∧ w'.server = some server' ∧
      Moved server server' h submission phase ∧
      (beforeGate phase = true → phase = .verifying ∧ wellFormed = true ∧ timely = true) := by
  obtain ⟨server, hserver, hs⟩ := Option.bind_eq_some_iff.mp hs
  split at hs
  · cases hs
  · cases hs
    refine ⟨rfl, server, AdapterServer.submit server h submission wellFormed timely, ?_⟩
    cases wellFormed with
    | false =>
      exact ⟨.finished .stateless, hserver, rfl, setPhase_moved h _ _, fun hg => by cases hg⟩
    | true =>
      unfold AdapterServer.submit
      simp only [Bool.not_true, Bool.false_eq_true, ↓reduceIte]
      split
      · rcases AdapterServer.joinDispatch_phase server h { submission, phase := .verifying } false
          with ⟨entry, sameRequest, heq⟩ | heq
        · rw [heq]
          exact ⟨.joining entry sameRequest false, hserver, trivial, setPhase_moved h _ _,
            fun hg => by cases hg⟩
        · rw [heq]
          exact ⟨.finished .exception, hserver, trivial, setPhase_moved h _ _,
            fun hg => by cases hg⟩
      · exact ⟨.finished (.rejected _), hserver, trivial, setPhase_moved h _ _,
          fun hg => by cases hg⟩
      · cases timely with
        | false =>
          exact ⟨.finished .stateless, hserver, trivial, setPhase_moved h _ _,
            fun hg => by cases hg⟩
        | true =>
          exact ⟨.verifying, hserver, trivial, setPhase_moved h _ _, fun _ => ⟨rfl, trivial, rfl⟩⟩

/-! ## The invariant -/

def Call.actionId (call : Call) : ActionId := actionIdOf call.intake.envelope

/-- The Action IDs whose `executing` event a log has. -/
def writes (log : List Effect) : List ActionId :=
  log.filterMap fun effect => match effect with
    | .executingAppended actionId => some actionId
    | .transmit _ => none

/-- What the closure of a handler holds, as far as its phase goes. -/
structure Holds (verifier : Verifier) (w : World) (h : Nat) (handler : Handler) : Prop where
  verifying : handler.phase = .verifying → ∃ intake, w.intakes.get? h = some intake ∧
    Addressed verifier intake ∧ afterLedger verifier intake = .ok () ∧
      handler.submission = submissionOf verifier intake
  decided : beforeGate handler.phase = true → handler.phase ≠ .verifying →
    ∃ call, w.calls.get? h = some call ∧ Authorized verifier call ∧
      handler.submission = submissionOf verifier call.intake

structure Mediated (verifier : Verifier) (w : World) : Prop where
  handlers : ∀ server, w.adapter.server = some server → ∀ h handler,
    server.handlers.get? h = some handler → Holds verifier w h handler
  admitted : ∀ call ∈ w.admitted, Authorized verifier call
  transmitted : ∀ call ∈ w.transmitted, Authorized verifier call
  written : writes w.adapter.log = w.admitted.map Call.actionId
  sent : transmits w.adapter.log = w.transmitted.map Call.actionId

theorem Mediated.init (verifier : Verifier) (first : DispatchJournal) :
    Mediated verifier { adapter := { journal := first } } where
  handlers server hs := by cases hs
  admitted call h := by cases h
  transmitted call h := by cases h
  written := rfl
  sent := rfl

/-- A handler that is past the gate holds nothing that matters. -/
theorem Holds.of_past {w : World} {h : Nat} {handler : Handler}
    (hphase : beforeGate handler.phase = false) : Holds verifier w h handler where
  verifying hv := by
    rw [hv] at hphase
    cases hphase
  decided hgate := by
    rw [hphase] at hgate
    cases hgate

theorem Holds.congr {w w' : World} {h : Nat} {handler : Handler} (hw : Holds verifier w h handler)
    (hintakes : w'.intakes.get? h = w.intakes.get? h) (hcalls : w'.calls.get? h = w.calls.get? h) :
    Holds verifier w' h handler where
  verifying hv := by
    rw [hintakes]
    exact hw.verifying hv
  decided hgate hv := by
    rw [hcalls]
    exact hw.decided hgate hv

/-- A step in which handler `h` moves and no log entry is added. -/
theorem Mediated.moved {w w' : World} (hw : Mediated verifier w) {server server' : Server}
    (hserver : w.adapter.server = some server) (hserver' : w'.adapter.server = some server')
    {h : Nat} {submission : Submission} {phase : AdapterServer.Phase}
    (hmoved : Moved server server' h submission phase)
    (hintakes : ∀ k, k ≠ h → w'.intakes.get? k = w.intakes.get? k)
    (hcalls : ∀ k, k ≠ h → w'.calls.get? k = w.calls.get? k)
    (hself : ∀ handler : Handler, handler.submission = submission → handler.phase = phase →
      Holds verifier w' h handler) :
    ∀ server', w'.adapter.server = some server' → ∀ k handler,
      server'.handlers.get? k = some handler → Holds verifier w' k handler := by
  intro after hafter k handler hk
  cases hserver'.symm.trans hafter
  by_cases hkh : k = h
  · subst hkh
    obtain ⟨moved, hget, hsubmission, hphase⟩ := hmoved.self
    cases hget.symm.trans hk
    exact hself _ hsubmission hphase
  · rw [hmoved.others k hkh] at hk
    exact (hw.handlers server hserver k handler hk).congr (hintakes k hkh) (hcalls k hkh)

theorem Mediated.submit_refused {w : World} {adapter : AdapterServer.World}
    (hw : Mediated verifier w) {h : Nat}
    (hs : AdapterServer.step w.adapter (.submit h unread false false) = some adapter) :
    Mediated verifier { w with adapter } := by
  obtain ⟨hlog, server, server', phase, hserver, hserver', hmoved, hgate⟩ := submit_moved hs
  refine ⟨hw.moved hserver hserver' hmoved (fun _ _ => rfl) (fun _ _ => rfl)
    fun handler _ hphase => Holds.of_past ?_, hw.admitted, hw.transmitted,
    by rw [hlog]; exact hw.written, by rw [hlog]; exact hw.sent⟩
  rw [hphase, Bool.eq_false_iff]
  intro hg
  cases (hgate hg).2.1

theorem Mediated.submit_accepted {w : World} {adapter : AdapterServer.World}
    (hw : Mediated verifier w) {h : Nat} (haddressed : Addressed verifier intake)
    (hs : AdapterServer.step w.adapter (.submit h (submissionOf verifier intake) true
      (decide (afterLedger verifier intake = .ok ()))) = some adapter) :
    Mediated verifier { w with adapter, intakes := w.intakes.set h intake } := by
  obtain ⟨hlog, server, server', phase, hserver, hserver', hmoved, hgate⟩ := submit_moved hs
  refine ⟨hw.moved hserver hserver' hmoved
    (fun k hk => OrderedMap.get?_set_ne _ _ (Ne.symm hk)) (fun _ _ => rfl)
    fun handler hsubmission hphase => ⟨fun hv => ?_, fun hg hne => ?_⟩, hw.admitted,
    hw.transmitted, by rw [hlog]; exact hw.written, by rw [hlog]; exact hw.sent⟩
  · have htimely := (hgate (by rw [← hphase, hv]; rfl)).2.2
    exact ⟨intake, OrderedMap.get?_set_self _ _ _, haddressed, of_decide_eq_true htimely,
      hsubmission⟩
  · rw [hphase] at hg hne
    exact absurd (hgate hg).1 hne

/-- A reply that is no record and no gate moves one handler. -/
theorem step_resume_moved {w w' : AdapterServer.World} {h : Nat} {reply : Reply}
    (hs : AdapterServer.step w (.resume h reply) = some w') :
    ∃ server handler, w.server = some server ∧ server.handlers.get? h = some handler ∧
      ∀ server', w'.server = some server' → ∃ phase,
        Moved server server' h handler.submission phase ∧
          (beforeGate phase = true → Follows handler.phase reply phase) := by
  obtain ⟨server, hserver, hs⟩ := Option.bind_eq_some_iff.mp hs
  obtain ⟨handler, hhandler, hs⟩ := Option.bind_eq_some_iff.mp hs
  exact ⟨server, handler, hserver, hhandler, fun server' hs' => resume_moved hs hs'⟩

/-- Verification is no gate. -/
theorem verified_log {w w' : AdapterServer.World} {h : Nat} {next : AfterVerification}
    (hs : AdapterServer.step w (.resume h (.verified next)) = some w') :
    w'.log = w.log ∧ ∃ server handler, w.server = some server ∧
      server.handlers.get? h = some handler ∧ handler.phase = .verifying := by
  obtain ⟨server, hserver, hs⟩ := Option.bind_eq_some_iff.mp hs
  obtain ⟨handler, hhandler, hs⟩ := Option.bind_eq_some_iff.mp hs
  unfold AdapterServer.resume at hs
  simp only at hs
  split at hs
  case h_1 hphase _ | h_2 hphase _ | h_3 hphase _ =>
    cases hs
    exact ⟨rfl, server, handler, hserver, hhandler, hphase⟩
  all_goals simp_all

theorem Mediated.verified {w : World} {adapter : AdapterServer.World} (hw : Mediated verifier w)
    {h : Nat} {call : Call} {next : AfterVerification}
    (hintake : w.intakes.get? h = some intake)
    (hcall : authorizeAction verifier intake = .ok call)
    (hs : AdapterServer.step w.adapter (.resume h (.verified next)) = some adapter) :
    Mediated verifier { w with adapter, calls := w.calls.set h call } := by
  obtain ⟨hlog, server, handler, hserver, hhandler, hphase⟩ := verified_log hs
  obtain ⟨intake', hintake', haddressed, hafter, hsubmission⟩ :=
    (hw.handlers server hserver h handler hhandler).verifying hphase
  cases hintake.symm.trans hintake'
  obtain ⟨hauthorized, hsame⟩ := authorizeAction_authorized haddressed hafter hcall
  obtain ⟨server', handler', hserver', hhandler', hmoves⟩ := step_resume_moved hs
  cases hserver.symm.trans hserver'
  cases hhandler.symm.trans hhandler'
  refine ⟨fun after hafter => ?_, hw.admitted, hw.transmitted,
    by rw [hlog]; exact hw.written, by rw [hlog]; exact hw.sent⟩
  obtain ⟨phase, hmoved, hfollows⟩ := hmoves after hafter
  refine hw.moved hserver hafter hmoved (fun _ _ => rfl)
    (fun k hk => OrderedMap.get?_set_ne _ _ (Ne.symm hk))
    (fun moved hmovedSubmission hmovedPhase => ⟨fun hv => ?_, fun _ _ => ?_⟩) after hafter
  · have hf := hfollows (by rw [← hmovedPhase, hv]; rfl)
    exact absurd (hmovedPhase.symm.trans hv) hf.ne_verifying
  · exact ⟨call, OrderedMap.get?_set_self _ _ _, hauthorized,
      by rw [hmovedSubmission, hsubmission, hsame]⟩

theorem Mediated.refused {w : World} {adapter : AdapterServer.World} (hw : Mediated verifier w)
    {h : Nat} (hs : AdapterServer.step w.adapter (.resume h (.verified .answer)) = some adapter) :
    Mediated verifier { w with adapter } := by
  obtain ⟨hlog, server, handler, hserver, hhandler, hphase⟩ := verified_log hs
  obtain ⟨server', handler', hserver', hhandler', hmoves⟩ := step_resume_moved hs
  cases hserver.symm.trans hserver'
  cases hhandler.symm.trans hhandler'
  refine ⟨fun after hafter => ?_, hw.admitted, hw.transmitted,
    by rw [hlog]; exact hw.written, by rw [hlog]; exact hw.sent⟩
  obtain ⟨phase, hmoved, hfollows⟩ := hmoves after hafter
  refine hw.moved hserver hafter hmoved (fun _ _ => rfl) (fun _ _ => rfl)
    (fun moved _ hmovedPhase => Holds.of_past ?_) after hafter
  rw [hmovedPhase, Bool.eq_false_iff]
  intro hgate
  have hf := hfollows hgate
  rw [hphase] at hf
  cases hf

theorem admits_append (before news : List Effect) :
    admits before (before ++ news) = decide (writes news ≠ []) := by
  unfold admits
  rw [List.drop_left]
  induction news with
  | nil => rfl
  | cons effect rest ih => cases effect <;> simp_all [writes]

theorem transmitsSince_append (before news : List Effect) :
    transmitsSince before (before ++ news) = decide (transmits news ≠ []) := by
  unfold transmitsSince
  rw [List.drop_left]
  induction news with
  | nil => rfl
  | cons effect rest ih => cases effect <;> simp_all [transmits]

/-- The gate records the call of its handler, as often as the log does. -/
theorem Mediated.recorded {w : World} {adapter : AdapterServer.World} (hw : Mediated verifier w)
    {h : Nat} {reply : Reply}
    (hs : AdapterServer.step w.adapter (.resume h reply) = some adapter) :
    (∀ call ∈ (w.advance h adapter).admitted, Authorized verifier call) ∧
      (∀ call ∈ (w.advance h adapter).transmitted, Authorized verifier call) ∧
      writes adapter.log = (w.advance h adapter).admitted.map Call.actionId ∧
      transmits adapter.log = (w.advance h adapter).transmitted.map Call.actionId := by
  rcases resume_log hs with hlog | ⟨server, handler, hserver, hhandler, hphase, hlog⟩
  · have hnone : adapter.log = w.adapter.log ++ [] := by rw [hlog, List.append_nil]
    have hadmits := admits_append w.adapter.log []
    have hsends := transmitsSince_append w.adapter.log []
    rw [← hnone] at hadmits hsends
    simp only [World.advance, hadmits, hsends]
    simp only [writes, transmits, List.filterMap_nil, ne_eq, not_true_eq_false, decide_false,
      Bool.false_eq_true, ↓reduceIte, List.append_nil]
    exact ⟨hw.admitted, hw.transmitted, by rw [hlog]; exact hw.written, by rw [hlog]; exact hw.sent⟩
  · obtain ⟨call, hcall, hauthorized, hsubmission⟩ :=
      (hw.handlers server hserver h handler hhandler).decided (by rw [hphase]; rfl)
        (by rw [hphase]; simp)
    have hid : handler.submission.actionId = Call.actionId call := by rw [hsubmission]; rfl
    have hmem : ∀ (calls : List Call), (∀ c ∈ calls, Authorized verifier c) →
        ∀ c ∈ calls ++ [call], Authorized verifier c := by
      intro calls hcalls c hc
      rcases List.mem_append.mp hc with hc | hc
      · exact hcalls c hc
      · rw [List.mem_singleton.mp hc]
        exact hauthorized
    rcases hlog with hlog | hlog
    all_goals
      have hadmits := admits_append w.adapter.log
      have hsends := transmitsSince_append w.adapter.log
      simp only [World.advance, hlog, hadmits, hsends, hcall, hid]
      simp only [writes, transmits, List.filterMap_append, List.filterMap_cons,
        List.filterMap_nil, ne_eq, not_true_eq_false, decide_false, Bool.false_eq_true,
        ↓reduceIte, List.append_nil, List.cons_ne_nil, not_false_eq_true, decide_true,
        Option.toList_some, List.map_append, List.map_cons, List.map_nil]
    · exact ⟨hmem _ hw.admitted, hw.transmitted, congrArg (· ++ [_]) hw.written, hw.sent⟩
    · exact ⟨hmem _ hw.admitted, hmem _ hw.transmitted, congrArg (· ++ [_]) hw.written,
        congrArg (· ++ [_]) hw.sent⟩

theorem Mediated.advanced {w : World} {adapter : AdapterServer.World} (hw : Mediated verifier w)
    {h : Nat} {reply : Reply} (hreply : ∀ next, reply ≠ .verified next)
    (hs : AdapterServer.step w.adapter (.resume h reply) = some adapter) :
    Mediated verifier (w.advance h adapter) := by
  obtain ⟨hadmitted, htransmitted, hwritten, hsent⟩ := hw.recorded hs
  obtain ⟨server, handler, hserver, hhandler, hmoves⟩ := step_resume_moved hs
  refine ⟨fun after hafter => ?_, hadmitted, htransmitted, hwritten, hsent⟩
  obtain ⟨phase, hmoved, hfollows⟩ := hmoves after hafter
  refine hw.moved hserver hafter hmoved (fun _ _ => rfl) (fun _ _ => rfl)
    (fun moved hsubmission hphase => ⟨fun hv => ?_, fun hgate _ => ?_⟩) after hafter
  · have hf := hfollows (by rw [← hphase, hv]; rfl)
    exact absurd (hphase.symm.trans hv) hf.ne_verifying
  · -- only the credential leads from one phase in front of the gate to another
    have hf := hfollows (hphase ▸ hgate)
    generalize hbefore : handler.phase = before at hf
    cases hf with
    | credential => exact absurd rfl (hreply _)
    | prepare => exact absurd rfl (hreply _)
    | resolved =>
      obtain ⟨call, hcall, hauthorized, hsame⟩ :=
        (hw.handlers server hserver h handler hhandler).decided (by rw [hbefore]; rfl)
          (by rw [hbefore]; simp)
      exact ⟨call, hcall, hauthorized, by rw [hsubmission, hsame]⟩

theorem Mediated.crashed {w : World} {adapter : AdapterServer.World} (hw : Mediated verifier w)
    (hs : AdapterServer.step w.adapter .crash = some adapter) :
    Mediated verifier { w with adapter, intakes := ∅, calls := ∅ } := by
  obtain ⟨server, -, rfl⟩ := Option.map_eq_some_iff.mp hs
  refine ⟨fun server hserver => ?_, hw.admitted, hw.transmitted, hw.written, hw.sent⟩
  cases hserver

/-- A restarted server has no handlers. -/
theorem Mediated.restarted {w : World} {adapter : AdapterServer.World} (hw : Mediated verifier w)
    {now : Timestamp} {outcomes : List AppendOutcome}
    (hs : AdapterServer.step w.adapter (.restart now outcomes) = some adapter) :
    Mediated verifier { w with adapter } := by
  simp only [AdapterServer.step] at hs
  cases hstopped : w.adapter.server with
  | some server => simp [hstopped] at hs
  | none =>
    simp only [hstopped] at hs
    split at hs
    · cases hs
      refine ⟨fun server hserver h handler hhandler => ?_, hw.admitted, hw.transmitted,
        hw.written, hw.sent⟩
      cases hserver
      cases hhandler
    · cases hs
      refine ⟨fun server hserver => ?_, hw.admitted, hw.transmitted, hw.written, hw.sent⟩
      cases hserver

theorem Mediated.step {w w' : World} (hw : Mediated verifier w) {event : Event}
    (hs : step verifier w event = some w') : Mediated verifier w' := by
  cases event with
  | submit h body clock =>
    simp only [AdapterMediation.step] at hs
    split at hs
    · obtain ⟨adapter, hadapter, rfl⟩ := Option.map_eq_some_iff.mp hs
      exact hw.submit_refused hadapter
    · rename_i intake hintake
      obtain ⟨adapter, hadapter, rfl⟩ := Option.map_eq_some_iff.mp hs
      exact hw.submit_accepted (receive_eq_ok hintake) hadapter
  | verified h =>
    obtain ⟨intake, hintake, hs⟩ := Option.bind_eq_some_iff.mp hs
    split at hs
    · obtain ⟨adapter, hadapter, rfl⟩ := Option.map_eq_some_iff.mp hs
      exact hw.refused hadapter
    · rename_i call hcall
      obtain ⟨adapter, hadapter, rfl⟩ := Option.map_eq_some_iff.mp hs
      exact hw.verified hintake hcall hadapter
  | resume h reply =>
    cases reply with
    | verified next => cases hs
    | _ =>
      obtain ⟨adapter, hadapter, rfl⟩ := Option.map_eq_some_iff.mp hs
      exact hw.advanced (by simp) hadapter
  | crash =>
    obtain ⟨adapter, hadapter, rfl⟩ := Option.map_eq_some_iff.mp hs
    exact hw.crashed hadapter
  | restart now outcomes =>
    obtain ⟨adapter, hadapter, rfl⟩ := Option.map_eq_some_iff.mp hs
    exact hw.restarted hadapter

end

/-! ## Runs -/

/-- Each step is one of the server without its decisions. -/
theorem step_adapter {verifier : Verifier} {w w' : World} {event : Event}
    (hs : step verifier w event = some w') :
    ∃ event', AdapterServer.step w.adapter event' = some w'.adapter := by
  cases event with
  | submit h body clock =>
    simp only [step] at hs
    split at hs <;> obtain ⟨adapter, hadapter, rfl⟩ := Option.map_eq_some_iff.mp hs <;>
      exact ⟨_, hadapter⟩
  | verified h =>
    obtain ⟨intake, -, hs⟩ := Option.bind_eq_some_iff.mp hs
    split at hs <;> obtain ⟨adapter, hadapter, rfl⟩ := Option.map_eq_some_iff.mp hs <;>
      exact ⟨_, hadapter⟩
  | resume h reply =>
    cases reply with
    | verified next => cases hs
    | _ =>
      obtain ⟨adapter, hadapter, rfl⟩ := Option.map_eq_some_iff.mp hs
      exact ⟨_, hadapter⟩
  | crash =>
    obtain ⟨adapter, hadapter, rfl⟩ := Option.map_eq_some_iff.mp hs
    exact ⟨_, hadapter⟩
  | restart now outcomes =>
    obtain ⟨adapter, hadapter, rfl⟩ := Option.map_eq_some_iff.mp hs
    exact ⟨_, hadapter⟩

/-- The run received the request, at the time that its handler read. -/
def Received (verifier : Verifier) (events : List Event) (intake : Intake) : Prop :=
  ∃ h body, .submit h body intake.clock ∈ events ∧ receive verifier intake.clock body = .ok intake

/-- Whatever the handlers hold, and have done, is about requests that were received. -/
structure Traced (verifier : Verifier) (events : List Event) (w : World) : Prop where
  intakes : ∀ h intake, w.intakes.get? h = some intake → Received verifier events intake
  calls : ∀ h call, w.calls.get? h = some call → Received verifier events call.intake
  admitted : ∀ call ∈ w.admitted, Received verifier events call.intake
  transmitted : ∀ call ∈ w.transmitted, Received verifier events call.intake

section Trace

variable {verifier : Verifier} {events : List Event} {w w' : World}

theorem authorizeAction_intake {intake : Intake} {call : Call}
    (h : authorizeAction verifier intake = .ok call) : call.intake = intake := by
  obtain ⟨verified, -, h⟩ := bind_eq_ok.mp h
  split at h
  · cases h
  · obtain ⟨_, -, h⟩ := bind_eq_ok.mp h
    obtain ⟨route, -, h⟩ := bind_eq_ok.mp h
    obtain ⟨_, -, h⟩ := bind_eq_ok.mp h
    cases h
    rfl

/-- A handler that goes on records at most the call that it holds. -/
theorem Traced.advance (hw : Traced verifier events w) (h : Nat) (adapter : AdapterServer.World) :
    Traced verifier events (w.advance h adapter) := by
  have hcall : ∀ call ∈ (w.calls.get? h).toList, Received verifier events call.intake :=
    fun call hmem => hw.calls h call (Option.mem_toList.mp hmem)
  refine ⟨hw.intakes, hw.calls, fun call hmem => ?_, fun call hmem => ?_⟩
  all_goals
    rcases List.mem_append.mp hmem with hbefore | hnow
    · first | exact hw.admitted call hbefore | exact hw.transmitted call hbefore
    · split at hnow
      · exact hcall call hnow
      · cases hnow

theorem get?_set_cases {α : Type} {map : OrderedMap Nat α} {h k : Nat} {value found : α}
    (hget : (map.set h value).get? k = some found) : found = value ∨ map.get? k = some found := by
  by_cases hk : k = h
  · subst hk
    rw [OrderedMap.get?_set_self, Option.some.injEq] at hget
    exact .inl hget.symm
  · rw [OrderedMap.get?_set_ne _ _ (Ne.symm hk)] at hget
    exact .inr hget

theorem Traced.step (hw : Traced verifier events w) {event : Event} (hmem : event ∈ events)
    (hs : step verifier w event = some w') : Traced verifier events w' := by
  cases event with
  | submit h body clock =>
    simp only [AdapterMediation.step] at hs
    split at hs
    · obtain ⟨adapter, -, rfl⟩ := Option.map_eq_some_iff.mp hs
      exact ⟨hw.intakes, hw.calls, hw.admitted, hw.transmitted⟩
    · rename_i intake hintake
      obtain ⟨adapter, -, rfl⟩ := Option.map_eq_some_iff.mp hs
      have hclock : intake.clock = clock := by
        obtain ⟨_, _, _, _, -, -, -, -, -, -, rfl⟩ := receive_eq_ok_iff.mp hintake
        rfl
      subst hclock
      refine ⟨fun k found hfound => ?_, hw.calls, hw.admitted, hw.transmitted⟩
      rcases get?_set_cases hfound with rfl | hbefore
      · exact ⟨h, body, hmem, hintake⟩
      · exact hw.intakes k found hbefore
  | verified h =>
    obtain ⟨intake, hintake, hs⟩ := Option.bind_eq_some_iff.mp hs
    split at hs
    · obtain ⟨adapter, -, rfl⟩ := Option.map_eq_some_iff.mp hs
      exact ⟨hw.intakes, hw.calls, hw.admitted, hw.transmitted⟩
    · rename_i call hcall
      obtain ⟨adapter, -, rfl⟩ := Option.map_eq_some_iff.mp hs
      refine ⟨hw.intakes, fun k found hfound => ?_, hw.admitted, hw.transmitted⟩
      rcases get?_set_cases hfound with rfl | hbefore
      · rw [authorizeAction_intake hcall]
        exact hw.intakes h intake hintake
      · exact hw.calls k found hbefore
  | resume h reply =>
    cases reply with
    | verified next => cases hs
    | _ =>
      obtain ⟨adapter, -, rfl⟩ := Option.map_eq_some_iff.mp hs
      exact hw.advance h adapter
  | crash =>
    obtain ⟨adapter, -, rfl⟩ := Option.map_eq_some_iff.mp hs
    refine ⟨fun _ _ hget => ?_, fun _ _ hget => ?_, hw.admitted, hw.transmitted⟩ <;> cases hget
  | restart now outcomes =>
    obtain ⟨adapter, -, rfl⟩ := Option.map_eq_some_iff.mp hs
    exact ⟨hw.intakes, hw.calls, hw.admitted, hw.transmitted⟩

/-- **Nothing of its own.** Every call of a run is that of a request it received. -/
theorem run_traced {first : DispatchJournal}
    (hrun : Run (step verifier) Free { adapter := { journal := first } } events w) :
    Traced verifier events w := by
  have hinit : Traced verifier events { adapter := { journal := first } } := by
    refine ⟨fun _ _ hget => ?_, fun _ _ hget => ?_, by simp, by simp⟩ <;> cases hget
  have hevents := hrun.strengthen fun _ hmem => hmem
  exact hevents.invariant (fun _ _ _ hw hc hs => hw.step hc.2 hs) hinit

end Trace

/-- **Complete mediation.** In every run of concurrent requests, crashes and
restarts, from any journal: each call that the ledger admits is authorized and that of
a request which the run received, the executing events are those of these calls, and
so are the transmissions, of which no two have one Action ID. -/
theorem complete_mediation (verifier : Verifier) (first : DispatchJournal) (events : List Event)
    (w : World) (hrun : Run (step verifier) Free { adapter := { journal := first } } events w) :
    (∀ call ∈ w.transmitted, Authorized verifier call ∧ Received verifier events call.intake) ∧
      transmits w.adapter.log = w.transmitted.map Call.actionId ∧
      (w.transmitted.map Call.actionId).Nodup ∧
      (∀ call ∈ w.admitted, Authorized verifier call ∧ Received verifier events call.intake) ∧
      writes w.adapter.log = w.admitted.map Call.actionId := by
  have hmediated : Mediated verifier w :=
    hrun.invariant (fun _ _ _ hi _ hs => hi.step hs) (Mediated.init verifier first)
  have hsafe : AdapterServer.Safe first w.adapter :=
    hrun.invariant (I := fun w => AdapterServer.Safe first w.adapter)
      (fun _ _ _ hi _ hs => (step_adapter hs).elim fun _ hs => hi.step hs)
      (AdapterServer.Safe.init first)
  have htraced := run_traced hrun
  refine ⟨fun call hcall => ⟨hmediated.transmitted call hcall, htraced.transmitted call hcall⟩,
    hmediated.sent, ?_,
    fun call hcall => ⟨hmediated.admitted call hcall, htraced.admitted call hcall⟩,
    hmediated.written⟩
  rw [← hmediated.sent]
  exact hsafe.nodup

/-! ## The way of an authorized request -/

theorem get?_setPhase (server : Server) (h : Nat) (handler : Handler)
    (phase : AdapterServer.Phase) :
    (server.setPhase h handler phase).handlers.get? h = some { handler with phase } :=
  OrderedMap.get?_set_self _ _ _

/-- The requests to the target that a handler waits for. -/
def preparation (loaded : LoadedDeploymentConfig) (h : Nat) (now : Timestamp) : List Event :=
  if loaded.executionTarget = .http true then [.resume h (.prepared true now .returned)]
  else [.resume h (.credential true), .resume h (.prepared true now .returned)]

/-- What one handler does when nothing goes wrong around it. -/
def dispatchEvents (intake : Intake) (h : Nat) (body : Json) (now : Timestamp) : List Event :=
  .submit h body intake.clock :: .verified h :: preparation intake.loaded h now

section Dispatch

variable {verifier : Verifier} {w : World} {server : Server} {h : Nat} {body : Json}
  {intake : Intake} {call : Call} {fingerprint : String}

/-- What the journal has of a dispatch. -/
def executingOf (submission : Submission) (now : Timestamp) : DispatchLedger.LedgerEvent :=
  DispatchLedger.executingEvent submission.actionId submission.envelopeHash submission.expiresAt now

/-- The gate lets an Action through that the ledger does not know. -/
theorem gate {handler : Handler} (hcall : w.calls.get? h = some call)
    (hserver : w.adapter.server = some server) (hget : server.handlers.get? h = some handler)
    (hphase : handler.phase = .preparing)
    (habsent : DispatchLedger.check server.entries handler.submission.actionId
      handler.submission.envelopeHash = .absent)
    (hfingerprint : handler.submission.fingerprint = some fingerprint) (now : Timestamp) :
    ∃ w', step verifier w (.resume h (.prepared true now .returned)) = some w' ∧
      w'.transmitted = w.transmitted ++ [call] ∧
      w'.adapter.journal = w.adapter.journal.append (executingOf handler.submission now) .line := by
  obtain ⟨submission, phase, authorized⟩ := handler
  cases hphase
  dsimp only at habsent hfingerprint
  have hsends := transmitsSince_append w.adapter.log
  simp only [step, AdapterServer.step, hserver, hget, Option.bind_some, AdapterServer.resume,
    ↓reduceIte, AdapterServer.authorize, DispatchLedger.authorizeDispatch, habsent,
    DispatchLedger.AppendOutcome.completion, DispatchLedger.AppendOutcome.written,
    AdapterServer.startDispatch, hfingerprint, Option.map_some]
  refine ⟨_, rfl, ?_, rfl⟩
  simp only [World.advance, List.append_assoc, hsends, hcall]
  rfl

/-- A handler that goes on to the next phase. -/
theorem resume_goto {handler : Handler} {reply : Reply} {phase : AdapterServer.Phase}
    (hserver : w.adapter.server = some server) (hget : server.handlers.get? h = some handler)
    (hgoto : AdapterServer.resume w.adapter server h handler reply =
      some { w.adapter with server := some (server.setPhase h handler phase) }) :
    AdapterServer.step w.adapter (.resume h reply) =
      some { w.adapter with server := some (server.setPhase h handler phase) } := by
  simp only [AdapterServer.step, hserver, hget, Option.bind_some, hgoto]

/-- **The way through.** A request that is authorized, and whose Action the ledger
does not know, is transmitted, whatever else the server is doing. -/
theorem dispatches (hserver : w.adapter.server = some server)
    (hfree : server.handlers.has h = false)
    (hreceived : receive verifier intake.clock body = .ok intake)
    (hafter : afterLedger verifier intake = .ok ())
    (hcall : authorizeAction verifier intake = .ok call)
    (habsent : DispatchLedger.check server.entries (submissionOf verifier intake).actionId
      (submissionOf verifier intake).envelopeHash = .absent)
    (hfingerprint : (submissionOf verifier intake).fingerprint = some fingerprint)
    (now : Timestamp) :
    ∃ w', exec (step verifier) w (dispatchEvents intake h body now) = some w' ∧
      w'.transmitted = w.transmitted ++ [call] ∧
      w'.adapter.journal =
        w.adapter.journal.append (executingOf (submissionOf verifier intake) now) .line := by
  let verifying : Handler := { submission := submissionOf verifier intake, phase := .verifying }
  let server₁ := server.setPhase h verifying .verifying
  let w₁ : World := { w with
    adapter := { w.adapter with server := some server₁ }
    intakes := w.intakes.set h intake }
  have hsubmit : step verifier w (.submit h body intake.clock) = some w₁ := by
    simp only [step, hreceived, hafter, decide_true, AdapterServer.step, hserver,
      Option.bind_some, hfree, Bool.false_eq_true, ↓reduceIte, Option.map_some,
      AdapterServer.submit, Bool.not_true, habsent]
    rfl
  have hintake : w₁.intakes.get? h = some intake := OrderedMap.get?_set_self _ _ _
  have hget₁ : server₁.handlers.get? h = some verifying := get?_setPhase _ _ _ _
  have hverified (next : AfterVerification) (phase : AdapterServer.Phase)
      (hnext : afterVerification intake.loaded = next)
      (hgoto : AdapterServer.resume w₁.adapter server₁ h verifying (.verified next) =
        some { w₁.adapter with server := some (server₁.setPhase h verifying phase) }) :
      step verifier w₁ (.verified h) = some { w₁ with
        adapter := { w₁.adapter with server := some (server₁.setPhase h verifying phase) }
        calls := w₁.calls.set h call } := by
    simp only [step, hintake, Option.bind_some, hcall, hnext]
    rw [resume_goto rfl hget₁ hgoto]
    rfl
  unfold dispatchEvents preparation
  by_cases hoauth : intake.loaded.executionTarget = .http true
  · have hstep := hverified .prepare .preparing (if_pos hoauth) rfl
    let w₂ : World := { w₁ with
      adapter := { w₁.adapter with server := some (server₁.setPhase h verifying .preparing) }
      calls := w₁.calls.set h call }
    obtain ⟨w', hw', htransmitted, hjournal⟩ := gate (w := w₂)
      (OrderedMap.get?_set_self _ _ _) rfl (get?_setPhase _ _ _ _) rfl habsent hfingerprint now
    rw [if_pos hoauth]
    refine ⟨w', ?_, htransmitted, hjournal⟩
    simp only [exec, hsubmit, hstep, Option.bind_some]
    rw [hw']
    rfl
  · have hstep := hverified .credential .gettingCredential (if_neg hoauth) rfl
    let server₂ := server₁.setPhase h verifying .gettingCredential
    let waiting : Handler := { verifying with phase := .gettingCredential }
    let w₂ : World := { w₁ with
      adapter := { w₁.adapter with server := some server₂ }
      calls := w₁.calls.set h call }
    let w₃ : World := { w₂ with
      adapter := { w₂.adapter with server := some (server₂.setPhase h waiting .preparing) } }
    have hcredential : step verifier w₂ (.resume h (.credential true)) = some w₃ := by
      have hresume := resume_goto (w := w₂) rfl (get?_setPhase _ _ _ _)
        (rfl : AdapterServer.resume w₂.adapter server₂ h waiting (.credential true) =
          some { w₂.adapter with server := some (server₂.setPhase h waiting .preparing) })
      have hadvance : step verifier w₂ (.resume h (.credential true)) =
          (AdapterServer.step w₂.adapter (.resume h (.credential true))).map (w₂.advance h) := rfl
      have hsame := admits_append w₂.adapter.log []
      have hsends := transmitsSince_append w₂.adapter.log []
      rw [List.append_nil] at hsame hsends
      rw [hadvance, hresume, Option.map_some]
      simp only [World.advance, hsame, hsends]
      simp only [writes, transmits, List.filterMap_nil, ne_eq, not_true_eq_false, decide_false,
        Bool.false_eq_true, ↓reduceIte, List.append_nil]
      rfl
    obtain ⟨w', hw', htransmitted, hjournal⟩ := gate (w := w₃)
      (OrderedMap.get?_set_self _ _ _) rfl (get?_setPhase _ _ _ _) rfl habsent hfingerprint now
    rw [if_neg hoauth]
    refine ⟨w', ?_, htransmitted, hjournal⟩
    simp only [exec, hsubmit, hstep, Option.bind_some]
    rw [hcredential, Option.bind_some, hw']
    rfl

end Dispatch

namespace Example

open PackageVerification.Example (package_verifies packageMembers)

/-- One deployment, in which Alice may propose and needs nobody's approval. -/
def loaded : LoadedDeploymentConfig where
  applicationDid := "did:web:app.example"
  signerKeys := PackageVerification.Example.config.trustedSigners
  policy := {
    defaultRequirement := .proposerOnly []
    policies := .given [("send", .given [])]
    signerGroups := .given [("all", .arr [.str "did:web:alice.example"])] }
  executionTarget := .stdio ["mcp-server"]
  plugin := {
    executionProfile := ⟨"did:web:profiles.oma3.org:mcp", none⟩
    operations := [("read", .obj [])] }

def verifier : Verifier where
  routing := {
    computeJsonHash := PackageVerification.Example.platform.computeJsonHash
    dateParse := fun _ => none
    urlOrigin := fun _ => none
    stringify := fun _ => "" }
  platform := PackageVerification.Example.platform
  compileSchema _ := none
  measurePayloadBytes _ := some 33
  adapterDid := "did:web:verifier.example"
  configsByApplicationDid := (∅ : OrderedMap Did LoadedDeploymentConfig).set
    "did:web:app.example" loaded

def clock : Clock where
  structural := PackageVerification.Example.platform.clock
  expiry := PackageVerification.Example.platform.clock
  validity := PackageVerification.Example.platform.clock
  verification := PackageVerification.Example.platform.clock

def request : Json := .obj [("version", .str "1"), ("type", .str "ActionRequest"),
  ("actionPackage", .obj (packageMembers []))]

def intake : Intake where
  request := request
  package := .obj (packageMembers [])
  loaded := loaded
  clock := clock

theorem received : receive verifier intake.clock request = .ok intake := by
  have hparse : PackageVerification.parseActionPackage verifier.platform
      (part request "actionPackage") = .ok (.obj (packageMembers [])) :=
    PackageVerification.parseActionPackage_eq_ok.mpr
      ⟨_, rfl, PackageVerification.Example.package_shape (by decide) rfl, rfl⟩
  have hvalid : PackageVerification.validateActionEnvelope verifier.platform
      (part (.obj (packageMembers [])) "actionEnvelope")
        { checkExpiry := false, now := clock.structural } = .ok () := by decide +kernel
  exact receive_eq_ok_iff.mpr ⟨request, _, loaded, none, rfl, hparse, hvalid, rfl, rfl, rfl, rfl⟩

theorem in_time : afterLedger verifier intake = .ok () := by decide +kernel

theorem platform_eq : platformOf verifier intake = PackageVerification.Example.platform := by
  simp only [platformOf, verifier, intake, clock]

theorem passes : PackageVerification.Passes (platformOf verifier intake)
    (verificationConfig verifier intake.loaded) intake.package := by
  have hpasses := PackageVerification.verifyActionPackage_eq_ok.mp
    (@package_verifies [] (by decide) rfl)
  rw [platform_eq]
  exact ⟨hpasses.shape, by decide +kernel, hpasses.hash, hpasses.approvals, hpasses.proposed⟩

/-- The one Approval is Alice's proposal. -/
theorem verified_package : ∃ verified, verify verifier intake = .ok verified ∧
    verified.verifiedApprovals.approvals = [PackageVerification.verifiedApproval
      (.obj PackageVerification.Example.approvalMembers)
      ⟨"did:web:alice.example", some PackageVerification.Example.key⟩] := by
  obtain ⟨verified, hverified⟩ := PackageVerification.verifyActionPackage_eq_ok.mpr passes
  refine ⟨verified, by unfold verify; exact mapError_eq_ok.mpr hverified, ?_⟩
  have hall := verified_approvals hverified
  have hlist : PackageVerification.approvalsOf (bundleOf intake.package) =
      [.obj PackageVerification.Example.approvalMembers] := rfl
  rw [hlist] at hall
  obtain ⟨v, rest, ⟨signer, haccepted, rfl⟩, hrest, heq⟩ := List.forall₂_cons_left_iff.mp hall
  rw [List.forall₂_nil_left_iff.mp hrest] at heq
  have hsigner : PackageVerification.trustedByDid PackageVerification.Example.config.trustedSigners
      signer.did = some signer := haccepted.trusted
  have hmem := (PackageVerification.trustedByDid_did hsigner).1
  rw [heq, List.mem_singleton.mp hmem]

/-- The policy of the deployment asks for nobody but the proposer. -/
theorem allowed : ∃ call, authorizeAction verifier intake = .ok call ∧
    call.operation = "send" ∧ call.arguments = [] := by
  obtain ⟨verified, hverified, happrovals⟩ := verified_package
  have hsatisfied : PolicyEngine.evaluatePolicy (packageOf intake.package)
      (AdapterDecision.approvalsOf verified.verifiedApprovals) intake.loaded.policy =
        .ok .satisfied := by
    rw [PolicyEngine.evaluatePolicy_satisfied_iff]
    refine ⟨fun x hx y hy _ => ?_, .proposerOnly [], rfl, rfl⟩
    simp only [PolicyEngine.VerifiedApprovals.decisions, AdapterDecision.approvalsOf, happrovals,
      List.map_cons, List.map_nil, List.mem_singleton] at hx hy
    rw [hx, hy]
  have hstructure : validateMcpPayloadStructure intake.payload = some ("send", []) := rfl
  have hproposer : proposerVerdict intake = .ok () := by decide +kernel
  have hroute : routeOf verifier intake.loaded intake.payload "send" = .ok .governed := rfl
  have hgoverned : routeVerdict intake verified "send" .governed = .ok () := by
    simp only [routeVerdict, governedVerdict, hsatisfied]
  refine ⟨⟨intake, verified, .governed, "send", []⟩, ?_, rfl, rfl⟩
  unfold authorizeAction
  refine bind_eq_ok.mpr ⟨verified, hverified, ?_⟩
  rw [hstructure]
  exact bind_eq_ok.mpr ⟨(), hproposer, bind_eq_ok.mpr ⟨.governed, hroute,
    bind_eq_ok.mpr ⟨(), hgoverned, rfl⟩⟩⟩

/-- Of the empty journal nothing is in the ledger. -/
def started : World where
  adapter := { journal := ⟨[], .clean⟩, server := some { entries := ∅ } }

end Example

/-- A proposal of Alice is transmitted, and only that. -/
theorem mediated_dispatch : ∃ events w,
    Run (step Example.verifier) Free { adapter := { journal := ⟨[], .clean⟩ } } events w ∧
      w.transmitted.map (fun call => (call.operation, call.arguments)) = [("send", [])] ∧
      (∀ call ∈ w.transmitted, Authorized Example.verifier call ∧
        Received Example.verifier events call.intake) ∧
      (w.transmitted.map Call.actionId).Nodup := by
  obtain ⟨call, hcall, hoperation, harguments⟩ := Example.allowed
  obtain ⟨fingerprint, hfingerprint⟩ : ∃ fingerprint,
      (submissionOf Example.verifier Example.intake).fingerprint = some fingerprint := ⟨_, rfl⟩
  have hrestart : step Example.verifier { adapter := { journal := ⟨[], .clean⟩ } }
      (.restart "2026-01-01T00:00:00.000Z" []) = some Example.started := rfl
  have hunknown : DispatchLedger.check ∅ (submissionOf Example.verifier Example.intake).actionId
      (submissionOf Example.verifier Example.intake).envelopeHash = .absent :=
    (DispatchLedger.check_eq_absent_iff _ _ _).mpr ⟨rfl, rfl⟩
  have hserver : Example.started.adapter.server = some { entries := ∅ } := rfl
  obtain ⟨w, hw, htransmitted, -⟩ := dispatches (h := 0) hserver rfl Example.received
    Example.in_time hcall hunknown hfingerprint "2026-01-01T00:00:01.000Z"
  have hrun := Run.cons (C := Free) trivial hrestart (run_of_exec hw)
  obtain ⟨hauthorized, -, hnodup, -⟩ := complete_mediation Example.verifier ⟨[], .clean⟩ _ w hrun
  refine ⟨_, w, hrun, ?_, hauthorized, hnodup⟩
  rw [htransmitted]
  simp [Example.started, hoperation, harguments]

end Mpas.AdapterMediation
