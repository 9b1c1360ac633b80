import Mpas.Builders
import Mpas.ReportedThresholds

/-!
# Coordination against the Verifier's policy

Two evaluators decide about one Action: Coordination, by the Authorization
Requirements built from the thresholds that the Verifier found unsatisfied, and
the Verifier, by its policy. They need not agree, and the theorems say when they do.

* `coordination_ready`: Coordination declares an Action ready only with decisions
  that authorize it if each threshold that is missing covers, by counting, what
  the policy requires, and without an `anyOf` in force only then;
* `coordination_kills`: it gives up only Actions that nothing can authorize if the
  policy cannot be met past the thresholds that are missing, and without an
  `allOf` in force only then.
-/

namespace Mpas.CoordinationReadiness

open PolicyEngine ApprovalRequirements Builders

/-! ## The status of a listed threshold -/

/-- The status of a threshold that asks for `k` times `d`. -/
def askedStatus (m : OrderedMap Did Decision) (k : Nat) (d : Decision) (eligible : List Json) :
    Status :=
  let matching := eligible.countP (isMatching m (.str d.text))
  let undecided := eligible.countP (isUndecided m)
  if k ≤ matching then .satisfied else if k ≤ matching + undecided then .pending else .unreachable

theorem thresholdStatus_asks {u : UnsatisfiedThreshold} {k : Nat} {d : Decision}
    {eligible : List Json} (h : u.Asks k d eligible) (m : OrderedMap Did Decision) :
    thresholdStatus m (thresholdOf u) = .ok (askedStatus m k d eligible) := by
  have hexpected : Json.nullish (thresholdOf u).decision (.str "approve") = .str d.text := by
    rw [thresholdOf, h.requiredDecision]
    rfl
  have hthreshold : (thresholdOf u).threshold = .num (.ofNat k) := by
    rw [thresholdOf, h.threshold, Option.getD_some]
  have heligible : (thresholdOf u).eligibleSigners = u.eligibleSigners := rfl
  unfold thresholdStatus askedStatus
  simp only [hexpected, hthreshold, heligible, h.eligibleSigners, Json.countReaches_ofNat, bind,
    Except.bind, decide_eq_true_eq]
  split
  · rfl
  · split <;> rfl

variable {m : OrderedMap Did Decision} {decisions : List SignerDecision} {eligible : List Json}
  {d : Decision} {k : Nat}

theorem isMatching_iff (hm : Records m decisions) (entry : Json) :
    isMatching m (.str d.text) entry = true ↔ ∃ did, entry = .str did ∧ ⟨did, d⟩ ∈ decisions := by
  unfold isMatching decisionOf
  cases hentry : entry.asString with
  | none =>
    simp only [Option.bind_none, Bool.false_eq_true, false_iff, not_exists, not_and]
    rintro did rfl
    cases hentry
  | some did =>
    obtain rfl := Json.asString_eq_some.mp hentry
    simp only [Option.bind_some, Json.str.injEq, exists_eq_left']
    cases hget : m.get? did with
    | none => simp [← hm did d, hget]
    | some d' =>
      simp only [decide_eq_true_eq, Decision.text_injective.eq_iff, ← hm did d, hget,
        Option.some.injEq]

theorem isUndecided_iff (hm : Records m decisions) (entry : Json) :
    isUndecided m entry = true ↔ ∀ did d, entry = .str did → ⟨did, d⟩ ∉ decisions := by
  unfold isUndecided decisionOf
  cases hentry : entry.asString with
  | none =>
    simp only [Option.bind_none, Option.isNone_none, true_iff]
    rintro did d rfl
    cases hentry
  | some did =>
    obtain rfl := Json.asString_eq_some.mp hentry
    cases hget : m.get? did with
    | none =>
      simp only [Option.bind_some, hget, Option.isNone_none, true_iff]
      rintro did' d hdid hmem
      cases hdid
      simp [(hm did d).mpr hmem] at hget
    | some d' =>
      simp only [Option.bind_some, hget, Option.isNone_some, Bool.false_eq_true, false_iff]
      intro hnone
      exact hnone did d' rfl ((hm did d').mp hget)

/-- The matching entries are the supporters. -/
theorem countP_isMatching (hm : Records m decisions) :
    eligible.countP (isMatching m (.str d.text)) =
      (supporters eligible (.str d.text) decisions).length := by
  rw [supporters, ← List.countP_eq_length_filter, Json.strings, List.countP_filterMap]
  apply List.countP_congr
  intro entry _
  rw [isMatching_iff hm]
  cases hentry : entry.asString with
  | none =>
    simp only [Option.map_none, Option.getD_none, Bool.false_eq_true, iff_false, not_exists, not_and]
    rintro did rfl
    cases hentry
  | some did =>
    obtain rfl := Json.asString_eq_some.mp hentry
    simp only [Json.str.injEq, exists_eq_left', Option.map_some, Option.getD_some,
      List.any_eq_true, Bool.and_eq_true, decide_eq_true_eq, Decision.text_injective.eq_iff]
    constructor
    · intro h
      exact ⟨_, h, rfl, rfl⟩
    · rintro ⟨⟨did', d'⟩, h, rfl, rfl⟩
      exact h

theorem askedStatus_satisfied_iff :
    askedStatus m k d eligible = .satisfied ↔
      k ≤ eligible.countP (isMatching m (.str d.text)) := by
  unfold askedStatus
  simp only
  split
  · simp_all
  · split <;> simp_all

theorem askedStatus_unreachable_iff :
    askedStatus m k d eligible = .unreachable ↔
      eligible.countP (isMatching m (.str d.text)) + eligible.countP (isUndecided m) < k := by
  unfold askedStatus
  simp only
  split
  · simp; omega
  · split <;> simp <;> omega

/-! ## The expression Coordination follows -/

section Expression

variable {unsatisfied : List UnsatisfiedThreshold}

/-- The statuses of listed thresholds, as a function of the threshold. -/
theorem exists_status (hasks : ∀ u ∈ unsatisfied, ∃ k d eligible, u.Asks k d eligible)
    (m : OrderedMap Did Decision) :
    ∃ status : ThresholdRequirement → Status,
      (∀ entry ∈ unsatisfied.map thresholdOf, thresholdStatus m entry = .ok (status entry)) ∧
      ∀ u k d eligible, u.Asks k d eligible →
        status (thresholdOf u) = askedStatus m k d eligible := by
  let status (entry : ThresholdRequirement) : Status :=
    match thresholdStatus m entry with
    | .ok status => status
    | .error _ => .pending
  have hstatus : ∀ u k d eligible, u.Asks k d eligible →
      status (thresholdOf u) = askedStatus m k d eligible := by
    intro u k d eligible h
    simp [status, thresholdStatus_asks h m]
  refine ⟨status, ?_, hstatus⟩
  intro entry hentry
  obtain ⟨u, hu, rfl⟩ := List.mem_map.mp hentry
  obtain ⟨k, d, eligible, h⟩ := hasks u hu
  rw [hstatus u k d eligible h, thresholdStatus_asks h m]

/-- Ready: some listed threshold has as many supporters as it asks for. -/
theorem listed_satisfied_iff (hfree : ConflictFree decisions) (hne : unsatisfied ≠ [])
    (hasks : ∀ u ∈ unsatisfied, ∃ k d eligible, u.Asks k d eligible) :
    evaluateApprovalRequirements { anyOf := some (unsatisfied.map thresholdOf) } decisions =
        .ok .satisfied ↔
      ∃ u ∈ unsatisfied, ∃ k d eligible, u.Asks k d eligible ∧
        k ≤ (supporters eligible (.str d.text) decisions).length := by
  obtain ⟨m, hm, hrecords⟩ := immutableDecisionMap_of_conflictFree hfree
  obtain ⟨status, hok, hstatus⟩ := exists_status hasks m
  rw [anyOf_satisfied_iff hm (by simpa using hne) hok]
  simp only [List.mem_map, exists_exists_and_eq_and]
  refine exists_congr fun u => and_congr_right fun hu => ?_
  constructor
  · intro h
    obtain ⟨k, d, eligible, ha⟩ := hasks u hu
    rw [hstatus u k d eligible ha, askedStatus_satisfied_iff, countP_isMatching hrecords] at h
    exact ⟨k, d, eligible, ha, h⟩
  · rintro ⟨k, d, eligible, ha, h⟩
    rw [hstatus u k d eligible ha, askedStatus_satisfied_iff, countP_isMatching hrecords]
    exact h

/-- Given up: of no listed threshold are the matching and the undecided enough. -/
theorem listed_unreachable_iff (hm : immutableDecisionMap ∅ decisions = .ok m)
    (hne : unsatisfied ≠ [])
    (hasks : ∀ u ∈ unsatisfied, ∃ k d eligible, u.Asks k d eligible) :
    evaluateApprovalRequirements { anyOf := some (unsatisfied.map thresholdOf) } decisions =
        .ok .unreachable ↔
      ∀ u ∈ unsatisfied, ∀ k d eligible, u.Asks k d eligible →
        eligible.countP (isMatching m (.str d.text)) + eligible.countP (isUndecided m) < k := by
  obtain ⟨status, hok, hstatus⟩ := exists_status hasks m
  rw [anyOf_unreachable_iff hm (by simpa using hne) hok, List.forall_mem_map]
  refine forall₂_congr fun u hu => ?_
  constructor
  · intro h k d eligible ha
    rwa [hstatus u k d eligible ha, askedStatus_unreachable_iff] at h
  · intro h
    obtain ⟨k, d, eligible, ha⟩ := hasks u hu
    rw [hstatus u k d eligible ha, askedStatus_unreachable_iff]
    exact h k d eligible ha

end Expression

/-! ## One deployment -/

namespace Deployment

def payload : Json := .obj [("name", .str "deploy"), ("arguments", .obj [])]

def envelope (actionId : String) (createdAt expiresAt : Timestamp) : ActionEnvelope where
  proposer := "did:web:agent"
  target := { applicationDid := "did:web:app" }
  executionProfile := ⟨"did:web:mcp", some "mcp.toolsCall"⟩
  executionPayloadHash := ⟨"sha-256", "C1QrUqEwlRhNboIFU1xVyqedBZ5vlikV0pLqPKMsero"⟩
  actionId := { value := "urn:uuid:" ++ actionId }
  createdAt
  expiresAt

def proposedEnvelope : ActionEnvelope :=
  envelope "6e1c9b02-3d4f-4c58-8a77-0b5d2e91f3a4" "2025-01-01T00:00:00.000Z"
    "2025-01-01T00:30:00.000Z"

def replacementEnvelope : ActionEnvelope :=
  envelope "b07d0c4e-7a52-4b1e-9d36-2f8a1c5e0b11" "2025-01-01T00:01:00.000Z"
    "2025-01-01T00:31:00.000Z"

/-- The digests of the payload and the two envelopes. -/
def computeJsonHash (value : Json) : HashObject :=
  if value = payload then ⟨"sha-256", "C1QrUqEwlRhNboIFU1xVyqedBZ5vlikV0pLqPKMsero"⟩
  else if value = proposedEnvelope.toJson then
    ⟨"sha-256", "uCj9TCr9SJO9PMx7qVJV92_cF4DbruPYh3KkyL9sMLg"⟩
  else if value = replacementEnvelope.toJson then
    ⟨"sha-256", "CPMkHG9LGqsNGWT6P8bQBjaekHw3WCZ0cpSnQXSGdXs"⟩
  else ⟨"sha-256", ""⟩

def builder : ActionPackageBuilder where
  signerDid := "did:web:agent"
  defaultExpirationMinutes := 30
  hashPayload := none
  sign := fun _ => "header.payload.signature"

def readings : BuildReadings :=
  ⟨1735689660000, 1735689660000, 1735689660000, "b07d0c4e-7a52-4b1e-9d36-2f8a1c5e0b11"⟩

def packageOf (envelope : ActionEnvelope) : ActionPackage :=
  builder.createPackage computeJsonHash readings payload envelope
    (builder.createProposerApproval computeJsonHash readings envelope)

def proposed : ActionPackage := packageOf proposedEnvelope

def replacement : ActionPackage := packageOf replacementEnvelope

def verifierDid : Did := "did:web:verifier"

/-- What the Proposer sends to Coordination for the thresholds it was told. -/
def requirementsFor (unsatisfied : List UnsatisfiedThreshold) : AuthorizationRequirements :=
  { buildAuthorizationRequirements computeJsonHash 1735689650000 proposedEnvelope unsatisfied
      verifierDid with
    actionEnvelopeHash := computeJsonHash replacementEnvelope.toJson
    createdAt := some replacementEnvelope.createdAt
    expiresAt := some replacementEnvelope.expiresAt }

def approvals (decisions : List SignerDecision) : VerifiedApprovals :=
  ⟨computeJsonHash proposedEnvelope.toJson, decisions.map fun x =>
    ⟨⟨computeJsonHash proposedEnvelope.toJson, x.decision, "", "", none⟩, x.signerDid, x.decision,
      "2025-01-01T00:00:00.000Z"⟩⟩

def proposal : SignerDecision := ⟨"did:web:agent", .propose⟩

/-- One approval by the named Signer. -/
def oneOf (signer : Did) : PolicyEngine.ThresholdRequirement where
  threshold := some (.num (.finite 1))
  eligibleSigners := some (.arr [.str signer])

/-- So many approvals by the named Signers. -/
def quorumOf (threshold : Nat) (signers : List Did) : PolicyEngine.ThresholdRequirement where
  threshold := some (.num (.ofNat threshold))
  eligibleSigners := some (.arr (signers.map .str))

def policyWith (requirement : Requirement) : PolicyConfig where
  defaultRequirement := requirement
  signerGroups := .given [("all", .arr [.str "did:web:agent", .str "did:web:alice",
    .str "did:web:bob"])]

def alice : PolicyEngine.ThresholdRequirement := oneOf "did:web:alice"

def bob : PolicyEngine.ThresholdRequirement := oneOf "did:web:bob"

/-- What is reported of `oneOf` when the Signer has not approved. -/
def missing (requirement : PolicyEngine.ThresholdRequirement) : UnsatisfiedThreshold where
  requirement
  requiredRole := .str "unknown"
  requiredDecision := .str "approve"
  threshold := requirement.threshold
  found := 0
  eligibleSigners := requirement.eligibleSigners.getD (.arr [])

theorem replaced (unsatisfied : List UnsatisfiedThreshold) :
    builder.buildCoordinationReplacement computeJsonHash readings proposed
      (buildAuthorizationRequirements computeJsonHash 1735689650000 proposed.actionEnvelope
        unsatisfied verifierDid) = .ok (replacement, requirementsFor unsatisfied) := by
  have henvelope : builder.createReplacementEnvelope computeJsonHash readings proposedEnvelope
      payload = replacementEnvelope := by decide +kernel
  simp only [ActionPackageBuilder.buildCoordinationReplacement, proposed, packageOf,
    ActionPackageBuilder.createPackage, henvelope]
  rfl

end Deployment

/-! ## Readiness -/

/-- The decisions are those of Signers other than the Proposer. -/
def FromOthers (proposerDid : Did) (decisions : List SignerDecision) : Prop :=
  ∀ x ∈ decisions, x.signerDid ≠ proposerDid

theorem votesOf_propose {proposerDid : Did} (h : FromOthers proposerDid decisions) :
    votesOf proposerDid (⟨proposerDid, .propose⟩ :: decisions) = decisions := by
  unfold votesOf
  rw [List.filter_cons_of_neg (by simp), List.filter_eq_self]
  intro x hx
  simpa using h x hx

theorem conflictFree_propose {proposerDid : Did} (h : FromOthers proposerDid decisions)
    (hfree : ConflictFree decisions) :
    ConflictFree (⟨proposerDid, .propose⟩ :: decisions) := by
  intro x hx y hy hxy
  rcases List.mem_cons.mp hx with rfl | hx <;> rcases List.mem_cons.mp hy with rfl | hy
  · rfl
  · exact absurd hxy.symm (h y hy)
  · exact absurd hxy (h x hx)
  · exact hfree x hx y hy hxy

theorem conflictFree_map (d : Decision) (signers : List Did) :
    ConflictFree (signers.map fun did => (⟨did, d⟩ : SignerDecision)) := by
  intro x hx y hy _
  obtain ⟨_, _, rfl⟩ := List.mem_map.mp hx
  obtain ⟨_, _, rfl⟩ := List.mem_map.mp hy
  rfl

/-- The propose approval and the decisions authorize an Action exactly if the
decisions meet the policy. -/
theorem evaluatePolicy_propose_iff {policy : PolicyConfig} {actionPackage : ActionPackage}
    {verified : VerifiedApprovals}
    (h : FromOthers actionPackage.actionEnvelope.proposer decisions)
    (hfree : ConflictFree decisions)
    (hverified : verified.decisions =
      ⟨actionPackage.actionEnvelope.proposer, .propose⟩ :: decisions) :
    evaluatePolicy actionPackage verified policy = .ok .satisfied ↔
      Meets policy actionPackage decisions := by
  rw [evaluatePolicy_satisfied_iff, hverified, votesOf_propose h]
  exact and_iff_right (conflictFree_propose h hfree)

theorem exists_verified (decisions : List SignerDecision) :
    ∃ verified : VerifiedApprovals, verified.decisions = decisions := by
  refine ⟨⟨⟨"", ""⟩, decisions.map fun x =>
    ⟨⟨⟨"", ""⟩, x.decision, "", "", none⟩, x.signerDid, x.decision, ""⟩⟩, ?_⟩
  simp [VerifiedApprovals.decisions, Function.comp_def]

/-- Coordination declares the Action ready only with decisions that authorize it. -/
def ReadyOnlyWhenAuthorized (policy : PolicyConfig) (actionPackage : ActionPackage)
    (requirements : ApprovalRequirements) : Prop :=
  ∀ (decisions : List SignerDecision) (verified : VerifiedApprovals), ConflictFree decisions →
    FromOthers actionPackage.actionEnvelope.proposer decisions →
    verified.decisions = ⟨actionPackage.actionEnvelope.proposer, .propose⟩ :: decisions →
    evaluateApprovalRequirements requirements decisions = .ok .satisfied →
    evaluatePolicy actionPackage verified policy = .ok .satisfied

/-- A quorum of `u` other than the Proposer: as many listed Signers as `u` asks for. -/
def IsQuorum (u : UnsatisfiedThreshold) (proposerDid : Did) (signers : List Did) : Prop :=
  signers.Nodup ∧ u.threshold = some (.num (.ofNat signers.length)) ∧
    ∃ eligible, Json.newSet u.eligibleSigners = .ok eligible ∧
      ∀ did ∈ signers, did ≠ proposerDid ∧ did ∈ Json.strings eligible

/-- Every quorum of `u` meets the policy with the decision that `u` asks for,
and nothing else. -/
def QuorumsSuffice (policy : PolicyConfig) (actionPackage : ActionPackage)
    (u : UnsatisfiedThreshold) : Prop :=
  ∀ (signers : List Did) (d : Decision), u.requiredDecision = .str d.text →
    IsQuorum u actionPackage.actionEnvelope.proposer signers →
    Meets policy actionPackage (signers.map fun did => ⟨did, d⟩)

section Readiness

variable {policy : PolicyConfig} {actionPackage : ActionPackage}
  {unsatisfied : List UnsatisfiedThreshold}

/-- A list that makes Coordination ready contains a quorum of a listed threshold. -/
theorem exists_quorum {u : UnsatisfiedThreshold} {proposerDid : Did} (ha : u.Asks k d eligible)
    (hothers : FromOthers proposerDid decisions)
    (hk : k ≤ (supporters eligible (.str d.text) decisions).length) :
    ∃ signers, IsQuorum u proposerDid signers ∧ ∀ did ∈ signers, ⟨did, d⟩ ∈ decisions := by
  have hvoted : ∀ did ∈ (supporters eligible (.str d.text) decisions).take k,
      did ∈ Json.strings eligible ∧ ⟨did, d⟩ ∈ decisions := by
    intro did hdid
    obtain ⟨hmem, d', hvote, hd⟩ := mem_supporters.mp (List.mem_of_mem_take hdid)
    rw [Decision.text_injective (Json.str.inj hd)] at hvote
    exact ⟨hmem, hvote⟩
  refine ⟨(supporters eligible (.str d.text) decisions).take k, ⟨?_, ?_, eligible,
    ha.eligibleSigners, ?_⟩, fun did hdid => (hvoted did hdid).2⟩
  · exact (supporters_nodup (newSet_strings_nodup ha.eligibleSigners) _ _).sublist
      (List.take_sublist _ _)
  · rw [List.length_take, Nat.min_eq_left hk, ha.threshold]
  · intro did hdid
    exact ⟨hothers _ (hvoted did hdid).2, (hvoted did hdid).1⟩

/-- A quorum that votes as asked makes Coordination ready. -/
theorem quorum_supports {u : UnsatisfiedThreshold} {proposerDid : Did} {signers : List Did}
    (ha : u.Asks k d eligible) (hquorum : IsQuorum u proposerDid signers) :
    k ≤ (supporters eligible (.str d.text)
      (signers.map fun did => (⟨did, d⟩ : SignerDecision))).length := by
  obtain ⟨hnodup, hlength, eligible', heligible, hlisted⟩ := hquorum
  have hk : k = signers.length := threshold_unique ha.threshold hlength
  obtain rfl : eligible' = eligible := by
    have := heligible.symm.trans ha.eligibleSigners
    exact Except.ok.inj this
  rw [hk]
  apply (List.subperm_of_subset hnodup ?_).length_le
  intro did hdid
  rw [mem_supporters]
  exact ⟨(hlisted did hdid).2, d, List.mem_map.mpr ⟨did, hdid, rfl⟩, rfl⟩

theorem ready_iff (hne : unsatisfied ≠ [])
    (hasks : ∀ u ∈ unsatisfied, ∃ k d eligible, u.Asks k d eligible) :
    ReadyOnlyWhenAuthorized policy actionPackage
        { anyOf := some (unsatisfied.map thresholdOf) } ↔
      ∀ u ∈ unsatisfied, QuorumsSuffice policy actionPackage u := by
  constructor
  · intro hready u hu signers d hd hquorum
    obtain ⟨k, d', eligible, ha⟩ := hasks u hu
    obtain rfl : d = d' :=
      Decision.text_injective (Json.str.inj (hd.symm.trans ha.requiredDecision))
    have hothers : FromOthers actionPackage.actionEnvelope.proposer
        (signers.map fun did => (⟨did, d⟩ : SignerDecision)) := by
      intro x hx
      obtain ⟨did, hdid, rfl⟩ := List.mem_map.mp hx
      obtain ⟨_, _, _, _, hlisted⟩ := hquorum
      exact (hlisted did hdid).1
    have hfree := conflictFree_map d signers
    obtain ⟨verified, hverified⟩ := exists_verified
      (⟨actionPackage.actionEnvelope.proposer, .propose⟩ :: signers.map fun did => ⟨did, d⟩)
    have hsatisfied := (listed_satisfied_iff hfree hne hasks).mpr
      ⟨u, hu, k, d, eligible, ha, quorum_supports ha hquorum⟩
    exact (evaluatePolicy_propose_iff hothers hfree hverified).mp
      (hready _ verified hfree hothers hverified hsatisfied)
  · intro hsuffice decisions verified hfree hothers hverified hsatisfied
    obtain ⟨u, hu, k, d, eligible, ha, hk⟩ := (listed_satisfied_iff hfree hne hasks).mp hsatisfied
    obtain ⟨signers, hquorum, hvoted⟩ := exists_quorum ha hothers hk
    rw [evaluatePolicy_propose_iff hothers hfree hverified]
    apply (hsuffice u hu signers d ha.requiredDecision hquorum).mono
    intro x hx
    obtain ⟨did, hdid, rfl⟩ := List.mem_map.mp hx
    exact hvoted did hdid

/-- What an evaluation that asks for approvals reports can be evaluated by Coordination. -/
theorem reported_asks {verifiedApprovals : VerifiedApprovals}
    (hvalid : validatePolicyConfig policy = none)
    (hopen : evaluatePolicy actionPackage verifiedApprovals policy =
      .ok (.additionalApprovalsRequired unsatisfied)) :
    unsatisfied ≠ [] ∧ ∀ u ∈ unsatisfied, ∃ k d eligible, u.Asks k d eligible := by
  obtain ⟨hne, requirement, heff, heval⟩ := evaluatePolicy_additional hopen
  exact ⟨hne, unsatisfied_asks (effective_checked hvalid heff) heval⟩

end Readiness

/-- Each threshold that the approvals leave short, and that Signers other than the Proposer
could meet, is enough for what the policy requires of the replacement. -/
def EachSuffices (policy : PolicyConfig) (verifiedApprovals : VerifiedApprovals)
    (actionPackage replacement : ActionPackage) : Prop :=
  ∀ (requirement : Requirement) (threshold : PolicyEngine.ThresholdRequirement) (k : Nat),
    effectiveRequirement actionPackage policy = .ok (.requires requirement) →
    Missing (Met policy (votesOf actionPackage.actionEnvelope.proposer verifiedApprovals.decisions))
      threshold requirement →
    threshold.threshold = some (.num (.ofNat k)) →
    k ≤ (askable policy actionPackage.actionEnvelope.proposer threshold).card →
    ∃ requirement', effectiveRequirement replacement policy = .ok (.requires requirement') ∧
      Reads (Covers policy actionPackage.actionEnvelope.proposer k threshold) requirement' ∧
      ¬Halts (Covers policy actionPackage.actionEnvelope.proposer k threshold) requirement'

section Suffices

variable {policy : PolicyConfig} {verifiedApprovals : VerifiedApprovals}
  {actionPackage replacement : ActionPackage} {unsatisfied : List UnsatisfiedThreshold}

/-- Quorums are those of the threshold that is reported. -/
theorem IsQuorum.askable {threshold : PolicyEngine.ThresholdRequirement} {u : UnsatisfiedThreshold}
    {proposerDid : Did} {signers : List Did} (hreported : ReportedAs policy threshold u k d eligible)
    (h : IsQuorum u proposerDid signers) :
    signers.length = k ∧ ∀ did ∈ signers, did ∈ PolicyEngine.askable policy proposerDid threshold := by
  obtain ⟨-, hlength, eligible', heligible, hlisted⟩ := h
  rw [hreported.asks.eligibleSigners] at heligible
  cases heligible
  refine ⟨threshold_unique hlength hreported.asks.threshold, fun did hdid => ?_⟩
  obtain ⟨hother, hmem⟩ := hlisted did hdid
  exact Finset.mem_erase.mpr ⟨hother, List.mem_toFinset.mpr ((hreported.read did).mp hmem)⟩

theorem isQuorum_of_askable {threshold : PolicyEngine.ThresholdRequirement}
    {u : UnsatisfiedThreshold} {proposerDid : Did} {signers : List Did}
    (hreported : ReportedAs policy threshold u k d eligible) (hnodup : signers.Nodup)
    (hlength : signers.length = k)
    (hsigners : ∀ did ∈ signers, did ∈ askable policy proposerDid threshold) :
    IsQuorum u proposerDid signers := by
  refine ⟨hnodup, by rw [hlength, hreported.asks.threshold], eligible,
    hreported.asks.eligibleSigners, fun did hdid => ?_⟩
  obtain ⟨hother, hmem⟩ := Finset.mem_erase.mp (hsigners did hdid)
  exact ⟨hother, (hreported.read did).mpr (List.mem_toFinset.mp hmem)⟩

theorem EachSuffices.quorums (hsuffices : EachSuffices policy verifiedApprovals actionPackage
      replacement) (hvalid : validatePolicyConfig policy = none)
    (hproposer : replacement.actionEnvelope.proposer = actionPackage.actionEnvelope.proposer)
    {requirement : Requirement}
    (heff : effectiveRequirement actionPackage policy = .ok (.requires requirement))
    (heval : evaluateRequirement verifiedApprovals policy actionPackage.actionEnvelope.proposer
      requirement = .ok unsatisfied) :
    ∀ u ∈ unsatisfied, QuorumsSuffice policy replacement u := by
  intro u hu signers d hd hquorum
  obtain ⟨threshold, hmissing, k, d', eligible, hreported⟩ := reported_missing hvalid heff heval hu
  rw [hproposer] at hquorum
  obtain ⟨hlength, hsigners⟩ := hquorum.askable hreported
  have hdecision : threshold.asked = .str d.text := by
    rw [hreported.decision, ← hreported.asks.requiredDecision, hd]
  have hsub : signers.toFinset ⊆ askable policy actionPackage.actionEnvelope.proposer threshold :=
    fun did hdid => hsigners did (List.mem_toFinset.mp hdid)
  have hk : k ≤ (askable policy actionPackage.actionEnvelope.proposer threshold).card := by
    rw [← hlength, ← List.toFinset_card_of_nodup hquorum.1]
    exact Finset.card_le_card hsub
  obtain ⟨requirement', heff', hreads, hhalts⟩ :=
    hsuffices requirement threshold k heff hmissing hreported.count hk
  subst hlength
  refine (meets_iff hvalid).mpr ⟨requirement', heff', ?_, fun hstuck => hhalts ?_⟩
  · exact hreads.mono fun _ _ hcovers => met_of_covers hdecision hquorum.1 hsigners hcovers
  · exact hstuck.anti fun _ _ hcovers => met_of_covers hdecision hquorum.1 hsigners hcovers

/-- What every quorum of a threshold meets, one by one, is covered. -/
theorem covers_of_quorums (hvalid : validatePolicyConfig policy = none) {proposerDid : Did}
    {threshold other : PolicyEngine.ThresholdRequirement} {requirement : Requirement}
    (hdecision : threshold.asked = .str d.text) (hk : k ≤ (askable policy proposerDid threshold).card)
    (heff : effectiveRequirement replacement policy = .ok (.requires requirement))
    (hwithin : (Requirement.threshold other).Within requirement)
    (hmet : ∀ signers : List Did, signers.Nodup → signers.length = k →
      (∀ did ∈ signers, did ∈ askable policy proposerDid threshold) →
      Met policy (signers.map fun did => ⟨did, d⟩) other) :
    Covers policy proposerDid k threshold other := by
  obtain ⟨signers, hnodup, hlength, hsigners, hoverlap⟩ := exists_uncovered hk other
  obtain ⟨needed, hneeded, hreached⟩ := met_iff.mp (hmet signers hnodup hlength hsigners)
  obtain ⟨signerGroups, hgroups, hgiven, hvalidated⟩ := effective_validated hvalid
  obtain ⟨path, hpath⟩ := hvalidated heff other hwithin
  obtain ⟨positive, hpositive, hcount⟩ := (threshold_checked hgroups hgiven hpath).threshold
  have hsame : needed = positive := threshold_unique hneeded hcount
  unfold Quorum.Reached at hreached
  rw [givers_map] at hreached
  split at hreached
  · rename_i hasked
    refine ⟨by rw [hdecision, hasked], needed, hneeded, ?_⟩
    rwa [← hoverlap, Finset.inter_comm]
  · rw [Finset.inter_empty, Finset.card_empty] at hreached
    omega

theorem EachSuffices.of_quorums (hvalid : validatePolicyConfig policy = none)
    (hproposer : replacement.actionEnvelope.proposer = actionPackage.actionEnvelope.proposer)
    {requirement : Requirement}
    (heff : effectiveRequirement actionPackage policy = .ok (.requires requirement))
    (heval : evaluateRequirement verifiedApprovals policy actionPackage.actionEnvelope.proposer
      requirement = .ok unsatisfied)
    (hconj : ∀ requirement', effectiveRequirement replacement policy = .ok (.requires requirement') →
      requirement'.Conjunctive)
    (hquorums : ∀ u ∈ unsatisfied, QuorumsSuffice policy replacement u) :
    EachSuffices policy verifiedApprovals actionPackage replacement := by
  intro requirement₀ threshold k heff₀ hmissing hcount hk
  rw [heff] at heff₀
  cases heff₀
  obtain ⟨u, hu, k', d, eligible, hreported⟩ := missing_reported hvalid heff heval hmissing
  obtain rfl : k' = k := threshold_unique hreported.count hcount
  have hmeets : ∀ signers : List Did, signers.Nodup → signers.length = k' →
      (∀ did ∈ signers, did ∈ askable policy actionPackage.actionEnvelope.proposer threshold) →
      Meets policy replacement (signers.map fun did => ⟨did, d⟩) := by
    intro signers hnodup hlength hsigners
    apply hquorums u hu signers d hreported.asks.requiredDecision
    rw [hproposer]
    exact isQuorum_of_askable hreported hnodup hlength hsigners
  obtain ⟨some₀, hnodup₀, hlength₀, hsigners₀, -⟩ := exists_uncovered hk threshold
  obtain ⟨requirement', heff', hreads₀, hhalts₀⟩ :=
    (meets_iff hvalid).mp (hmeets some₀ hnodup₀ hlength₀ hsigners₀)
  have hcovers : ∀ other : PolicyEngine.ThresholdRequirement,
      (Requirement.threshold other).Within requirement' →
      Covers policy actionPackage.actionEnvelope.proposer k' threshold other := by
    intro other hwithin
    refine covers_of_quorums hvalid hreported.decision hk heff' hwithin
      fun signers hnodup hlength hsigners => ?_
    obtain ⟨requirement'', heff'', hreads, -⟩ :=
      (meets_iff hvalid).mp (hmeets signers hnodup hlength hsigners)
    rw [heff'] at heff''
    cases heff''
    exact (hconj requirement' heff').reads hreads hwithin
  refine ⟨requirement', heff', hreads₀.mono fun other hwithin _ => hcovers other hwithin, ?_⟩
  intro hstuck
  obtain ⟨other, hwithin, hlist⟩ := hstuck.noList
  exact hhalts₀ ((hconj requirement' heff').halts hwithin hlist)

end Suffices

/-- **Readiness.** Coordination declares a replacement ready only with decisions that
authorize it if each threshold that the earlier approvals leave short is enough for what
the policy requires of the replacement; without an `anyOf` in that requirement, only then. -/
theorem coordination_ready (computeJsonHash : Json → HashObject)
    (builder : ActionPackageBuilder) (readings : BuildReadings) (now : Int) (verifierDid : Did)
    (policy : PolicyConfig) (actionPackage replacement : ActionPackage)
    (verifiedApprovals : VerifiedApprovals) (unsatisfied : List UnsatisfiedThreshold)
    (requirements : AuthorizationRequirements)
    (hvalid : validatePolicyConfig policy = none)
    (hopen : evaluatePolicy actionPackage verifiedApprovals policy =
      .ok (.additionalApprovalsRequired unsatisfied))
    (hreplaced : builder.buildCoordinationReplacement computeJsonHash readings actionPackage
      (buildAuthorizationRequirements computeJsonHash now actionPackage.actionEnvelope unsatisfied
        verifierDid) = .ok (replacement, requirements)) :
    (EachSuffices policy verifiedApprovals actionPackage replacement →
      ReadyOnlyWhenAuthorized policy replacement requirements.approvalRequirements) ∧
    ((∀ requirement, effectiveRequirement replacement policy = .ok (.requires requirement) →
        requirement.Conjunctive) →
      ReadyOnlyWhenAuthorized policy replacement requirements.approvalRequirements →
      EachSuffices policy verifiedApprovals actionPackage replacement) := by
  obtain ⟨hne, hasks⟩ := reported_asks hvalid hopen
  obtain ⟨-, requirement, heff, heval⟩ := evaluatePolicy_additional hopen
  have hproposer := ActionPackageBuilder.replacement_proposer hreplaced
  rw [ActionPackageBuilder.replacement_requirements hreplaced]
  constructor
  · intro hsuffices
    exact (ready_iff hne hasks).mpr (hsuffices.quorums hvalid hproposer heff heval)
  · intro hconj hready
    exact .of_quorums hvalid hproposer heff heval hconj ((ready_iff hne hasks).mp hready)

section

open Deployment

/-- Two of three Signers, one of them of two. -/
def twoWithOne : Requirement :=
  .allOf [.threshold (quorumOf 2 ["did:web:alice", "did:web:bob", "did:web:carol"]),
    .threshold (quorumOf 1 ["did:web:alice", "did:web:bob"])] []

def approvedByAlice : VerifiedApprovals := approvals [proposal, ⟨"did:web:alice", .approve⟩]

/-- What is reported of the two of three once one of them has approved. -/
def secondMissing : UnsatisfiedThreshold :=
  { missing (quorumOf 2 ["did:web:alice", "did:web:bob", "did:web:carol"]) with found := 1 }

theorem quorumOf_list {threshold : Nat} {signers : List Did} :
    ¬(quorumOf threshold signers).NoList := by
  simp [PolicyEngine.ThresholdRequirement.NoList, PolicyEngine.ThresholdRequirement.stray, quorumOf,
    isGroupName]

theorem twoWithOne_suffices :
    EachSuffices (policyWith twoWithOne) approvedByAlice proposed replacement := by
  intro requirement threshold k heff hmissing hcount hk
  have hdefault : effectiveRequirement proposed (policyWith twoWithOne) =
      .ok (.requires twoWithOne) := rfl
  rw [hdefault] at heff
  cases heff
  cases hmissing with
  | allOf part hmem hinside =>
    rcases List.mem_pair.mp hmem with rfl | rfl
    · cases hinside
      obtain rfl : 2 = k := threshold_unique rfl hcount
      refine ⟨twoWithOne, rfl, .allOf fun part hpart => ?_, fun hstuck => ?_⟩
      · rcases List.mem_pair.mp hpart with rfl | rfl
        · exact .threshold (.self rfl)
        · exact .threshold ⟨rfl, 1, rfl, by decide +kernel⟩
      · obtain ⟨part, hpart, hinner⟩ := halts_allOf_iff.mp hstuck
        rcases List.mem_pair.mp hpart with rfl | rfl <;>
          exact quorumOf_list (halts_threshold_iff.mp hinner)
    · cases hinside with
      | threshold hnot => exact absurd ⟨1, rfl, by decide +kernel⟩ hnot

/-- The replacement loses Alice's approval, which any two of the three make up for. -/
theorem ready_after_alice :
    ReadyOnlyWhenAuthorized (policyWith twoWithOne) replacement
      (requirementsFor [secondMissing]).approvalRequirements :=
  (coordination_ready computeJsonHash builder readings 1735689650000 verifierDid
    (policyWith twoWithOne) proposed replacement approvedByAlice [secondMissing]
    (requirementsFor [secondMissing]) (by decide +kernel) (by decide +kernel) (replaced _)).1
    twoWithOne_suffices

/-- The policy asks for an approval by each of two Signers, and Coordination is
ready with one of them. -/
theorem ready_without_bob :
    validatePolicyConfig (policyWith (.allOf [.threshold alice, .threshold bob] [])) = none ∧
      evaluatePolicy proposed (approvals [proposal])
        (policyWith (.allOf [.threshold alice, .threshold bob] [])) =
          .ok (.additionalApprovalsRequired [missing alice, missing bob]) ∧
      builder.buildCoordinationReplacement computeJsonHash readings proposed
        (buildAuthorizationRequirements computeJsonHash 1735689650000 proposed.actionEnvelope
          [missing alice, missing bob] verifierDid) =
          .ok (replacement, requirementsFor [missing alice, missing bob]) ∧
      ¬ ReadyOnlyWhenAuthorized (policyWith (.allOf [.threshold alice, .threshold bob] []))
        replacement (requirementsFor [missing alice, missing bob]).approvalRequirements := by
  refine ⟨by decide +kernel, by decide +kernel, replaced _, fun hready => ?_⟩
  have hsatisfied := hready [⟨"did:web:alice", .approve⟩]
    (approvals [proposal, ⟨"did:web:alice", .approve⟩]) (by simp [ConflictFree])
    (by simp [FromOthers]; decide) (by rfl) (by decide +kernel)
  exact absurd hsatisfied (by decide +kernel)

end

/-! ## Giving up -/

/-- Coordination gives up only on decisions that no extension turns into an authorization. -/
def KillsOnlyHopeless (policy : PolicyConfig) (actionPackage : ActionPackage)
    (requirements : ApprovalRequirements) : Prop :=
  ∀ (decisions extension : List SignerDecision) (verified : VerifiedApprovals),
    ConflictFree decisions → FromOthers actionPackage.actionEnvelope.proposer decisions →
    evaluateApprovalRequirements requirements decisions = .ok .unreachable →
    decisions ⊆ extension → ConflictFree extension →
    verified.decisions = ⟨actionPackage.actionEnvelope.proposer, .propose⟩ :: extension →
    evaluatePolicy actionPackage verified policy ≠ .ok .satisfied

/-- An entry of a list of Signers that votes as asked, or that no Signer but the
Proposer can decide: the Proposer itself, or a value that is no DID. -/
def supportsOrFixed (proposerDid : Did) (decision : Json) (votes : List SignerDecision)
    (entry : Json) : Bool :=
  match entry.asString with
  | some did => decide (did = proposerDid) ||
      votes.any fun vote => decide (vote.signerDid = did) && decide (.str vote.decision.text = decision)
  | none => true

/-- The votes bring `u` within reach: with them, and the entries that nobody
else can decide, `u` has as many as it asks for. -/
def WithinReach (proposerDid : Did) (votes : List SignerDecision) (u : UnsatisfiedThreshold) :
    Prop :=
  ∃ eligible, Json.newSet u.eligibleSigners = .ok eligible ∧
    Json.countReaches (eligible.countP (supportsOrFixed proposerDid u.requiredDecision votes))
      u.threshold = .ok true

theorem supportsOrFixed_iff {proposerDid : Did} {votes : List SignerDecision} {entry : Json} :
    supportsOrFixed proposerDid (.str d.text) votes entry = true ↔
      ∀ did, entry = .str did → did = proposerDid ∨ ⟨did, d⟩ ∈ votes := by
  unfold supportsOrFixed
  cases hentry : entry.asString with
  | none =>
    simp only [true_iff]
    rintro did rfl
    cases hentry
  | some did =>
    obtain rfl := Json.asString_eq_some.mp hentry
    simp only [Bool.or_eq_true, decide_eq_true_eq, List.any_eq_true, Bool.and_eq_true,
      Json.str.injEq, Decision.text_injective.eq_iff, forall_eq']
    refine or_congr_right ⟨?_, fun h => ⟨_, h, rfl, rfl⟩⟩
    rintro ⟨⟨did', d'⟩, h, rfl, rfl⟩
    exact h

theorem withinReach_iff {u : UnsatisfiedThreshold} (ha : u.Asks k d eligible)
    (proposerDid : Did) (votes : List SignerDecision) :
    WithinReach proposerDid votes u ↔
      k ≤ eligible.countP (supportsOrFixed proposerDid (.str d.text) votes) := by
  unfold WithinReach
  rw [ha.eligibleSigners, ha.threshold, ha.requiredDecision]
  simp

section Counting

variable {α : Type} {p q r : α → Bool} {xs : List α}

theorem countP_le_add (h : ∀ x ∈ xs, r x = true → p x = true ∨ q x = true) :
    xs.countP r ≤ xs.countP p + xs.countP q := by
  induction xs with
  | nil => simp
  | cons x xs ih =>
    obtain ⟨hx, hxs⟩ := List.forall_mem_cons.mp h
    have := ih hxs
    simp only [List.countP_cons]
    cases hr : r x <;> cases hp : p x <;> cases hq : q x <;> simp_all <;> omega

theorem add_le_countP (hp : ∀ x ∈ xs, p x = true → r x = true ∧ q x = false)
    (hq : ∀ x ∈ xs, q x = true → r x = true) :
    xs.countP p + xs.countP q ≤ xs.countP r := by
  induction xs with
  | nil => simp
  | cons x xs ih =>
    obtain ⟨hpx, hpxs⟩ := List.forall_mem_cons.mp hp
    obtain ⟨hqx, hqxs⟩ := List.forall_mem_cons.mp hq
    have := ih hpxs hqxs
    simp only [List.countP_cons]
    cases hr : r x <;> cases hp : p x <;> cases hq : q x <;> simp_all <;> omega

end Counting

def listedNames (u : UnsatisfiedThreshold) : List Did :=
  match Json.newSet u.eligibleSigners with
  | .ok eligible => Json.strings eligible
  | .error _ => []

/-- The votes, and a rejection by every other listed Signer but the Proposer. -/
def rejectOthers (proposerDid : Did) (unsatisfied : List UnsatisfiedThreshold)
    (votes : List SignerDecision) : List SignerDecision :=
  votes ++ ((unsatisfied.flatMap listedNames).filter fun did =>
    decide (did ≠ proposerDid) && votes.all fun vote => decide (vote.signerDid ≠ did)).map
      fun did => ⟨did, .reject⟩

section Killing

variable {policy : PolicyConfig} {actionPackage : ActionPackage} {proposerDid : Did}
  {unsatisfied : List UnsatisfiedThreshold} {votes : List SignerDecision}

theorem mem_rejectOthers {x : SignerDecision} :
    x ∈ rejectOthers proposerDid unsatisfied votes ↔ x ∈ votes ∨
      x.decision = .reject ∧ (∃ u ∈ unsatisfied, x.signerDid ∈ listedNames u) ∧
        x.signerDid ≠ proposerDid ∧ ∀ vote ∈ votes, vote.signerDid ≠ x.signerDid := by
  simp only [rejectOthers, List.mem_append, List.mem_map, List.mem_filter, List.mem_flatMap,
    Bool.and_eq_true, decide_eq_true_eq, List.all_eq_true]
  refine or_congr_right ⟨?_, ?_⟩
  · rintro ⟨did, ⟨hlisted, hother, hnew⟩, rfl⟩
    exact ⟨rfl, hlisted, hother, hnew⟩
  · rintro ⟨hdecision, hlisted, hother, hnew⟩
    exact ⟨x.signerDid, ⟨hlisted, hother, hnew⟩, by rw [← hdecision]⟩

theorem conflictFree_rejectOthers (proposerDid : Did) (unsatisfied : List UnsatisfiedThreshold)
    (hfree : ConflictFree votes) : ConflictFree (rejectOthers proposerDid unsatisfied votes) := by
  intro x hx y hy hxy
  rcases mem_rejectOthers.mp hx with hx | ⟨hx, -, -, hxnew⟩ <;>
    rcases mem_rejectOthers.mp hy with hy | ⟨hy, -, -, hynew⟩
  · exact hfree x hx y hy hxy
  · exact absurd hxy (hynew x hx)
  · exact absurd hxy.symm (hxnew y hy)
  · rw [hx, hy]

theorem fromOthers_rejectOthers (unsatisfied : List UnsatisfiedThreshold)
    (hothers : FromOthers proposerDid votes) :
    FromOthers proposerDid (rejectOthers proposerDid unsatisfied votes) := by
  intro x hx
  rcases mem_rejectOthers.mp hx with hx | ⟨-, -, hother, -⟩
  · exact hothers x hx
  · exact hother

/-- Once everybody else has rejected, nothing is left but the votes and the
entries that nobody decides. -/
theorem countP_rejectOthers {u : UnsatisfiedThreshold} (hu : u ∈ unsatisfied)
    (ha : u.Asks k d eligible)
    (hm : Records m (rejectOthers proposerDid unsatisfied votes)) :
    eligible.countP (isMatching m (.str d.text)) + eligible.countP (isUndecided m) ≤
      eligible.countP (supportsOrFixed proposerDid (.str d.text) votes) := by
  apply add_le_countP
  · intro entry _ hmatch
    obtain ⟨did, rfl, hmem⟩ := (isMatching_iff hm entry).mp hmatch
    constructor
    · rw [supportsOrFixed_iff]
      rintro _ ⟨⟩
      rcases mem_rejectOthers.mp hmem with hvote | ⟨hreject, -⟩
      · exact Or.inr hvote
      · exact absurd hreject ha.ne_reject
    · rw [← Bool.not_eq_true, isUndecided_iff hm]
      intro hnone
      exact hnone did d rfl hmem
  · intro entry hentry hundecided
    rw [isUndecided_iff hm] at hundecided
    rw [supportsOrFixed_iff]
    rintro did rfl
    left
    by_contra hother
    -- a listed Signer other than the Proposer has voted or has been made to reject
    apply hundecided did .reject rfl
    rw [mem_rejectOthers]
    right
    refine ⟨rfl, ⟨u, hu, ?_⟩, hother, ?_⟩
    · rw [listedNames, ha.eligibleSigners]
      exact Json.mem_strings.mpr hentry
    · rintro ⟨_, d'⟩ hvote rfl
      exact hundecided _ d' rfl (mem_rejectOthers.mpr (Or.inl hvote))

/-- Decisions leave open at least what every extension of them has. -/
theorem countP_extension {extension : List SignerDecision} (eligible : List Json) (d : Decision)
    (hm : Records m decisions) (hothers : FromOthers proposerDid decisions)
    (hsub : decisions ⊆ extension) (hfree : ConflictFree extension) :
    eligible.countP (supportsOrFixed proposerDid (.str d.text) (votesOf proposerDid extension)) ≤
      eligible.countP (isMatching m (.str d.text)) + eligible.countP (isUndecided m) := by
  apply countP_le_add
  intro entry _ hsupports
  rw [supportsOrFixed_iff] at hsupports
  rw [isMatching_iff hm, isUndecided_iff hm]
  by_contra hneither
  obtain ⟨hunmatched, hdecided⟩ := not_or.mp hneither
  push Not at hdecided
  obtain ⟨did, d', rfl, hmem⟩ := hdecided
  rcases hsupports did rfl with rfl | hvote
  · exact hothers _ hmem rfl
  · have hvote' : (⟨did, d⟩ : SignerDecision) ∈ extension := (List.mem_filter.mp hvote).1
    have hsame : d' = d := hfree _ (hsub hmem) _ hvote' rfl
    exact hunmatched ⟨did, rfl, hsame ▸ hmem⟩

theorem kills_iff (hne : unsatisfied ≠ [])
    (hasks : ∀ u ∈ unsatisfied, ∃ k d eligible, u.Asks k d eligible) :
    KillsOnlyHopeless policy actionPackage { anyOf := some (unsatisfied.map thresholdOf) } ↔
      ∀ votes, ConflictFree votes → FromOthers actionPackage.actionEnvelope.proposer votes →
        Meets policy actionPackage votes →
        ∃ u ∈ unsatisfied, WithinReach actionPackage.actionEnvelope.proposer votes u := by
  constructor
  · intro hkills votes hfree hothers hmeets
    by_contra hnone
    push Not at hnone
    have hfree' := conflictFree_rejectOthers actionPackage.actionEnvelope.proposer unsatisfied hfree
    have hothers' := fromOthers_rejectOthers unsatisfied hothers
    obtain ⟨m, hm, hrecords⟩ := immutableDecisionMap_of_conflictFree hfree'
    have hunreachable := (listed_unreachable_iff hm hne hasks).mpr fun u hu k d eligible ha => by
      have hfar := hnone u hu
      rw [withinReach_iff ha, not_le] at hfar
      exact (countP_rejectOthers hu ha hrecords).trans_lt hfar
    obtain ⟨verified, hverified⟩ := exists_verified (⟨actionPackage.actionEnvelope.proposer,
      .propose⟩ :: rejectOthers actionPackage.actionEnvelope.proposer unsatisfied votes)
    refine hkills _ _ verified hfree' hothers' hunreachable (fun _ h => h) hfree' hverified ?_
    rw [evaluatePolicy_propose_iff hothers' hfree' hverified]
    exact hmeets.mono fun x hx => mem_rejectOthers.mpr (Or.inl hx)
  · intro hreach decisions extension verified hfree hothers hunreachable hsub hfree' hverified
      hsatisfied
    obtain ⟨m, hm, hrecords⟩ := immutableDecisionMap_of_conflictFree hfree
    have hfar := (listed_unreachable_iff hm hne hasks).mp hunreachable
    obtain ⟨-, hmeets⟩ := (evaluatePolicy_satisfied_iff verified policy actionPackage).mp hsatisfied
    rw [hverified] at hmeets
    have hvotes : votesOf actionPackage.actionEnvelope.proposer
        (⟨actionPackage.actionEnvelope.proposer, .propose⟩ :: extension) =
          votesOf actionPackage.actionEnvelope.proposer extension := by
      simp [votesOf]
    rw [hvotes] at hmeets
    have hfreeVotes : ConflictFree (votesOf actionPackage.actionEnvelope.proposer extension) :=
      fun x hx y hy => hfree' x (List.mem_filter.mp hx).1 y (List.mem_filter.mp hy).1
    have hothersVotes : FromOthers actionPackage.actionEnvelope.proposer
        (votesOf actionPackage.actionEnvelope.proposer extension) :=
      fun x hx => by simpa using (List.mem_filter.mp hx).2
    obtain ⟨u, hu, hnear⟩ := hreach _ hfreeVotes hothersVotes hmeets
    obtain ⟨k, d, eligible, ha⟩ := hasks u hu
    rw [withinReach_iff ha] at hnear
    have hopen := countP_extension eligible d hrecords hothers hsub hfree'
    have := hfar u hu k d eligible ha
    omega

end Killing

/-! ### Past the missing thresholds -/

/-- How many of the values that the evaluation reads no Signer but the Proposer can decide. -/
def undecidable (policy : PolicyConfig) (proposerDid : Did)
    (threshold : PolicyEngine.ThresholdRequirement) : Nat :=
  match eligibleSigners policy threshold with
  | .ok eligible => eligible.countP fun entry => entry.asString.all fun did => did = proposerDid
  | .error _ => 0

/-- Any `needed` askable Signers of `other` who decide as asked bring `threshold` within reach. -/
def Approaches (policy : PolicyConfig) (proposerDid : Did) (needed : Nat)
    (other threshold : PolicyEngine.ThresholdRequirement) : Prop :=
  ∃ k : Nat, threshold.threshold = some (.num (.ofNat k)) ∧
    k ≤ undecidable policy proposerDid threshold +
      if other.asked = threshold.asked then
        Quorum.overlap needed (askable policy proposerDid other) (readDids policy threshold).toFinset
      else 0

/-- A threshold that Signers other than the Proposer can meet while none of the
missing ones gets within reach. -/
def Bypasses (policy : PolicyConfig) (proposerDid : Did)
    (missing : PolicyEngine.ThresholdRequirement → Prop)
    (other : PolicyEngine.ThresholdRequirement) : Prop :=
  ∃ needed : Nat, other.threshold = some (.num (.ofNat needed)) ∧
    needed ≤ (askable policy proposerDid other).card ∧
    ∀ threshold, missing threshold → ¬Approaches policy proposerDid needed other threshold

/-- The requirement in force cannot be met through thresholds that bypass the missing ones. -/
def NoBypass (policy : PolicyConfig) (verifiedApprovals : VerifiedApprovals)
    (actionPackage : ActionPackage) : Prop :=
  ∀ requirement, effectiveRequirement actionPackage policy = .ok (.requires requirement) →
    ¬Reads (Bypasses policy actionPackage.actionEnvelope.proposer fun threshold =>
      Missing (Met policy (votesOf actionPackage.actionEnvelope.proposer
        verifiedApprovals.decisions)) threshold requirement) requirement

section Bypass

variable {policy : PolicyConfig} {verifiedApprovals : VerifiedApprovals}
  {actionPackage : ActionPackage} {unsatisfied : List UnsatisfiedThreshold} {proposerDid : Did}
  {votes : List SignerDecision} {threshold : PolicyEngine.ThresholdRequirement}
  {u : UnsatisfiedThreshold} {requirement : Requirement}

/-- Within reach: the values that nobody else decides and the votes are enough. -/
theorem withinReach_reported (hreported : ReportedAs policy threshold u k d eligible)
    (hothers : FromOthers proposerDid votes) :
    WithinReach proposerDid votes u ↔ k ≤ undecidable policy proposerDid threshold +
      ((readDids policy threshold).toFinset ∩ givers (.str d.text) votes).card := by
  let voted (entry : Json) : Bool := entry.asString.any fun did => votes.any fun vote =>
    decide (vote.signerDid = did) && decide (.str vote.decision.text = Json.str d.text)
  let fixed (entry : Json) : Bool := entry.asString.all fun did => did = proposerDid
  have hvoted : eligible.countP voted =
      ((readDids policy threshold).toFinset ∩ givers (.str d.text) votes).card := by
    have hset : (Json.strings eligible).toFinset = (readDids policy threshold).toFinset := by
      ext did
      simpa using hreported.read did
    rw [← hset, ← supporters_length (newSet_strings_nodup hreported.asks.eligibleSigners),
      supporters, ← List.countP_eq_length_filter, Json.strings, List.countP_filterMap]
    refine List.countP_congr fun entry _ => ?_
    cases hentry : entry.asString <;> simp [voted, hentry]
  have hfixed : undecidable policy proposerDid threshold = eligible.countP fixed := by
    rw [undecidable, hreported.signers]
  have hle : eligible.countP (supportsOrFixed proposerDid (.str d.text) votes) ≤
      eligible.countP fixed + eligible.countP voted := by
    refine countP_le_add fun entry _ hsupports => ?_
    unfold supportsOrFixed at hsupports
    cases hentry : entry.asString <;> simp_all [fixed, voted]
  have hge : eligible.countP fixed + eligible.countP voted ≤
      eligible.countP (supportsOrFixed proposerDid (.str d.text) votes) := by
    refine add_le_countP (fun entry _ hfix => ?_) (fun entry _ hvote => ?_)
    · unfold supportsOrFixed
      cases hentry : entry.asString with
      | none => simp [voted, hentry]
      | some did =>
        have hproposer : did = proposerDid := by simpa [fixed, hentry] using hfix
        refine ⟨by simp [hproposer], ?_⟩
        simp only [voted, hentry, Option.any_some, List.any_eq_false, Bool.and_eq_true,
          decide_eq_true_eq, not_and]
        exact fun vote hvote hsame => absurd (hsame.trans hproposer) (hothers vote hvote)
    · unfold supportsOrFixed
      cases hentry : entry.asString <;> simp_all [fixed, voted]
  rw [withinReach_iff hreported.asks, hfixed, ← hvoted]
  omega

theorem NoBypass.withinReach (hno : NoBypass policy verifiedApprovals actionPackage)
    (hvalid : validatePolicyConfig policy = none)
    (heff : effectiveRequirement actionPackage policy = .ok (.requires requirement))
    (heval : evaluateRequirement verifiedApprovals policy actionPackage.actionEnvelope.proposer
      requirement = .ok unsatisfied)
    (hothers : FromOthers actionPackage.actionEnvelope.proposer votes)
    (hmeets : Meets policy actionPackage votes) :
    ∃ u ∈ unsatisfied, WithinReach actionPackage.actionEnvelope.proposer votes u := by
  by_contra hfar
  obtain ⟨requirement', heff', hreads, -⟩ := (meets_iff hvalid).mp hmeets
  rw [heff] at heff'
  cases heff'
  refine hno requirement heff (hreads.mono fun other _ hmet => ?_)
  obtain ⟨needed, hneeded, hread⟩ := met_iff.mp hmet
  have hreached := reached_askable hothers hread
  refine ⟨needed, hneeded, hreached.le_card, fun threshold hmissing => ?_⟩
  rintro ⟨k, hk, hle⟩
  obtain ⟨u, hu, k', d, eligible, hreported⟩ := missing_reported hvalid heff heval hmissing
  obtain rfl : k = k' := threshold_unique hk hreported.count
  refine hfar ⟨u, hu, (withinReach_reported hreported hothers).mpr ?_⟩
  split at hle
  · rename_i hasked
    have hshared := hreached.overlap_le (readDids policy threshold).toFinset
    rw [hasked, hreported.decision] at hshared
    omega
  · omega

theorem NoBypass.of_withinReach (hvalid : validatePolicyConfig policy = none)
    (heff : effectiveRequirement actionPackage policy = .ok (.requires requirement))
    (heval : evaluateRequirement verifiedApprovals policy actionPackage.actionEnvelope.proposer
      requirement = .ok unsatisfied)
    (hne : unsatisfied ≠ []) (hdisj : requirement.Disjunctive)
    (hreach : ∀ votes, ConflictFree votes → FromOthers actionPackage.actionEnvelope.proposer votes →
      Meets policy actionPackage votes →
      ∃ u ∈ unsatisfied, WithinReach actionPackage.actionEnvelope.proposer votes u) :
    NoBypass policy verifiedApprovals actionPackage := by
  intro requirement' heff' hreads
  rw [heff] at heff'
  cases heff'
  obtain ⟨u₀, hu₀⟩ := List.exists_mem_of_ne_nil unsatisfied hne
  obtain ⟨threshold, hmissing, -⟩ := reported_missing hvalid heff heval hu₀
  rcases hdisj.exists_of_reads hreads with ⟨other, hwithin, needed, hneeded, hcard, hnone⟩ | hany
  · obtain ⟨signerGroups, hgroups, hgiven, hvalidated⟩ := effective_validated hvalid
    obtain ⟨path, hpath⟩ := hvalidated heff other hwithin
    obtain ⟨d, -, hdecision⟩ := (threshold_checked hgroups hgiven hpath).decision
    -- the Signers who meet the other threshold, with as few of the missing one as can be
    obtain ⟨signers, hnodup, hlength, hsigners, hoverlap⟩ := exists_uncovered hcard threshold
    have hmet : Met policy (signers.map fun did => ⟨did, d⟩) other := by
      refine met_of_covers hdecision hnodup hsigners ?_
      rw [hlength]
      exact .self hneeded
    have hothers : FromOthers actionPackage.actionEnvelope.proposer
        (signers.map fun did => (⟨did, d⟩ : SignerDecision)) := by
      intro x hx
      obtain ⟨did, hdid, rfl⟩ := List.mem_map.mp hx
      exact (Finset.mem_erase.mp (hsigners did hdid)).1
    have hmeets : Meets policy actionPackage (signers.map fun did => ⟨did, d⟩) := by
      refine (meets_iff hvalid).mpr ⟨requirement, heff, hdisj.reads hwithin hmet, fun hstuck => ?_⟩
      obtain ⟨inner, hinner, hlist⟩ := hstuck.noList
      exact not_halts_of_evaluated hvalid heff heval (hdisj.halts hinner hlist hmissing.not_reads)
    obtain ⟨u, hu, hnear⟩ := hreach _ (conflictFree_map d signers) hothers hmeets
    obtain ⟨threshold', hmissing', k, d', eligible, hreported⟩ :=
      reported_missing hvalid heff heval hu
    obtain rfl := hmissing.unique hdisj hmissing'
    refine hnone threshold' hmissing' ⟨k, hreported.count, ?_⟩
    have hle := (withinReach_reported hreported hothers).mp hnear
    rw [givers_map] at hle
    have hasked : other.asked = .str d.text := hdecision
    rw [hasked, hreported.decision]
    split at hle
    · rename_i hsame
      rw [if_pos hsame, ← hoverlap, Finset.inter_comm]
      exact hle
    · rename_i hother
      rw [Finset.inter_empty, Finset.card_empty] at hle
      rwa [if_neg hother]
  · exact hmissing.not_reads (hany _)

end Bypass

/-- **Giving up.** Coordination gives up only Actions that no further decision could authorize
if the requirement in force cannot be met past the thresholds that are missing; without an
`allOf` in that requirement, only then. -/
theorem coordination_kills (computeJsonHash : Json → HashObject) (now : Int)
    (verifierDid : Did) (policy : PolicyConfig) (actionPackage : ActionPackage)
    (verifiedApprovals : VerifiedApprovals) (unsatisfied : List UnsatisfiedThreshold)
    (hvalid : validatePolicyConfig policy = none)
    (hopen : evaluatePolicy actionPackage verifiedApprovals policy =
      .ok (.additionalApprovalsRequired unsatisfied)) :
    (NoBypass policy verifiedApprovals actionPackage →
      KillsOnlyHopeless policy actionPackage
        (buildAuthorizationRequirements computeJsonHash now actionPackage.actionEnvelope unsatisfied
          verifierDid).approvalRequirements) ∧
    ((∀ requirement, effectiveRequirement actionPackage policy = .ok (.requires requirement) →
        requirement.Disjunctive) →
      KillsOnlyHopeless policy actionPackage
        (buildAuthorizationRequirements computeJsonHash now actionPackage.actionEnvelope unsatisfied
          verifierDid).approvalRequirements →
      NoBypass policy verifiedApprovals actionPackage) := by
  obtain ⟨hne, hasks⟩ := reported_asks hvalid hopen
  obtain ⟨-, requirement, heff, heval⟩ := evaluatePolicy_additional hopen
  constructor
  · intro hno
    exact (kills_iff hne hasks).mpr fun votes _ hothers hmeets =>
      hno.withinReach hvalid heff heval hothers hmeets
  · intro hdisj hkills
    exact .of_withinReach hvalid heff heval hne (hdisj requirement heff)
      ((kills_iff hne hasks).mp hkills)

section

open Deployment

/-- One of two Signers, or both of them. -/
def oneOrBoth : Requirement :=
  .anyOf [.threshold (quorumOf 1 ["did:web:alice", "did:web:bob"]),
    .allOf [.threshold alice, .threshold bob] []] []

theorem oneOrBoth_noBypass : NoBypass (policyWith oneOrBoth) (approvals [proposal]) proposed := by
  intro requirement heff hreads
  have hdefault : effectiveRequirement proposed (policyWith oneOrBoth) =
      .ok (.requires oneOrBoth) := rfl
  rw [hdefault] at heff
  cases heff
  have hone : ¬Met (policyWith oneOrBoth) [] (quorumOf 1 ["did:web:alice", "did:web:bob"]) :=
    not_met_of_no_votes rfl Nat.one_pos
  have halice : ¬Met (policyWith oneOrBoth) [] alice :=
    not_met_of_no_votes (by decide +kernel) Nat.one_pos
  have hfirst : Missing (Met (policyWith oneOrBoth) []) (quorumOf 1 ["did:web:alice", "did:web:bob"])
      oneOrBoth := by
    refine .anyOf (fun branch hmem hreads => ?_) (.threshold hone)
    rcases List.mem_pair.mp hmem with rfl | rfl
    · exact hone (reads_threshold_iff.mp hreads)
    · exact halice (reads_threshold_iff.mp (reads_allOf_iff.mp hreads _ List.mem_cons_self))
  obtain ⟨part, hmem, hpart⟩ := reads_anyOf_iff.mp hreads
  rcases List.mem_pair.mp hmem with rfl | rfl
  · obtain ⟨needed, hneeded, -, hnone⟩ := reads_threshold_iff.mp hpart
    obtain rfl : 1 = needed := threshold_unique rfl hneeded
    exact hnone _ hfirst ⟨1, rfl, by decide +kernel⟩
  · have halice := reads_allOf_iff.mp hpart (.threshold alice) List.mem_cons_self
    obtain ⟨needed, hneeded, -, hnone⟩ := reads_threshold_iff.mp halice
    obtain rfl : 1 = needed := threshold_unique (by decide +kernel) hneeded
    exact hnone _ hfirst ⟨1, rfl, by decide +kernel⟩

/-- Whoever meets the second branch meets the first, which is the one that is reported. -/
theorem kills_only_hopeless_alice :
    KillsOnlyHopeless (policyWith oneOrBoth) proposed
      (buildAuthorizationRequirements computeJsonHash 1735689650000 proposed.actionEnvelope
        [missing (quorumOf 1 ["did:web:alice", "did:web:bob"])] verifierDid).approvalRequirements :=
  (coordination_kills computeJsonHash 1735689650000 verifierDid (policyWith oneOrBoth) proposed
    (approvals [proposal]) [missing (quorumOf 1 ["did:web:alice", "did:web:bob"])]
    (by decide +kernel) (by decide +kernel)).1 oneOrBoth_noBypass

/-- The policy asks for an approval by one of two Signers, and Coordination
gives up when the first of them rejects. -/
theorem killed_before_bob :
    validatePolicyConfig (policyWith (.anyOf [.threshold alice, .threshold bob] [])) = none ∧
      (approvals [proposal]).decisions = [proposal] ∧
      evaluatePolicy proposed (approvals [proposal])
        (policyWith (.anyOf [.threshold alice, .threshold bob] [])) =
          .ok (.additionalApprovalsRequired [missing alice]) ∧
      ¬ KillsOnlyHopeless (policyWith (.anyOf [.threshold alice, .threshold bob] [])) proposed
        (buildAuthorizationRequirements computeJsonHash 1735689650000 proposed.actionEnvelope
          [missing alice] verifierDid).approvalRequirements := by
  refine ⟨by decide +kernel, by decide +kernel, by decide +kernel, fun hkills => ?_⟩
  have hunsatisfied := hkills [⟨"did:web:alice", .reject⟩]
    [⟨"did:web:alice", .reject⟩, ⟨"did:web:bob", .approve⟩]
    (approvals [proposal, ⟨"did:web:alice", .reject⟩, ⟨"did:web:bob", .approve⟩])
    (by simp [ConflictFree]) (by simp [FromOthers]; decide) (by decide +kernel) (by simp)
    (by simp [ConflictFree]) (by rfl)
  exact hunsatisfied (by decide +kernel)

end

end Mpas.CoordinationReadiness
