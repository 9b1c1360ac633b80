import Mpas.PolicyEngine

/-!
# Authorization Requirements and replacement Actions

`buildAuthorizationRequirements` is how a Verifier asks for more approvals;
`buildCoordinationReplacement` is how the Proposer then replaces the Action by
one with the same payload and target whose approvals Coordination collects.
Hashing and signing are parameters, clock readings and fresh identifiers are
arguments.

* `replacement_requirements`: a replacement asks for what the Verifier asked for;
* `replacement_payload`, `replacement_proposer`: it keeps payload and Proposer.
-/

namespace Mpas.Builders

open PolicyEngine (UnsatisfiedThreshold)

/-! ## `new Date(ms).toISOString()` -/

def padded (width n : Nat) : String :=
  let digits := toString n
  String.ofList (List.replicate (width - digits.length) '0') ++ digits

/-- Year, month and day of a day counted from 1970-01-01. -/
def civilDate (day : Int) : Int × Nat × Nat :=
  let shifted := day + 719468
  let era := shifted / 146097
  let dayOfEra := (shifted % 146097).toNat
  let yearOfEra := (dayOfEra - dayOfEra / 1460 + dayOfEra / 36524 - dayOfEra / 146096) / 365
  let dayOfYear := dayOfEra - (365 * yearOfEra + yearOfEra / 4 - yearOfEra / 100)
  let marchMonth := (5 * dayOfYear + 2) / 153
  let month := if marchMonth < 10 then marchMonth + 3 else marchMonth - 9
  let year := (yearOfEra : Int) + era * 400
  (if month ≤ 2 then year + 1 else year, month, dayOfYear - (153 * marchMonth + 2) / 5 + 1)

def toISOString (ms : Int) : Timestamp :=
  let (year, month, day) := civilDate (ms / 86400000)
  let time := (ms % 86400000).toNat
  let yearText := if 0 ≤ year ∧ year ≤ 9999 then padded 4 year.toNat
    else (if year < 0 then "-" else "+") ++ padded 6 year.natAbs
  yearText ++ "-" ++ padded 2 month ++ "-" ++ padded 2 day ++ "T" ++
    padded 2 (time / 3600000) ++ ":" ++ padded 2 (time / 60000 % 60) ++ ":" ++
    padded 2 (time / 1000 % 60) ++ "." ++ padded 3 (time % 1000) ++ "Z"

example : toISOString 1709210096789 = "2024-02-29T12:34:56.789Z" := by decide

section

variable (computeJsonHash : Json → HashObject)

/-! ## Authorization Requirements -/

def thresholdOf (unsatisfied : UnsatisfiedThreshold) : ThresholdRequirement where
  threshold := unsatisfied.threshold.getD .null
  eligibleSigners := unsatisfied.eligibleSigners
  decision := some unsatisfied.requiredDecision
  description := some <| match unsatisfied.requirement.description with
    | none | some .null => .requires (unsatisfied.threshold.getD .null) unsatisfied.requiredRole
    | some own => .own own

def buildAuthorizationRequirements (now : Int) (actionEnvelope : ActionEnvelope)
    (unsatisfiedRules : List UnsatisfiedThreshold) (verifierDid : Did) :
    AuthorizationRequirements where
  actionEnvelopeHash := computeJsonHash actionEnvelope.toJson
  verifier := verifierDid
  approvalRequirements := { anyOf := some (unsatisfiedRules.map thresholdOf) }
  createdAt := some (toISOString now)
  expiresAt := some actionEnvelope.expiresAt

/-! ## The Action Package builder -/

structure ActionPackageBuilder where
  signerDid : Did
  defaultExpirationMinutes : ℚ
  /-- payload hashing that an execution profile defines -/
  hashPayload : Option (Json → HashObject)
  /-- the signature over a canonical JSON value -/
  sign : Json → String

/-- What one build reads from its surroundings. -/
structure BuildReadings where
  envelopeNow : Int
  approvalNow : Int
  packageNow : Int
  randomUUID : String
  deriving DecidableEq, Repr

namespace ActionPackageBuilder

variable (builder : ActionPackageBuilder) (readings : BuildReadings)

def createReplacementEnvelope (prior : ActionEnvelope) (payload : Json) : ActionEnvelope :=
  { prior with
    executionPayloadHash := (builder.hashPayload.getD computeJsonHash) payload
    actionId := { value := "urn:uuid:" ++ readings.randomUUID }
    createdAt := toISOString readings.envelopeNow
    expiresAt := toISOString
      (readings.envelopeNow + builder.defaultExpirationMinutes * 60 * 1000 : ℚ).floor }

def createProposerApproval (envelope : ActionEnvelope) : Approval :=
  let createdAt := toISOString readings.approvalNow
  let actionEnvelopeHash := computeJsonHash envelope.toJson
  let approvalPayload : Json := .obj [("type", .str "ApprovalPayload"),
    ("actionEnvelopeHash", actionEnvelopeHash.toJson), ("decision", .str "propose"),
    ("signerDid", .str builder.signerDid), ("createdAt", .str createdAt)]
  { actionEnvelopeHash, decision := .propose, signature := builder.sign approvalPayload, createdAt }

def createPackage (payload : Json) (envelope : ActionEnvelope) (approval : Approval) :
    ActionPackage :=
  let createdAt := toISOString readings.packageNow
  { executionPayload := payload
    actionEnvelope := envelope
    approvalBundle := {
      actionEnvelopeHash := computeJsonHash envelope.toJson
      approvals := [approval]
      assembledBy := some builder.signerDid
      createdAt := some createdAt }
    createdAt := some createdAt }

def buildCoordinationReplacement (priorPackage : ActionPackage)
    (verifierRequirements : AuthorizationRequirements) :
    Except String (ActionPackage × AuthorizationRequirements) :=
  if priorPackage.actionEnvelope.proposer ≠ builder.signerDid then
    .error "Cannot replace an Action authored by a different Proposer."
  else if verifierRequirements.actionEnvelopeHash ≠
      computeJsonHash priorPackage.actionEnvelope.toJson then
    .error "Verifier Authorization Requirements do not bind to the Action being replaced."
  else
    let payload := priorPackage.executionPayload
    let envelope := builder.createReplacementEnvelope computeJsonHash readings
      priorPackage.actionEnvelope payload
    let approval := builder.createProposerApproval computeJsonHash readings envelope
    let authorizationRequirements : AuthorizationRequirements :=
      { verifierRequirements with
        actionEnvelopeHash := computeJsonHash envelope.toJson
        createdAt := some envelope.createdAt
        expiresAt := some envelope.expiresAt }
    .ok (builder.createPackage computeJsonHash readings payload envelope approval,
      authorizationRequirements)

section Replacement

variable {computeJsonHash} {builder} {readings} {priorPackage actionPackage : ActionPackage}
  {verifierRequirements requirements : AuthorizationRequirements}

/-- What a replacement is made of. -/
theorem replacement_cases
    (h : builder.buildCoordinationReplacement computeJsonHash readings priorPackage
      verifierRequirements = .ok (actionPackage, requirements)) :
    priorPackage.actionEnvelope.proposer = builder.signerDid ∧
      verifierRequirements.actionEnvelopeHash =
        computeJsonHash priorPackage.actionEnvelope.toJson ∧
      actionPackage.executionPayload = priorPackage.executionPayload ∧
      actionPackage.actionEnvelope = builder.createReplacementEnvelope computeJsonHash readings
        priorPackage.actionEnvelope priorPackage.executionPayload ∧
      requirements.approvalRequirements = verifierRequirements.approvalRequirements ∧
      requirements.actionEnvelopeHash = computeJsonHash actionPackage.actionEnvelope.toJson := by
  unfold buildCoordinationReplacement at h
  split at h
  · cases h
  · rename_i hproposer
    split at h
    · cases h
    · rename_i hhash
      cases h
      exact ⟨not_not.mp hproposer, not_not.mp hhash, rfl, rfl, rfl, rfl⟩

theorem replacement_requirements
    (h : builder.buildCoordinationReplacement computeJsonHash readings priorPackage
      verifierRequirements = .ok (actionPackage, requirements)) :
    requirements.approvalRequirements = verifierRequirements.approvalRequirements :=
  (replacement_cases h).2.2.2.2.1

theorem replacement_payload
    (h : builder.buildCoordinationReplacement computeJsonHash readings priorPackage
      verifierRequirements = .ok (actionPackage, requirements)) :
    actionPackage.executionPayload = priorPackage.executionPayload :=
  (replacement_cases h).2.2.1

theorem replacement_proposer
    (h : builder.buildCoordinationReplacement computeJsonHash readings priorPackage
      verifierRequirements = .ok (actionPackage, requirements)) :
    actionPackage.actionEnvelope.proposer = priorPackage.actionEnvelope.proposer := by
  rw [(replacement_cases h).2.2.2.1]
  rfl

end Replacement

end ActionPackageBuilder

end

end Mpas.Builders
