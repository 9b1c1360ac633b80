import Mpas.Library.OrderedMap
import Mpas.Library.Verdict
import Mpas.Artifacts

/-!
# Evaluation of an approval expression in Coordination

Coordination follows the decisions of the Signers against the approval
expression of the Authorization Requirements: `evaluateApprovalRequirements`
says whether they satisfy it, still may, or no longer can.

* `immutableDecisionMap_of_conflictFree`: conflict-free decisions are recorded as they are;
* `anyOf_satisfied_iff`, `anyOf_unreachable_iff`: the outcome for a plain `anyOf`.
-/

namespace Mpas.ApprovalRequirements

/-- One Signer's final decision for one Action Envelope. -/
structure SignerDecision where
  signerDid : Did
  decision : Decision
  deriving DecidableEq, Repr

inductive Status
  | satisfied
  | pending
  | unreachable
  deriving DecidableEq, Repr

inductive EvaluationError
  | conflicting (message : String)
  | exception (error : JsError)
  deriving DecidableEq, Repr

def immutableDecisionMap (result : OrderedMap Did Decision) :
    List SignerDecision → Except EvaluationError (OrderedMap Did Decision)
  | [] => .ok result
  | entry :: rest =>
    match result.get? entry.signerDid with
    | some existing =>
      if existing ≠ entry.decision then
        .error (.conflicting ("Signer " ++ entry.signerDid ++
          " has conflicting decisions for one Action Envelope."))
      else immutableDecisionMap (result.set entry.signerDid entry.decision) rest
    | none => immutableDecisionMap (result.set entry.signerDid entry.decision) rest

/-- The decision of an entry of a list of Signers, which need not be a DID. -/
def decisionOf (decisions : OrderedMap Did Decision) (entry : Json) : Option Decision :=
  entry.asString.bind decisions.get?

def isMatching (decisions : OrderedMap Did Decision) (expected : Json) (entry : Json) : Bool :=
  match decisionOf decisions entry with
  | some decision => decide (.str decision.text = expected)
  | none => false

def isUndecided (decisions : OrderedMap Did Decision) (entry : Json) : Bool :=
  (decisionOf decisions entry).isNone

def thresholdStatus (decisions : OrderedMap Did Decision) (requirement : ThresholdRequirement) :
    Except EvaluationError Status :=
  let expected := Json.nullish requirement.decision (.str "approve")
  let status : Except JsError Status := do
    let eligible ← Json.newSet requirement.eligibleSigners
    let matching := eligible.countP (isMatching decisions expected)
    let undecided := eligible.countP (isUndecided decisions)
    if ← Json.countReaches matching (some requirement.threshold) then return .satisfied
    if ← Json.countReaches (matching + undecided) (some requirement.threshold) then return .pending
    return .unreachable
  status.mapError .exception

def evaluateApprovalRequirements (requirements : ApprovalRequirements)
    (decisions : List SignerDecision) : Except EvaluationError Status := do
  let decisionsBySigner ← immutableDecisionMap ∅ decisions
  let overrides := requirements.overrideSigners.getD []
  if overrides.any fun entry => entry.permissions.contains "reject" &&
      decide (decisionsBySigner.get? entry.signer = some .reject) then return .unreachable
  if overrides.any fun entry => entry.permissions.contains "approve" &&
      decide (decisionsBySigner.get? entry.signer = some .approve) then return .satisfied
  let anyOf := requirements.anyOf.getD []
  let allOf := requirements.allOf.getD []
  let is (p : Status → Bool) (entry : ThresholdRequirement) : Verdict EvaluationError :=
    (thresholdStatus decisionsBySigner entry).map p
  let anyOfSatisfied ← if anyOf.isEmpty then .ok true
    else Verdict.any (anyOf.map (is (· = .satisfied)))
  let allOfSatisfied ← Verdict.every (allOf.map (is (· = .satisfied)))
  if anyOfSatisfied && allOfSatisfied then return .satisfied
  let anyOfReachable ← if anyOf.isEmpty then .ok true
    else Verdict.any (anyOf.map (is (· ≠ .unreachable)))
  let allOfReachable ← Verdict.every (allOf.map (is (· ≠ .unreachable)))
  if anyOfReachable && allOfReachable then return .pending
  let pendingApproveOverride := overrides.any fun entry =>
    entry.permissions.contains "approve" && !decisionsBySigner.has entry.signer
  return if pendingApproveOverride then .pending else .unreachable

/-! ## The decision map -/

/-- Every Signer keeps to one decision. -/
def ConflictFree (decisions : List SignerDecision) : Prop :=
  ∀ x ∈ decisions, ∀ y ∈ decisions, x.signerDid = y.signerDid → x.decision = y.decision

/-- The map holds exactly the listed decisions. -/
def Records (m : OrderedMap Did Decision) (decisions : List SignerDecision) : Prop :=
  ∀ did d, m.get? did = some d ↔ ⟨did, d⟩ ∈ decisions

theorem immutableDecisionMap_eq_ok (decisions : List SignerDecision) :
    ∀ (before : List SignerDecision) (m : OrderedMap Did Decision), Records m before →
      ConflictFree (before ++ decisions) →
      ∃ m', immutableDecisionMap m decisions = .ok m' ∧ Records m' (before ++ decisions) := by
  induction decisions with
  | nil =>
    intro before m hm _
    exact ⟨m, rfl, by simpa using hm⟩
  | cons entry rest ih =>
    intro before m hm hfree
    have hset : Records (m.set entry.signerDid entry.decision) (before ++ [entry]) := by
      intro did d
      rw [OrderedMap.get?_set]
      by_cases hd : entry.signerDid = did
      · subst hd
        simp only [↓reduceIte, Option.some.injEq, List.mem_append, List.mem_singleton]
        constructor
        · rintro rfl
          exact Or.inr rfl
        · rintro (h | h)
          · exact hfree entry (by simp) ⟨_, d⟩ (by simp [h]) rfl
          · rw [← h]
      · have hne : (⟨did, d⟩ : SignerDecision) ≠ entry := by
          rintro rfl
          exact hd rfl
        simp [hd, hm did d, hne]
    have hnext := ih (before ++ [entry]) _ hset (by simpa using hfree)
    rw [List.append_assoc] at hnext
    unfold immutableDecisionMap
    cases hget : m.get? entry.signerDid with
    | none => exact hnext
    | some existing =>
      have hold := (hm _ _).mp hget
      have : existing = entry.decision :=
        hfree ⟨_, existing⟩ (by simp [hold]) entry (by simp) rfl
      simpa [this] using hnext

/-- **Decision map.** A conflict-free list of decisions is recorded as it is. -/
theorem immutableDecisionMap_of_conflictFree {decisions : List SignerDecision}
    (h : ConflictFree decisions) :
    ∃ m, immutableDecisionMap ∅ decisions = .ok m ∧ Records m decisions := by
  simpa using immutableDecisionMap_eq_ok decisions [] ∅ (by simp [Records]) (by simpa using h)

/-! ## Plain `anyOf` expressions -/

theorem map_eq_map_ok {α β : Type} {f : α → Except EvaluationError β} {g : α → β} (p : β → Bool)
    {xs : List α} (h : ∀ x ∈ xs, f x = .ok (g x)) :
    (xs.map fun x => (f x).map p) = xs.map fun x => (.ok (p (g x)) : Verdict EvaluationError) := by
  apply List.map_congr_left
  intro x hx
  rw [h x hx]
  rfl

/-- An `anyOf` whose entries can all be evaluated: satisfied by one of them,
unreachable when all are. -/
theorem evaluate_anyOf {entries : List ThresholdRequirement} {decisions : List SignerDecision}
    {m : OrderedMap Did Decision} {status : ThresholdRequirement → Status}
    (hm : immutableDecisionMap ∅ decisions = .ok m) (hne : entries ≠ [])
    (hstatus : ∀ entry ∈ entries, thresholdStatus m entry = .ok (status entry)) :
    evaluateApprovalRequirements { anyOf := some entries } decisions =
      .ok (if entries.any (status · = .satisfied) then .satisfied
        else if entries.any (status · ≠ .unreachable) then .pending else .unreachable) := by
  have hempty : entries.isEmpty = false := by simpa using hne
  have hsat := map_eq_map_ok (· = Status.satisfied) hstatus
  have hreach := map_eq_map_ok (· ≠ Status.unreachable) hstatus
  simp only [evaluateApprovalRequirements, hm, Except.bind, bind, Option.getD_some,
    Option.getD_none, hempty, hsat, hreach, Verdict.any_map_ok, List.any_nil, List.map_nil,
    Verdict.every, pure, Except.pure, Bool.and_true, Bool.false_eq_true, ↓reduceIte]
  split
  · rfl
  · split <;> rfl

section AnyOf

variable {entries : List ThresholdRequirement} {decisions : List SignerDecision}
  {m : OrderedMap Did Decision} {status : ThresholdRequirement → Status}

theorem anyOf_satisfied_iff (hm : immutableDecisionMap ∅ decisions = .ok m) (hne : entries ≠ [])
    (hstatus : ∀ entry ∈ entries, thresholdStatus m entry = .ok (status entry)) :
    evaluateApprovalRequirements { anyOf := some entries } decisions = .ok .satisfied ↔
      ∃ entry ∈ entries, status entry = .satisfied := by
  rw [evaluate_anyOf hm hne hstatus]
  split
  · rename_i h
    simpa using h
  · rename_i h
    split <;> simpa using h

theorem anyOf_unreachable_iff (hm : immutableDecisionMap ∅ decisions = .ok m) (hne : entries ≠ [])
    (hstatus : ∀ entry ∈ entries, thresholdStatus m entry = .ok (status entry)) :
    evaluateApprovalRequirements { anyOf := some entries } decisions = .ok .unreachable ↔
      ∀ entry ∈ entries, status entry = .unreachable := by
  rw [evaluate_anyOf hm hne hstatus]
  split
  · rename_i h
    obtain ⟨entry, hentry, hs⟩ : ∃ entry ∈ entries, status entry = .satisfied := by simpa using h
    simp only [Except.ok.injEq, reduceCtorEq, false_iff]
    intro hall
    simp [hall entry hentry] at hs
  · split
    · rename_i h
      simpa using h
    · rename_i h
      simpa using h

end AnyOf

end Mpas.ApprovalRequirements
