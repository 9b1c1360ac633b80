import Mathlib.Data.List.Dedup
import Mpas.Library.Verdict
import Mpas.PolicyEngine
import Mpas.ApprovalRequirements

/-!
# What a requirement means

The meaning of a requirement is a verdict on the votes of the Signers other
than the Proposer, with every part counting distinct Signers. The evaluation of
the policy engine computes it.

* `evaluateRequirement_verdict`: nothing is unsatisfied exactly if the verdict holds;
* `verdict_improves`: more votes never make a verdict worse;
* `evaluatePolicy_satisfied_iff`: when an Action is authorized.
-/

namespace Mpas.PolicyEngine

open ApprovalRequirements (SignerDecision ConflictFree)

/-- The decisions of the verified approvals. -/
def VerifiedApprovals.decisions (verifiedApprovals : VerifiedApprovals) : List SignerDecision :=
  verifiedApprovals.approvals.map fun approval => ⟨approval.signerDid, approval.decision⟩

/-- The votes that count: the Proposer's own never do. -/
def votesOf (proposerDid : Did) (decisions : List SignerDecision) : List SignerDecision :=
  decisions.filter fun vote => decide (vote.signerDid ≠ proposerDid)

/-! ## Meaning -/

/-- The eligible DIDs that a vote gives the decision to. -/
def supporters (eligible : List Json) (decision : Json) (votes : List SignerDecision) : List Did :=
  (Json.strings eligible).filter fun did =>
    votes.any fun vote => decide (vote.signerDid = did) && decide (.str vote.decision.text = decision)

/-- The values that the evaluation of a threshold looks Signers up in. -/
def eligibleSigners (policy : PolicyConfig) (requirement : ThresholdRequirement) :
    Except JsError (List Json) := do
  eligibleSet (← resolveEligibleSigners policy requirement)

def thresholdVerdict (policy : PolicyConfig) (votes : List SignerDecision)
    (requirement : ThresholdRequirement) : Verdict JsError :=
  if Json.strictEquals requirement.threshold (some (.num (.finite 0))) then .ok true
  else (eligibleSigners policy requirement).bind fun eligible =>
    Json.countReaches
      (supporters eligible (Json.nullish requirement.decision (.str "approve")) votes).length
      requirement.threshold

section

variable (policy : PolicyConfig) (votes : List SignerDecision)

mutual

def verdict : Requirement → Verdict JsError
  | .proposerOnly _ => .ok true
  | .threshold requirement => thresholdVerdict policy votes requirement
  | .allOf requirements _ => Verdict.all (verdicts requirements)
  | .allOfNothing _ => .ok true
  | .anyOf requirements _ => Verdict.any (verdicts requirements)
  | .anyOfNothing _ => .ok false
  | .other none => .error .typeError
  | .other (some .null) => .error .typeError
  | .other (some _) => .ok true

def verdicts : List Requirement → List (Verdict JsError)
  | [] => []
  | requirement :: rest => verdict requirement :: verdicts rest

end

theorem verdicts_eq_map (requirements : List Requirement) :
    verdicts policy votes requirements = requirements.map (verdict policy votes) := by
  induction requirements with
  | nil => rfl
  | cons requirement rest ih => rw [verdicts, ih, List.map_cons]

end

/-! ## More votes -/

theorem JsNumber.le_ofNat_mono {n : JsNumber} {a b : Nat} (hab : a ≤ b)
    (h : n.le (.ofNat a) = true) : n.le (.ofNat b) = true := by
  cases n with
  | finite q =>
    simp only [JsNumber.le, JsNumber.ofNat, decide_eq_true_eq] at h ⊢
    exact h.trans (by exact_mod_cast hab)
  | infinity negative => exact h
  | nan => simp [JsNumber.le] at h

theorem countReaches_improves {a b : Nat} (hab : a ≤ b) (threshold : Option Json) :
    Verdict.Improves (Json.countReaches a threshold) (Json.countReaches b threshold) := by
  cases threshold with
  | none => exact .refl _
  | some v =>
    show Verdict.Improves (v.coerceNumber.map fun n => n.le (.ofNat a))
      (v.coerceNumber.map fun n => n.le (.ofNat b))
    cases v.coerceNumber with
    | error e => exact Verdict.improves_error _ _
    | ok n => exact Verdict.improves_ok (JsNumber.le_ofNat_mono hab)

theorem supporters_length_mono {votes votes' : List SignerDecision} (h : votes ⊆ votes')
    (eligible : List Json) (decision : Json) :
    (supporters eligible decision votes).length ≤ (supporters eligible decision votes').length := by
  apply (List.monotone_filter_right _ _).length_le
  intro did hdid
  rw [List.any_eq_true] at hdid ⊢
  obtain ⟨vote, hvote, hv⟩ := hdid
  exact ⟨vote, h hvote, hv⟩

theorem thresholdVerdict_improves (policy : PolicyConfig) {votes votes' : List SignerDecision}
    (h : votes ⊆ votes') (requirement : ThresholdRequirement) :
    (thresholdVerdict policy votes requirement).Improves
      (thresholdVerdict policy votes' requirement) := by
  unfold thresholdVerdict
  split
  · exact .refl _
  · cases eligibleSigners policy requirement with
    | error e => exact Verdict.improves_error _ _
    | ok eligible => exact countReaches_improves (supporters_length_mono h _ _) _

mutual

/-- **Monotonicity.** More votes never make a verdict worse. -/
theorem verdict_improves (policy : PolicyConfig) {votes votes' : List SignerDecision}
    (h : votes ⊆ votes') : ∀ requirement,
      (verdict policy votes requirement).Improves (verdict policy votes' requirement)
  | .proposerOnly _ => .refl _
  | .threshold requirement => thresholdVerdict_improves policy h requirement
  | .allOf requirements _ => Verdict.all_improves (verdicts_improve policy h requirements)
  | .allOfNothing _ => .refl _
  | .anyOf requirements _ => Verdict.any_improves (verdicts_improve policy h requirements)
  | .anyOfNothing _ => .refl _
  | .other none => .refl _
  | .other (some v) => by cases v <;> exact .refl _

theorem verdicts_improve (policy : PolicyConfig) {votes votes' : List SignerDecision}
    (h : votes ⊆ votes') : ∀ requirements, List.Forall₂ Verdict.Improves
      (verdicts policy votes requirements) (verdicts policy votes' requirements)
  | [] => .nil
  | requirement :: rest => .cons (verdict_improves policy h requirement)
      (verdicts_improve policy h rest)

end

/-! ## The evaluation computes the meaning -/

theorem newSet_strings_nodup {value : Json} {values : List Json}
    (h : Json.newSet value = .ok values) : (Json.strings values).Nodup := by
  unfold Json.newSet at h
  split at h
  · cases h; exact Json.strings_distinct_nodup _
  · cases h; exact Json.strings_distinct_nodup _
  · cases h

theorem eligibleSet_positive {signers : Json} (h : signers.hasPositiveLength = .ok true) :
    eligibleSet signers = Json.newSet signers := by
  have hnull : signers ≠ .null := by
    rintro rfl
    cases h
  unfold eligibleSet
  rw [if_neg hnull, h]
  rfl

theorem eligibleSet_strings_nodup {signers : Json} {eligible : List Json}
    (h : eligibleSet signers = .ok eligible) : (Json.strings eligible).Nodup := by
  unfold eligibleSet at h
  split at h
  · cases h
  · cases hlength : signers.hasPositiveLength with
    | error e =>
      rw [hlength] at h
      cases h
    | ok positive =>
      rw [hlength] at h
      cases positive with
      | true => exact newSet_strings_nodup h
      | false =>
        cases h
        exact List.nodup_nil

theorem eligibleSigners_strings_nodup {policy : PolicyConfig} {requirement : ThresholdRequirement}
    {eligible : List Json} (h : eligibleSigners policy requirement = .ok eligible) :
    (Json.strings eligible).Nodup := by
  unfold eligibleSigners at h
  cases hresolve : resolveEligibleSigners policy requirement with
  | error e =>
    rw [hresolve] at h
    cases h
  | ok signers =>
    rw [hresolve] at h
    exact eligibleSet_strings_nodup h

theorem supporters_nodup {eligible : List Json} (h : (Json.strings eligible).Nodup)
    (decision : Json) (votes : List SignerDecision) :
    (supporters eligible decision votes).Nodup := h.filter _

theorem mem_supporters {eligible : List Json} {decision : Json} {votes : List SignerDecision}
    {did : Did} : did ∈ supporters eligible decision votes ↔
      did ∈ Json.strings eligible ∧ ∃ d : Decision, ⟨did, d⟩ ∈ votes ∧ .str d.text = decision := by
  simp only [supporters, List.mem_filter, List.any_eq_true, Bool.and_eq_true, decide_eq_true_eq]
  constructor
  · rintro ⟨hmem, ⟨_, d⟩, hvote, rfl, hd⟩
    exact ⟨hmem, d, hvote, hd⟩
  · rintro ⟨hmem, d, hvote, hd⟩
    exact ⟨hmem, ⟨did, d⟩, hvote, rfl, hd⟩

/-- Counting a `Set` of Signers counts the supporters. -/
theorem countFound_eq (verifiedApprovals : VerifiedApprovals) (proposerDid : Did) (decision : Json)
    {eligible : List Json} (hnodup : (Json.strings eligible).Nodup) :
    countFound verifiedApprovals proposerDid decision eligible =
      (supporters eligible decision (votesOf proposerDid verifiedApprovals.decisions)).length := by
  unfold countFound
  apply List.Perm.length_eq
  rw [List.perm_ext_iff_of_nodup (List.nodup_dedup _) (supporters_nodup hnodup _ _)]
  intro did
  rw [List.mem_dedup, mem_supporters]
  simp only [List.mem_map, List.mem_filter, Bool.and_eq_true, decide_eq_true_eq, Json.includes_str,
    votesOf, VerifiedApprovals.decisions]
  constructor
  · rintro ⟨approval, ⟨hmem, ⟨hother, hdecision⟩, heligible⟩, rfl⟩
    exact ⟨heligible, approval.decision, ⟨⟨approval, hmem, rfl⟩, hother⟩, hdecision⟩
  · rintro ⟨heligible, d, ⟨⟨approval, hmem, heq⟩, hother⟩, hdecision⟩
    cases heq
    exact ⟨approval, ⟨hmem, ⟨hother, hdecision⟩, heligible⟩, rfl⟩

variable (verifiedApprovals : VerifiedApprovals) (policy : PolicyConfig) (proposerDid : Did)

theorem evaluateThreshold_verdict (requirement : ThresholdRequirement) :
    (evaluateThreshold verifiedApprovals policy proposerDid requirement).map List.isEmpty =
      thresholdVerdict policy (votesOf proposerDid verifiedApprovals.decisions) requirement := by
  unfold evaluateThreshold thresholdVerdict eligibleSigners
  split
  · rfl
  · cases hresolve : resolveEligibleSigners policy requirement with
    | error e => rfl
    | ok signers =>
      simp only [bind, Except.bind]
      cases h : eligibleSet signers with
      | error e => rfl
      | ok eligible =>
        have hcount := countFound_eq verifiedApprovals proposerDid
          (Json.nullish requirement.decision (.str "approve")) (eligibleSet_strings_nodup h)
        simp only [hcount]
        cases Json.countReaches (supporters eligible
            (Json.nullish requirement.decision (.str "approve"))
            (votesOf proposerDid verifiedApprovals.decisions)).length requirement.threshold with
        | error e => rfl
        | ok reached => cases reached <;> rfl

mutual

/-- **Meaning of a requirement.** -/
theorem evaluateRequirement_verdict : ∀ requirement,
    (evaluateRequirement verifiedApprovals policy proposerDid requirement).map List.isEmpty =
      verdict policy (votesOf proposerDid verifiedApprovals.decisions) requirement
  | .proposerOnly _ => rfl
  | .threshold requirement =>
    evaluateThreshold_verdict verifiedApprovals policy proposerDid requirement
  | .allOf requirements _ => evaluateAll_verdict requirements
  | .allOfNothing _ => rfl
  | .anyOf [] _ => rfl
  | .anyOf (first :: rest) _ => by
    have hany := evaluateAny_verdict (first :: rest)
    have hfirst := evaluateRequirement_verdict first
    rw [verdict, ← hany]
    unfold evaluateRequirement
    cases h : evaluateAny verifiedApprovals policy proposerDid (first :: rest) with
    | error e => rfl
    | ok b =>
      cases b with
      | true => rfl
      | false =>
        -- the first branch was evaluated, and something in it is unsatisfied
        unfold evaluateAny at h
        cases hr : evaluateRequirement verifiedApprovals policy proposerDid first with
        | error e => simp [hr, bind, Except.bind] at h
        | ok unsatisfied =>
          cases unsatisfied with
          | nil => simp [hr, bind, Except.bind, pure, Except.pure] at h
          | cons u us => simp [bind, Except.bind, Except.map]
  | .anyOfNothing _ => rfl
  | .other none => rfl
  | .other (some .null) => rfl
  | .other (some (.bool _)) => rfl
  | .other (some (.num _)) => rfl
  | .other (some (.str _)) => rfl
  | .other (some (.arr _)) => rfl
  | .other (some (.obj _)) => rfl

theorem evaluateAll_verdict : ∀ requirements,
    (evaluateAll verifiedApprovals policy proposerDid requirements).map List.isEmpty =
      Verdict.all (verdicts policy (votesOf proposerDid verifiedApprovals.decisions) requirements)
  | [] => rfl
  | requirement :: rest => by
    rw [verdicts, Verdict.all_cons, ← evaluateRequirement_verdict requirement,
      ← evaluateAll_verdict rest, evaluateAll]
    cases evaluateRequirement verifiedApprovals policy proposerDid requirement with
    | error e => rfl
    | ok unsatisfied =>
      cases evaluateAll verifiedApprovals policy proposerDid rest with
      | error e => rfl
      | ok others =>
        cases unsatisfied <;> simp [bind, Except.bind, Except.map, pure, Except.pure]

theorem evaluateAny_verdict : ∀ requirements,
    evaluateAny verifiedApprovals policy proposerDid requirements =
      Verdict.any (verdicts policy (votesOf proposerDid verifiedApprovals.decisions) requirements)
  | [] => rfl
  | requirement :: rest => by
    rw [verdicts, ← evaluateRequirement_verdict requirement, evaluateAny]
    cases evaluateRequirement verifiedApprovals policy proposerDid requirement with
    | error e => rfl
    | ok unsatisfied =>
      cases unsatisfied with
      | nil => rfl
      | cons u us => simpa [bind, Except.bind, Except.map, Verdict.any] using evaluateAny_verdict rest

end

/-! ## Authorization -/

theorem conflictingDecisions_eq_false (approvals : List VerifiedApproval) :
    ∀ decided : List (Did × Decision), conflictingDecisions decided approvals = false ↔
      (∀ x ∈ approvals, ∀ d, decided.lookup x.signerDid = some d → d = x.decision) ∧
        ∀ x ∈ approvals, ∀ y ∈ approvals, x.signerDid = y.signerDid → x.decision = y.decision := by
  induction approvals with
  | nil => simp [conflictingDecisions]
  | cons a rest ih =>
    intro decided
    -- recording `a` asks of the rest what `decided` asks, and to agree with `a`
    have hrecord : (∀ x ∈ rest, ∀ d, ((a.signerDid, a.decision) :: decided).lookup x.signerDid =
        some d → d = x.decision) ↔
          ∀ x ∈ rest, (x.signerDid = a.signerDid → a.decision = x.decision) ∧
            (x.signerDid ≠ a.signerDid → ∀ d, decided.lookup x.signerDid = some d →
              d = x.decision) := by
      refine forall₂_congr fun x _ => ?_
      by_cases hx : x.signerDid = a.signerDid
      · simp [hx]
      · have : (x.signerDid == a.signerDid) = false := by simpa using hx
        simp [List.lookup_cons, hx, this]
    have hstep := ih ((a.signerDid, a.decision) :: decided)
    rw [hrecord] at hstep
    simp only [List.forall_mem_cons, conflictingDecisions]
    cases hlook : decided.lookup a.signerDid with
    | none =>
      rw [hstep]
      grind
    | some prior =>
      by_cases hp : prior = a.decision
      · simp only [hp, ne_eq, not_true_eq_false, ↓reduceIte, hstep]
        grind
      · simp [hp]

theorem conflictingDecisions_iff :
    conflictingDecisions [] verifiedApprovals.approvals = false ↔
      ConflictFree verifiedApprovals.decisions := by
  rw [conflictingDecisions_eq_false]
  simp [ConflictFree, VerifiedApprovals.decisions]

/-- The votes meet the requirement that the policy puts on the Action. -/
def Meets (policy : PolicyConfig) (actionPackage : ActionPackage) (votes : List SignerDecision) :
    Prop :=
  ∃ requirement, effectiveRequirement actionPackage policy = .ok (.requires requirement) ∧
    verdict policy votes requirement = .ok true

theorem Meets.mono {policy : PolicyConfig} {actionPackage : ActionPackage}
    {votes votes' : List SignerDecision} (h : votes ⊆ votes')
    (hmeets : Meets policy actionPackage votes) : Meets policy actionPackage votes' := by
  obtain ⟨requirement, heff, hv⟩ := hmeets
  exact ⟨requirement, heff, (verdict_improves policy h requirement).holds hv⟩

/-- **Authorization.** -/
theorem evaluatePolicy_satisfied_iff (actionPackage : ActionPackage) :
    evaluatePolicy actionPackage verifiedApprovals policy = .ok .satisfied ↔
      ConflictFree verifiedApprovals.decisions ∧ Meets policy actionPackage
        (votesOf actionPackage.actionEnvelope.proposer verifiedApprovals.decisions) := by
  rw [← conflictingDecisions_iff]
  unfold evaluatePolicy Meets
  cases conflictingDecisions [] verifiedApprovals.approvals with
  | true => simp
  | false =>
    cases effectiveRequirement actionPackage policy with
    | error e => simp
    | ok effective =>
      cases effective with
      | malformed cause => simp
      | blocked message => simp
      | requires requirement =>
        have hverdict := evaluateRequirement_verdict verifiedApprovals policy
          actionPackage.actionEnvelope.proposer requirement
        simp only [Bool.false_eq_true, ↓reduceIte, true_and, Except.ok.injEq,
          Effective.requires.injEq, exists_eq_left']
        rw [← hverdict]
        cases evaluateRequirement verifiedApprovals policy actionPackage.actionEnvelope.proposer
          requirement with
        | error e => simp [Except.map]
        | ok unsatisfied => cases unsatisfied <;> simp [Except.map]

theorem evaluatePolicy_additional {verifiedApprovals : VerifiedApprovals} {policy : PolicyConfig}
    {actionPackage : ActionPackage} {unsatisfied : List UnsatisfiedThreshold}
    (h : evaluatePolicy actionPackage verifiedApprovals policy =
      .ok (.additionalApprovalsRequired unsatisfied)) :
    unsatisfied ≠ [] ∧ ∃ requirement,
      effectiveRequirement actionPackage policy = .ok (.requires requirement) ∧
      evaluateRequirement verifiedApprovals policy actionPackage.actionEnvelope.proposer
        requirement = .ok unsatisfied := by
  unfold evaluatePolicy at h
  split at h
  · cases h
  · cases heff : effectiveRequirement actionPackage policy with
    | error e => simp [heff] at h
    | ok effective =>
      cases effective with
      | malformed cause => simp [heff] at h
      | blocked message => simp [heff] at h
      | requires requirement =>
        simp only [heff] at h
        cases heval : evaluateRequirement verifiedApprovals policy
            actionPackage.actionEnvelope.proposer requirement with
        | error e => simp [heval] at h
        | ok us =>
          cases us with
          | nil => simp [heval] at h
          | cons u us =>
            simp only [heval, Except.ok.injEq, PolicyResult.additionalApprovalsRequired.injEq] at h
            exact ⟨by simp [← h], requirement, rfl, by rw [heval, h]⟩

end Mpas.PolicyEngine
