import Mpas.ApprovalReachability
import Mpas.CoordinationRuns

/-!
# What a workflow is ready on

A workflow becomes ready for submission when the evaluation of its decisions is
satisfied. An expression without thresholds is satisfied by default, also when
override Signers are the only authority that it names.

* `accepted_wellTyped`: what the validation of new requirements leaves;
* `run_accepted`: in every run all records hold requirements that were validated;
* `ready_on_evidence_iff`: when readiness rests on the decision of an authority.
-/

namespace Mpas.Coordination

open ApprovalRequirements (SignerDecision Status ConflictFree Met Fulfilled Vetoed Overridden
  WellTyped Asks eq_map_strings satisfied_iff evaluateApprovalRequirements)

/-! ## Validated requirements -/

variable {runtime : Runtime} {readings : Readings} {store store' : CoordinationStore}
  {requirements : AuthorizationRequirements} {stored stored' : StoredAction}

/-- The requirements passed the validation for some Action at some time. -/
def Validated (runtime : Runtime) (requirements : AuthorizationRequirements) : Prop :=
  ∃ actionEnvelopeHash verifierDid now,
    validateAuthorizationRequirements runtime requirements actionEnvelopeHash verifierDid now =
      .ok ()

theorem isAchievable_positive {threshold : Json} {size : Nat}
    (h : isAchievable threshold size = true) : ∃ k : Nat, 0 < k ∧ threshold = .num (.ofNat k) := by
  cases threshold with
  | num n =>
    cases n with
    | finite q =>
      simp only [isAchievable, JsNumber.isInteger, JsNumber.lt, JsNumber.ofNat, Bool.and_eq_true,
        Bool.not_eq_true', decide_eq_true_eq, decide_eq_false_iff_not, not_lt] at h
      obtain ⟨⟨hden, hpositive⟩, -⟩ := h
      have hq : q = (q.num : ℚ) := ((Rat.den_eq_one_iff q).mp hden).symm
      have hnum : (1 : ℤ) ≤ q.num := by
        rw [hq] at hpositive
        exact_mod_cast hpositive
      refine ⟨q.num.toNat, by omega, ?_⟩
      have hcast : ((q.num.toNat : ℤ) : ℚ) = q := by
        rw [Int.toNat_of_nonneg (by omega)]
        exact hq.symm
      rw [JsNumber.ofNat, ← hcast]
      rfl
    | infinity negative => simp [isAchievable, JsNumber.isInteger] at h
    | nan => simp [isAchievable, JsNumber.isInteger] at h
  | _ => simp [isAchievable] at h

theorem asks_of_validated {threshold : ThresholdRequirement} (hformed : isMalformed threshold = false)
    (hvalid : validateThreshold threshold = .ok ()) :
    ∃ k eligible, 0 < k ∧ Asks threshold k eligible := by
  unfold isMalformed at hformed
  unfold validateThreshold at hvalid
  split at hformed
  · rename_i items hitems
    rw [hitems] at hvalid
    obtain ⟨-, hvalid⟩ := Checks.throwIf_bind_eq_ok.mp hvalid
    have hachievable := Checks.throwIf_eq_ok.mp hvalid
    obtain ⟨k, hk, hcount⟩ := isAchievable_positive (by simpa using hachievable)
    have hdids : ∀ v ∈ items, ∃ did, v = .str did := by
      intro v hv
      have hdid := List.any_eq_false.mp hformed v hv
      cases hstring : v.asString with
      | none => simp [hstring] at hdid
      | some did => exact ⟨did, Json.asString_eq_some.mp hstring⟩
    refine ⟨k, Json.strings items, hk, hcount, ?_⟩
    rw [hitems, ← eq_map_strings hdids]
  · cases hformed

/-- Validated thresholds are positive integers and list DIDs. -/
theorem accepted_wellTyped (h : Validated runtime requirements) :
    WellTyped requirements.approvalRequirements := by
  obtain ⟨_, _, _, h⟩ := h
  obtain ⟨-, h⟩ := Checks.throwIf_bind_eq_ok.mp h
  obtain ⟨hformed, h⟩ := Checks.throwIf_bind_eq_ok.mp h
  obtain ⟨-, h⟩ := Checks.throwIf_bind_eq_ok.mp h
  obtain ⟨-, h⟩ := Checks.throwIf_bind_eq_ok.mp h
  obtain ⟨-, h⟩ := Checks.throwIf_bind_eq_ok.mp h
  obtain ⟨_, -, h⟩ := Checks.bind_eq_ok.mp h
  obtain ⟨-, h⟩ := Checks.throwIf_bind_eq_ok.mp h
  obtain ⟨_, hthresholds, -⟩ := Checks.bind_eq_ok.mp h
  intro threshold hmem
  apply asks_of_validated
  · by_contra hbad
    exact hformed (List.any_eq_true.mpr ⟨threshold, hmem, by simpa using hbad⟩)
  · exact Checks.forM_eq_ok.mp hthresholds threshold hmem

/-! ## Records hold validated requirements -/

/-- What a call leaves at an address was there, or is what the call creates. -/
def Traced (runtime : Runtime) (store store' : CoordinationStore) : Prop :=
  ∀ stored' ∈ store'.records,
    (∃ stored ∈ store.records,
      stored'.authorizationRequirements = stored.authorizationRequirements) ∨
    Validated runtime stored'.authorizationRequirements

theorem traced_self (store : CoordinationStore) : Traced runtime store store :=
  fun stored hstored => .inl ⟨stored, hstored, rfl⟩

theorem traced_put {address : Nat} (hstored : store.records[address]? = some stored)
    (hsame : stored'.authorizationRequirements = stored.authorizationRequirements) :
    Traced runtime store (store.put address stored') := by
  intro last hlast
  rcases List.mem_or_eq_of_mem_set hlast with hold | rfl
  · exact .inl ⟨last, hold, rfl⟩
  · exact .inl ⟨stored, List.mem_of_getElem? hstored, hsame⟩

theorem traced_expired (h : Expired runtime readings store store') :
    Traced runtime store store' := by
  obtain ⟨records, hrecords, rfl⟩ := h
  intro stored' hstored'
  obtain ⟨address, haddress⟩ := List.getElem?_of_mem hstored'
  obtain ⟨stored, hstored, hexpires⟩ := Heap.forall₂_source hrecords haddress
  refine .inl ⟨stored, List.mem_of_getElem? hstored, ?_⟩
  rcases hexpires with rfl | rfl
  · rfl
  · exact expireIfNeeded_requirements stored

theorem createWorkflow_traced (request : CoordinationActionRequest) :
    Traced runtime store (store.createWorkflow runtime readings request).2 := by
  unfold CoordinationStore.createWorkflow
  split
  · exact traced_self store
  rename_i hvalid
  dsimp only
  split
  · rename_i address existing hexisting
    exact traced_put (deref_eq_some.mp hexisting).2 (expireIfNeeded_requirements existing)
  · intro last hlast
    rcases List.mem_append.mp hlast with hold | hnew
    · exact .inl ⟨last, hold, rfl⟩
    · obtain rfl := List.mem_singleton.mp hnew
      obtain ⟨_, -, h⟩ := Checks.bind_eq_ok.mp hvalid
      obtain ⟨_, hrequirements, -⟩ := Checks.bind_eq_ok.mp h
      exact .inr ⟨_, _, _, hrequirements⟩

theorem submitApproval_traced (request : CoordinationApprovalSubmission) :
    Traced runtime store (store.submitApproval runtime readings request).2 := by
  unfold CoordinationStore.submitApproval
  split
  · exact traced_self store
  rename_i preflight hpreflight
  have hrecord := (deref_eq_some.mp (approvalPreflight_ok hpreflight).1).2
  have hrecorded : (CoordinationStore.recorded runtime readings request
      preflight).authorizationRequirements = preflight.stored.authorizationRequirements := by
    unfold CoordinationStore.recorded
    split <;> rfl
  dsimp only
  split
  · split
    · exact traced_put hrecord hrecorded
    · exact traced_put hrecord ((conclude_requirements ..).trans hrecorded)
  · exact traced_put hrecord hrecorded

theorem cancelAction_traced (request : CoordinationActionCancelRequest) :
    Traced runtime store (store.cancelAction runtime readings request).2 := by
  unfold CoordinationStore.cancelAction
  split
  · exact traced_self store
  split
  · exact traced_self store
  · rename_i address stored hderef
    exact traced_put (deref_eq_some.mp hderef).2 rfl

theorem perform_traced (hstore : Consistent store) (call : Call) :
    Traced runtime store (store.perform runtime call).2 := by
  unfold CoordinationStore.perform
  cases call.operation with
  | createWorkflow request => exact createWorkflow_traced request
  | submitApproval request => exact submitApproval_traced request
  | cancelAction request => exact cancelAction_traced request
  | poll did => exact traced_expired (poll_expired store did)
  | hasOutstandingCoordinationWork did => exact traced_expired (outstanding_expired hstore did)

/-- **Validated records.** -/
theorem run_accepted {calls : List Call} {world : World}
    (h : Machine.Run (step runtime) Machine.Free {} calls world) :
    ∀ stored ∈ world.store.records, Validated runtime stored.authorizationRequirements := by
  have hboth : Consistent world.store ∧
      ∀ stored ∈ world.store.records, Validated runtime stored.authorizationRequirements := by
    refine h.invariant (I := fun w => Consistent w.store ∧
      ∀ stored ∈ w.store.records, Validated runtime stored.authorizationRequirements) ?_
      ⟨consistent_empty, fun _ hmem => absurd hmem List.not_mem_nil⟩
    rintro w call w' ⟨hstore, hvalidated⟩ - hstep
    refine ⟨(step_effect hstore hstep).consistent hstore, ?_⟩
    intro stored' hstored'
    rw [step_eq_some hstep] at hstored'
    rcases perform_traced hstore call stored' hstored' with ⟨stored, hstored, hsame⟩ | hnew
    · rw [hsame]
      exact hvalidated stored hstored
    · exact hnew
  exact hboth.2

/-! ## Evidence -/

/-- An override Signer approved, or a threshold is met. -/
def Evidence (requirements : ApprovalRequirements) (decisions : List SignerDecision) : Prop :=
  Overridden requirements decisions ∨ ∃ threshold ∈ thresholdsFor requirements,
    Met decisions threshold

theorem evidence_of_fulfilled {approvalRequirements : ApprovalRequirements}
    {decisions : List SignerDecision} (hlisted : thresholdsFor approvalRequirements ≠ [])
    (h : Fulfilled approvalRequirements (Met decisions)) :
    ∃ threshold ∈ thresholdsFor approvalRequirements, Met decisions threshold := by
  obtain ⟨hempty | ⟨threshold, hmem, hmet⟩, hall⟩ := h
  · obtain ⟨threshold, hthreshold⟩ := List.exists_mem_of_ne_nil _ hlisted
    rcases List.mem_append.mp hthreshold with hany | hmem
    · rw [hempty] at hany
      cases hany
    · exact ⟨threshold, hthreshold, hall threshold hmem⟩
  · exact ⟨threshold, List.mem_append_left _ hmem, hmet⟩

/-- Validated requirements are satisfied on evidence, unless they list no threshold. -/
theorem satisfied_on_evidence_iff (h : WellTyped requirements.approvalRequirements)
    {decisions : List SignerDecision} (hfree : ConflictFree decisions) :
    (evaluateApprovalRequirements requirements.approvalRequirements decisions = .ok .satisfied →
        Evidence requirements.approvalRequirements decisions) ↔
      thresholdsFor requirements.approvalRequirements ≠ [] ∨
        Overridden requirements.approvalRequirements decisions ∨
        Vetoed requirements.approvalRequirements decisions := by
  rw [satisfied_iff h hfree]
  constructor
  · intro hevidence
    by_contra hnone
    obtain ⟨hlisted, hnone⟩ := not_or.mp hnone
    obtain ⟨hoverridden, hveto⟩ := not_or.mp hnone
    have hempty := List.append_eq_nil_iff.mp (not_not.mp hlisted)
    have hfulfilled : Fulfilled requirements.approvalRequirements (Met decisions) := by
      refine ⟨.inl hempty.1, fun threshold hmem => ?_⟩
      rw [hempty.2] at hmem
      cases hmem
    rcases hevidence ⟨hveto, .inr hfulfilled⟩ with hyes | ⟨threshold, hmem, -⟩
    · exact hoverridden hyes
    · rw [not_not.mp hlisted] at hmem
      cases hmem
  · rintro hwhen ⟨hveto, hoverridden | hfulfilled⟩
    · exact .inl hoverridden
    · rcases hwhen with hlisted | hoverridden | hyes
      · exact .inr (evidence_of_fulfilled hlisted hfulfilled)
      · exact .inl hoverridden
      · exact absurd hyes hveto

/-- **Readiness, exactly.** Validated requirements are satisfied on the approval
of an override Signer or on a threshold that is met if and only if they list a
threshold, or an override Signer has decided; so it is with every workflow that
a run makes ready. -/
theorem ready_on_evidence_iff (runtime : Runtime) :
    (∀ requirements, Validated runtime requirements →
      ∀ decisions, ConflictFree decisions →
      ((evaluateApprovalRequirements requirements.approvalRequirements decisions =
            .ok .satisfied →
          Evidence requirements.approvalRequirements decisions) ↔
        thresholdsFor requirements.approvalRequirements ≠ [] ∨
          Overridden requirements.approvalRequirements decisions ∨
          Vetoed requirements.approvalRequirements decisions)) ∧
    ∀ calls world, Machine.Run (step runtime) Machine.Free {} calls world →
      ∀ stored ∈ world.store.records, stored.state = .readyForSubmission →
      (Evidence stored.authorizationRequirements.approvalRequirements
          (signerDecisions stored.approvals) ↔
        thresholdsFor stored.authorizationRequirements.approvalRequirements ≠ [] ∨
          Overridden stored.authorizationRequirements.approvalRequirements
            (signerDecisions stored.approvals)) := by
  constructor
  · intro requirements hvalid decisions hfree
    exact satisfied_on_evidence_iff (accepted_wellTyped hvalid) hfree
  · intro calls world hrun stored hstored hready
    have hsound := (run_consistent hrun consistent_empty).sound stored hstored
    have htyped := accepted_wellTyped (run_accepted hrun stored hstored)
    have hfree := conflictFree_of_oneEach hsound.oneEach
    have hsatisfied : stored.evaluate = .ok .satisfied := by
      apply hsound.concluded
      rw [hready]
      rfl
    rw [Sound.status_eq hsound] at hsatisfied
    have hveto := ((satisfied_iff htyped hfree).mp hsatisfied).1
    constructor
    · intro hevidence
      have hcases := (satisfied_on_evidence_iff htyped hfree).mp fun _ => hevidence
      rcases hcases with hlisted | hoverridden | hyes
      · exact .inl hlisted
      · exact .inr hoverridden
      · exact absurd hyes hveto
    · rintro (hlisted | hoverridden)
      · exact (satisfied_on_evidence_iff htyped hfree).mpr (.inl hlisted) hsatisfied
      · exact .inl hoverridden

/-! ## A workflow that two Signers approve -/

/-- The workflow of Alice and Bob is ready on their approvals, and is satisfied by them. -/
theorem ready_on_evidence_deployment :
    ∃ world, Machine.Run (step deploymentRuntime) Machine.Free {} (deploymentCalls.take 4) world ∧
      ∃ stored ∈ world.store.records, stored.state = .readyForSubmission ∧
        Evidence stored.authorizationRequirements.approvalRequirements
          (signerDecisions stored.approvals) ∧
        (evaluateApprovalRequirements stored.authorizationRequirements.approvalRequirements
            [⟨"did:web:bob", .approve⟩, ⟨"did:web:alice", .approve⟩] = .ok .satisfied →
          Evidence stored.authorizationRequirements.approvalRequirements
            [⟨"did:web:bob", .approve⟩, ⟨"did:web:alice", .approve⟩]) := by
  obtain ⟨world, hrun, hstate⟩ : ∃ world,
      Machine.Run (step deploymentRuntime) Machine.Free {} (deploymentCalls.take 4) world ∧
        world.store.records.map (fun stored => (stored.state, decide (thresholdsFor
          stored.authorizationRequirements.approvalRequirements = []))) =
          [(.readyForSubmission, false)] :=
    Machine.run_of_exec_any (by decide +kernel)
  obtain ⟨stored, rest, hrecords, hstored, -⟩ := List.map_eq_cons_iff.mp hstate
  obtain ⟨hready, hlisted⟩ := Prod.mk.inj hstored
  have hmem : stored ∈ world.store.records := by simp [hrecords]
  have hlisted := of_decide_eq_false hlisted
  obtain ⟨hevery, hruns⟩ := ready_on_evidence_iff deploymentRuntime
  refine ⟨world, hrun, stored, hmem, hready,
    (hruns _ world hrun stored hmem hready).mpr (.inl hlisted), ?_⟩
  exact (hevery _ (run_accepted hrun stored hmem) _ (by simp [ConflictFree])).mpr (.inl hlisted)

/-! ## A workflow that nobody approves -/

section

open CoordinationReadiness.Deployment (computeJsonHash replacementEnvelope)

def abstentionPart : String :=
  "eyJhY3Rpb25FbnZlbG9wZUhhc2giOnsidmFsdWUiOiJDUE1rSEc5TEdxc05HV1Q2UDhiUUJqYWVrSHczV0NaMGNw" ++
  "U25RWFNHZFhzIn0sImRlY2lzaW9uIjoiYWJzdGFpbiIsInNpZ25lckRpZCI6ImRpZDp3ZWI6YWxpY2UifQ"

/-- The runtime of the deployment, reading the payload in which Alice abstains. -/
def abstentionRuntime : Runtime where
  computeJsonHash := deploymentRuntime.computeJsonHash
  dateParse := deploymentRuntime.dateParse
  toISOString := deploymentRuntime.toISOString
  parsePart := fun part =>
    if part = abstentionPart.toList then
      some (.obj [("actionEnvelopeHash",
          .obj [("value", .str (computeJsonHash replacementEnvelope.toJson).value)]),
        ("decision", .str "abstain"), ("signerDid", .str "did:web:alice")])
    else none

/-- Alice has the override permission to approve, and nobody else is named. -/
def overrideRequest : CoordinationActionRequest where
  actionPackage := deploymentRequest.actionPackage
  authorizationRequirements := { deploymentRequest.authorizationRequirements with
    approvalRequirements :=
      { overrideSigners := some [⟨"did:web:alice", ["approve"]⟩] } }

def abstention : CoordinationApprovalSubmission where
  actionEnvelopeHash := computeJsonHash replacementEnvelope.toJson
  approval := {
    actionEnvelopeHash := computeJsonHash replacementEnvelope.toJson
    decision := .abstain
    signature := "h." ++ abstentionPart ++ ".s"
    createdAt := "2025-01-01T00:03:00.000Z" }

def abstentionCalls : List Call :=
  [⟨⟨1735689780000, 1735689780000⟩, .createWorkflow overrideRequest⟩,
    ⟨⟨1735689780000, 1735689780000⟩, .submitApproval abstention⟩]

/-- The one override Signer abstains, and the workflow is ready. -/
theorem ready_on_abstention :
    ∃ world, Machine.Run (step abstentionRuntime) Machine.Free {} abstentionCalls world ∧
      ∃ stored ∈ world.store.records, stored.state = .readyForSubmission ∧
        ¬Evidence stored.authorizationRequirements.approvalRequirements
          (signerDecisions stored.approvals) := by
  obtain ⟨world, hrun, hstate⟩ : ∃ world,
      Machine.Run (step abstentionRuntime) Machine.Free {} abstentionCalls world ∧
        world.store.records.map (fun stored => (stored.state,
          stored.authorizationRequirements.approvalRequirements,
          signerDecisions stored.approvals)) =
          [(.readyForSubmission, { overrideSigners := some [⟨"did:web:alice", ["approve"]⟩] },
            [⟨"did:web:alice", .abstain⟩])] :=
    Machine.run_of_exec_any (by decide +kernel)
  obtain ⟨stored, rest, hrecords, hstored, -⟩ := List.map_eq_cons_iff.mp hstate
  simp only [Prod.mk.injEq] at hstored
  obtain ⟨hready, hrequirements, hdecisions⟩ := hstored
  refine ⟨world, hrun, stored, by simp [hrecords], hready, ?_⟩
  rw [hrequirements, hdecisions]
  rintro (⟨entry, -, -, hvote⟩ | ⟨threshold, hmem, -⟩)
  · have hdecision := congrArg SignerDecision.decision (List.mem_singleton.mp hvote)
    cases hdecision
  · cases hmem

end

end Mpas.Coordination
