import Mpas.DefaultRequirement

/-!
# Which approvals an evaluation depends on

The evaluation of a policy sees a list of approvals only through the set of
votes that it holds: who decided what, the Proposer left out.

* `evaluateRequirement_votes`: the same votes leave the same thresholds unsatisfied;
* `evaluatePolicy_votes`: order, repetition and the Proposer's own approvals change
  nothing, and further votes do not take an authorization away.
-/

namespace Mpas.PolicyEngine

open ApprovalRequirements (SignerDecision ConflictFree)

/-- The votes of two lists are the same. -/
def SameVotes (proposerDid : Did) (V W : VerifiedApprovals) : Prop :=
  ∀ vote, vote ∈ votesOf proposerDid V.decisions ↔ vote ∈ votesOf proposerDid W.decisions

variable {proposerDid : Did} {V W : VerifiedApprovals} {policy : PolicyConfig}

theorem mem_votesOf_decisions {vote : SignerDecision} :
    vote ∈ votesOf proposerDid V.decisions ↔ vote.signerDid ≠ proposerDid ∧
      ∃ approval ∈ V.approvals, approval.signerDid = vote.signerDid ∧
        approval.decision = vote.decision := by
  simp only [votesOf, VerifiedApprovals.decisions, List.mem_filter, List.mem_map,
    decide_eq_true_eq]
  constructor
  · rintro ⟨⟨approval, hmem, rfl⟩, hother⟩
    exact ⟨hother, approval, hmem, rfl, rfl⟩
  · rintro ⟨hother, approval, hmem, hsigner, hdecision⟩
    exact ⟨⟨approval, hmem, by rw [hsigner, hdecision]⟩, hother⟩

theorem countFound_subset (h : votesOf proposerDid V.decisions ⊆ votesOf proposerDid W.decisions)
    {decision : Json} {eligible : List Json} {did : Did}
    (hdid : did ∈ (V.approvals.filter fun approval =>
      decide (approval.signerDid ≠ proposerDid) && decide (.str approval.decision.text = decision) &&
        Json.includes eligible (.str approval.signerDid)).map (·.signerDid)) :
    did ∈ (W.approvals.filter fun approval =>
      decide (approval.signerDid ≠ proposerDid) && decide (.str approval.decision.text = decision) &&
        Json.includes eligible (.str approval.signerDid)).map (·.signerDid) := by
  simp only [List.mem_map, List.mem_filter, Bool.and_eq_true, decide_eq_true_eq] at hdid ⊢
  obtain ⟨approval, ⟨hmem, ⟨hother, hdecision⟩, heligible⟩, rfl⟩ := hdid
  have hvote : (⟨approval.signerDid, approval.decision⟩ : SignerDecision) ∈
      votesOf proposerDid V.decisions :=
    mem_votesOf_decisions.mpr ⟨hother, approval, hmem, rfl, rfl⟩
  obtain ⟨-, other, hin, hsigner, hsame⟩ := mem_votesOf_decisions.mp (h hvote)
  refine ⟨other, ⟨hin, ⟨?_, ?_⟩, ?_⟩, hsigner⟩
  · rw [hsigner]
    exact hother
  · rw [hsame]
    exact hdecision
  · rw [hsigner]
    exact heligible

theorem countFound_votes (h : SameVotes proposerDid V W) (decision : Json) (eligible : List Json) :
    countFound V proposerDid decision eligible = countFound W proposerDid decision eligible := by
  unfold countFound
  apply List.Perm.length_eq
  rw [List.perm_ext_iff_of_nodup (List.nodup_dedup _) (List.nodup_dedup _)]
  intro did
  rw [List.mem_dedup, List.mem_dedup]
  exact ⟨countFound_subset fun vote => (h vote).mp, countFound_subset fun vote => (h vote).mpr⟩

theorem evaluateThreshold_votes (h : SameVotes proposerDid V W)
    (requirement : ThresholdRequirement) :
    evaluateThreshold V policy proposerDid requirement =
      evaluateThreshold W policy proposerDid requirement := by
  unfold evaluateThreshold
  simp only [countFound_votes h]

mutual

theorem evaluateRequirement_votes (h : SameVotes proposerDid V W) : ∀ requirement,
    evaluateRequirement V policy proposerDid requirement =
      evaluateRequirement W policy proposerDid requirement
  | .proposerOnly _ => rfl
  | .threshold requirement => evaluateThreshold_votes h requirement
  | .allOf requirements _ => evaluateAll_votes h requirements
  | .allOfNothing _ => rfl
  | .anyOf [] _ => rfl
  | .anyOf (first :: rest) _ => by
    have hany := evaluateAny_votes h (first :: rest)
    have hfirst := evaluateRequirement_votes h first
    rw [evaluateRequirement, evaluateRequirement, hany, hfirst]
  | .anyOfNothing _ => rfl
  | .other none => rfl
  | .other (some .null) => rfl
  | .other (some (.bool _)) => rfl
  | .other (some (.num _)) => rfl
  | .other (some (.str _)) => rfl
  | .other (some (.arr _)) => rfl
  | .other (some (.obj _)) => rfl

theorem evaluateAll_votes (h : SameVotes proposerDid V W) : ∀ requirements,
    evaluateAll V policy proposerDid requirements = evaluateAll W policy proposerDid requirements
  | [] => rfl
  | requirement :: rest => by
    rw [evaluateAll, evaluateAll, evaluateRequirement_votes h requirement,
      evaluateAll_votes h rest]

theorem evaluateAny_votes (h : SameVotes proposerDid V W) : ∀ requirements,
    evaluateAny V policy proposerDid requirements = evaluateAny W policy proposerDid requirements
  | [] => rfl
  | requirement :: rest => by
    rw [evaluateAny, evaluateAny, evaluateRequirement_votes h requirement,
      evaluateAny_votes h rest]

end

/-- For every policy, of approvals in which no Signer contradicts itself. -/
theorem evaluatePolicy_votes (actionPackage : ActionPackage) (policy : PolicyConfig)
    (V W : VerifiedApprovals) (hV : ConflictFree V.decisions) (hW : ConflictFree W.decisions) :
    (SameVotes actionPackage.actionEnvelope.proposer V W →
        evaluatePolicy actionPackage V policy = evaluatePolicy actionPackage W policy) ∧
      (votesOf actionPackage.actionEnvelope.proposer V.decisions ⊆
          votesOf actionPackage.actionEnvelope.proposer W.decisions →
        evaluatePolicy actionPackage V policy = .ok .satisfied →
        evaluatePolicy actionPackage W policy = .ok .satisfied) := by
  constructor
  · intro h
    have hnone := (conflictingDecisions_iff V).mpr hV
    have hnone' := (conflictingDecisions_iff W).mpr hW
    unfold evaluatePolicy
    simp only [hnone, hnone', evaluateRequirement_votes h]
  · intro hsub hsatisfied
    obtain ⟨-, hmeets⟩ := (evaluatePolicy_satisfied_iff V policy actionPackage).mp hsatisfied
    exact (evaluatePolicy_satisfied_iff W policy actionPackage).mpr ⟨hW, hmeets.mono hsub⟩

def approvalBy (did : Did) (decision : Decision) : VerifiedApproval :=
  ⟨⟨⟨"", ""⟩, decision, "", "", none⟩, did, decision, ""⟩

/-- Alice approves. -/
def aliceApproves : VerifiedApprovals := ⟨⟨"", ""⟩, [approvalBy "did:web:alice" .approve]⟩

/-- She does so twice, behind the agent's own approval. -/
def aliceAndAgent : VerifiedApprovals :=
  ⟨⟨"", ""⟩, [approvalBy "did:web:agent" .propose, approvalBy "did:web:alice" .approve,
    approvalBy "did:web:alice" .approve]⟩

theorem evaluatePolicy_votes_alice :
    evaluatePolicy (namelessAction "did:web:agent") aliceApproves (approversPolicy none) =
        evaluatePolicy (namelessAction "did:web:agent") aliceAndAgent (approversPolicy none) ∧
      evaluatePolicy (namelessAction "did:web:agent") aliceAndAgent (approversPolicy none) =
        .ok .satisfied := by
  have hfree : ConflictFree aliceApproves.decisions := by
    intro x hx y hy _
    rw [List.mem_singleton.mp hx, List.mem_singleton.mp hy]
  have hfree' : ConflictFree aliceAndAgent.decisions := by
    unfold ConflictFree
    decide +kernel
  have hsame : SameVotes "did:web:agent" aliceApproves aliceAndAgent := by
    intro vote
    have hleft : votesOf "did:web:agent" aliceApproves.decisions =
        [⟨"did:web:alice", .approve⟩] := by decide +kernel
    have hright : votesOf "did:web:agent" aliceAndAgent.decisions =
        [⟨"did:web:alice", .approve⟩, ⟨"did:web:alice", .approve⟩] := by decide +kernel
    rw [hleft, hright]
    simp
  obtain ⟨hequal, hmore⟩ := evaluatePolicy_votes (namelessAction "did:web:agent")
    (approversPolicy none) aliceApproves aliceAndAgent hfree hfree'
  exact ⟨hequal hsame, hmore (fun vote => (hsame vote).mp) (by decide +kernel)⟩

end Mpas.PolicyEngine
