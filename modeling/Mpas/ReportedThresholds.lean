import Mpas.RequirementMeaning

/-!
# The thresholds an evaluation reports

An evaluation that asks for further approvals reports thresholds of the
requirement in force. Which ones is a matter of counting the votes that are
there, and so is what a threshold that gets met makes of the others.

* `meets_iff`: votes meet a requirement through the thresholds that they reach;
* `reported_iff`: what is reported are the thresholds that the votes leave
  short, of an `anyOf` without a branch that holds those of the first branch;
* `met_of_covers`, `exists_uncovered`: when any Signers who meet one threshold
  meet another.
-/

namespace Mpas.PolicyEngine

open ApprovalRequirements (SignerDecision)

/-! ## Counting votes -/

/-- What the Signers of a threshold are asked to decide. -/
def ThresholdRequirement.asked (threshold : ThresholdRequirement) : Json :=
  Json.nullish threshold.decision (.str "approve")

/-- Enough distinct Signers decided as asked. -/
def Met (policy : PolicyConfig) (votes : List SignerDecision) : ThresholdRequirement → Prop :=
  Backed policy fun decision => givers decision votes

theorem met_iff {policy : PolicyConfig} {votes : List SignerDecision}
    {threshold : ThresholdRequirement} :
    Met policy votes threshold ↔ ∃ k : Nat, threshold.threshold = some (.num (.ofNat k)) ∧
      Quorum.Reached k (readDids policy threshold).toFinset (givers threshold.asked votes) := .rfl

theorem not_met_of_no_votes {policy : PolicyConfig} {threshold : ThresholdRequirement} {k : Nat}
    (hcount : threshold.threshold = some (.num (.ofNat k))) (hk : 0 < k) :
    ¬Met policy [] threshold := by
  rintro ⟨needed, hneeded, hreached⟩
  have hle : needed ≤ _ := hreached
  simp only [givers, List.filter_nil, List.map_nil, List.toFinset_nil, Finset.inter_empty,
    Finset.card_empty] at hle
  have := threshold_unique hneeded hcount
  omega

/-- The Signers of a threshold whose decisions can count: all but the Proposer. -/
def askable (policy : PolicyConfig) (proposerDid : Did) (threshold : ThresholdRequirement) :
    Finset Did :=
  (readDids policy threshold).toFinset.erase proposerDid

/-- Of any `k` askable Signers of `threshold`, enough are Signers of `other`, which
asks for the same decision. -/
def Covers (policy : PolicyConfig) (proposerDid : Did) (k : Nat)
    (threshold other : ThresholdRequirement) : Prop :=
  other.asked = threshold.asked ∧ ∃ needed : Nat,
    other.threshold = some (.num (.ofNat needed)) ∧
      needed ≤ Quorum.overlap k (askable policy proposerDid threshold)
        (readDids policy other).toFinset

/-- The thresholds that are missing: of an `allOf` those of every part, of an
`anyOf` that no branch of meets those of the first branch. -/
inductive Missing (met : ThresholdRequirement → Prop) (threshold : ThresholdRequirement) :
    Requirement → Prop
  | threshold : ¬met threshold → Missing met threshold (.threshold threshold)
  | allOf {requirements : List Requirement} {keys : List String} (part : Requirement) :
      part ∈ requirements → Missing met threshold part →
      Missing met threshold (.allOf requirements keys)
  | anyOf {first : Requirement} {rest : List Requirement} {keys : List String} :
      (∀ branch ∈ first :: rest, ¬Reads met branch) → Missing met threshold first →
      Missing met threshold (.anyOf (first :: rest) keys)

section

variable {policy : PolicyConfig} {actionPackage : ActionPackage} {requirement : Requirement}
  {votes : List SignerDecision}

/-- The thresholds in force are among those that the validation accepted. -/
theorem effective_validated (h : validatePolicyConfig policy = none) :
    ∃ signerGroups, policy.signerGroups = .given signerGroups ∧
      validateSignerGroups signerGroups = none ∧
      ∀ {requirement : Requirement},
        effectiveRequirement actionPackage policy = .ok (.requires requirement) →
        ∀ threshold : ThresholdRequirement, (Requirement.threshold threshold).Within requirement →
          ∃ path, validateThreshold signerGroups path threshold = none := by
  obtain ⟨signerGroups, hgroups, hsigners, hvalidated⟩ := contains_validated h
  refine ⟨signerGroups, hgroups, hsigners, fun heff threshold hwithin => ?_⟩
  obtain ⟨path, hpath⟩ := hvalidated _ (effective_contains heff hwithin)
  exact ⟨path, hpath⟩

theorem thresholdVerdict_met (h : validatePolicyConfig policy = none)
    (heff : effectiveRequirement actionPackage policy = .ok (.requires requirement))
    {threshold : ThresholdRequirement}
    (hwithin : (Requirement.threshold threshold).Within requirement) (votes : List SignerDecision) :
    Verdict.Means threshold.NoList (Met policy votes threshold)
      (thresholdVerdict policy votes threshold) := by
  obtain ⟨signerGroups, hgroups, hsigners, hvalid⟩ := effective_validated h
  obtain ⟨path, hpath⟩ := hvalid heff threshold hwithin
  exact thresholdVerdict_backed hgroups hsigners hpath fun _ => rfl

theorem verdict_met (h : validatePolicyConfig policy = none)
    (heff : effectiveRequirement actionPackage policy = .ok (.requires requirement))
    (votes : List SignerDecision) :
    Verdict.Means (Halts (Met policy votes) requirement) (Reads (Met policy votes) requirement)
      (verdict policy votes requirement) :=
  verdict_reads (effective_checked h heff) fun _ hwithin => thresholdVerdict_met h heff hwithin votes

/-- Votes meet the requirement in force through the thresholds that they reach. -/
theorem meets_iff (h : validatePolicyConfig policy = none) :
    Meets policy actionPackage votes ↔ ∃ requirement,
      effectiveRequirement actionPackage policy = .ok (.requires requirement) ∧
        Reads (Met policy votes) requirement ∧ ¬Halts (Met policy votes) requirement := by
  refine exists_congr fun requirement => and_congr_right fun heff => ?_
  exact (verdict_met h heff votes).true_iff

end

/-! ## What is reported -/

section

variable {policy : PolicyConfig} {verifiedApprovals : VerifiedApprovals} {proposerDid : Did}
  {met : ThresholdRequirement → Prop} {requirement : Requirement}
  {threshold : ThresholdRequirement}

theorem Missing.within (h : Missing met threshold requirement) :
    (Requirement.threshold threshold).Within requirement := by
  induction h with
  | threshold => exact .here
  | allOf part hmem _ ih => exact .allOf part hmem ih
  | anyOf _ _ ih => exact .anyOf _ List.mem_cons_self ih

theorem Missing.not_met (h : Missing met threshold requirement) : ¬met threshold := by
  induction h with
  | threshold hnot => exact hnot
  | allOf _ _ _ ih => exact ih
  | anyOf _ _ ih => exact ih

theorem Missing.not_reads (h : Missing met threshold requirement) : ¬Reads met requirement := by
  induction h with
  | threshold hnot => rwa [reads_threshold_iff]
  | allOf part hmem _ ih =>
    rw [reads_allOf_iff]
    exact fun hall => ih (hall part hmem)
  | anyOf hnone _ _ =>
    rw [reads_anyOf_iff]
    rintro ⟨branch, hmem, hreads⟩
    exact hnone branch hmem hreads

/-- In alternatives that none of holds, one threshold is listed. -/
theorem Missing.unique (hdisj : requirement.Disjunctive) (h : Missing met threshold requirement)
    {threshold' : ThresholdRequirement} (h' : Missing met threshold' requirement) :
    threshold' = threshold := by
  induction h with
  | threshold =>
    cases h'
    rfl
  | allOf => exact absurd .here (hdisj _ _)
  | anyOf _ _ ih =>
    cases h' with
    | anyOf _ hfirst =>
      exact ih (fun requirements keys hall =>
        hdisj requirements keys (.anyOf _ List.mem_cons_self hall)) hfirst

theorem evaluateThreshold_cases {unsatisfied : List UnsatisfiedThreshold}
    (h : evaluateThreshold verifiedApprovals policy proposerDid threshold = .ok unsatisfied) :
    unsatisfied = [] ∨ ∃ u, unsatisfied = [u] ∧ u.threshold = threshold.threshold ∧
      u.requiredDecision = threshold.asked ∧
      resolveEligibleSigners policy threshold = .ok u.eligibleSigners := by
  unfold evaluateThreshold at h
  split at h
  · cases h
    exact .inl rfl
  · cases hresolve : resolveEligibleSigners policy threshold with
    | error e => simp [hresolve, bind, Except.bind] at h
    | ok signers =>
      simp only [hresolve, bind, Except.bind] at h
      split at h
      · cases h
      · split at h
        · cases h
        · split at h
          · cases h
            exact .inl rfl
          · cases h
            exact .inr ⟨_, rfl, rfl, rfl, rfl⟩

/-- **Reported thresholds.** -/
theorem reported_iff (hchecked : requirement.Checked policy)
    (hleaf : ∀ threshold : ThresholdRequirement, (Requirement.threshold threshold).Within requirement →
      Verdict.Means threshold.NoList (met threshold)
        (thresholdVerdict policy (votesOf proposerDid verifiedApprovals.decisions) threshold)) :
    ∀ {unsatisfied : List UnsatisfiedThreshold},
      evaluateRequirement verifiedApprovals policy proposerDid requirement = .ok unsatisfied →
      ∀ u, u ∈ unsatisfied ↔ ∃ threshold, Missing met threshold requirement ∧
        evaluateThreshold verifiedApprovals policy proposerDid threshold = .ok [u] := by
  induction hchecked with
  | proposerOnly =>
    intro unsatisfied h u
    cases h
    simp only [List.not_mem_nil, false_iff, not_exists]
    rintro _ ⟨⟨⟩, -⟩
  | @threshold threshold _ =>
    intro unsatisfied h u
    have heval : evaluateThreshold verifiedApprovals policy proposerDid threshold =
        .ok unsatisfied := h
    have hmeans := hleaf threshold .here
    rw [← evaluateThreshold_verdict, heval] at hmeans
    have hempty : unsatisfied.isEmpty = true ↔ met threshold := hmeans.2
    constructor
    · intro hu
      rcases evaluateThreshold_cases heval with rfl | ⟨u', rfl, -⟩
      · cases hu
      · obtain rfl := List.mem_singleton.mp hu
        exact ⟨threshold, .threshold fun hmet => by simpa using hempty.mpr hmet, heval⟩
    · rintro ⟨_, hmissing, hsingle⟩
      cases hmissing
      rw [heval] at hsingle
      cases hsingle
      exact List.mem_singleton_self u
  | @allOf requirements _ ih =>
    intro unsatisfied h u
    rw [evaluateRequirement] at h
    obtain ⟨hparts, hmem⟩ := evaluateAll_parts h
    rw [hmem]
    constructor
    · rintro ⟨part, hpart, us, hu, hus⟩
      obtain ⟨threshold, hmissing, hsingle⟩ :=
        (ih part hpart (fun t hwithin => hleaf t (.allOf part hpart hwithin)) hus u).mp hu
      exact ⟨threshold, .allOf part hpart hmissing, hsingle⟩
    · rintro ⟨threshold, hmissing, hsingle⟩
      cases hmissing with
      | allOf part hpart hinside =>
        obtain ⟨us, hus⟩ := hparts part hpart
        have hu := (ih part hpart (fun t hwithin => hleaf t (.allOf part hpart hwithin)) hus u).mpr
          ⟨threshold, hinside, hsingle⟩
        exact ⟨part, hpart, us, hu, hus⟩
  | @anyOf requirements hne hparts ih =>
    intro unsatisfied h u
    have hmeans := verdict_reads (.anyOf hne hparts) hleaf
    rw [← evaluateRequirement_verdict, h] at hmeans
    have hempty : unsatisfied.isEmpty = true ↔ Reads met (.anyOf requirements []) := hmeans.2
    cases requirements with
    | nil => exact absurd rfl hne
    | cons first rest =>
      rcases evaluateRequirement_anyOf h with rfl | hfirst
      · have hreads := hempty.mp rfl
        simp only [List.not_mem_nil, false_iff, not_exists]
        rintro _ ⟨hmissing, -⟩
        cases hmissing with
        | anyOf hnone _ =>
          obtain ⟨branch, hmem, hbranch⟩ := reads_anyOf_iff.mp hreads
          exact hnone branch hmem hbranch
      · have hleaf' : ∀ t : ThresholdRequirement, (Requirement.threshold t).Within first → _ :=
          fun t hwithin => hleaf t (.anyOf first List.mem_cons_self hwithin)
        have hbranch := ih first List.mem_cons_self hleaf' hfirst u
        constructor
        · intro hu
          obtain ⟨threshold, hmissing, hsingle⟩ := hbranch.mp hu
          refine ⟨threshold, .anyOf (fun branch hmem hreads => ?_) hmissing, hsingle⟩
          rw [List.isEmpty_iff.mp (hempty.mpr (.anyOf branch hmem hreads))] at hu
          cases hu
        · rintro ⟨threshold, hmissing, hsingle⟩
          cases hmissing with
          | anyOf _ hinside => exact hbranch.mpr ⟨threshold, hinside, hsingle⟩

/-- What a reported threshold says of the one in the policy. -/
structure ReportedAs (policy : PolicyConfig) (threshold : ThresholdRequirement)
    (u : UnsatisfiedThreshold) (k : Nat) (d : Decision) (eligible : List Json) : Prop where
  asks : u.Asks k d eligible
  count : threshold.threshold = some (.num (.ofNat k))
  decision : threshold.asked = .str d.text
  signers : eligibleSigners policy threshold = .ok eligible
  read : ∀ did, did ∈ Json.strings eligible ↔ did ∈ readDids policy threshold

theorem Missing.halts (h : Missing met threshold requirement) (hlist : threshold.NoList) :
    Halts met requirement := by
  induction h with
  | threshold => exact .threshold hlist
  | allOf part hmem _ ih => exact .allOf part hmem ih
  | @anyOf first rest keys _ _ ih =>
    have hnone : ∀ earlier ∈ ([] : List Requirement), ¬Reads met earlier := by simp
    exact .anyOf hnone ih

variable {actionPackage : ActionPackage} {u : UnsatisfiedThreshold}
  {unsatisfied : List UnsatisfiedThreshold}

theorem reportedAs_of_single (h : validatePolicyConfig policy = none)
    (heff : effectiveRequirement actionPackage policy = .ok (.requires requirement))
    (hwithin : (Requirement.threshold threshold).Within requirement)
    (hsingle : evaluateThreshold verifiedApprovals policy proposerDid threshold = .ok [u]) :
    ∃ k d eligible, ReportedAs policy threshold u k d eligible := by
  obtain ⟨signerGroups, hgroups, hsigners, hvalid⟩ := effective_validated h
  obtain ⟨path, hpath⟩ := hvalid heff threshold hwithin
  have hchecked := threshold_checked hgroups hsigners hpath
  obtain ⟨k, d, eligible, hasks⟩ := evaluateThreshold_asks hchecked hsingle u (by simp)
  rcases evaluateThreshold_cases hsingle with hnil | ⟨_, heq, hthreshold, hasked, hresolve⟩
  · cases hnil
  · cases heq
    have heligible : eligibleSigners policy threshold = .ok eligible := by
      unfold eligibleSigners
      rw [hresolve]
      have hset := eligibleSet_positive (hchecked.signers _ hresolve)
      simpa [bind, Except.bind, hset] using hasks.eligibleSigners
    refine ⟨k, d, eligible, hasks, hthreshold ▸ hasks.threshold, hasked ▸ hasks.requiredDecision,
      heligible, ?_⟩
    rcases eligibleSigners_cases hgroups hsigners hpath with ⟨-, herror⟩ | ⟨-, eligible', hok, hmem⟩
    · rw [heligible] at herror
      cases herror
    · rw [heligible] at hok
      cases hok
      exact hmem

section

variable (h : validatePolicyConfig policy = none)
  (heff : effectiveRequirement actionPackage policy = .ok (.requires requirement))
  (heval : evaluateRequirement verifiedApprovals policy proposerDid requirement = .ok unsatisfied)

include h heff heval

theorem reported_missing (hu : u ∈ unsatisfied) : ∃ threshold,
    Missing (Met policy (votesOf proposerDid verifiedApprovals.decisions)) threshold requirement ∧
      ∃ k d eligible, ReportedAs policy threshold u k d eligible := by
  obtain ⟨threshold, hmissing, hsingle⟩ := (reported_iff (effective_checked h heff)
    (fun _ hwithin => thresholdVerdict_met h heff hwithin _) heval u).mp hu
  exact ⟨threshold, hmissing, reportedAs_of_single h heff hmissing.within hsingle⟩

theorem not_halts_of_evaluated :
    ¬Halts (Met policy (votesOf proposerDid verifiedApprovals.decisions)) requirement := by
  have hmeans := verdict_met h heff (votesOf proposerDid verifiedApprovals.decisions)
  rw [← evaluateRequirement_verdict, heval] at hmeans
  exact hmeans.1

theorem missing_reported (hmissing : Missing
    (Met policy (votesOf proposerDid verifiedApprovals.decisions)) threshold requirement) :
    ∃ u ∈ unsatisfied, ∃ k d eligible, ReportedAs policy threshold u k d eligible := by
  have hleaf := thresholdVerdict_met h heff hmissing.within
    (votesOf proposerDid verifiedApprovals.decisions)
  rw [← evaluateThreshold_verdict] at hleaf
  cases hsingle : evaluateThreshold verifiedApprovals policy proposerDid threshold with
  | error e =>
    rw [hsingle] at hleaf
    exact absurd (hmissing.halts hleaf) (not_halts_of_evaluated h heff heval)
  | ok us =>
    rw [hsingle] at hleaf
    rcases evaluateThreshold_cases hsingle with rfl | ⟨u, rfl, -⟩
    · exact absurd (hleaf.2.mp rfl) hmissing.not_met
    · have hu := (reported_iff (effective_checked h heff)
        (fun _ hwithin => thresholdVerdict_met h heff hwithin _) heval u).mpr
          ⟨threshold, hmissing, hsingle⟩
      exact ⟨u, hu, reportedAs_of_single h heff hmissing.within hsingle⟩

end

end

/-! ## One threshold and another -/

section

variable {policy : PolicyConfig} {proposerDid : Did} {threshold other : ThresholdRequirement}
  {k : Nat} {d : Decision}

/-- Signers who all decide the same give that decision and no other. -/
theorem givers_map (decision : Json) (d : Decision) (signers : List Did) :
    givers decision (signers.map fun did => ⟨did, d⟩) =
      if .str d.text = decision then signers.toFinset else ∅ := by
  ext did
  rw [mem_givers]
  split
  · rename_i hd
    rw [List.mem_toFinset]
    constructor
    · rintro ⟨_, hmem, -⟩
      obtain ⟨did', hdid', heq⟩ := List.mem_map.mp hmem
      cases heq
      exact hdid'
    · exact fun hdid => ⟨d, List.mem_map.mpr ⟨did, hdid, rfl⟩, hd⟩
  · rename_i hd
    simp only [Finset.notMem_empty, iff_false, not_exists, not_and]
    intro d' hmem hd'
    obtain ⟨_, _, heq⟩ := List.mem_map.mp hmem
    cases heq
    exact hd hd'

/-- Whoever meets a threshold meets those that it covers. -/
theorem met_of_covers (hdecision : threshold.asked = .str d.text) {signers : List Did}
    (hnodup : signers.Nodup) (hsigners : ∀ did ∈ signers, did ∈ askable policy proposerDid threshold)
    (hcovers : Covers policy proposerDid signers.length threshold other) :
    Met policy (signers.map fun did => ⟨did, d⟩) other := by
  obtain ⟨hasked, needed, hneeded, hle⟩ := hcovers
  refine met_iff.mpr ⟨needed, hneeded, ?_⟩
  rw [hasked, hdecision, givers_map, if_pos rfl]
  have hreached : Quorum.Reached signers.length (askable policy proposerDid threshold)
      signers.toFinset := by
    have hsub : signers.toFinset ⊆ askable policy proposerDid threshold :=
      fun did hdid => hsigners did (List.mem_toFinset.mp hdid)
    rw [Quorum.Reached, Finset.inter_eq_right.mpr hsub, List.toFinset_card_of_nodup hnodup]
  exact hle.trans (hreached.overlap_le _)

theorem Covers.self (hcount : threshold.threshold = some (.num (.ofNat k))) :
    Covers policy proposerDid k threshold threshold := by
  have hsub : askable policy proposerDid threshold ⊆ (readDids policy threshold).toFinset :=
    Finset.erase_subset _ _
  refine ⟨rfl, k, hcount, ?_⟩
  rw [Quorum.overlap, Finset.sdiff_eq_empty_iff_subset.mpr hsub, Finset.card_empty, Nat.sub_zero]

/-- Votes of others than the Proposer are votes of askable Signers. -/
theorem reached_askable {votes : List SignerDecision} {decision : Json}
    (hothers : ∀ vote ∈ votes, vote.signerDid ≠ proposerDid)
    (h : Quorum.Reached k (readDids policy threshold).toFinset (givers decision votes)) :
    Quorum.Reached k (askable policy proposerDid threshold) (givers decision votes) := by
  refine h.trans (Finset.card_le_card fun did hdid => ?_)
  obtain ⟨hread, hgives⟩ := Finset.mem_inter.mp hdid
  obtain ⟨d, hvote, -⟩ := mem_givers.mp hgives
  exact Finset.mem_inter.mpr ⟨Finset.mem_erase.mpr ⟨hothers _ hvote, hread⟩, hgives⟩

/-- Some who meet a threshold meet another one only if it is covered. -/
theorem exists_uncovered (hk : k ≤ (askable policy proposerDid threshold).card)
    (other : ThresholdRequirement) :
    ∃ signers : List Did, signers.Nodup ∧ signers.length = k ∧
      (∀ did ∈ signers, did ∈ askable policy proposerDid threshold) ∧
      (signers.toFinset ∩ (readDids policy other).toFinset).card =
        Quorum.overlap k (askable policy proposerDid threshold) (readDids policy other).toFinset := by
  obtain ⟨quorum, hsub, hcard, hoverlap⟩ :=
    Quorum.exists_overlap hk (readDids policy other).toFinset
  refine ⟨quorum.toList, quorum.nodup_toList, by rw [Finset.length_toList, hcard],
    fun did hdid => hsub (Finset.mem_toList.mp hdid), ?_⟩
  rw [Finset.toList_toFinset, Finset.inter_comm, hoverlap]

end

end Mpas.PolicyEngine
