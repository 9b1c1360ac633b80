import Mathlib.Data.Fintype.EquivFin
import Mpas.Library.Quorum
import Mpas.PolicyValidation

/-!
# What the policy profile means by a requirement

The profile reads a threshold as a quorum among the Signers of the one field
that the threshold defines, and the evaluation looks for the field once more.
Both agree unless a value that is no array of DIDs stands beside the group.

* `Holds`: the meaning of a requirement, expression by expression;
* `evaluateThreshold_holds_iff`: when one threshold is evaluated as it is meant;
* `evaluates_as_meant_iff`: when every expression of a validated policy is.
-/

namespace Mpas.PolicyEngine

open ApprovalRequirements (SignerDecision)

/-! ## The expressions of a policy -/

/-- `nested` is the requirement or an expression inside it. -/
inductive Requirement.Within (nested : Requirement) : Requirement → Prop
  | here : Within nested nested
  | allOf {requirements : List Requirement} {keys : List String} (part : Requirement) :
      part ∈ requirements → Within nested part → Within nested (.allOf requirements keys)
  | anyOf {requirements : List Requirement} {keys : List String} (part : Requirement) :
      part ∈ requirements → Within nested part → Within nested (.anyOf requirements keys)

/-- The requirement expressions at the top: the default one and those of the entries. -/
inductive PolicyConfig.Requires (policy : PolicyConfig) : Requirement → Prop
  | default : Requires policy policy.defaultRequirement
  | entry {operations : List (String × Member (List (Member PolicyEntry)))} {operation : String}
      {entries : List (Member PolicyEntry)} {entry : PolicyEntry} {requirement : Requirement} :
      policy.policies = .given operations → (operation, .given entries) ∈ operations →
      .given entry ∈ entries → entry.requirements = some requirement →
      Requires policy requirement

/-- A requirement expression somewhere in the policy. -/
def PolicyConfig.Contains (policy : PolicyConfig) (nested : Requirement) : Prop :=
  ∃ requirement, policy.Requires requirement ∧ nested.Within requirement

/-! ## Meaning -/

/-- The DIDs of an array. -/
def listedDids : Option Json → List Did
  | some (.arr items) => Json.strings items
  | _ => []

/-- The group when the group is the field that was validated, else the inline list. -/
def effectiveSigners (policy : PolicyConfig) (requirement : ThresholdRequirement) : List Did :=
  if isGroupName requirement.eligibleSignerGroup then
    match requirement.eligibleSignerGroup, policy.signerGroups with
    | some (.str group), .given signerGroups => listedDids (signerGroups.lookup group)
    | _, _ => []
  else listedDids requirement.eligibleSigners

section

variable (policy : PolicyConfig) (verifiedApprovals : VerifiedApprovals) (proposerDid : Did)

/-- At least `threshold` distinct Signers other than the Proposer gave the decision. -/
def ThresholdRequirement.Holds (requirement : ThresholdRequirement) : Prop :=
  ∃ (k : Nat) (signers : Finset Did), requirement.threshold = some (.num (.ofNat k)) ∧
    k ≤ signers.card ∧ ∀ did ∈ signers, did ≠ proposerDid ∧
      did ∈ effectiveSigners policy requirement ∧
      ∃ approval ∈ verifiedApprovals.approvals, approval.signerDid = did ∧
        .str approval.decision.text = Json.nullish requirement.decision (.str "approve")

inductive Requirement.Holds : Requirement → Prop
  | proposerOnly {keys : List String} : Holds (.proposerOnly keys)
  | threshold {requirement : ThresholdRequirement} :
      requirement.Holds policy verifiedApprovals proposerDid → Holds (.threshold requirement)
  | allOf {requirements : List Requirement} {keys : List String} :
      (∀ part ∈ requirements, Holds part) → Holds (.allOf requirements keys)
  | anyOf {requirements : List Requirement} {keys : List String} (part : Requirement) :
      part ∈ requirements → Holds part → Holds (.anyOf requirements keys)

end

/-! ## A value beside the group -/

/-- What stands in `eligibleSigners` beside a group, but for a value that is falsy or
of no positive length. -/
def ThresholdRequirement.stray (requirement : ThresholdRequirement) : Option Json :=
  if isGroupName requirement.eligibleSignerGroup then
    requirement.eligibleSigners.filter fun v =>
      v.truthy && decide (v.hasPositiveLength ≠ .ok false)
  else none

theorem ThresholdRequirement.stray_absent {requirement : ThresholdRequirement}
    (h : requirement.eligibleSigners = none) : requirement.stray = none := by
  unfold ThresholdRequirement.stray
  rw [h]
  split <;> rfl

/-- The DIDs among what a value iterates over: its items, or the characters of a text. -/
def iteratedDids : Json → List Did
  | .arr items => Json.strings items
  | .str s => s.toList.map fun c => String.ofList [c]
  | _ => []

/-- A value beside the group that cannot be iterated over: an object, with a positive
length or with one that no number can be compared with. -/
def ThresholdRequirement.NoList (requirement : ThresholdRequirement) : Prop :=
  ∃ members, requirement.stray = some (.obj members)

/-- What stands beside the group lists the group's DIDs, or neither can reach the threshold. -/
def ThresholdRequirement.StrayAgrees (policy : PolicyConfig)
    (requirement : ThresholdRequirement) : Prop :=
  ∀ v, requirement.stray = some v →
    (iteratedDids v).toFinset = (effectiveSigners policy requirement).toFinset ∨
      Json.countReaches (iteratedDids v).toFinset.card requirement.threshold = .ok false ∧
        Json.countReaches (effectiveSigners policy requirement).toFinset.card
          requirement.threshold = .ok false

/-- Evaluating the requirement comes to a threshold with a value that is no list,
as the branches of an `anyOf` are evaluated until one holds. -/
inductive Requirement.Stuck (policy : PolicyConfig) (verifiedApprovals : VerifiedApprovals)
    (proposerDid : Did) : Requirement → Prop
  | threshold {requirement : ThresholdRequirement} :
      requirement.NoList → Stuck policy verifiedApprovals proposerDid (.threshold requirement)
  | allOf {requirements : List Requirement} {keys : List String} (part : Requirement) :
      part ∈ requirements → Stuck policy verifiedApprovals proposerDid part →
      Stuck policy verifiedApprovals proposerDid (.allOf requirements keys)
  | anyOf {before after : List Requirement} {keys : List String} {part : Requirement} :
      (∀ earlier ∈ before, ¬earlier.Holds policy verifiedApprovals proposerDid) →
      Stuck policy verifiedApprovals proposerDid part →
      Stuck policy verifiedApprovals proposerDid (.anyOf (before ++ part :: after) keys)

/-! ## The Signers an evaluation reads -/

/-- The DIDs that the evaluation looks Signers up in. -/
def readDids (policy : PolicyConfig) (requirement : ThresholdRequirement) : List Did :=
  match requirement.stray with
  | some v => iteratedDids v
  | none => effectiveSigners policy requirement

theorem mem_strings_newSet {v : Json} {eligible : List Json} (h : Json.newSet v = .ok eligible)
    (did : Did) : did ∈ Json.strings eligible ↔ did ∈ iteratedDids v := by
  unfold Json.newSet at h
  split at h
  · cases h
    exact Json.mem_strings_distinct
  · rename_i s
    cases h
    rw [Json.mem_strings_distinct, Json.mem_strings]
    simp [iteratedDids]
  · cases h

variable {policy : PolicyConfig} {signerGroups : List (String × Json)}

/-- An array of DIDs is read as it stands. -/
theorem eligibleSet_didArray {v : Json} (h : isDidArray (some v) = true) :
    ∃ eligible, eligibleSet v = .ok eligible ∧
      ∀ did, did ∈ Json.strings eligible ↔ did ∈ listedDids (some v) := by
  obtain ⟨items, hitems, hne⟩ := isDidArray_cases h
  cases hitems
  have hset : eligibleSet (.arr items) = Json.newSet (.arr items) :=
    eligibleSet_positive (by simp [Json.hasPositiveLength, hne])
  exact ⟨Json.distinct items, hset, fun did => Json.mem_strings_distinct⟩

/-- Only the length of an object can fail to be compared. -/
theorem hasPositiveLength_error {v : Json} {e : JsError} (h : v.hasPositiveLength = .error e) :
    e = .typeError ∧ ∃ members, v = .obj members := by
  cases v with
  | obj members =>
    refine ⟨?_, members, rfl⟩
    simp only [Json.hasPositiveLength, Json.coerceNumber] at h
    split at h
    · split at h <;> cases h
      rfl
    · cases h
  | _ => cases h

theorem eligibleSigners_stray {requirement : ThresholdRequirement} {v : Json}
    (hinline : requirement.eligibleSigners = some v)
    (h : (v.truthy && decide (v.hasPositiveLength ≠ .ok false)) = true) :
    (∃ members, v = .obj members) ∧ eligibleSigners policy requirement = .error .typeError ∨
      (¬∃ members, v = .obj members) ∧ ∃ eligible,
        eligibleSigners policy requirement = .ok eligible ∧
        ∀ did, did ∈ Json.strings eligible ↔ did ∈ iteratedDids v := by
  obtain ⟨htruthy, hlength⟩ := Bool.and_eq_true_iff.mp h
  have hlength := of_decide_eq_true hlength
  cases hread : v.hasPositiveLength with
  | error e =>
    obtain ⟨rfl, hmembers⟩ := hasPositiveLength_error hread
    refine Or.inl ⟨hmembers, ?_⟩
    simp [eligibleSigners, resolveEligibleSigners, ThresholdRequirement.inlineSigners, hinline,
      htruthy, hread, Except.map, bind, Except.bind]
  | ok positive =>
    have hpositive : positive = true := by
      cases positive with
      | true => rfl
      | false => exact absurd hread hlength
    subst hpositive
    have hset : eligibleSigners policy requirement = Json.newSet v := by
      simp [eligibleSigners, resolveEligibleSigners, ThresholdRequirement.inlineSigners, hinline,
        htruthy, hread, Except.map, bind, Except.bind, pure, Except.pure,
        eligibleSet_positive hread]
    rw [hset]
    cases v with
    | null => cases hread
    | bool b => cases hread
    | num n => cases hread
    | str s => exact Or.inr ⟨by simp, _, rfl, mem_strings_newSet rfl⟩
    | arr items => exact Or.inr ⟨by simp, _, rfl, mem_strings_newSet rfl⟩
    | obj members => exact Or.inl ⟨⟨members, rfl⟩, rfl⟩

/-- Exactly one of the two fields is validated; the evaluation reads that one,
or what stands beside the group. -/
theorem eligibleSigners_cases (hgroups : policy.signerGroups = .given signerGroups)
    (hsigners : validateSignerGroups signerGroups = none) {path : String}
    {requirement : ThresholdRequirement}
    (h : validateThreshold signerGroups path requirement = none) :
    requirement.NoList ∧ eligibleSigners policy requirement = .error .typeError ∨
      ¬requirement.NoList ∧ ∃ eligible, eligibleSigners policy requirement = .ok eligible ∧
        ∀ did, did ∈ Json.strings eligible ↔ did ∈ readDids policy requirement := by
  simp only [validateThreshold, check_eq_none] at h
  obtain ⟨-, -, hsource, hgroup, -⟩ := h
  cases hname : isGroupName requirement.eligibleSignerGroup with
  | false =>
    have hdids : isDidArray requirement.eligibleSigners = true := by simpa [hname] using hsource
    obtain ⟨items, hitems, hne⟩ := isDidArray_cases hdids
    have hresolve : eligibleSigners policy requirement = eligibleSet (.arr items) := by
      simp [eligibleSigners, resolveEligibleSigners, ThresholdRequirement.inlineSigners, hitems,
        Json.truthy, Json.hasPositiveLength, hne, Except.map, bind, Except.bind, pure, Except.pure]
    have hread : readDids policy requirement = listedDids (some (.arr items)) := by
      simp [readDids, ThresholdRequirement.stray, effectiveSigners, hname, hitems]
    have hlist : ¬requirement.NoList := by
      simp [ThresholdRequirement.NoList, ThresholdRequirement.stray, hname]
    rw [hresolve, hread]
    rw [hitems] at hdids
    exact Or.inr ⟨hlist, eligibleSet_didArray hdids⟩
  | true =>
    obtain ⟨name, signers, hne, hgiven, hlook⟩ :=
      namedGroup hname (by simpa [hname] using hgroup)
    cases hstray : requirement.stray with
    | some v =>
      have hv : requirement.eligibleSigners = some v ∧
          (v.truthy && decide (v.hasPositiveLength ≠ .ok false)) = true := by
        unfold ThresholdRequirement.stray at hstray
        rw [if_pos hname] at hstray
        exact Option.filter_eq_some_iff.mp hstray
      have hread : readDids policy requirement = iteratedDids v := by simp [readDids, hstray]
      rw [hread, ThresholdRequirement.NoList, hstray]
      simpa [eq_comm] using eligibleSigners_stray hv.1 hv.2
    | none =>
      have hinline : requirement.inlineSigners = .ok none := by
        unfold ThresholdRequirement.stray at hstray
        rw [if_pos hname] at hstray
        unfold ThresholdRequirement.inlineSigners
        cases hv : requirement.eligibleSigners with
        | none => rfl
        | some v =>
          rw [hv, Option.filter_some] at hstray
          cases htruthy : v.truthy with
          | false => simp [htruthy]
          | true =>
            have hlength : v.hasPositiveLength = .ok false := by
              simpa [htruthy] using hstray
            simp [htruthy, hlength, Except.map]
      have hresolve : eligibleSigners policy requirement = eligibleSet signers := by
        simp [eligibleSigners, resolveEligibleSigners, hinline, hgiven, hgroups, hne, hlook, bind,
          Except.bind, pure, Except.pure]
      have hread : readDids policy requirement = listedDids (some signers) := by
        simp only [hgiven] at hname
        simp [readDids, hstray, effectiveSigners, hname, hgiven, hgroups, hlook]
      have hlist : ¬requirement.NoList := by simp [ThresholdRequirement.NoList, hstray]
      rw [hresolve, hread]
      exact Or.inr ⟨hlist, eligibleSet_didArray (isDidArray_of_validateSignerGroups hsigners hlook)⟩

/-! ## One threshold -/

/-- The Signers that a vote gives the decision. -/
def givers (decision : Json) (votes : List SignerDecision) : Finset Did :=
  ((votes.filter fun vote => decide (.str vote.decision.text = decision)).map
    (·.signerDid)).toFinset

theorem mem_givers {decision : Json} {votes : List SignerDecision} {did : Did} :
    did ∈ givers decision votes ↔ ∃ d : Decision, ⟨did, d⟩ ∈ votes ∧ .str d.text = decision := by
  simp only [givers, List.mem_toFinset, List.mem_map, List.mem_filter, decide_eq_true_eq]
  constructor
  · rintro ⟨⟨_, d⟩, ⟨hvote, hd⟩, rfl⟩
    exact ⟨d, hvote, hd⟩
  · rintro ⟨d, hvote, hd⟩
    exact ⟨⟨did, d⟩, ⟨hvote, hd⟩, rfl⟩

/-- Distinct supporters are the eligible Signers that gave the decision. -/
theorem supporters_length {eligible : List Json} (hnodup : (Json.strings eligible).Nodup)
    (decision : Json) (votes : List SignerDecision) :
    (supporters eligible decision votes).length =
      ((Json.strings eligible).toFinset ∩ givers decision votes).card := by
  rw [← List.toFinset_card_of_nodup (supporters_nodup hnodup decision votes)]
  congr 1
  ext did
  rw [List.mem_toFinset, mem_supporters, Finset.mem_inter, List.mem_toFinset, mem_givers]

variable {verifiedApprovals : VerifiedApprovals} {proposerDid : Did}

theorem holds_iff_reached {requirement : ThresholdRequirement} {k : Nat}
    (hthreshold : requirement.threshold = some (.num (.ofNat k))) :
    requirement.Holds policy verifiedApprovals proposerDid ↔
      Quorum.Reached k (effectiveSigners policy requirement).toFinset
        (givers (Json.nullish requirement.decision (.str "approve"))
          (votesOf proposerDid verifiedApprovals.decisions)) := by
  have hpresent : ∀ did, did ∈ givers (Json.nullish requirement.decision (.str "approve"))
      (votesOf proposerDid verifiedApprovals.decisions) ↔ did ≠ proposerDid ∧
        ∃ approval ∈ verifiedApprovals.approvals, approval.signerDid = did ∧
          .str approval.decision.text = Json.nullish requirement.decision (.str "approve") := by
    intro did
    simp only [mem_givers, votesOf, VerifiedApprovals.decisions, List.mem_filter, List.mem_map,
      decide_eq_true_eq]
    constructor
    · rintro ⟨d, ⟨⟨approval, hmem, heq⟩, hother⟩, hd⟩
      cases heq
      exact ⟨hother, approval, hmem, rfl, hd⟩
    · rintro ⟨hother, approval, hmem, rfl, hd⟩
      exact ⟨approval.decision, ⟨⟨approval, hmem, rfl⟩, hother⟩, hd⟩
  constructor
  · rintro ⟨k', signers, hk', hcard, hall⟩
    have hsame : k' = k := threshold_unique hk' hthreshold
    have hsub : signers ⊆ (effectiveSigners policy requirement).toFinset ∩
        givers (Json.nullish requirement.decision (.str "approve"))
          (votesOf proposerDid verifiedApprovals.decisions) := by
      intro did hdid
      obtain ⟨hother, heligible, hgave⟩ := hall did hdid
      exact Finset.mem_inter.mpr ⟨List.mem_toFinset.mpr heligible, (hpresent did).mpr ⟨hother, hgave⟩⟩
    have hle := Finset.card_le_card hsub
    unfold Quorum.Reached
    omega
  · intro hreached
    refine ⟨k, _, hthreshold, hreached, fun did hdid => ?_⟩
    obtain ⟨heligible, hgave⟩ := Finset.mem_inter.mp hdid
    obtain ⟨hother, happroval⟩ := (hpresent did).mp hgave
    exact ⟨hother, List.mem_toFinset.mp heligible, happroval⟩

/-- What a validated threshold evaluates to. -/
theorem thresholdVerdict_validated (hgroups : policy.signerGroups = .given signerGroups)
    (hsigners : validateSignerGroups signerGroups = none) {path : String}
    {requirement : ThresholdRequirement}
    (h : validateThreshold signerGroups path requirement = none) {k : Nat} (hk : 0 < k)
    (hthreshold : requirement.threshold = some (.num (.ofNat k))) (votes : List SignerDecision) :
    requirement.NoList ∧ thresholdVerdict policy votes requirement = .error .typeError ∨
      ¬requirement.NoList ∧ thresholdVerdict policy votes requirement =
        .ok (decide (Quorum.Reached k (readDids policy requirement).toFinset
          (givers (Json.nullish requirement.decision (.str "approve")) votes))) := by
  have hnonzero : Json.strictEquals requirement.threshold (some (.num (.finite 0))) = false := by
    have : (k : ℚ) ≠ 0 := by exact_mod_cast hk.ne'
    simp [hthreshold, Json.strictEquals, JsNumber.ofNat, this]
  unfold thresholdVerdict
  simp only [hnonzero, Bool.false_eq_true, ↓reduceIte]
  rcases eligibleSigners_cases hgroups hsigners h with ⟨hlist, herror⟩ | ⟨hlist, eligible, hok, hmem⟩
  · left
    rw [herror]
    exact ⟨hlist, rfl⟩
  · right
    have hset : (Json.strings eligible).toFinset = (readDids policy requirement).toFinset := by
      ext did
      simpa using hmem did
    rw [hok, hthreshold]
    simp only [Except.bind, Json.countReaches_ofNat]
    rw [supporters_length (eligibleSigners_strings_nodup hok), hset]
    exact ⟨hlist, rfl⟩

theorem readDids_noList {requirement : ThresholdRequirement} (h : requirement.NoList) :
    readDids policy requirement = [] := by
  obtain ⟨members, hmembers⟩ := h
  simp [readDids, hmembers, iteratedDids]

theorem strayAgrees_iff {requirement : ThresholdRequirement} {k : Nat}
    (hthreshold : requirement.threshold = some (.num (.ofNat k))) :
    requirement.StrayAgrees policy ↔
      (readDids policy requirement).toFinset = (effectiveSigners policy requirement).toFinset ∨
        (readDids policy requirement).toFinset.card < k ∧
          (effectiveSigners policy requirement).toFinset.card < k := by
  unfold ThresholdRequirement.StrayAgrees readDids
  cases requirement.stray with
  | none => simp
  | some v => simp [hthreshold]

/-- Any finite set of Signers can be the ones that gave a decision. -/
theorem exists_givers (d : Decision) (present : Finset Did) :
    ∃ (verifiedApprovals : VerifiedApprovals) (proposerDid : Did),
      givers (.str d.text) (votesOf proposerDid verifiedApprovals.decisions) = present := by
  obtain ⟨proposerDid, hproposer⟩ := Infinite.exists_notMem_finset present
  let hash : HashObject := ⟨"sha-256", ""⟩
  refine ⟨⟨hash, present.toList.map fun did => ⟨⟨hash, d, "", "", none⟩, did, d, ""⟩⟩, proposerDid, ?_⟩
  ext did
  simp only [mem_givers, votesOf, VerifiedApprovals.decisions, List.map_map, List.mem_filter,
    List.mem_map, Finset.mem_toList, Function.comp_apply, decide_eq_true_eq]
  constructor
  · rintro ⟨_, ⟨⟨did', hdid', heq⟩, -⟩, -⟩
    cases heq
    exact hdid'
  · intro hdid
    have hother : did ≠ proposerDid := fun h => hproposer (h ▸ hdid)
    exact ⟨d, ⟨⟨did, hdid, rfl⟩, hother⟩, rfl⟩

/-- **One threshold.** It is evaluated as it is meant, whatever the approvals,
exactly if no value beside its group stands in the way. -/
theorem evaluateThreshold_holds_iff (hgroups : policy.signerGroups = .given signerGroups)
    (hsigners : validateSignerGroups signerGroups = none) {path : String}
    {requirement : ThresholdRequirement}
    (h : validateThreshold signerGroups path requirement = none) :
    (∀ verifiedApprovals proposerDid,
      thresholdVerdict policy (votesOf proposerDid verifiedApprovals.decisions) requirement =
          .ok true ↔ requirement.Holds policy verifiedApprovals proposerDid) ↔
      requirement.StrayAgrees policy := by
  obtain ⟨⟨k, hk, hthreshold⟩, ⟨d, -, hdecision⟩, -⟩ := threshold_checked hgroups hsigners h
  -- an object beside the group is read as a list that nobody is on
  have hread : ∀ votes, thresholdVerdict policy votes requirement = .ok true ↔
      Quorum.Reached k (readDids policy requirement).toFinset (givers (.str d.text) votes) := by
    intro votes
    rcases thresholdVerdict_validated hgroups hsigners h hk hthreshold votes with
      ⟨hlist, herror⟩ | ⟨-, hok⟩
    · rw [herror, readDids_noList hlist]
      simp [Quorum.Reached]
      omega
    · rw [hok, hdecision]
      simp
  rw [strayAgrees_iff hthreshold, ← Quorum.same_quorums_iff hk]
  constructor
  · intro hmeant present
    obtain ⟨verifiedApprovals, proposerDid, rfl⟩ := exists_givers d present
    have := hmeant verifiedApprovals proposerDid
    rwa [hread, holds_iff_reached hthreshold, hdecision] at this
  · intro hsame verifiedApprovals proposerDid
    rw [hread, holds_iff_reached hthreshold, hdecision]
    exact hsame _

/-! ## A whole requirement -/

theorem threshold_means (hgroups : policy.signerGroups = .given signerGroups)
    (hsigners : validateSignerGroups signerGroups = none) {path : String}
    {requirement : ThresholdRequirement}
    (h : validateThreshold signerGroups path requirement = none)
    (hagrees : requirement.StrayAgrees policy) :
    Verdict.Means requirement.NoList (requirement.Holds policy verifiedApprovals proposerDid)
      (thresholdVerdict policy (votesOf proposerDid verifiedApprovals.decisions) requirement) := by
  have hmeant := (evaluateThreshold_holds_iff hgroups hsigners h).mpr hagrees verifiedApprovals
    proposerDid
  obtain ⟨⟨k, hk, hthreshold⟩, -⟩ := threshold_checked hgroups hsigners h
  rcases thresholdVerdict_validated hgroups hsigners h hk hthreshold
    (votesOf proposerDid verifiedApprovals.decisions) with ⟨hlist, herror⟩ | ⟨hlist, hok⟩
  · rw [herror]
    exact hlist
  · rw [hok] at hmeant ⊢
    exact ⟨hlist, by rw [← hmeant, Except.ok.injEq]⟩

theorem validateNested_mem {path : String} {requirements : List Requirement} :
    ∀ {index : Nat}, validateNested signerGroups path index requirements = none →
      ∀ part ∈ requirements, ∃ path, validateRequirement signerGroups path part = none := by
  induction requirements with
  | nil => simp
  | cons part rest ih =>
    intro index h
    unfold validateNested at h
    split at h
    · cases h
    · rename_i hpart
      exact List.forall_mem_cons.mpr ⟨⟨_, hpart⟩, ih h⟩

/-- Every threshold in the requirement agrees with what stands beside its group. -/
def Requirement.StraysAgree (policy : PolicyConfig) (requirement : Requirement) : Prop :=
  ∀ threshold : ThresholdRequirement,
    (Requirement.threshold threshold).Within requirement → threshold.StrayAgrees policy

section

variable (policy : PolicyConfig) (verifiedApprovals : VerifiedApprovals) (proposerDid : Did)

/-- The first branch that gets stuck comes before any that holds. -/
def AnyStuck (requirements : List Requirement) : Prop :=
  ∃ before part after, requirements = before ++ part :: after ∧
    (∀ earlier ∈ before, ¬earlier.Holds policy verifiedApprovals proposerDid) ∧
    part.Stuck policy verifiedApprovals proposerDid

theorem stuck_allOf_iff {requirements : List Requirement} {keys : List String} :
    (Requirement.allOf requirements keys).Stuck policy verifiedApprovals proposerDid ↔
      ∃ part ∈ requirements, part.Stuck policy verifiedApprovals proposerDid := by
  constructor
  · rintro (_ | ⟨part, hmem, hstuck⟩)
    exact ⟨part, hmem, hstuck⟩
  · rintro ⟨part, hmem, hstuck⟩
    exact .allOf part hmem hstuck

theorem stuck_anyOf_iff {requirements : List Requirement} {keys : List String} :
    (Requirement.anyOf requirements keys).Stuck policy verifiedApprovals proposerDid ↔
      AnyStuck policy verifiedApprovals proposerDid requirements := by
  constructor
  · intro h
    cases h with
    | anyOf hbefore hstuck => exact ⟨_, _, _, rfl, hbefore, hstuck⟩
  · rintro ⟨before, part, after, rfl, hbefore, hstuck⟩
    exact .anyOf hbefore hstuck

theorem holds_allOf_iff {requirements : List Requirement} {keys : List String} :
    (Requirement.allOf requirements keys).Holds policy verifiedApprovals proposerDid ↔
      ∀ part ∈ requirements, part.Holds policy verifiedApprovals proposerDid := by
  constructor
  · intro h
    cases h with
    | allOf hall => exact hall
  · exact .allOf

theorem holds_anyOf_iff {requirements : List Requirement} {keys : List String} :
    (Requirement.anyOf requirements keys).Holds policy verifiedApprovals proposerDid ↔
      ∃ part ∈ requirements, part.Holds policy verifiedApprovals proposerDid := by
  constructor
  · intro h
    cases h with
    | anyOf part hmem hholds => exact ⟨part, hmem, hholds⟩
  · rintro ⟨part, hmem, hholds⟩
    exact .anyOf part hmem hholds

theorem holds_threshold_iff {requirement : ThresholdRequirement} :
    (Requirement.threshold requirement).Holds policy verifiedApprovals proposerDid ↔
      requirement.Holds policy verifiedApprovals proposerDid := by
  constructor
  · intro h
    cases h with
    | threshold hholds => exact hholds
  · exact .threshold

theorem stuck_threshold_iff {requirement : ThresholdRequirement} :
    (Requirement.threshold requirement).Stuck policy verifiedApprovals proposerDid ↔
      requirement.NoList := by
  constructor
  · intro h
    cases h with
    | threshold hlist => exact hlist
  · exact .threshold

end

theorem verdict_means (hgroups : policy.signerGroups = .given signerGroups)
    (hsigners : validateSignerGroups signerGroups = none) :
    ∀ (requirement : Requirement) (path : String),
      validateRequirement signerGroups path requirement = none →
      requirement.StraysAgree policy →
      Verdict.Means (requirement.Stuck policy verifiedApprovals proposerDid)
        (requirement.Holds policy verifiedApprovals proposerDid)
        (verdict policy (votesOf proposerDid verifiedApprovals.decisions) requirement)
  | .proposerOnly keys, path, h, hagree => by
    have hfree : ¬(Requirement.proposerOnly keys).Stuck policy verifiedApprovals proposerDid := by
      rintro ⟨⟩
    exact ⟨hfree, by simp [Requirement.Holds.proposerOnly]⟩
  | .threshold requirement, path, h, hagree => by
    refine Verdict.Means.congr (stuck_threshold_iff ..).symm (holds_threshold_iff ..).symm ?_
    exact threshold_means hgroups hsigners h (hagree requirement .here)
  | .allOf requirements keys, path, h, hagree => by
    simp only [validateRequirement, check_eq_none, not_not] at h
    rw [verdict, verdicts_eq_map]
    refine (Verdict.means_all fun part hmem => ?_).congr (stuck_allOf_iff ..).symm
      (holds_allOf_iff ..).symm
    obtain ⟨path', hpart⟩ := validateNested_mem h.2.2 part hmem
    exact verdict_means hgroups hsigners part path' hpart
      fun threshold hwithin => hagree threshold (.allOf part hmem hwithin)
  | .anyOf requirements keys, path, h, hagree => by
    simp only [validateRequirement, check_eq_none, not_not] at h
    rw [verdict, verdicts_eq_map]
    refine (Verdict.means_any fun part hmem => ?_).congr (stuck_anyOf_iff ..).symm
      (holds_anyOf_iff ..).symm
    obtain ⟨path', hpart⟩ := validateNested_mem h.2.2 part hmem
    exact verdict_means hgroups hsigners part path' hpart
      fun threshold hwithin => hagree threshold (.anyOf part hmem hwithin)
  | .allOfNothing keys, path, h, hagree => by simp [validateRequirement, check_eq_none] at h
  | .anyOfNothing keys, path, h, hagree => by simp [validateRequirement, check_eq_none] at h
  | .other value, path, h, hagree => by simp [validateRequirement, check_eq_none] at h

/-! ## A requirement as its thresholds are read -/

/-- The requirement as its thresholds are read. -/
inductive Reads (holds : ThresholdRequirement → Prop) : Requirement → Prop
  | proposerOnly {keys : List String} : Reads holds (.proposerOnly keys)
  | threshold {requirement : ThresholdRequirement} :
      holds requirement → Reads holds (.threshold requirement)
  | allOf {requirements : List Requirement} {keys : List String} :
      (∀ part ∈ requirements, Reads holds part) → Reads holds (.allOf requirements keys)
  | anyOf {requirements : List Requirement} {keys : List String} (part : Requirement) :
      part ∈ requirements → Reads holds part → Reads holds (.anyOf requirements keys)

/-- Reading the requirement comes to a threshold beside whose group there is an
object, as the branches of an `anyOf` are read until one holds. -/
inductive Halts (holds : ThresholdRequirement → Prop) : Requirement → Prop
  | threshold {requirement : ThresholdRequirement} :
      requirement.NoList → Halts holds (.threshold requirement)
  | allOf {requirements : List Requirement} {keys : List String} (part : Requirement) :
      part ∈ requirements → Halts holds part → Halts holds (.allOf requirements keys)
  | anyOf {before after : List Requirement} {keys : List String} {part : Requirement} :
      (∀ earlier ∈ before, ¬Reads holds earlier) → Halts holds part →
      Halts holds (.anyOf (before ++ part :: after) keys)

/-- Enough distinct backers are among the DIDs that the evaluation reads. -/
def Backed (policy : PolicyConfig) (backers : Json → Finset Did)
    (requirement : ThresholdRequirement) : Prop :=
  ∃ k : Nat, requirement.threshold = some (.num (.ofNat k)) ∧
    Quorum.Reached k (readDids policy requirement).toFinset
      (backers (Json.nullish requirement.decision (.str "approve")))

/-- Every part of the requirement is required. -/
def Requirement.Conjunctive (requirement : Requirement) : Prop :=
  ∀ requirements keys, ¬(Requirement.anyOf requirements keys).Within requirement

/-- Nothing in the requirement is required beside something else. -/
def Requirement.Disjunctive (requirement : Requirement) : Prop :=
  ∀ requirements keys, ¬(Requirement.allOf requirements keys).Within requirement

section Reading

variable {requirement : Requirement} {holds : ThresholdRequirement → Prop}

theorem reads_threshold_iff {threshold : ThresholdRequirement} :
    Reads holds (.threshold threshold) ↔ holds threshold := by
  constructor
  · intro h
    cases h with
    | threshold hholds => exact hholds
  · exact .threshold

theorem reads_allOf_iff {requirements : List Requirement} {keys : List String} :
    Reads holds (.allOf requirements keys) ↔ ∀ part ∈ requirements, Reads holds part := by
  constructor
  · intro h
    cases h with
    | allOf hall => exact hall
  · exact .allOf

theorem reads_anyOf_iff {requirements : List Requirement} {keys : List String} :
    Reads holds (.anyOf requirements keys) ↔ ∃ part ∈ requirements, Reads holds part := by
  constructor
  · intro h
    cases h with
    | anyOf part hmem hreads => exact ⟨part, hmem, hreads⟩
  · rintro ⟨part, hmem, hreads⟩
    exact .anyOf part hmem hreads

theorem halts_threshold_iff {threshold : ThresholdRequirement} :
    Halts holds (.threshold threshold) ↔ threshold.NoList := by
  constructor
  · intro h
    cases h with
    | threshold hlist => exact hlist
  · exact .threshold

theorem halts_allOf_iff {requirements : List Requirement} {keys : List String} :
    Halts holds (.allOf requirements keys) ↔ ∃ part ∈ requirements, Halts holds part := by
  constructor
  · intro h
    cases h with
    | allOf part hmem hhalts => exact ⟨part, hmem, hhalts⟩
  · rintro ⟨part, hmem, hhalts⟩
    exact .allOf part hmem hhalts

theorem halts_anyOf_iff {requirements : List Requirement} {keys : List String} :
    Halts holds (.anyOf requirements keys) ↔ ∃ before part after,
      requirements = before ++ part :: after ∧ (∀ earlier ∈ before, ¬Reads holds earlier) ∧
        Halts holds part := by
  constructor
  · intro h
    cases h with
    | anyOf hbefore hhalts => exact ⟨_, _, _, rfl, hbefore, hhalts⟩
  · rintro ⟨before, part, after, rfl, hbefore, hhalts⟩
    exact .anyOf hbefore hhalts

/-- A verdict on a validated requirement comes from its thresholds. -/
theorem verdict_reads {votes : List SignerDecision} (hchecked : requirement.Checked policy)
    (hleaf : ∀ threshold : ThresholdRequirement, (Requirement.threshold threshold).Within requirement →
      Verdict.Means threshold.NoList (holds threshold) (thresholdVerdict policy votes threshold)) :
    Verdict.Means (Halts holds requirement) (Reads holds requirement)
      (verdict policy votes requirement) := by
  induction hchecked with
  | proposerOnly =>
    have hfree : ¬Halts holds (.proposerOnly []) := by rintro ⟨⟩
    exact ⟨hfree, by simp [Reads.proposerOnly]⟩
  | threshold =>
    exact (hleaf _ .here).congr halts_threshold_iff.symm reads_threshold_iff.symm
  | allOf _ ih =>
    rw [verdict, verdicts_eq_map]
    have hparts := Verdict.means_all fun part hmem =>
      ih part hmem fun threshold hwithin => hleaf threshold (.allOf part hmem hwithin)
    exact hparts.congr halts_allOf_iff.symm reads_allOf_iff.symm
  | anyOf _ _ ih =>
    rw [verdict, verdicts_eq_map]
    have hparts := Verdict.means_any fun part hmem =>
      ih part hmem fun threshold hwithin => hleaf threshold (.anyOf part hmem hwithin)
    exact hparts.congr halts_anyOf_iff.symm reads_anyOf_iff.symm

/-- Enough votes for a validated threshold are enough of its backers. -/
theorem thresholdVerdict_backed {signerGroups : List (String × Json)}
    (hgroups : policy.signerGroups = .given signerGroups)
    (hsigners : validateSignerGroups signerGroups = none) {path : String}
    {threshold : ThresholdRequirement}
    (hvalid : validateThreshold signerGroups path threshold = none) {votes : List SignerDecision}
    {backers : Json → Finset Did} (hbackers : ∀ decision, givers decision votes = backers decision) :
    Verdict.Means threshold.NoList (Backed policy backers threshold)
      (thresholdVerdict policy votes threshold) := by
  obtain ⟨⟨k, hk, hthreshold⟩, -⟩ := threshold_checked hgroups hsigners hvalid
  have hbacked : Backed policy backers threshold ↔
      Quorum.Reached k (readDids policy threshold).toFinset
        (givers (Json.nullish threshold.decision (.str "approve")) votes) := by
    rw [hbackers]
    constructor
    · rintro ⟨k', hk', hreached⟩
      rwa [threshold_unique hthreshold hk']
    · exact fun hreached => ⟨k, hthreshold, hreached⟩
  rcases thresholdVerdict_validated hgroups hsigners hvalid hk hthreshold votes with
    ⟨hlist, herror⟩ | ⟨hlist, hok⟩
  · rw [herror]
    exact hlist
  · rw [hok]
    exact ⟨hlist, by rw [hbacked, decide_eq_true_eq]⟩

/-- The verdict on a requirement of which the validation has accepted every threshold. -/
theorem verdict_backed {signerGroups : List (String × Json)}
    (hgroups : policy.signerGroups = .given signerGroups)
    (hsigners : validateSignerGroups signerGroups = none) (hchecked : requirement.Checked policy)
    (hvalid : ∀ threshold : ThresholdRequirement, (Requirement.threshold threshold).Within requirement →
      ∃ path, validateThreshold signerGroups path threshold = none)
    {votes : List SignerDecision} {backers : Json → Finset Did}
    (hbackers : ∀ decision, givers decision votes = backers decision) :
    Verdict.Means (Halts (Backed policy backers) requirement)
      (Reads (Backed policy backers) requirement) (verdict policy votes requirement) := by
  refine verdict_reads hchecked fun threshold hwithin => ?_
  obtain ⟨path, hthreshold⟩ := hvalid threshold hwithin
  exact thresholdVerdict_backed hgroups hsigners hthreshold hbackers

theorem Reads.mono {holds' : ThresholdRequirement → Prop} (h : Reads holds requirement)
    (hmono : ∀ threshold : ThresholdRequirement, (Requirement.threshold threshold).Within requirement →
      holds threshold → holds' threshold) : Reads holds' requirement := by
  induction h with
  | proposerOnly => exact .proposerOnly
  | threshold hholds => exact .threshold (hmono _ .here hholds)
  | allOf _ ih =>
    exact .allOf fun part hmem =>
      ih part hmem fun threshold hwithin => hmono threshold (.allOf part hmem hwithin)
  | anyOf part hmem _ ih =>
    exact .anyOf part hmem
      (ih fun threshold hwithin => hmono threshold (.anyOf part hmem hwithin))

theorem Halts.noList (h : Halts holds requirement) :
    ∃ threshold : ThresholdRequirement, (Requirement.threshold threshold).Within requirement ∧
      threshold.NoList := by
  induction h with
  | threshold hlist => exact ⟨_, .here, hlist⟩
  | allOf part hmem _ ih =>
    obtain ⟨threshold, hwithin, hlist⟩ := ih
    exact ⟨threshold, .allOf part hmem hwithin, hlist⟩
  | anyOf _ _ ih =>
    obtain ⟨threshold, hwithin, hlist⟩ := ih
    exact ⟨threshold, .anyOf _ (List.mem_append_right _ List.mem_cons_self) hwithin, hlist⟩

theorem Requirement.Conjunctive.reads (hconj : requirement.Conjunctive)
    (h : Reads holds requirement) {threshold : ThresholdRequirement}
    (hwithin : (Requirement.threshold threshold).Within requirement) : holds threshold := by
  induction hwithin with
  | here => exact reads_threshold_iff.mp h
  | allOf part hmem _ ih =>
    exact ih (fun requirements keys hany => hconj requirements keys (.allOf part hmem hany))
      (reads_allOf_iff.mp h part hmem)
  | anyOf => exact absurd .here (hconj _ _)

theorem Requirement.Conjunctive.halts (hconj : requirement.Conjunctive)
    {threshold : ThresholdRequirement}
    (hwithin : (Requirement.threshold threshold).Within requirement) (hlist : threshold.NoList) :
    Halts holds requirement := by
  induction hwithin with
  | here => exact .threshold hlist
  | allOf part hmem _ ih =>
    exact .allOf part hmem
      (ih fun requirements keys hany => hconj requirements keys (.allOf part hmem hany))
  | anyOf => exact absurd .here (hconj _ _)

/-- What is read for sure does not halt where more holds. -/
theorem Halts.anti {holds' : ThresholdRequirement → Prop} (h : Halts holds' requirement)
    (hmono : ∀ threshold : ThresholdRequirement, (Requirement.threshold threshold).Within requirement →
      holds threshold → holds' threshold) : Halts holds requirement := by
  induction h with
  | threshold hlist => exact .threshold hlist
  | allOf part hmem _ ih =>
    exact .allOf part hmem
      (ih fun threshold hwithin => hmono threshold (.allOf part hmem hwithin))
  | @anyOf before after keys part hbefore _ ih =>
    have hpart : part ∈ before ++ part :: after := List.mem_append_right _ List.mem_cons_self
    refine .anyOf (fun earlier hmem hreads => hbefore earlier hmem ?_)
      (ih fun threshold hwithin => hmono threshold (.anyOf part hpart hwithin))
    exact hreads.mono fun threshold hwithin =>
      hmono threshold (.anyOf earlier (List.mem_append_left _ hmem) hwithin)

theorem Requirement.Disjunctive.reads (hdisj : requirement.Disjunctive)
    {threshold : ThresholdRequirement}
    (hwithin : (Requirement.threshold threshold).Within requirement) (h : holds threshold) :
    Reads holds requirement := by
  induction hwithin with
  | here => exact .threshold h
  | allOf => exact absurd .here (hdisj _ _)
  | anyOf part hmem _ ih =>
    exact .anyOf part hmem
      (ih fun requirements keys hall => hdisj requirements keys (.anyOf part hmem hall))

/-- Alternatives hold through one threshold, or whatever the thresholds do. -/
theorem Requirement.Disjunctive.exists_of_reads (hdisj : requirement.Disjunctive)
    (h : Reads holds requirement) :
    (∃ threshold : ThresholdRequirement, (Requirement.threshold threshold).Within requirement ∧
      holds threshold) ∨ ∀ holds', Reads holds' requirement := by
  induction h with
  | proposerOnly => exact .inr fun _ => .proposerOnly
  | threshold hholds => exact .inl ⟨_, .here, hholds⟩
  | allOf => exact absurd .here (hdisj _ _)
  | anyOf part hmem _ ih =>
    rcases ih fun requirements keys hall => hdisj requirements keys (.anyOf part hmem hall) with
      ⟨threshold, hwithin, hholds⟩ | hany
    · exact .inl ⟨threshold, .anyOf part hmem hwithin, hholds⟩
    · exact .inr fun holds' => .anyOf part hmem (hany holds')

/-- Where nothing holds, every branch of an `anyOf` is read. -/
theorem Requirement.Disjunctive.halts (hdisj : requirement.Disjunctive)
    {threshold : ThresholdRequirement}
    (hwithin : (Requirement.threshold threshold).Within requirement) (hlist : threshold.NoList)
    (hnot : ¬Reads holds requirement) : Halts holds requirement := by
  induction hwithin with
  | here => exact .threshold hlist
  | allOf => exact absurd .here (hdisj _ _)
  | anyOf part hmem _ ih =>
    have hpart := ih (fun requirements keys hall => hdisj requirements keys (.anyOf part hmem hall))
      fun hreads => hnot (.anyOf part hmem hreads)
    obtain ⟨before, after, rfl⟩ := List.append_of_mem hmem
    exact .anyOf (fun earlier hearlier hreads =>
      hnot (.anyOf earlier (List.mem_append_left _ hearlier) hreads)) hpart

end Reading

/-! ## A whole policy -/

theorem Requirement.Within.trans {inner nested requirement : Requirement}
    (h : inner.Within nested) (h' : nested.Within requirement) : inner.Within requirement := by
  induction h' with
  | here => exact h
  | allOf part hmem _ ih => exact .allOf part hmem ih
  | anyOf part hmem _ ih => exact .anyOf part hmem ih

theorem validateRequirement_within {nested requirement : Requirement}
    (hwithin : nested.Within requirement) :
    ∀ {path : String}, validateRequirement signerGroups path requirement = none →
      ∃ path, validateRequirement signerGroups path nested = none := by
  induction hwithin with
  | here => exact fun h => ⟨_, h⟩
  | allOf part hmem _ ih =>
    intro path h
    simp only [validateRequirement, check_eq_none, not_not] at h
    obtain ⟨path', hpart⟩ := validateNested_mem h.2.2 part hmem
    exact ih hpart
  | anyOf part hmem _ ih =>
    intro path h
    simp only [validateRequirement, check_eq_none, not_not] at h
    obtain ⟨path', hpart⟩ := validateNested_mem h.2.2 part hmem
    exact ih hpart

theorem validateOperations_mem {operations : List (String × Member (List (Member PolicyEntry)))}
    (h : validateOperations signerGroups operations = none) {operation : String}
    {entries : List (Member PolicyEntry)} (hmem : (operation, .given entries) ∈ operations) :
    ∀ item ∈ entries, ∃ path, validatePolicyEntry signerGroups path item = none := by
  induction operations with
  | nil => cases hmem
  | cons listed rest ih =>
    obtain ⟨name, value⟩ := listed
    cases value with
    | absent => cases h
    | other v => cases h
    | given items =>
      unfold validateOperations at h
      split at h
      · cases h
      · rename_i hitems
        rcases List.mem_cons.mp hmem with heq | hrest
        · cases heq
          exact validateItems_mem hitems
        · exact ih h hrest

/-- The requirements of an entry that the validation accepts were validated. -/
theorem validatePolicyEntry_requirements {entry : PolicyEntry} {requirement : Requirement}
    (hrequirement : entry.requirements = some requirement) {path : String}
    (h : validatePolicyEntry signerGroups path (.given entry) = none) :
    ∃ path, validateRequirement signerGroups path requirement = none := by
  simp only [validatePolicyEntry, check_eq_none] at h
  obtain ⟨-, hreject, -, -, -, h⟩ := h
  have hreject' : decide (entry.reject = some (.bool true)) = false := by
    simpa [hrequirement] using hreject
  simp only [hreject', Bool.false_eq_true, ↓reduceIte, hrequirement, Option.getD_some] at h
  split at h
  · cases h
  · rename_i hvalid
    exact ⟨_, hvalid⟩

theorem contains_validated (h : validatePolicyConfig policy = none) :
    ∃ signerGroups, policy.signerGroups = .given signerGroups ∧
      validateSignerGroups signerGroups = none ∧
      ∀ nested, policy.Contains nested →
        ∃ path, validateRequirement signerGroups path nested = none := by
  obtain ⟨signerGroups, hgroups, hsigners, hdefault, hpolicies⟩ := validatePolicyConfig_eq_none h
  refine ⟨signerGroups, hgroups, hsigners, ?_⟩
  rintro nested ⟨requirement, hrequires, hwithin⟩
  cases hrequires with
  | default => exact validateRequirement_within hwithin hdefault
  | entry hgiven hoperation hentry hrequirement =>
    rcases hpolicies with habsent | ⟨operations', hgiven', hvalid⟩
    · rw [hgiven] at habsent
      cases habsent
    · rw [hgiven] at hgiven'
      cases hgiven'
      obtain ⟨path, hitem⟩ := validateOperations_mem hvalid hoperation _ hentry
      obtain ⟨path', hvalidated⟩ := validatePolicyEntry_requirements hrequirement hitem
      exact validateRequirement_within hwithin hvalidated

/-- The entries that an Action is matched with stand in the policy. -/
theorem policyEntriesOf_listed {name : Option String} {entries : List (Member PolicyEntry)}
    (h : policyEntriesOf policy name = .ok entries) {item : Member PolicyEntry}
    (hitem : item ∈ entries) :
    ∃ operations operation, policy.policies = .given operations ∧
      (operation, .given entries) ∈ operations := by
  unfold policyEntriesOf at h
  split at h
  · rename_i name operations hp
    split at h
    · cases h
      cases hitem
    · cases hlook : operations.lookup name with
      | none =>
        rw [hlook] at h
        cases h
        cases hitem
      | some value =>
        rw [hlook] at h
        cases value with
        | given listed =>
          cases h
          obtain ⟨before, after, rfl, -⟩ := List.lookup_eq_some_iff.mp hlook
          exact ⟨_, name, hp, by simp⟩
        | other v =>
          cases hv : v.truthy <;> simp only [hv, Bool.false_eq_true, ↓reduceIte] at h <;> cases h
          cases hitem
        | absent =>
          cases h
          cases hitem
  · cases h
    cases hitem

theorem not_within_other {threshold : ThresholdRequirement} {value : Option Json} :
    ¬(Requirement.threshold threshold).Within (.other value) := by
  rintro ⟨⟩

/-- The thresholds of what a policy requires of an Action stand in the policy. -/
theorem effective_contains {actionPackage : ActionPackage} {requirement : Requirement}
    (heff : effectiveRequirement actionPackage policy = .ok (.requires requirement))
    {threshold : ThresholdRequirement}
    (hwithin : (Requirement.threshold threshold).Within requirement) :
    policy.Contains (.threshold threshold) := by
  unfold effectiveRequirement at heff
  simp only at heff
  cases hentries : policyEntriesOf policy (actionNameOf actionPackage.executionPayload) with
  | error e => cases e <;> simp [hentries, Except.bind] at heff
  | ok entries =>
    simp only [hentries, Except.bind] at heff
    cases hmatched : collectMatching actionPackage entries with
    | error e => cases e <;> simp [hmatched] at heff
    | ok matched =>
      simp only [hmatched] at heff
      split at heff
      · cases heff
      · have hall : ∀ part ∈ matched.map fun entry => entry.requirements.getD (.other none),
            (Requirement.threshold threshold).Within part →
              policy.Contains (.threshold threshold) := by
          intro part hpart hinside
          obtain ⟨entry, hentry, rfl⟩ := List.mem_map.mp hpart
          obtain ⟨item, hitem, hread⟩ := collectMatching_mem hmatched entry hentry
          cases hrequirements : entry.requirements with
          | none => exact absurd hinside (by simp [hrequirements, not_within_other])
          | some part =>
            rw [hrequirements, Option.getD_some] at hinside
            cases item with
            | absent => cases hread
            | other v => cases v <;> cases hread <;> cases hrequirements
            | given _ =>
              cases hread
              obtain ⟨operations, operation, hgiven, hoperation⟩ :=
                policyEntriesOf_listed hentries hitem
              exact ⟨part, .entry hgiven hoperation hitem hrequirements, hinside⟩
        split at heff
        · cases heff
          exact ⟨_, .default, hwithin⟩
        · rename_i part hpart
          cases heff
          exact hall _ (by rw [hpart]; simp) hwithin
        · cases heff
          cases hwithin with
          | allOf part hmem hinside => exact hall part hmem hinside

theorem eq_ok_nil_iff {ε α : Type*} (x : Except ε (List α)) :
    x = .ok [] ↔ x.map List.isEmpty = .ok true := by
  cases x with
  | error e => simp [Except.map]
  | ok items => cases items <;> simp [Except.map]

/-- **Requirements mean what the profile says.** Every expression of a
validated policy is evaluated to its meaning, whatever the approvals, exactly
if what stands beside a group agrees with it and no evaluation of an expression
that holds comes to a value that is no list. -/
theorem evaluates_as_meant_iff (policy : PolicyConfig) (h : validatePolicyConfig policy = none) :
    (∀ nested, policy.Contains nested → ∀ verifiedApprovals proposerDid,
      evaluateRequirement verifiedApprovals policy proposerDid nested = .ok [] ↔
        nested.Holds policy verifiedApprovals proposerDid) ↔
      (∀ requirement, policy.Contains (.threshold requirement) → requirement.StrayAgrees policy) ∧
        ∀ nested, policy.Contains nested → ∀ verifiedApprovals proposerDid,
          nested.Holds policy verifiedApprovals proposerDid →
            ¬nested.Stuck policy verifiedApprovals proposerDid := by
  obtain ⟨signerGroups, hgroups, hsigners, hvalidated⟩ := contains_validated h
  simp only [eq_ok_nil_iff, evaluateRequirement_verdict]
  have hmeans : (∀ requirement, policy.Contains (.threshold requirement) →
      requirement.StrayAgrees policy) →
      ∀ nested, policy.Contains nested → ∀ verifiedApprovals proposerDid,
        verdict policy (votesOf proposerDid (VerifiedApprovals.decisions verifiedApprovals)) nested =
          .ok true ↔ nested.Holds policy verifiedApprovals proposerDid ∧
            ¬nested.Stuck policy verifiedApprovals proposerDid := by
    intro hagree nested hnested verifiedApprovals proposerDid
    obtain ⟨path, hpath⟩ := hvalidated nested hnested
    obtain ⟨requirement, hrequires, hwithin⟩ := hnested
    exact (verdict_means hgroups hsigners nested path hpath fun threshold hthreshold =>
      hagree threshold ⟨requirement, hrequires, hthreshold.trans hwithin⟩).true_iff
  constructor
  · intro hmeant
    have hagree : ∀ requirement, policy.Contains (.threshold requirement) →
        requirement.StrayAgrees policy := by
      intro requirement hcontains
      obtain ⟨path, hpath⟩ := hvalidated _ hcontains
      refine (evaluateThreshold_holds_iff hgroups hsigners hpath).mp
        fun verifiedApprovals proposerDid => ?_
      rw [← holds_threshold_iff]
      exact hmeant _ hcontains verifiedApprovals proposerDid
    refine ⟨hagree, fun nested hnested verifiedApprovals proposerDid hholds => ?_⟩
    have htrue := (hmeant nested hnested verifiedApprovals proposerDid).mpr hholds
    exact ((hmeans hagree nested hnested verifiedApprovals proposerDid).mp htrue).2
  · rintro ⟨hagree, hfree⟩ nested hnested verifiedApprovals proposerDid
    rw [hmeans hagree nested hnested]
    exact and_iff_left_of_imp (hfree nested hnested verifiedApprovals proposerDid)

/-! ## A list beside a group -/

section

/-- One approval of the group `approvers`, with a value beside the group. -/
def approversThreshold (beside : Option Json) : ThresholdRequirement :=
  { threshold := some (.num (.finite 1))
    eligibleSignerGroup := some (.str "approvers")
    eligibleSigners := beside }

def approversPolicy (beside : Option Json) : PolicyConfig :=
  { defaultRequirement := .threshold (approversThreshold beside)
    signerGroups := .given [("all", .arr [.str "did:web:agent", .str "did:web:alice"]),
      ("approvers", .arr [.str "did:web:alice"])] }

theorem approversPolicy_contains {beside : Option Json} {nested : Requirement}
    (h : (approversPolicy beside).Contains nested) :
    nested = .threshold (approversThreshold beside) := by
  obtain ⟨requirement, hrequires, hwithin⟩ := h
  cases hrequires with
  | default =>
    cases hwithin
    rfl
  | entry hgiven => cases hgiven

def malloryApproves : VerifiedApprovals :=
  let hash : HashObject := ⟨"sha-256", "47DEQpj8HBSa-_TImW-5JCeuQeRkm5NMpJWZG3hSuFU"⟩
  let createdAt := "2025-01-01T00:00:00.000Z"
  ⟨hash, [⟨⟨hash, .approve, "header.payload.signature", createdAt, none⟩, "did:web:mallory",
    .approve, createdAt⟩]⟩

theorem evaluates_as_meant_approvers :
    evaluateRequirement malloryApproves (approversPolicy none) "did:web:agent"
        (.threshold (approversThreshold none)) = .ok [] ↔
      Requirement.Holds (approversPolicy none) malloryApproves "did:web:agent"
        (.threshold (approversThreshold none)) := by
  refine (evaluates_as_meant_iff (approversPolicy none) (by decide +kernel)).mpr ⟨?_, ?_⟩ _
    ⟨_, .default, .here⟩ _ _
  · intro requirement hcontains v hstray
    cases approversPolicy_contains hcontains
    rw [ThresholdRequirement.stray_absent rfl] at hstray
    cases hstray
  · intro nested hcontains verifiedApprovals proposerDid _ hstuck
    cases approversPolicy_contains hcontains
    obtain ⟨members, hmembers⟩ := (stuck_threshold_iff ..).mp hstuck
    rw [ThresholdRequirement.stray_absent rfl] at hmembers
    cases hmembers

/-- A list that names one DID twice is not validated, but it is read. -/
def twiceMallory : Json := .arr [.str "did:web:mallory", .str "did:web:mallory"]

theorem mallory_satisfies_approvers :
    validatePolicyConfig (approversPolicy (some twiceMallory)) = none ∧
      evaluateRequirement malloryApproves (approversPolicy (some twiceMallory)) "did:web:agent"
        (approversPolicy (some twiceMallory)).defaultRequirement = .ok [] ∧
      (approversPolicy (some twiceMallory)).Contains
        (approversPolicy (some twiceMallory)).defaultRequirement ∧
      ¬(approversPolicy (some twiceMallory)).defaultRequirement.Holds
        (approversPolicy (some twiceMallory)) malloryApproves "did:web:agent" := by
  refine ⟨by decide +kernel, by decide +kernel, ⟨_, .default, .here⟩, fun hholds => ?_⟩
  have hreached := (holds_iff_reached (k := 1) (by simp [approversThreshold, JsNumber.ofNat])).mp
    ((holds_threshold_iff ..).mp hholds)
  revert hreached
  decide +kernel

end

end Mpas.PolicyEngine
