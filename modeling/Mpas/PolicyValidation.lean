import Mpas.PolicyMeaning

/-!
# Validated policies

What the shape check makes sure of, as far as the evaluation depends on it.

* `effective_checked`: whatever a validated policy requires of an Action, every
  threshold in it has a positive integer, a decision other than `reject` and a
  list of Signers that is not empty;
* `unsatisfied_asks`: so every threshold that an evaluation reports asks for a
  positive number of approvals from a list that can be evaluated.
-/

namespace Mpas.PolicyEngine

/-! ## Validated requirements -/

/-- What the validation makes sure of in a threshold. -/
structure ThresholdRequirement.Checked (policy : PolicyConfig)
    (requirement : ThresholdRequirement) : Prop where
  threshold : ∃ k : Nat, 0 < k ∧ requirement.threshold = some (.num (.ofNat k))
  decision : ∃ d : Decision, d ≠ .reject ∧
    Json.nullish requirement.decision (.str "approve") = .str d.text
  signers : ∀ signers, resolveEligibleSigners policy requirement = .ok signers →
    signers.hasPositiveLength = .ok true

inductive Requirement.Checked (policy : PolicyConfig) : Requirement → Prop
  | proposerOnly : Checked policy (.proposerOnly [])
  | threshold {requirement : ThresholdRequirement} :
      requirement.Checked policy → Checked policy (.threshold requirement)
  | allOf {requirements : List Requirement} :
      (∀ nested ∈ requirements, Checked policy nested) → Checked policy (.allOf requirements [])
  | anyOf {requirements : List Requirement} : requirements ≠ [] →
      (∀ nested ∈ requirements, Checked policy nested) → Checked policy (.anyOf requirements [])

theorem JsNumber.eq_ofNat {n : JsNumber} (hint : n.isInteger = true)
    (hpos : n.lt (.finite 1) = false) : ∃ k : Nat, 0 < k ∧ n = .ofNat k := by
  cases n with
  | finite q =>
    simp only [JsNumber.isInteger, decide_eq_true_eq] at hint
    simp only [JsNumber.lt, decide_eq_false_iff_not, not_lt] at hpos
    have hq : q = (q.num : ℚ) := (Rat.den_eq_one_iff q).mp hint |>.symm
    have hnum : 1 ≤ q.num := by
      rw [hq] at hpos
      exact_mod_cast hpos
    refine ⟨q.num.toNat, by omega, ?_⟩
    rw [JsNumber.ofNat, JsNumber.finite.injEq]
    have : ((q.num.toNat : ℤ) : ℚ) = (q.num : ℚ) := by rw [Int.toNat_of_nonneg (by omega)]
    rw [← Int.cast_natCast, this]
    exact hq
  | infinity negative => simp [JsNumber.isInteger] at hint
  | nan => simp [JsNumber.isInteger] at hint

theorem isDidArray_cases {value : Option Json} (h : isDidArray value = true) :
    ∃ items, value = some (.arr items) ∧ items ≠ [] := by
  unfold isDidArray at h
  split at h
  · rename_i items
    simp only [Bool.and_eq_true, Bool.not_eq_eq_eq_not, Bool.not_true, List.isEmpty_eq_false_iff,
      ne_eq] at h
    exact ⟨items, rfl, h.1.1⟩
  · cases h

variable {policy : PolicyConfig} {signerGroups : List (String × Json)}

theorem isDidArray_of_validateSignerGroups {groups : List (String × Json)}
    (h : validateSignerGroups groups = none) {group : String} {signers : Json}
    (hmem : groups.lookup group = some signers) : isDidArray (some signers) = true := by
  induction groups with
  | nil => cases hmem
  | cons entry rest ih =>
    obtain ⟨name, value⟩ := entry
    unfold validateSignerGroups at h
    split at h
    · rename_i hvalue
      by_cases hname : group = name
      · simp only [hname, List.lookup_cons_self, Option.some.injEq] at hmem
        rwa [← hmem]
      · have : (group == name) = false := by simpa using hname
        simp only [List.lookup_cons, this] at hmem
        exact ih h hmem
    · cases h

/-- Eligible signers written into the threshold, or a group that exists: there are some. -/
theorem resolveEligibleSigners_positive {requirement : ThresholdRequirement}
    (hgroups : policy.signerGroups = .given signerGroups)
    (hvalid : validateSignerGroups signerGroups = none)
    (hsource : isDidArray requirement.eligibleSigners = true ∨
      ∃ group signers, group ≠ "" ∧ requirement.eligibleSignerGroup = some (.str group) ∧
        signerGroups.lookup group = some signers) {signers : Json}
    (h : resolveEligibleSigners policy requirement = .ok signers) :
    signers.hasPositiveLength = .ok true := by
  have hinline : ∀ v, requirement.inlineSigners = .ok (some v) →
      v.hasPositiveLength = .ok true := by
    intro v hv
    unfold ThresholdRequirement.inlineSigners at hv
    split at hv
    · split at hv
      · rename_i w _ _
        cases hlength : w.hasPositiveLength with
        | error e => simp [hlength, Except.map] at hv
        | ok positive =>
          cases positive with
          | false => simp [hlength, Except.map] at hv
          | true =>
            simp only [hlength, Except.map, ↓reduceIte, Except.ok.injEq, Option.some.injEq] at hv
            rw [← hv, hlength]
      · cases hv
    · cases hv
  unfold resolveEligibleSigners at h
  cases hread : requirement.inlineSigners with
  | error e => simp [hread, bind, Except.bind] at h
  | ok inline =>
    cases inline with
    | some v =>
      simp only [hread, bind, Except.bind, pure, Except.pure, Except.ok.injEq] at h
      exact h ▸ hinline v hread
    | none =>
      rcases hsource with hdids | ⟨group, listed, hne, hgroup, hlook⟩
      · obtain ⟨items, hitems, hnonempty⟩ := isDidArray_cases hdids
        simp [ThresholdRequirement.inlineSigners, hitems, Json.truthy, Json.hasPositiveLength,
          hnonempty, Except.map] at hread
      · obtain ⟨items, hitems, hnonempty⟩ :=
          isDidArray_cases (isDidArray_of_validateSignerGroups hvalid hlook)
        cases hitems
        simp only [hread, bind, Except.bind, pure, Except.pure, hgroup, hgroups, hne, hlook,
          ↓reduceIte, Option.getD_some, Except.ok.injEq] at h
        simp [← h, Json.hasPositiveLength, hnonempty]

theorem decision_checked {decision : Option Json} (h : isPositiveDecision decision = true) :
    ∃ d : Decision, d ≠ .reject ∧ Json.nullish decision (.str "approve") = .str d.text := by
  cases decision with
  | none => exact ⟨.approve, by decide, rfl⟩
  | some v =>
    simp only [isPositiveDecision, List.any_cons, List.any_nil, Bool.or_false, Bool.or_eq_true,
      decide_eq_true_eq] at h
    rcases h with rfl | rfl | rfl
    · exact ⟨.approve, by decide, rfl⟩
    · exact ⟨.propose, by decide, rfl⟩
    · exact ⟨.abstain, by decide, rfl⟩

theorem positiveInteger_checked {threshold : Option Json}
    (h : isPositiveInteger threshold = true) :
    ∃ k : Nat, 0 < k ∧ threshold = some (.num (.ofNat k)) := by
  unfold isPositiveInteger at h
  split at h
  · obtain ⟨hint, hpos⟩ := Bool.and_eq_true_iff.mp h
    obtain ⟨k, hk, rfl⟩ := JsNumber.eq_ofNat hint (by simpa using hpos)
    exact ⟨k, hk, rfl⟩
  · cases h

theorem namedGroup {group : Option Json} (hname : isGroupName group = true)
    (h : namesGroup signerGroups group = true) :
    ∃ name signers, name ≠ "" ∧ group = some (.str name) ∧
      signerGroups.lookup name = some signers := by
  unfold isGroupName at hname
  split at hname
  · rename_i name
    obtain ⟨signers, hsigners⟩ := Option.isSome_iff_exists.mp h
    exact ⟨name, signers, by simpa using hname, rfl, hsigners⟩
  · cases hname

/-- One check of a validation that reports the first error. -/
theorem check_eq_none {c : Prop} [Decidable c] {error : String} {rest : Option String} :
    (if c then some error else rest) = none ↔ ¬c ∧ rest = none := by
  by_cases hc : c <;> simp [hc]

theorem threshold_unique {threshold : Option Json} {j k : Nat}
    (hj : threshold = some (.num (.ofNat j))) (hk : threshold = some (.num (.ofNat k))) : j = k := by
  simpa [JsNumber.ofNat] using hj.symm.trans hk

theorem threshold_checked {path : String} {requirement : ThresholdRequirement}
    (hgroups : policy.signerGroups = .given signerGroups)
    (hsigners : validateSignerGroups signerGroups = none)
    (h : validateThreshold signerGroups path requirement = none) :
    requirement.Checked policy := by
  simp only [validateThreshold, check_eq_none] at h
  obtain ⟨-, hthreshold, hsource, hgroup, hdecision, -⟩ := h
  refine ⟨positiveInteger_checked (by simpa using hthreshold),
    decision_checked (by simpa using hdecision), ?_⟩
  apply resolveEligibleSigners_positive hgroups hsigners
  cases hdids : isDidArray requirement.eligibleSigners with
  | true => exact Or.inl rfl
  | false =>
    have hname : isGroupName requirement.eligibleSignerGroup = true := by
      simpa [hdids] using hsource
    exact Or.inr (namedGroup hname (by simpa [hname] using hgroup))

mutual

theorem requirement_checked (hgroups : policy.signerGroups = .given signerGroups)
    (hsigners : validateSignerGroups signerGroups = none) :
    ∀ (requirement : Requirement) (path : String),
      validateRequirement signerGroups path requirement = none → requirement.Checked policy
  | .proposerOnly unexpectedKeys, path, h => by
    by_cases hkeys : unexpectedKeys = []
    · rw [hkeys]
      exact .proposerOnly
    · simp [validateRequirement, hkeys] at h
  | .threshold requirement, path, h => .threshold (threshold_checked hgroups hsigners h)
  | .allOf requirements unexpectedKeys, path, h => by
    simp only [validateRequirement, check_eq_none, not_not] at h
    obtain ⟨rfl, -, hnested⟩ := h
    exact .allOf (nested_checked hgroups hsigners requirements path 0 hnested)
  | .anyOf requirements unexpectedKeys, path, h => by
    simp only [validateRequirement, check_eq_none, not_not] at h
    obtain ⟨rfl, hne, hnested⟩ := h
    exact .anyOf (by simpa using hne) (nested_checked hgroups hsigners requirements path 0 hnested)
  | .allOfNothing unexpectedKeys, path, h => by simp [validateRequirement, check_eq_none] at h
  | .anyOfNothing unexpectedKeys, path, h => by simp [validateRequirement, check_eq_none] at h
  | .other value, path, h => by simp [validateRequirement, check_eq_none] at h

theorem nested_checked (hgroups : policy.signerGroups = .given signerGroups)
    (hsigners : validateSignerGroups signerGroups = none) :
    ∀ (requirements : List Requirement) (path : String) (index : Nat),
      validateNested signerGroups path index requirements = none →
      ∀ nested ∈ requirements, nested.Checked policy
  | [], _, _, _ => by simp
  | nested :: rest, path, index, h => by
    unfold validateNested at h
    split at h
    · cases h
    · rename_i hnested
      have hhead := requirement_checked hgroups hsigners nested _ hnested
      have htail := nested_checked hgroups hsigners rest path (index + 1) h
      exact List.forall_mem_cons.mpr ⟨hhead, htail⟩

end

/-! ## Validated policies -/

theorem validateItems_mem {α : Type} {validate : String → α → Option String} {path : String}
    {items : List α} : ∀ {index : Nat}, validateItems validate path index items = none →
      ∀ item ∈ items, ∃ itemPath, validate itemPath item = none := by
  induction items with
  | nil => simp
  | cons item rest ih =>
    intro index h
    unfold validateItems at h
    split at h
    · cases h
    · rename_i hitem
      exact List.forall_mem_cons.mpr ⟨⟨_, hitem⟩, ih h⟩

theorem validateOperations_lookup {operations : List (String × Member (List (Member PolicyEntry)))}
    (h : validateOperations signerGroups operations = none) {name : String}
    {value : Member (List (Member PolicyEntry))} (hlook : operations.lookup name = some value) :
    ∃ entries, value = .given entries ∧
      ∀ item ∈ entries, ∃ path, validatePolicyEntry signerGroups path item = none := by
  induction operations with
  | nil => cases hlook
  | cons entry rest ih =>
    obtain ⟨operation, listed⟩ := entry
    cases listed with
    | absent => cases h
    | other v => cases h
    | given entries =>
      unfold validateOperations at h
      split at h
      · cases h
      · rename_i hentries
        by_cases hname : name = operation
        · rw [hname, List.lookup_cons_self, Option.some.injEq] at hlook
          exact ⟨entries, hlook.symm, validateItems_mem hentries⟩
        · have : (name == operation) = false := by simpa using hname
          rw [List.lookup_cons, this] at hlook
          exact ih h hlook

theorem validatePolicyConfig_eq_none (h : validatePolicyConfig policy = none) :
    ∃ signerGroups, policy.signerGroups = .given signerGroups ∧
      validateSignerGroups signerGroups = none ∧
      validateRequirement signerGroups "defaultRequirement" policy.defaultRequirement = none ∧
      (policy.policies = .absent ∨ ∃ operations, policy.policies = .given operations ∧
        validateOperations signerGroups operations = none) := by
  unfold validatePolicyConfig at h
  cases hg : policy.signerGroups with
  | absent => simp [hg] at h
  | other v => simp [hg] at h
  | given signerGroups =>
    simp only [hg, check_eq_none] at h
    obtain ⟨-, -, h⟩ := h
    split at h
    · cases h
    · rename_i hsigners
      split at h
      · cases h
      · rename_i hdefault
        refine ⟨signerGroups, rfl, hsigners, hdefault, ?_⟩
        cases hp : policy.policies with
        | absent => exact Or.inl rfl
        | other v => simp [hp] at h
        | given operations => exact Or.inr ⟨operations, rfl, by simpa [hp] using h⟩

theorem policyEntriesOf_checked (h : validatePolicyConfig policy = none) {name : Option String}
    {entries : List (Member PolicyEntry)} (hentries : policyEntriesOf policy name = .ok entries) :
    ∃ signerGroups, policy.signerGroups = .given signerGroups ∧
      validateSignerGroups signerGroups = none ∧
      ∀ item ∈ entries, ∃ path, validatePolicyEntry signerGroups path item = none := by
  obtain ⟨signerGroups, hgroups, hsigners, -, hpolicies⟩ := validatePolicyConfig_eq_none h
  refine ⟨signerGroups, hgroups, hsigners, ?_⟩
  unfold policyEntriesOf at hentries
  split at hentries
  · rename_i name operations hp
    rcases hpolicies with habsent | ⟨operations', hgiven, hvalid⟩
    · rw [hp] at habsent
      cases habsent
    · rw [hp] at hgiven
      cases hgiven
      split at hentries
      · cases hentries
        simp
      · cases hlook : operations.lookup name with
        | none =>
          rw [hlook] at hentries
          cases hentries
          simp
        | some value =>
          obtain ⟨listed, rfl, hitems⟩ := validateOperations_lookup hvalid hlook
          rw [hlook] at hentries
          cases hentries
          exact hitems
  · cases hentries
    simp

theorem collectMatching_mem {actionPackage : ActionPackage} {entries : List (Member PolicyEntry)} :
    ∀ {matched : List PolicyEntry}, collectMatching actionPackage entries = .ok matched →
      ∀ entry ∈ matched, ∃ item ∈ entries, readEntry item = .ok entry := by
  induction entries with
  | nil =>
    intro matched h
    cases h
    simp
  | cons item rest ih =>
    intro matched h
    unfold collectMatching at h
    cases hread : readEntry item with
    | error e => simp [hread, bind, Except.bind] at h
    | ok entry =>
      cases hmatch : entryMatches actionPackage entry with
      | error e => simp [hread, hmatch, bind, Except.bind] at h
      | ok b =>
        cases hrest : collectMatching actionPackage rest with
        | error e => simp [hread, hmatch, hrest, bind, Except.bind] at h
        | ok others =>
          simp only [hread, hmatch, hrest, bind, Except.bind, pure, Except.pure,
            Except.ok.injEq] at h
          have hothers : ∀ e ∈ others, ∃ i ∈ item :: rest, readEntry i = .ok e := by
            intro e he
            obtain ⟨i, hi, hr⟩ := ih hrest e he
            exact ⟨i, List.mem_cons_of_mem _ hi, hr⟩
          rw [← h]
          split
          · exact List.forall_mem_cons.mpr ⟨⟨item, by simp, hread⟩, hothers⟩
          · exact hothers

/-- An entry that does not reject has a requirement, and the validation saw it. -/
theorem entry_checked (hgroups : policy.signerGroups = .given signerGroups)
    (hsigners : validateSignerGroups signerGroups = none) {item : Member PolicyEntry}
    {path : String} (h : validatePolicyEntry signerGroups path item = none) {entry : PolicyEntry}
    (hread : readEntry item = .ok entry) (hreject : entry.reject ≠ some (.bool true)) :
    (entry.requirements.getD (.other none)).Checked policy := by
  cases item with
  | absent => cases h
  | other v => cases h
  | given e =>
    cases hread
    simp only [validatePolicyEntry, check_eq_none] at h
    obtain ⟨-, -, -, -, -, h⟩ := h
    simp only [hreject, decide_false, Bool.false_eq_true, ↓reduceIte] at h
    split at h
    · cases h
    · rename_i hrequirement
      exact requirement_checked hgroups hsigners _ _ hrequirement

/-- **Validated policies.** Whatever requirement a validated policy puts on an
Action, the validation has checked all of it. -/
theorem effective_checked (h : validatePolicyConfig policy = none) {actionPackage : ActionPackage}
    {requirement : Requirement}
    (heff : effectiveRequirement actionPackage policy = .ok (.requires requirement)) :
    requirement.Checked policy := by
  unfold effectiveRequirement at heff
  simp only at heff
  cases hentries : policyEntriesOf policy (actionNameOf actionPackage.executionPayload) with
  | error e => cases e <;> simp [hentries, Except.bind] at heff
  | ok entries =>
    simp only [hentries, Except.bind] at heff
    cases hmatched : collectMatching actionPackage entries with
    | error e => cases e <;> simp [hmatched] at heff
    | ok matched =>
      simp only [hmatched] at heff
      split at heff
      · cases heff
      · rename_i hreject
        obtain ⟨signerGroups, hgroups, hsigners, hitems⟩ := policyEntriesOf_checked h hentries
        have hall : ∀ r ∈ matched.map fun entry => entry.requirements.getD (.other none),
            r.Checked policy := by
          intro r hr
          obtain ⟨entry, hentry, rfl⟩ := List.mem_map.mp hr
          obtain ⟨item, hitem, hread⟩ := collectMatching_mem hmatched entry hentry
          obtain ⟨path, hvalid⟩ := hitems item hitem
          refine entry_checked hgroups hsigners hvalid hread fun hr => hreject ?_
          exact List.any_eq_true.mpr ⟨entry, hentry, by simpa using hr⟩
        obtain ⟨groups, hgroups', hsigners', hdefault, -⟩ := validatePolicyConfig_eq_none h
        split at heff
        · cases heff
          exact requirement_checked hgroups' hsigners' _ _ hdefault
        · rename_i r hr
          cases heff
          exact hall _ (by rw [hr]; simp)
        · cases heff
          exact .allOf hall

/-! ## The thresholds a policy reports -/

/-- A reported threshold: `k` distinct Signers of `eligible` are to give `d`. -/
structure UnsatisfiedThreshold.Asks (u : UnsatisfiedThreshold) (k : Nat) (d : Decision)
    (eligible : List Json) : Prop where
  positive : 0 < k
  threshold : u.threshold = some (.num (.ofNat k))
  requiredDecision : u.requiredDecision = .str d.text
  ne_reject : d ≠ .reject
  eligibleSigners : Json.newSet u.eligibleSigners = .ok eligible

variable {verifiedApprovals : VerifiedApprovals} {proposerDid : Did}

theorem evaluateThreshold_asks {requirement : ThresholdRequirement}
    (hchecked : requirement.Checked policy) {unsatisfied : List UnsatisfiedThreshold}
    (h : evaluateThreshold verifiedApprovals policy proposerDid requirement = .ok unsatisfied) :
    ∀ u ∈ unsatisfied, ∃ k d eligible, u.Asks k d eligible := by
  obtain ⟨⟨k, hk, hthreshold⟩, ⟨d, hd, hdecision⟩, hpositive⟩ := hchecked
  unfold evaluateThreshold at h
  split at h
  · cases h
    simp
  · cases hresolve : resolveEligibleSigners policy requirement with
    | error e => simp [hresolve, bind, Except.bind] at h
    | ok signers =>
      rw [hresolve] at h
      simp only [bind, Except.bind, eligibleSet_positive (hpositive signers hresolve)] at h
      cases hnew : Json.newSet signers with
      | error e => simp [hnew] at h
      | ok eligible =>
        simp only [hnew, hthreshold, Json.countReaches_ofNat, pure, Except.pure] at h
        split at h
        · cases h
          simp
        · cases h
          simp only [List.mem_singleton, forall_eq]
          exact ⟨k, d, eligible, hk, rfl, hdecision, hd, hnew⟩

/-- The parts of an `allOf` are all evaluated, and report together. -/
theorem evaluateAll_parts {requirements : List Requirement} :
    ∀ {unsatisfied : List UnsatisfiedThreshold},
      evaluateAll verifiedApprovals policy proposerDid requirements = .ok unsatisfied →
      (∀ part ∈ requirements, ∃ us,
        evaluateRequirement verifiedApprovals policy proposerDid part = .ok us) ∧
      ∀ u, u ∈ unsatisfied ↔ ∃ part ∈ requirements, ∃ us, u ∈ us ∧
        evaluateRequirement verifiedApprovals policy proposerDid part = .ok us := by
  induction requirements with
  | nil =>
    intro unsatisfied h
    cases h
    simp
  | cons first rest ih =>
    intro unsatisfied h
    rw [evaluateAll] at h
    cases hfirst : evaluateRequirement verifiedApprovals policy proposerDid first with
    | error e => simp [hfirst, bind, Except.bind] at h
    | ok us =>
      cases hrest : evaluateAll verifiedApprovals policy proposerDid rest with
      | error e => simp [hfirst, hrest, bind, Except.bind] at h
      | ok others =>
        simp only [hfirst, hrest, bind, Except.bind, pure, Except.pure, Except.ok.injEq] at h
        obtain ⟨hparts, hmem⟩ := ih hrest
        refine ⟨List.forall_mem_cons.mpr ⟨⟨us, hfirst⟩, hparts⟩, fun u => ?_⟩
        rw [← h, List.mem_append, hmem]
        simp [hfirst]

/-- What an `anyOf` reports is nothing or what its first branch reports. -/
theorem evaluateRequirement_anyOf {first : Requirement} {rest : List Requirement}
    {keys : List String} {unsatisfied : List UnsatisfiedThreshold}
    (h : evaluateRequirement verifiedApprovals policy proposerDid (.anyOf (first :: rest) keys) =
      .ok unsatisfied) :
    unsatisfied = [] ∨
      evaluateRequirement verifiedApprovals policy proposerDid first = .ok unsatisfied := by
  rw [evaluateRequirement] at h
  cases hany : evaluateAny verifiedApprovals policy proposerDid (first :: rest) with
  | error e => simp [hany, bind, Except.bind] at h
  | ok b =>
    cases b with
    | true =>
      simp only [hany, bind, Except.bind, ↓reduceIte, pure, Except.pure, Except.ok.injEq] at h
      exact Or.inl h.symm
    | false => exact Or.inr (by simpa [hany, bind, Except.bind] using h)

/-- **Reported thresholds.** -/
theorem unsatisfied_asks {requirement : Requirement} (hchecked : requirement.Checked policy) :
    ∀ {unsatisfied : List UnsatisfiedThreshold},
      evaluateRequirement verifiedApprovals policy proposerDid requirement = .ok unsatisfied →
      ∀ u ∈ unsatisfied, ∃ k d eligible, u.Asks k d eligible := by
  induction hchecked with
  | proposerOnly =>
    intro unsatisfied h
    cases h
    simp
  | threshold ht => exact evaluateThreshold_asks ht
  | @allOf requirements _ ih =>
    intro unsatisfied h u hu
    rw [evaluateRequirement] at h
    obtain ⟨nested, hn, us, hus, hr⟩ := ((evaluateAll_parts h).2 u).mp hu
    exact ih nested hn hr u hus
  | @anyOf requirements hne _ ih =>
    intro unsatisfied h u hu
    cases requirements with
    | nil => exact absurd rfl hne
    | cons first rest =>
      rcases evaluateRequirement_anyOf h with rfl | hfirst
      · cases hu
      · exact ih first (by simp) hfirst u hu

end Mpas.PolicyEngine
