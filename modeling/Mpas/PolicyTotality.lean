import Mpas.PolicyApprovals
import Mpas.PolicyConditions

/-!
# Evaluations that come to an end

A validated policy holds nothing that an evaluation fails on, two things apart:
a condition about existence may lack a string as its path, and an object may
stand where a threshold lists its Signers, with a positive length or with one
that no number can be compared with.

* `entryMatches_throws_iff`, `collectMatching_throws_iff`: when the entries of an Action throw;
* `evaluateRequirement_returns_iff`: when a validated requirement is evaluated to its end;
* `evaluatePolicy_returns_iff`: when a validated policy is.
-/

namespace Mpas.PolicyEngine

open ApprovalRequirements (SignerDecision ConflictFree)

/-! ## What an evaluation comes to -/

/-- The entry matches or it does not. -/
def Decided (actionPackage : ActionPackage) (entry : PolicyEntry) : Prop :=
  ∃ b, entryMatches actionPackage entry = .ok b

/-- The entries under the name of the Action. -/
def Listed (actionPackage : ActionPackage) (policy : PolicyConfig) (entries : List PolicyEntry) :
    Prop :=
  policyEntriesOf policy (actionNameOf actionPackage.executionPayload) = .ok (entries.map .given)

def PolicyCondition.Pathless (condition : PolicyCondition) : Prop :=
  ∀ path, condition.path ≠ some (.str path)

/-- All conditions before one without a path are true. -/
def PolicyEntry.ReachesPathless (actionPackage : ActionPackage) (entry : PolicyEntry) : Prop :=
  ∃ m before condition after, entry.match_ = .given m ∧
    m.conditions = .given (before ++ .given condition :: after) ∧
    matchesConditions actionPackage before = .ok true ∧ condition.Pathless

/-- Going through the entries comes to a condition without a path. -/
def PathlessReached (actionPackage : ActionPackage) (policy : PolicyConfig) : Prop :=
  ∃ before entry after, Listed actionPackage policy (before ++ entry :: after) ∧
    (∀ earlier ∈ before, Decided actionPackage earlier) ∧ entry.ReachesPathless actionPackage

def Matching (actionPackage : ActionPackage) (policy : PolicyConfig) (entry : PolicyEntry) : Prop :=
  ∃ entries, Listed actionPackage policy entries ∧ entry ∈ entries ∧
    entryMatches actionPackage entry = .ok true

/-- A requirement on the Action: of each entry that matches, or else the default one. -/
inductive InForce (actionPackage : ActionPackage) (policy : PolicyConfig) : Requirement → Prop
  | default : (∀ entry, ¬Matching actionPackage policy entry) →
      InForce actionPackage policy policy.defaultRequirement
  | entry {entry : PolicyEntry} {requirement : Requirement} :
      Matching actionPackage policy entry → entry.requirements = some requirement →
      InForce actionPackage policy requirement

/-- The votes that the approvals hold for a decision. -/
def VerifiedApprovals.givers (verifiedApprovals : VerifiedApprovals) (proposerDid : Did)
    (decision : Json) : Finset Did :=
  PolicyEngine.givers decision (votesOf proposerDid verifiedApprovals.decisions)

/-- All entries are decided, none that matches rejects, and reading what they require
comes to an object in place of the eligible Signers. -/
def ObjectReached (actionPackage : ActionPackage) (policy : PolicyConfig)
    (verifiedApprovals : VerifiedApprovals) : Prop :=
  (∀ entries, Listed actionPackage policy entries →
      ∀ entry ∈ entries, Decided actionPackage entry) ∧
    (∀ entry, Matching actionPackage policy entry → entry.reject ≠ some (.bool true)) ∧
    ∃ requirement, InForce actionPackage policy requirement ∧
      Halts (Backed policy
        (verifiedApprovals.givers actionPackage.actionEnvelope.proposer)) requirement

/-! ## Conditions -/

variable {actionPackage : ActionPackage} {policy : PolicyConfig}
  {signerGroups : List (String × Json)} {verifiedApprovals : VerifiedApprovals}
  {proposerDid : Did}

theorem toNumber_not_exception {value : Option Json} {condition : PolicyCondition} {e : JsError} :
    toNumber value condition ≠ .error (.exception e) := by
  unfold toNumber
  cases value with
  | none => simp
  | some v =>
    cases v with
    | num n => by_cases hn : n.isFinite = true <;> simp [hn]
    | str s =>
      by_cases hs : JsNumber.trim s.toList ≠ [] ∧ JsNumber.ofString s ≠ .nan <;> simp [hs]
    | _ => simp

theorem compareNumbers_not_exception {compare : JsNumber → JsNumber → Bool}
    {condition : PolicyCondition} {actual : Option Json} {e : JsError} :
    compareNumbers compare condition actual ≠ .error (.exception e) := by
  unfold compareNumbers
  cases hleft : toNumber actual condition with
  | error cause =>
    intro h
    cases h
    exact toNumber_not_exception hleft
  | ok left =>
    cases hright : toNumber condition.value condition with
    | error cause =>
      intro h
      cases h
      exact toNumber_not_exception hright
    | ok right => simp [bind, Except.bind, pure, Except.pure]

theorem conditionMatches_throws_iff {condition : PolicyCondition} :
    (∃ e, conditionMatches actionPackage condition = .error (.exception e)) ↔
      condition.Pathless := by
  constructor
  · rintro ⟨e, h⟩ path hpath
    unfold conditionMatches at h
    simp only [hpath] at h
    cases hop : condition.operator with
    | none => simp [hop] at h
    | some op =>
      cases op <;> simp only [hop, reduceCtorEq] at h <;> exact compareNumbers_not_exception h
  · intro h
    refine ⟨.typeError, ?_⟩
    cases hpath : condition.path with
    | none => simp [conditionMatches, hpath]
    | some v =>
      cases v with
      | str path => exact absurd hpath (h path)
      | _ => simp [conditionMatches, hpath]

theorem matchesConditions_throws_iff {conditions : List (Member PolicyCondition)}
    (hgiven : ∀ item ∈ conditions, ∃ condition, item = .given condition) :
    (∃ e, matchesConditions actionPackage conditions = .error (.exception e)) ↔
      ∃ before condition after, conditions = before ++ .given condition :: after ∧
        matchesConditions actionPackage before = .ok true ∧ condition.Pathless := by
  induction conditions with
  | nil => simp [matchesConditions]
  | cons item rest ih =>
    obtain ⟨⟨condition, rfl⟩, hrest⟩ := List.forall_mem_cons.mp hgiven
    constructor
    · rintro ⟨e, h⟩
      rw [matchesConditions] at h
      cases hfirst : conditionMatches actionPackage condition with
      | error cause =>
        rw [hfirst] at h
        cases h
        exact ⟨[], condition, rest, rfl, rfl, conditionMatches_throws_iff.mp ⟨e, hfirst⟩⟩
      | ok b =>
        rw [hfirst] at h
        cases b with
        | false => cases h
        | true =>
          obtain ⟨before, pathless, after, rfl, hbefore, hpathless⟩ := (ih hrest).mp ⟨e, h⟩
          refine ⟨.given condition :: before, pathless, after, rfl, ?_, hpathless⟩
          rw [matchesConditions, hfirst]
          exact hbefore
    · rintro ⟨before, pathless, after, heq, hbefore, hpathless⟩
      have hthrows : ∃ e, conditionMatches actionPackage pathless = .error (.exception e) :=
        conditionMatches_throws_iff.mpr hpathless
      obtain ⟨e, he⟩ := hthrows
      refine ⟨e, ?_⟩
      rw [heq, matchesConditions_append hbefore, if_pos rfl, matchesConditions, he]
      rfl

/-! ## Entries -/

theorem validatePolicyEntry_match {entry : PolicyEntry} {path : String}
    (h : validatePolicyEntry signerGroups path (.given entry) = none) :
    ∃ path, validateMatch path entry.match_ = none := by
  simp only [validatePolicyEntry, check_eq_none] at h
  obtain ⟨-, -, -, -, -, h⟩ := h
  split at h
  · cases h
  · exact ⟨_, h⟩

theorem validateMatch_given {path : String} {m : PolicyMatch}
    (h : validateMatch path (.given m) = none) : m.conditions = .absent ∨
      ∃ conditions, m.conditions = .given conditions ∧
        ∀ item ∈ conditions, ∃ condition, item = .given condition := by
  simp only [validateMatch, check_eq_none] at h
  obtain ⟨-, h⟩ := h
  cases hconditions : m.conditions with
  | absent => exact Or.inl rfl
  | other v => simp [hconditions] at h
  | given conditions =>
    rw [hconditions] at h
    refine Or.inr ⟨conditions, rfl, fun item hmem => ?_⟩
    obtain ⟨itemPath, hitem⟩ := validateItems_mem h item hmem
    cases item with
    | given condition => exact ⟨condition, rfl⟩
    | absent => cases hitem
    | other v => cases hitem

theorem entryMatches_throws_iff {entry : PolicyEntry} {path : String}
    (hvalid : validatePolicyEntry signerGroups path (.given entry) = none) :
    (∃ e, entryMatches actionPackage entry = .error (.exception e)) ↔
      entry.ReachesPathless actionPackage := by
  obtain ⟨matchPath, hmatch⟩ := validatePolicyEntry_match hvalid
  unfold entryMatches PolicyEntry.ReachesPathless
  cases hentry : entry.match_ with
  | absent => simp
  | other v => simp
  | given m =>
    rw [hentry] at hmatch
    rcases validateMatch_given hmatch with habsent | ⟨conditions, hconditions, hgiven⟩
    · simp [habsent]
    · simp only [hconditions, matchesConditions_throws_iff hgiven, Member.given.injEq]
      constructor
      · rintro ⟨before, condition, after, heq, hbefore, hpathless⟩
        exact ⟨m, before, condition, after, rfl, hconditions.trans (by rw [heq]), hbefore, hpathless⟩
      · rintro ⟨_, before, condition, after, rfl, heq, hbefore, hpathless⟩
        rw [hconditions, Member.given.injEq] at heq
        exact ⟨before, condition, after, heq, hbefore, hpathless⟩

theorem exists_first_throws {entry : PolicyEntry} {rest : List PolicyEntry} :
    (∃ before part after, entry :: rest = before ++ part :: after ∧
        (∀ earlier ∈ before, Decided actionPackage earlier) ∧
        ∃ e, entryMatches actionPackage part = .error (.exception e)) ↔
      (∃ e, entryMatches actionPackage entry = .error (.exception e)) ∨
        Decided actionPackage entry ∧ ∃ before part after, rest = before ++ part :: after ∧
          (∀ earlier ∈ before, Decided actionPackage earlier) ∧
          ∃ e, entryMatches actionPackage part = .error (.exception e) := by
  have h := @Verdict.exists_first_cons PolicyEntry
    (fun part => ∃ e, entryMatches actionPackage part = .error (.exception e))
    (fun part => ¬Decided actionPackage part) entry rest
  simpa only [not_not] using h

theorem collectMatching_throws_iff {entries : List PolicyEntry} :
    (∃ e, collectMatching actionPackage (entries.map .given) = .error (.exception e)) ↔
      ∃ before entry after, entries = before ++ entry :: after ∧
        (∀ earlier ∈ before, Decided actionPackage earlier) ∧
        ∃ e, entryMatches actionPackage entry = .error (.exception e) := by
  induction entries with
  | nil => simp [collectMatching]
  | cons entry rest ih =>
    rw [exists_first_throws, ← ih, List.map_cons, collectMatching]
    cases hentry : entryMatches actionPackage entry with
    | error cause => cases cause <;> simp [readEntry, hentry, Decided, bind, Except.bind]
    | ok b =>
      cases hrest : collectMatching actionPackage (rest.map .given) with
      | error cause => simp [readEntry, hentry, Decided, bind, Except.bind]
      | ok others => simp [readEntry, hentry, Decided, bind, Except.bind, pure, Except.pure]

theorem collectMatching_ok_iff {entries matched : List PolicyEntry} :
    collectMatching actionPackage (entries.map .given) = .ok matched ↔
      (∀ entry ∈ entries, Decided actionPackage entry) ∧
        matched = entries.filter fun entry => decide (entryMatches actionPackage entry = .ok true) := by
  induction entries generalizing matched with
  | nil => simp [collectMatching, eq_comm]
  | cons entry rest ih =>
    rw [List.map_cons, collectMatching, List.forall_mem_cons, List.filter_cons]
    cases hentry : entryMatches actionPackage entry with
    | error cause => simp [readEntry, hentry, Decided, bind, Except.bind]
    | ok b =>
      have hdecided : Decided actionPackage entry := ⟨b, hentry⟩
      cases hrest : collectMatching actionPackage (rest.map .given) with
      | error cause =>
        have hnever : ∀ matched, ¬((∀ entry ∈ rest, Decided actionPackage entry) ∧
            matched = rest.filter fun entry =>
              decide (entryMatches actionPackage entry = .ok true)) := by
          intro matched hall
          have hok := ih.mpr hall
          rw [hrest] at hok
          cases hok
        have hundecided : ¬∀ entry ∈ rest, Decided actionPackage entry :=
          fun hall => hnever _ ⟨hall, rfl⟩
        simp [readEntry, hentry, bind, Except.bind, hundecided]
      | ok others =>
        obtain ⟨hall, hothers⟩ := ih.mp hrest
        simp only [readEntry, hentry, bind, Except.bind, pure, Except.pure, Except.ok.injEq,
          hdecided, true_and, hothers]
        cases b <;> simp only [Bool.false_eq_true, ↓reduceIte, decide_false, decide_true] <;>
          exact ⟨fun h => ⟨hall, h.symm⟩, fun h => h.2.symm⟩

/-! ## Requirements -/

/-- **Requirements.** What the validation accepted is evaluated to its end, unless
the evaluation comes to an object in place of the eligible Signers. -/
theorem evaluateRequirement_returns_iff (hgroups : policy.signerGroups = .given signerGroups)
    (hsigners : validateSignerGroups signerGroups = none) {requirement : Requirement}
    (hchecked : requirement.Checked policy)
    (hvalid : ∀ threshold : ThresholdRequirement, (Requirement.threshold threshold).Within requirement →
      ∃ path, validateThreshold signerGroups path threshold = none) :
    (∃ unsatisfied,
        evaluateRequirement verifiedApprovals policy proposerDid requirement = .ok unsatisfied) ↔
      ¬Halts (Backed policy (verifiedApprovals.givers proposerDid)) requirement := by
  have hmeans : Verdict.Means (Halts (Backed policy (verifiedApprovals.givers proposerDid)) requirement)
      (Reads (Backed policy (verifiedApprovals.givers proposerDid)) requirement)
      (verdict policy (votesOf proposerDid verifiedApprovals.decisions) requirement) :=
    verdict_backed hgroups hsigners hchecked hvalid fun _ => rfl
  rw [← evaluateRequirement_verdict] at hmeans
  cases hresult : evaluateRequirement verifiedApprovals policy proposerDid requirement with
  | error e =>
    rw [hresult] at hmeans
    have hhalts : Halts (Backed policy (verifiedApprovals.givers proposerDid)) requirement := hmeans
    simp [hhalts]
  | ok unsatisfied =>
    rw [hresult] at hmeans
    simp [hmeans.1]

/-! ## Policies -/

/-- What a validated policy lists for an Action are entries that the validation has seen. -/
theorem listed_validated (h : validatePolicyConfig policy = none) (actionPackage : ActionPackage) :
    ∃ signerGroups entries, policy.signerGroups = .given signerGroups ∧
      validateSignerGroups signerGroups = none ∧
      validateRequirement signerGroups "defaultRequirement" policy.defaultRequirement = none ∧
      Listed actionPackage policy entries ∧
      ∀ entry ∈ entries, ∃ path, validatePolicyEntry signerGroups path (.given entry) = none := by
  obtain ⟨signerGroups, hgroups, hsigners, hdefault, hpolicies⟩ := validatePolicyConfig_eq_none h
  have hlisted : ∃ items, policyEntriesOf policy (actionNameOf actionPackage.executionPayload) =
      .ok items := by
    unfold policyEntriesOf
    split
    · rename_i name operations hname hgiven
      rcases hpolicies with habsent | ⟨operations', hgiven', hvalid⟩
      · rw [hgiven] at habsent
        cases habsent
      · rw [hgiven] at hgiven'
        cases hgiven'
        cases hlook : operations.lookup name with
        | none => simp
        | some value =>
          obtain ⟨entries, rfl, -⟩ := validateOperations_lookup hvalid hlook
          split <;> simp
    · exact ⟨[], rfl⟩
  obtain ⟨items, hitems⟩ := hlisted
  obtain ⟨signerGroups', hgroups', -, hvalid⟩ := policyEntriesOf_checked h hitems
  rw [hgroups] at hgroups'
  cases hgroups'
  have hgiven : ∃ entries : List PolicyEntry, items = entries.map .given := by
    clear hitems
    induction items with
    | nil => exact ⟨[], rfl⟩
    | cons item rest ih =>
      obtain ⟨⟨path, hitem⟩, hrest⟩ := List.forall_mem_cons.mp hvalid
      cases item with
      | given entry =>
        obtain ⟨entries, rfl⟩ := ih hrest
        exact ⟨entry :: entries, rfl⟩
      | absent => cases hitem
      | other v => cases hitem
  obtain ⟨entries, rfl⟩ := hgiven
  exact ⟨signerGroups, entries, hgroups, hsigners, hdefault, hitems,
    fun entry hmem => hvalid _ (List.mem_map_of_mem hmem)⟩

theorem Listed.unique {entries entries' : List PolicyEntry}
    (h : Listed actionPackage policy entries) (h' : Listed actionPackage policy entries') :
    entries = entries' := by
  unfold Listed at h h'
  rw [h, Except.ok.injEq] at h'
  exact List.map_injective_iff.mpr (fun _ _ heq => by cases heq; rfl) h'

theorem matching_iff {entries : List PolicyEntry} (hlisted : Listed actionPackage policy entries)
    {entry : PolicyEntry} : Matching actionPackage policy entry ↔
      entry ∈ entries.filter fun entry => decide (entryMatches actionPackage entry = .ok true) := by
  simp only [List.mem_filter, decide_eq_true_eq]
  constructor
  · rintro ⟨entries', hlisted', hmem, hmatch⟩
    rw [hlisted.unique hlisted']
    exact ⟨hmem, hmatch⟩
  · exact fun ⟨hmem, hmatch⟩ => ⟨entries, hlisted, hmem, hmatch⟩

/-- The requirement is all that is in force, or `allOf` puts together what is. -/
def Combines (actionPackage : ActionPackage) (policy : PolicyConfig) (requirement : Requirement) :
    Prop :=
  (∀ part, InForce actionPackage policy part ↔ part = requirement) ∨
    ∃ parts, requirement = .allOf parts [] ∧
      ∀ part, InForce actionPackage policy part ↔ part ∈ parts

theorem Combines.halts_iff {requirement : Requirement}
    (h : Combines actionPackage policy requirement) {holds : ThresholdRequirement → Prop} :
    Halts holds requirement ↔ ∃ part, InForce actionPackage policy part ∧ Halts holds part := by
  rcases h with hall | ⟨parts, rfl, hparts⟩
  · simp [hall]
  · rw [halts_allOf_iff]
    simp [hparts]

theorem Combines.within {requirement : Requirement}
    (h : Combines actionPackage policy requirement) {threshold : ThresholdRequirement}
    (hwithin : (Requirement.threshold threshold).Within requirement) :
    ∃ part, InForce actionPackage policy part ∧ (Requirement.threshold threshold).Within part := by
  rcases h with hall | ⟨parts, rfl, hparts⟩
  · exact ⟨requirement, (hall requirement).mpr rfl, hwithin⟩
  · cases hwithin with
    | allOf part hmem hpart => exact ⟨part, (hparts part).mpr hmem, hpart⟩

theorem inForce_entry_iff {first : PolicyEntry} {rest : List PolicyEntry}
    (hmatching : ∀ entry, Matching actionPackage policy entry ↔ entry ∈ first :: rest)
    (hrequires : ∀ entry ∈ first :: rest, ∃ part, entry.requirements = some part)
    {part : Requirement} : InForce actionPackage policy part ↔
      part ∈ (first :: rest).map fun entry => entry.requirements.getD (.other none) := by
  rw [List.mem_map]
  constructor
  · intro h
    cases h with
    | default hnone => exact absurd ((hmatching first).mpr List.mem_cons_self) (hnone first)
    | entry hmatch hpart => exact ⟨_, (hmatching _).mp hmatch, by rw [hpart]; rfl⟩
  · rintro ⟨entry, hmem, rfl⟩
    obtain ⟨part, hpart⟩ := hrequires entry hmem
    rw [hpart]
    exact .entry ((hmatching entry).mpr hmem) hpart

theorem effectiveRequirement_combines {entries : List PolicyEntry}
    (hlisted : Listed actionPackage policy entries)
    (hdecided : ∀ entry ∈ entries, Decided actionPackage entry)
    (haccept : ∀ entry, Matching actionPackage policy entry → entry.reject ≠ some (.bool true))
    (hrequires : ∀ entry ∈ entries, entry.reject ≠ some (.bool true) →
      ∃ part, entry.requirements = some part) :
    ∃ requirement, effectiveRequirement actionPackage policy = .ok (.requires requirement) ∧
      Combines actionPackage policy requirement := by
  have hcollect := collectMatching_ok_iff.mpr ⟨hdecided, rfl⟩
  have hmatching : ∀ entry, Matching actionPackage policy entry ↔ entry ∈ entries.filter
      fun entry => decide (entryMatches actionPackage entry = .ok true) := fun _ => matching_iff hlisted
  unfold Listed at hlisted
  unfold effectiveRequirement
  simp only [hlisted, Except.bind, hcollect]
  generalize hmatched : (entries.filter fun entry =>
    decide (entryMatches actionPackage entry = .ok true)) = matched at hmatching
  have hsub : ∀ entry ∈ matched, entry ∈ entries := by
    intro entry hmem
    rw [← hmatched] at hmem
    exact List.mem_of_mem_filter hmem
  have hreject : (matched.any fun entry => decide (entry.reject = some (.bool true))) = false := by
    rw [List.any_eq_false]
    intro entry hmem
    simpa using haccept entry ((hmatching entry).mpr hmem)
  have hall : ∀ entry ∈ matched, ∃ part, entry.requirements = some part := fun entry hmem =>
    hrequires entry (hsub entry hmem) (haccept entry ((hmatching entry).mpr hmem))
  simp only [hreject, Bool.false_eq_true, ↓reduceIte]
  cases matched with
  | nil =>
    refine ⟨_, rfl, Or.inl fun part => ⟨fun h => ?_, fun h => ?_⟩⟩
    · cases h with
      | default => rfl
      | entry hmatch => cases (hmatching _).mp hmatch
    · rw [h]
      exact .default fun entry hmatch => by cases (hmatching entry).mp hmatch
  | cons first rest =>
    have hforce : ∀ part, InForce actionPackage policy part ↔ part ∈ (first :: rest).map
        fun entry => entry.requirements.getD (.other none) := fun _ => inForce_entry_iff hmatching hall
    cases rest with
    | nil => exact ⟨_, rfl, Or.inl fun part => by simp [hforce part]⟩
    | cons second others => exact ⟨_, rfl, Or.inr ⟨_, rfl, hforce⟩⟩

theorem inForce_validated {entries : List PolicyEntry} (hlisted : Listed actionPackage policy entries)
    (hdefault :
      validateRequirement signerGroups "defaultRequirement" policy.defaultRequirement = none)
    (hvalid : ∀ entry ∈ entries, ∃ path,
      validatePolicyEntry signerGroups path (.given entry) = none)
    {part : Requirement} (h : InForce actionPackage policy part) :
    ∃ path, validateRequirement signerGroups path part = none := by
  cases h with
  | default => exact ⟨_, hdefault⟩
  | entry hmatch hpart =>
    obtain ⟨path, hentry⟩ := hvalid _ (List.mem_of_mem_filter ((matching_iff hlisted).mp hmatch))
    exact validatePolicyEntry_requirements hpart hentry

theorem validatePolicyEntry_requires {entry : PolicyEntry} {path : String}
    (h : validatePolicyEntry signerGroups path (.given entry) = none)
    (hreject : entry.reject ≠ some (.bool true)) : ∃ part, entry.requirements = some part := by
  simp only [validatePolicyEntry, check_eq_none] at h
  exact Option.ne_none_iff_exists'.mp (by simpa [hreject] using h.2.1)

/-! ## Evaluation -/

theorem pathlessReached_iff {entries : List PolicyEntry}
    (hlisted : Listed actionPackage policy entries)
    (hvalid : ∀ entry ∈ entries, ∃ path,
      validatePolicyEntry signerGroups path (.given entry) = none) :
    PathlessReached actionPackage policy ↔
      ∃ e, collectMatching actionPackage (entries.map .given) = .error (.exception e) := by
  rw [collectMatching_throws_iff]
  have hentry : ∀ before entry after, entries = before ++ entry :: after →
      ((∃ e, entryMatches actionPackage entry = .error (.exception e)) ↔
        entry.ReachesPathless actionPackage) := by
    intro before entry after heq
    obtain ⟨path, hpath⟩ := hvalid entry (by rw [heq]; simp)
    exact entryMatches_throws_iff hpath
  constructor
  · rintro ⟨before, entry, after, hlisted', hbefore, hreaches⟩
    have heq := hlisted.unique hlisted'
    exact ⟨before, entry, after, heq, hbefore, (hentry _ _ _ heq).mpr hreaches⟩
  · rintro ⟨before, entry, after, heq, hbefore, hthrows⟩
    rw [heq] at hlisted
    exact ⟨before, entry, after, hlisted, hbefore, (hentry _ _ _ heq).mp hthrows⟩

/-- An evaluation with a requirement to evaluate ends with the requirement's. -/
theorem evaluatePolicy_of_requires {requirement : Requirement}
    (hfree : ConflictFree verifiedApprovals.decisions)
    (heffective : effectiveRequirement actionPackage policy = .ok (.requires requirement)) :
    (∃ result, evaluatePolicy actionPackage verifiedApprovals policy = .ok result) ↔
      ∃ unsatisfied, evaluateRequirement verifiedApprovals policy
        actionPackage.actionEnvelope.proposer requirement = .ok unsatisfied := by
  unfold evaluatePolicy
  rw [(conflictingDecisions_iff verifiedApprovals).mpr hfree, heffective]
  simp only [Bool.false_eq_true, ↓reduceIte]
  cases evaluateRequirement verifiedApprovals policy actionPackage.actionEnvelope.proposer
      requirement with
  | error e => simp
  | ok unsatisfied => cases unsatisfied <;> simp

/-- Without approvals that contradict each other, the entries decide how an evaluation goes on. -/
theorem returns_iff_of_conflictFree (h : validatePolicyConfig policy = none)
    (hfree : ConflictFree verifiedApprovals.decisions) :
    (∃ result, evaluatePolicy actionPackage verifiedApprovals policy = .ok result) ↔
      ¬PathlessReached actionPackage policy ∧
        ¬ObjectReached actionPackage policy verifiedApprovals := by
  obtain ⟨signerGroups, entries, hgroups, hsigners, hdefault, hlisted, hvalid⟩ :=
    listed_validated h actionPackage
  have hfree' := (conflictingDecisions_iff verifiedApprovals).mpr hfree
  rw [pathlessReached_iff hlisted hvalid]
  cases hcollect : collectMatching actionPackage (entries.map .given) with
  | error cause =>
    have hlisted' := hlisted
    unfold Listed at hlisted'
    cases cause with
    | exception e =>
      have heffective : effectiveRequirement actionPackage policy = .error e := by
        simp [effectiveRequirement, hlisted', Except.bind, hcollect]
      have hnonempty : ¬IsEmpty JsError := fun hempty => hempty.false e
      simp [evaluatePolicy, hfree', heffective, hnonempty]
    | unparseable cause =>
      have heffective : effectiveRequirement actionPackage policy = .ok (.malformed cause) := by
        simp [effectiveRequirement, hlisted', Except.bind, hcollect]
      have hundecided : ¬ObjectReached actionPackage policy verifiedApprovals := by
        rintro ⟨hdecided, -⟩
        have hok := collectMatching_ok_iff.mpr ⟨hdecided entries hlisted, rfl⟩
        rw [hcollect] at hok
        cases hok
      simp [evaluatePolicy, hfree', heffective, hundecided]
  | ok matched =>
    obtain ⟨hdecided, hmatched⟩ := collectMatching_ok_iff.mp hcollect
    by_cases haccept : ∀ entry, Matching actionPackage policy entry → entry.reject ≠ some (.bool true)
    · obtain ⟨requirement, heffective, hcombines⟩ :=
        effectiveRequirement_combines hlisted hdecided haccept fun entry hmem hreject =>
          (hvalid entry hmem).elim fun _ hpath => validatePolicyEntry_requires hpath hreject
      have hthresholds : ∀ threshold : ThresholdRequirement,
          (Requirement.threshold threshold).Within requirement →
          ∃ path, validateThreshold signerGroups path threshold = none := by
        intro threshold hwithin
        obtain ⟨part, hforce, hpart⟩ := hcombines.within hwithin
        obtain ⟨path, hpath⟩ := inForce_validated hlisted hdefault hvalid hforce
        exact validateRequirement_within hpart hpath
      rw [evaluatePolicy_of_requires hfree heffective, evaluateRequirement_returns_iff hgroups
        hsigners (effective_checked h heffective) hthresholds, hcombines.halts_iff]
      have hobject : ObjectReached actionPackage policy verifiedApprovals ↔
          ∃ part, InForce actionPackage policy part ∧ Halts (Backed policy
            (verifiedApprovals.givers actionPackage.actionEnvelope.proposer)) part := by
        refine ⟨fun hreached => hreached.2.2, fun hhalts => ⟨fun entries' hlisted' => ?_, haccept, hhalts⟩⟩
        rw [← hlisted.unique hlisted']
        exact hdecided
      simp [hobject]
    · have hblocked : ∃ message, effectiveRequirement actionPackage policy =
          .ok (.blocked message) := by
        push Not at haccept
        obtain ⟨entry, hmatch, hreject⟩ := haccept
        have hany : matched.any (fun entry => decide (entry.reject = some (.bool true))) = true := by
          rw [hmatched]
          exact List.any_eq_true.mpr ⟨entry, (matching_iff hlisted).mp hmatch, by simp [hreject]⟩
        unfold Listed at hlisted
        unfold effectiveRequirement
        simp only [hlisted, Except.bind, hcollect, hany, ↓reduceIte]
        exact ⟨_, rfl⟩
      obtain ⟨message, heffective⟩ := hblocked
      have hrejected : ¬ObjectReached actionPackage policy verifiedApprovals :=
        fun hreached => haccept hreached.2.1
      simp [evaluatePolicy, hfree', heffective, hrejected]

/-- **Validated policies are evaluated** to a result exactly if approvals contradict
each other, or neither of the two things that the validation lets through is reached. -/
theorem evaluatePolicy_returns_iff (policy : PolicyConfig) (h : validatePolicyConfig policy = none)
    (actionPackage : ActionPackage) (verifiedApprovals : VerifiedApprovals) :
    (∃ result, evaluatePolicy actionPackage verifiedApprovals policy = .ok result) ↔
      (ConflictFree verifiedApprovals.decisions →
        ¬PathlessReached actionPackage policy ∧
          ¬ObjectReached actionPackage policy verifiedApprovals) := by
  by_cases hfree : ConflictFree verifiedApprovals.decisions
  · rw [returns_iff_of_conflictFree h hfree]
    simp [hfree]
  · have hconflict : conflictingDecisions [] verifiedApprovals.approvals = true := by
      rw [← Bool.not_eq_false, conflictingDecisions_iff]
      exact hfree
    simp [evaluatePolicy, hconflict, hfree]

/-- Nothing stands in the way of the approvers' policy. -/
theorem evaluatePolicy_returns_approvers :
    ¬PathlessReached deployAction (approversPolicy none) ∧
      ¬ObjectReached deployAction (approversPolicy none) aliceApproves := by
  have hfree : ConflictFree aliceApproves.decisions := by
    unfold ConflictFree
    decide +kernel
  have hresult : ∃ result,
      evaluatePolicy deployAction aliceApproves (approversPolicy none) = .ok result :=
    ⟨.satisfied, by decide +kernel⟩
  exact (evaluatePolicy_returns_iff (approversPolicy none) (by decide +kernel) deployAction
    aliceApproves).mp hresult hfree

/-! ## What the validation lets through -/

/-- One entry for the operation `deploy`, with one condition. -/
def deployPolicy (condition : PolicyCondition) : PolicyConfig :=
  { approversPolicy none with
    policies := .given [("deploy", .given [.given {
      match_ := .given { conditions := .given [.given condition] }
      requirements := some (.proposerOnly []) }])] }

/-- A condition about existence that names no path. -/
def pathlessCondition : PolicyCondition where
  source := some (.str "executionPayload")
  path := none
  op := some (.str "exists")

/-- An object with a length, beside the group. -/
def objectBeside : Json := .obj [("length", .num (.finite 1))]

/-- An object whose length has no primitive value. -/
def incomparableBeside : Json := .obj [("length", .obj [("toString", .num (.finite 1))])]

theorem evaluatePolicy_throws :
    (validatePolicyConfig (deployPolicy pathlessCondition) = none ∧
      evaluatePolicy deployAction ⟨⟨"", ""⟩, []⟩ (deployPolicy pathlessCondition) =
        .error .typeError) ∧
    (validatePolicyConfig (approversPolicy (some objectBeside)) = none ∧
      evaluatePolicy deployAction ⟨⟨"", ""⟩, []⟩ (approversPolicy (some objectBeside)) =
        .error .typeError) ∧
    (validatePolicyConfig (approversPolicy (some incomparableBeside)) = none ∧
      evaluatePolicy deployAction ⟨⟨"", ""⟩, []⟩ (approversPolicy (some incomparableBeside)) =
        .error .typeError) := by
  decide +kernel

end Mpas.PolicyEngine
