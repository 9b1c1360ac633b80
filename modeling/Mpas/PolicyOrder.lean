import Mpas.PolicyTotality

/-!
# The order of a policy's conjunctions

The conditions of an entry and the entries of an operation are conjunctions, and
are evaluated in the order of the document. A condition that cannot be evaluated
ends the evaluation, and a false one in front of it keeps it from being evaluated.

* `Reordered`: policies that differ in the order of entries and conditions;
* `collect_cases`: what the loop over the entries can come to in some order;
* `order_irrelevant_iff`: which policies come to one end in every order.
-/

namespace Mpas.PolicyEngine

open ApprovalRequirements (ConflictFree)

/-! ## Reordering -/

/-- The same item, or an entry with its conditions in another order. -/
inductive SameItem : Member PolicyEntry → Member PolicyEntry → Prop
  | same (item : Member PolicyEntry) : SameItem item item
  | conditions {entry : PolicyEntry} {m : PolicyMatch}
    {conditions conditions' : List (Member PolicyCondition)} (hmatch : entry.match_ = .given m)
    (hgiven : m.conditions = .given conditions) (hperm : conditions.Perm conditions') :
    SameItem (.given entry)
      (.given { entry with match_ := .given { m with conditions := .given conditions' } })

/-- The same items in another order. -/
def ReorderedItems (items items' : List (Member PolicyEntry)) : Prop :=
  ∃ middle, items.Perm middle ∧ List.Forall₂ SameItem middle items'

inductive ReorderedOperation : String × Member (List (Member PolicyEntry)) →
    String × Member (List (Member PolicyEntry)) → Prop
  | same (operation : String × Member (List (Member PolicyEntry))) :
    ReorderedOperation operation operation
  | items (name : String) {items items' : List (Member PolicyEntry)}
    (h : ReorderedItems items items') :
    ReorderedOperation (name, .given items) (name, .given items')

/-- The policies differ only in the order of entries and conditions. -/
inductive Reordered : PolicyConfig → PolicyConfig → Prop
  | same (policy : PolicyConfig) : Reordered policy policy
  | operations {policy : PolicyConfig}
    {operations operations' : List (String × Member (List (Member PolicyEntry)))}
    (hpolicies : policy.policies = .given operations)
    (h : List.Forall₂ ReorderedOperation operations operations') :
    Reordered policy { policy with policies := .given operations' }

/-! ## Verdicts of conditions -/

variable {actionPackage : ActionPackage} {verifiedApprovals : VerifiedApprovals}
  {policy policy' : PolicyConfig} {item item' : Member PolicyEntry}
  {items items' : List (Member PolicyEntry)}

def conditionVerdict (actionPackage : ActionPackage) :
    Member PolicyCondition → Verdict ConditionError
  | .given condition => conditionMatches actionPackage condition
  | _ => .error (.exception .typeError)

/-- The verdicts that decide whether an item matches, in order. -/
def verdictsOf (actionPackage : ActionPackage) : Member PolicyEntry → List (Verdict ConditionError)
  | .given entry =>
    match entry.match_ with
    | .given m =>
      match m.conditions with
      | .given conditions => conditions.map (conditionVerdict actionPackage)
      | .absent => []
      | .other v =>
        if !v.truthy || Json.strictEquals (v.member "length") (some (.num (.finite 0))) then []
        else [.error (.exception .typeError)]
    | _ => []
  | .other .null | .absent => [.error (.exception .typeError)]
  | .other _ => []

theorem matchesConditions_eq (actionPackage : ActionPackage)
    (conditions : List (Member PolicyCondition)) :
    matchesConditions actionPackage conditions =
      Verdict.every (conditions.map (conditionVerdict actionPackage)) := by
  induction conditions with
  | nil => rfl
  | cons condition rest ih =>
    cases condition with
    | given condition =>
      rw [matchesConditions, List.map_cons, conditionVerdict]
      cases conditionMatches actionPackage condition with
      | error e => rfl
      | ok b =>
        cases b with
        | false => rfl
        | true => exact ih
    | _ => rfl

/-- The entry that an item is read as. -/
def entryOf : Member PolicyEntry → PolicyEntry
  | .given entry => entry
  | _ => {}

theorem readEntry_matches (actionPackage : ActionPackage) (item : Member PolicyEntry) :
    (readEntry item).bind (fun entry => (entryMatches actionPackage entry).map (entry, ·)) =
      (Verdict.every (verdictsOf actionPackage item)).map (entryOf item, ·) := by
  cases item with
  | given entry =>
    rw [readEntry, entryOf, verdictsOf]
    show (entryMatches actionPackage entry).map (entry, ·) = _
    unfold entryMatches
    cases entry.match_ with
    | given m =>
      dsimp only
      cases m.conditions with
      | given conditions => rw [← matchesConditions_eq]
      | absent => rfl
      | other v =>
        dsimp only
        split
        · rfl
        · rfl
    | _ => rfl
  | absent => rfl
  | other v => cases v <;> rfl

/-! ## The loop over the entries -/

/-- The item has only true conditions. -/
def Passes (actionPackage : ActionPackage) (item : Member PolicyEntry) : Prop :=
  ∀ v ∈ verdictsOf actionPackage item, v = .ok true

instance (actionPackage : ActionPackage) (item : Member PolicyEntry) :
    Decidable (Passes actionPackage item) := inferInstanceAs (Decidable (∀ v ∈ _, _))

def passing (actionPackage : ActionPackage) (items : List (Member PolicyEntry)) :
    List PolicyEntry :=
  (items.filter fun item => Passes actionPackage item).map entryOf

theorem collectMatching_cons (actionPackage : ActionPackage) (item : Member PolicyEntry)
    (rest : List (Member PolicyEntry)) :
    collectMatching actionPackage (item :: rest) =
      (Verdict.every (verdictsOf actionPackage item)).bind fun matched =>
        (collectMatching actionPackage rest).map fun others =>
          if matched then entryOf item :: others else others := by
  have hread : collectMatching actionPackage (item :: rest) =
      ((readEntry item).bind fun entry => (entryMatches actionPackage entry).map (entry, ·)).bind
        fun read => (collectMatching actionPackage rest).map fun others =>
          if read.2 then read.1 :: others else others := by
    rw [collectMatching]
    cases readEntry item with
    | error e => rfl
    | ok entry =>
      cases hmatches : entryMatches actionPackage entry with
      | error e => simp only [bind, Except.bind, hmatches, Except.map]
      | ok b =>
        simp only [bind, Except.bind, hmatches, Except.map]
        cases collectMatching actionPackage rest <;> rfl
  rw [hread, readEntry_matches]
  cases Verdict.every (verdictsOf actionPackage item) <;> rfl

/-- **The loop.** It comes to the passing entries, or to a failure of some condition. -/
theorem collect_cases (actionPackage : ActionPackage) (items : List (Member PolicyEntry)) :
    (collectMatching actionPackage items = .ok (passing actionPackage items) ∧
        ∀ item ∈ items, Verdict.Settles (verdictsOf actionPackage item)) ∨
      ∃ e, collectMatching actionPackage items = .error e ∧
        ∃ item ∈ items, .error e ∈ verdictsOf actionPackage item := by
  induction items with
  | nil => exact .inl ⟨rfl, by simp⟩
  | cons item rest ih =>
    rw [collectMatching_cons]
    cases hverdict : Verdict.every (verdictsOf actionPackage item) with
    | error e => exact .inr ⟨e, rfl, item, List.mem_cons_self, Verdict.every_error hverdict⟩
    | ok b =>
      obtain ⟨hsettles, hpasses⟩ := Verdict.every_ok hverdict
      rcases ih with ⟨hrest, hall⟩ | ⟨e, hrest, failing, hmem, hfails⟩
      · refine .inl ⟨?_, List.forall_mem_cons.mpr ⟨hsettles, hall⟩⟩
        rw [hrest]
        cases b with
        | true =>
          have hpass : Passes actionPackage item := hpasses.mp rfl
          simp [passing, hpass, Except.bind, Except.map]
        | false =>
          have hpass : ¬Passes actionPackage item := fun h => by simpa using hpasses.mpr h
          simp [passing, hpass, Except.bind, Except.map]
      · refine .inr ⟨e, ?_, failing, List.mem_cons_of_mem _ hmem, hfails⟩
        rw [hrest]
        rfl

/-! ## Endings -/

/-- What an evaluation comes to: an exception, or a status and its code. -/
inductive Ending
  | thrown
  | satisfied
  | rejected (code : RejectionCode)
  | additionalApprovalsRequired
  | malformed
  deriving DecidableEq, Repr

def ending : Except JsError PolicyResult → Ending
  | .error _ => .thrown
  | .ok .satisfied => .satisfied
  | .ok (.rejected code _) => .rejected code
  | .ok (.additionalApprovalsRequired _) => .additionalApprovalsRequired
  | .ok (.malformed _) => .malformed

def requirementEnding : Except JsError (List UnsatisfiedThreshold) → Ending
  | .error _ => .thrown
  | .ok [] => .satisfied
  | .ok (_ :: _) => .additionalApprovalsRequired

/-- What the matching entries come to. -/
def conclusion (actionPackage : ActionPackage) (verifiedApprovals : VerifiedApprovals)
    (policy : PolicyConfig) (matchedEntries : List PolicyEntry) : Ending :=
  let proposerDid := actionPackage.actionEnvelope.proposer
  if matchedEntries.any fun entry => decide (entry.reject = some (.bool true)) then
    .rejected .ACTION_BLOCKED_BY_POLICY
  else if matchedEntries = [] then
    requirementEnding (evaluateRequirement verifiedApprovals policy proposerDid
      policy.defaultRequirement)
  else
    requirementEnding (evaluateAll verifiedApprovals policy proposerDid
      (matchedEntries.map fun entry => entry.requirements.getD (.other none)))

def listedItems (actionPackage : ActionPackage) (policy : PolicyConfig) :
    List (Member PolicyEntry) :=
  match policyEntriesOf policy (actionNameOf actionPackage.executionPayload) with
  | .ok items => items
  | .error _ => []

theorem policyEntriesOf_validated (h : validatePolicyConfig policy = none)
    (actionPackage : ActionPackage) :
    policyEntriesOf policy (actionNameOf actionPackage.executionPayload) =
      .ok (listedItems actionPackage policy) := by
  have hok : ∃ items, policyEntriesOf policy (actionNameOf actionPackage.executionPayload) =
      .ok items := by
    obtain ⟨signerGroups, -, -, -, hpolicies⟩ := validatePolicyConfig_eq_none h
    unfold policyEntriesOf
    split
    · rename_i name operations hname hgiven
      split
      · exact ⟨_, rfl⟩
      · rcases hpolicies with habsent | ⟨operations', hgiven', hvalid⟩
        · rw [hgiven] at habsent
          cases habsent
        · rw [hgiven] at hgiven'
          cases hgiven'
          cases hlook : operations.lookup name with
          | none => exact ⟨_, rfl⟩
          | some value =>
            obtain ⟨items, rfl, -⟩ := validateOperations_lookup hvalid hlook
            exact ⟨_, rfl⟩
    · exact ⟨_, rfl⟩
  obtain ⟨items, hitems⟩ := hok
  rw [listedItems, hitems]

section

variable {proposerDid : Did}

theorem evaluateAll_cases (verifiedApprovals : VerifiedApprovals) (policy : PolicyConfig)
    (proposerDid : Did) (requirements : List Requirement) :
    ((∃ e, evaluateAll verifiedApprovals policy proposerDid requirements = .error e) ∧
        ∃ r ∈ requirements, ∃ e,
          evaluateRequirement verifiedApprovals policy proposerDid r = .error e) ∨
      ∃ unsatisfied, evaluateAll verifiedApprovals policy proposerDid requirements =
        .ok unsatisfied ∧
        (∀ r ∈ requirements, ∃ part,
          evaluateRequirement verifiedApprovals policy proposerDid r = .ok part) ∧
        (unsatisfied = [] ↔ ∀ r ∈ requirements,
          evaluateRequirement verifiedApprovals policy proposerDid r = .ok []) := by
  induction requirements with
  | nil => exact .inr ⟨[], rfl, by simp, by simp⟩
  | cons r rest ih =>
    rw [evaluateAll]
    cases hr : evaluateRequirement verifiedApprovals policy proposerDid r with
    | error e => exact .inl ⟨⟨e, rfl⟩, r, List.mem_cons_self, e, hr⟩
    | ok part =>
      rcases ih with ⟨⟨e, hrest⟩, failing, hmem, hfails⟩ | ⟨unsatisfied, hrest, hall, hnil⟩
      · rw [hrest]
        exact .inl ⟨⟨e, rfl⟩, failing, List.mem_cons_of_mem _ hmem, hfails⟩
      · rw [hrest]
        refine .inr ⟨part ++ unsatisfied, rfl, List.forall_mem_cons.mpr ⟨⟨part, hr⟩, hall⟩, ?_⟩
        rw [List.append_eq_nil_iff, hnil, List.forall_mem_cons, hr]
        simp

/-- The order of the requirements of a conjunction does not matter. -/
theorem evaluateAll_perm {requirements requirements' : List Requirement}
    (h : requirements.Perm requirements') :
    requirementEnding (evaluateAll verifiedApprovals policy proposerDid requirements) =
      requirementEnding (evaluateAll verifiedApprovals policy proposerDid requirements') := by
  rcases evaluateAll_cases verifiedApprovals policy proposerDid requirements with
    ⟨⟨e, heq⟩, failing, hmem, hfails⟩ | ⟨unsatisfied, heq, hall, hnil⟩ <;>
  rcases evaluateAll_cases verifiedApprovals policy proposerDid requirements' with
    ⟨⟨e', heq'⟩, failing', hmem', hfails'⟩ | ⟨unsatisfied', heq', hall', hnil'⟩
  · rw [heq, heq']
  · obtain ⟨part, hpart⟩ := hall' failing (h.mem_iff.mp hmem)
    obtain ⟨error, herror⟩ := hfails
    rw [herror] at hpart
    cases hpart
  · obtain ⟨part, hpart⟩ := hall failing' (h.mem_iff.mpr hmem')
    obtain ⟨error, herror⟩ := hfails'
    rw [herror] at hpart
    cases hpart
  · have hsame : unsatisfied = [] ↔ unsatisfied' = [] := by
      rw [hnil, hnil']
      exact forall_congr' fun r => imp_congr_left h.mem_iff
    rw [heq, heq']
    cases unsatisfied with
    | nil =>
      rw [hsame.mp rfl]
    | cons first rest =>
      cases unsatisfied' with
      | nil => cases hsame.mpr rfl
      | cons first' rest' => rfl

theorem requirementEnding_single (r : Requirement) :
    requirementEnding (evaluateAll verifiedApprovals policy proposerDid [r]) =
      requirementEnding (evaluateRequirement verifiedApprovals policy proposerDid r) := by
  rw [evaluateAll]
  cases evaluateRequirement verifiedApprovals policy proposerDid r with
  | error e => rfl
  | ok unsatisfied => cases unsatisfied <;> rfl

end

/-- What an entry adds to the conclusion. -/
def essence (entry : PolicyEntry) : Option Json × Option Requirement :=
  (entry.reject, entry.requirements)

theorem conclusion_perm {entries entries' : List PolicyEntry}
    (h : (entries.map essence).Perm (entries'.map essence)) :
    conclusion actionPackage verifiedApprovals policy entries =
      conclusion actionPackage verifiedApprovals policy entries' := by
  have hreject : (entries.any fun entry => decide (entry.reject = some (.bool true))) =
      entries'.any fun entry => decide (entry.reject = some (.bool true)) := by
    have hany := h.any_eq (f := fun e => decide (e.1 = some (.bool true)))
    rwa [List.any_map, List.any_map] at hany
  have hnil : entries = [] ↔ entries' = [] := by
    rw [← List.length_eq_zero_iff, ← List.length_eq_zero_iff]
    have hlength := h.length_eq
    rw [List.length_map, List.length_map] at hlength
    rw [hlength]
  have hrequirements : (entries.map fun entry => entry.requirements.getD (.other none)).Perm
      (entries'.map fun entry => entry.requirements.getD (.other none)) := by
    have hmap := h.map fun e : Option Json × Option Requirement => e.2.getD (.other none)
    rwa [List.map_map, List.map_map] at hmap
  unfold conclusion
  dsimp only
  rw [hreject, evaluateAll_perm hrequirements]
  simp only [hnil]

/-- The requirement that the matching entries come to, when none rejects. -/
theorem requirementEnding_matched (matchedEntries : List PolicyEntry) (proposerDid : Did) :
    requirementEnding (evaluateRequirement verifiedApprovals policy proposerDid
        (match matchedEntries.map fun entry => entry.requirements.getD (.other none) with
          | [] => policy.defaultRequirement
          | [requirement] => requirement
          | requirements => .allOf requirements [])) =
      if matchedEntries = [] then
        requirementEnding (evaluateRequirement verifiedApprovals policy proposerDid
          policy.defaultRequirement)
      else
        requirementEnding (evaluateAll verifiedApprovals policy proposerDid
          (matchedEntries.map fun entry => entry.requirements.getD (.other none))) := by
  cases matchedEntries with
  | nil => rfl
  | cons first rest =>
    rw [if_neg (List.cons_ne_nil _ _)]
    cases rest with
    | nil => exact (requirementEnding_single _).symm
    | cons second rest => rw [List.map_cons, List.map_cons]; rfl

theorem ending_requires (requirement : Requirement) (proposerDid : Did) :
    ending (match evaluateRequirement verifiedApprovals policy proposerDid requirement with
      | .error e => .error e
      | .ok [] => .ok .satisfied
      | .ok unsatisfied => .ok (.additionalApprovalsRequired unsatisfied)) =
    requirementEnding (evaluateRequirement verifiedApprovals policy proposerDid requirement) := by
  cases evaluateRequirement verifiedApprovals policy proposerDid requirement with
  | error e => rfl
  | ok unsatisfied => cases unsatisfied <;> rfl

/-- The evaluation follows the loop. -/
theorem ending_evaluatePolicy (h : validatePolicyConfig policy = none)
    (actionPackage : ActionPackage) (verifiedApprovals : VerifiedApprovals) :
    ending (evaluatePolicy actionPackage verifiedApprovals policy) =
      if conflictingDecisions [] verifiedApprovals.approvals then
        .rejected .CONFLICTING_SIGNER_DECISIONS
      else match collectMatching actionPackage (listedItems actionPackage policy) with
        | .error (.unparseable _) => .malformed
        | .error (.exception _) => .thrown
        | .ok matchedEntries =>
          conclusion actionPackage verifiedApprovals policy matchedEntries := by
  unfold evaluatePolicy
  split
  · rfl
  · unfold effectiveRequirement
    dsimp only
    rw [policyEntriesOf_validated h]
    dsimp only [Except.bind]
    cases collectMatching actionPackage (listedItems actionPackage policy) with
    | error e => cases e <;> rfl
    | ok matchedEntries =>
      dsimp only
      unfold conclusion
      by_cases hreject :
          (matchedEntries.any fun entry => decide (entry.reject = some (.bool true))) = true
      · simp only [hreject, ↓reduceIte]
        rfl
      · simp only [hreject, ↓reduceIte, Bool.false_eq_true]
        rw [← requirementEnding_matched]
        cases matchedEntries.map fun entry => entry.requirements.getD (.other none) with
        | nil => exact ending_requires _ _
        | cons first rest =>
          cases rest with
          | nil => exact ending_requires _ _
          | cons second rest => exact ending_requires _ _

/-! ## What a reordering keeps -/

theorem SameItem.verdicts (h : SameItem item item') :
    (verdictsOf actionPackage item).Perm (verdictsOf actionPackage item') := by
  cases h with
  | same => exact List.Perm.refl _
  | conditions hmatch hgiven hperm =>
    simp only [verdictsOf, hmatch, hgiven]
    exact hperm.map _

theorem SameItem.essence_eq (h : SameItem item item') :
    essence (entryOf item) = essence (entryOf item') := by
  cases h <;> rfl

theorem Settles_perm {vs ws : List (Verdict ConditionError)} (h : vs.Perm ws) :
    Verdict.Settles vs ↔ Verdict.Settles ws := by
  unfold Verdict.Settles
  rw [h.mem_iff]
  exact or_congr_right (forall_congr' fun v => imp_congr_left h.mem_iff)

theorem SameItem.passes_iff (h : SameItem item item') :
    Passes actionPackage item ↔ Passes actionPackage item' :=
  forall_congr' fun _ => imp_congr_left h.verdicts.mem_iff

/-- A property of the verdicts of an item, whatever their order. -/
def Stable (P : Member PolicyEntry → Prop) : Prop :=
  ∀ item item', SameItem item item' → (P item ↔ P item')

theorem ReorderedItems.exists_iff {P : Member PolicyEntry → Prop} (hP : Stable P)
    (h : ReorderedItems items items') : (∃ item ∈ items, P item) ↔ ∃ item ∈ items', P item := by
  obtain ⟨middle, hperm, hsame⟩ := h
  have hmiddle : (∃ item ∈ middle, P item) ↔ ∃ item ∈ items', P item := by
    clear hperm
    induction hsame with
    | nil => rfl
    | cons hitem _ ih => rw [List.exists_mem_cons_iff, List.exists_mem_cons_iff, ih, hP _ _ hitem]
  rw [← hmiddle]
  exact exists_congr fun item => and_congr_left' hperm.mem_iff

theorem ReorderedItems.passing_perm (h : ReorderedItems items items') :
    ((passing actionPackage items).map essence).Perm
      ((passing actionPackage items').map essence) := by
  obtain ⟨middle, hperm, hsame⟩ := h
  have hmiddle : (passing actionPackage middle).map essence =
      (passing actionPackage items').map essence := by
    clear hperm
    induction hsame with
    | nil => rfl
    | @cons item item' _ _ hitem _ ih =>
      have hpass : Passes actionPackage item ↔ Passes actionPackage item' := hitem.passes_iff
      unfold passing at ih ⊢
      by_cases hitemPasses : Passes actionPackage item
      · have hitemPasses' := hpass.mp hitemPasses
        simp only [List.filter_cons, hitemPasses, hitemPasses', decide_true, ↓reduceIte,
          List.map_cons, ih, hitem.essence_eq]
      · have hitemPasses' : ¬Passes actionPackage item' := fun h => hitemPasses (hpass.mpr h)
        simp only [List.filter_cons, hitemPasses, hitemPasses', decide_false, Bool.false_eq_true,
          ↓reduceIte, ih]
  rw [← hmiddle]
  exact ((hperm.filter _).map _).map _

/-! ## Failing conditions -/

/-- A condition of the item compares a value that is no number. -/
def HasUnparseable (actionPackage : ActionPackage) (item : Member PolicyEntry) : Prop :=
  ∃ cause, .error (.unparseable cause) ∈ verdictsOf actionPackage item

/-- A condition of the item cannot be evaluated without an exception. -/
def HasThrowing (actionPackage : ActionPackage) (item : Member PolicyEntry) : Prop :=
  ∃ e, .error (.exception e) ∈ verdictsOf actionPackage item

/-- A condition of the item fails in every order: some fail, and none is false. -/
def FailsAlways (actionPackage : ActionPackage) (item : Member PolicyEntry) : Prop :=
  ¬Verdict.Settles (verdictsOf actionPackage item)

theorem stable_hasUnparseable : Stable (HasUnparseable actionPackage) :=
  fun _ _ h => exists_congr fun _ => h.verdicts.mem_iff

theorem stable_hasThrowing : Stable (HasThrowing actionPackage) :=
  fun _ _ h => exists_congr fun _ => h.verdicts.mem_iff

theorem stable_failsAlways : Stable (FailsAlways actionPackage) :=
  fun _ _ h => not_congr (Settles_perm h.verdicts)

/-- Every order comes to one end: no condition fails; or one fails in every
order, and no condition fails in another way; or what does not fail in the
conditions `throws` after them. -/
structure OneEnd (actionPackage : ActionPackage) (items : List (Member PolicyEntry))
    (throws : Prop) : Prop where
  parsed : (∃ item ∈ items, HasUnparseable actionPackage item) →
    (∀ item ∈ items, ¬HasThrowing actionPackage item) ∧
      ∃ item ∈ items, FailsAlways actionPackage item
  thrown : (∃ item ∈ items, HasThrowing actionPackage item) →
    (∀ item ∈ items, ¬HasUnparseable actionPackage item) ∧
      ((∃ item ∈ items, FailsAlways actionPackage item) ∨ throws)

/-- The end of the loop over the entries. -/
def loopEnding (actionPackage : ActionPackage) (verifiedApprovals : VerifiedApprovals)
    (policy : PolicyConfig) (items : List (Member PolicyEntry)) : Ending :=
  match collectMatching actionPackage items with
  | .error (.unparseable _) => .malformed
  | .error (.exception _) => .thrown
  | .ok matchedEntries => conclusion actionPackage verifiedApprovals policy matchedEntries

theorem loopEnding_cases (actionPackage : ActionPackage) (verifiedApprovals : VerifiedApprovals)
    (policy : PolicyConfig) (items : List (Member PolicyEntry)) :
    (loopEnding actionPackage verifiedApprovals policy items = .malformed ∧
        ∃ item ∈ items, HasUnparseable actionPackage item) ∨
      (loopEnding actionPackage verifiedApprovals policy items = .thrown ∧
        ∃ item ∈ items, HasThrowing actionPackage item) ∨
      (loopEnding actionPackage verifiedApprovals policy items =
          conclusion actionPackage verifiedApprovals policy (passing actionPackage items) ∧
        ¬∃ item ∈ items, FailsAlways actionPackage item) := by
  unfold loopEnding
  rcases collect_cases actionPackage items with ⟨hok, hall⟩ | ⟨e, herror, item, hmem, hfails⟩
  · rw [hok]
    exact .inr (.inr ⟨rfl, fun ⟨item, hmem, hfails⟩ => hfails (hall item hmem)⟩)
  · rw [herror]
    cases e with
    | unparseable cause => exact .inl ⟨rfl, item, hmem, cause, hfails⟩
    | exception e => exact .inr (.inl ⟨rfl, item, hmem, e, hfails⟩)

theorem conclusion_ne_malformed (entries : List PolicyEntry) :
    conclusion actionPackage verifiedApprovals policy entries ≠ .malformed := by
  have hnever : ∀ x, requirementEnding x ≠ .malformed := by
    intro x
    cases x with
    | error e => exact Ending.noConfusion
    | ok unsatisfied => cases unsatisfied <;> exact Ending.noConfusion
  unfold conclusion
  dsimp only
  split
  · exact Ending.noConfusion
  · split
    · exact hnever _
    · exact hnever _

/-- In any two orders the loop comes to one end. -/
theorem loopEnding_reordered (h : ReorderedItems items items')
    (hone : OneEnd actionPackage items (conclusion actionPackage verifiedApprovals policy
      (passing actionPackage items) = .thrown)) :
    loopEnding actionPackage verifiedApprovals policy items =
      loopEnding actionPackage verifiedApprovals policy items' := by
  have hunparseable : (∃ item ∈ items, HasUnparseable actionPackage item) ↔
      ∃ item ∈ items', HasUnparseable actionPackage item := h.exists_iff stable_hasUnparseable
  have hthrowing : (∃ item ∈ items, HasThrowing actionPackage item) ↔
      ∃ item ∈ items', HasThrowing actionPackage item := h.exists_iff stable_hasThrowing
  have hfails : (∃ item ∈ items, FailsAlways actionPackage item) ↔
      ∃ item ∈ items', FailsAlways actionPackage item := h.exists_iff stable_failsAlways
  have hconclusion : conclusion actionPackage verifiedApprovals policy
      (passing actionPackage items) =
        conclusion actionPackage verifiedApprovals policy (passing actionPackage items') :=
    conclusion_perm h.passing_perm
  have hcases := loopEnding_cases actionPackage verifiedApprovals policy items
  have hcases' := loopEnding_cases actionPackage verifiedApprovals policy items'
  rw [← hunparseable, ← hthrowing, ← hfails, ← hconclusion] at hcases'
  obtain ⟨hparsed, hthrown⟩ := hone
  rcases hcases with ⟨heq, hu⟩ | ⟨heq, ht⟩ | ⟨heq, hnever⟩
  · obtain ⟨hnothrow, halways⟩ := hparsed hu
    rcases hcases' with ⟨heq', -⟩ | ⟨-, item, hmem, hthrows⟩ | ⟨-, hnever⟩
    · rw [heq, heq']
    · exact absurd hthrows (hnothrow item hmem)
    · exact absurd halways hnever
  · obtain ⟨hnoparse, halways⟩ := hthrown ht
    rcases hcases' with ⟨-, item, hmem, hparse⟩ | ⟨heq', -⟩ | ⟨heq', hnever⟩
    · exact absurd hparse (hnoparse item hmem)
    · rw [heq, heq']
    · rw [heq, heq', halways.resolve_left hnever]
  · rcases hcases' with ⟨-, hu⟩ | ⟨heq', ht⟩ | ⟨heq', -⟩
    · exact absurd (hparsed hu).2 hnever
    · rw [heq, heq', (hthrown ht).2.resolve_left hnever]
    · rw [heq, heq']

/-! ## Validation -/

section

variable {signerGroups : List (String × Json)}

theorem validateThreshold_path {path path' : String} {requirement : ThresholdRequirement}
    (h : validateThreshold signerGroups path requirement = none) :
    validateThreshold signerGroups path' requirement = none := by
  simp only [validateThreshold, check_eq_none] at h ⊢
  exact h

mutual

/-- Where a requirement stands does not matter for its validation. -/
theorem validateRequirement_path {path path' : String} : ∀ requirement : Requirement,
    validateRequirement signerGroups path requirement = none →
      validateRequirement signerGroups path' requirement = none
  | .proposerOnly keys, h => by
    simp only [validateRequirement] at h ⊢
    split at h
    · rename_i hkeys
      rw [if_pos hkeys]
    · cases h
  | .threshold requirement, h => validateThreshold_path h
  | .allOf requirements keys, h => by
    simp only [validateRequirement, check_eq_none] at h ⊢
    exact ⟨h.1, h.2.1, validateNested_path requirements h.2.2⟩
  | .anyOf requirements keys, h => by
    simp only [validateRequirement, check_eq_none] at h ⊢
    exact ⟨h.1, h.2.1, validateNested_path requirements h.2.2⟩
  | .allOfNothing keys, h => by simp [validateRequirement, check_eq_none] at h
  | .anyOfNothing keys, h => by simp [validateRequirement, check_eq_none] at h
  | .other value, h => by
    simp only [validateRequirement] at h
    split at h <;> cases h

theorem validateNested_path {path path' : String} {index index' : Nat} :
    ∀ requirements : List Requirement,
    validateNested signerGroups path index requirements = none →
      validateNested signerGroups path' index' requirements = none
  | [], _ => rfl
  | requirement :: rest, h => by
    rw [validateNested] at h
    split at h
    · cases h
    · rename_i hfirst
      rw [validateNested, validateRequirement_path requirement hfirst]
      exact validateNested_path rest h

end

theorem validateItems_none_iff {α : Type} {validate : String → α → Option String}
    (hpath : ∀ path path' item, validate path item = none → validate path' item = none)
    {path : String} {items : List α} : ∀ {index : Nat},
    validateItems validate path index items = none ↔
      ∀ item ∈ items, ∃ itemPath, validate itemPath item = none := by
  intro index
  refine ⟨validateItems_mem, ?_⟩
  induction items generalizing index with
  | nil => exact fun _ => rfl
  | cons item rest ih =>
    intro h
    obtain ⟨⟨itemPath, hitem⟩, hrest⟩ := List.forall_mem_cons.mp h
    rw [validateItems, hpath _ _ _ hitem]
    exact ih hrest

theorem validateCondition_path (path path' : String) (condition : Member PolicyCondition)
    (h : validateCondition path condition = none) : validateCondition path' condition = none := by
  cases condition with
  | given condition =>
    simp only [validateCondition, check_eq_none] at h ⊢
    refine ⟨h.1, h.2.1, ?_⟩
    have hop := h.2.2
    cases hoperator : condition.operator with
    | none =>
      rw [hoperator] at hop
      cases hop
    | some op =>
      rw [hoperator] at hop
      simp only [check_eq_none] at hop ⊢
      exact hop
  | _ => cases h

theorem validateMatch_conditions {path path' : String} {m : PolicyMatch}
    {conditions conditions' : List (Member PolicyCondition)}
    (hgiven : m.conditions = .given conditions) (hperm : conditions.Perm conditions')
    (h : validateMatch path (.given m) = none) :
    validateMatch path' (.given { m with conditions := .given conditions' }) = none := by
  simp only [validateMatch, check_eq_none, hgiven,
    validateItems_none_iff validateCondition_path] at h ⊢
  exact ⟨h.1, fun condition hmem => h.2 condition (hperm.mem_iff.mpr hmem)⟩

theorem validateMatch_path {path path' : String} {m : Member PolicyMatch}
    (h : validateMatch path m = none) : validateMatch path' m = none := by
  cases m with
  | given m =>
    simp only [validateMatch, check_eq_none] at h ⊢
    refine ⟨h.1, ?_⟩
    have hrest := h.2
    cases hconditions : m.conditions with
    | absent => rfl
    | other v =>
      rw [hconditions] at hrest
      cases hrest
    | given conditions =>
      rw [hconditions] at hrest
      simp only [validateItems_none_iff validateCondition_path] at hrest ⊢
      exact hrest
  | absent => rfl
  | other v => cases h

/-- An entry may have its conditions in any order. -/
theorem validatePolicyEntry_same {path path' : String} (hsame : SameItem item item')
    (h : validatePolicyEntry signerGroups path item = none) :
    validatePolicyEntry signerGroups path' item' = none := by
  cases item with
  | absent => cases h
  | other v => cases h
  | given entry =>
    simp only [validatePolicyEntry, check_eq_none] at h
    obtain ⟨hkeys, hreject, hboolean, hdescription, hcontext, h⟩ := h
    have hrequirement : (if decide (entry.reject = some (.bool true)) = true then none
        else validateRequirement signerGroups (path' ++ ".requirements")
          (entry.requirements.getD (.other none))) = none ∧
        validateMatch (path ++ ".match") entry.match_ = none := by
      split at h
      · cases h
      · rename_i hnone
        refine ⟨?_, h⟩
        split at hnone
        · rename_i hrejects
          rw [if_pos hrejects]
        · rename_i hrejects
          rw [if_neg hrejects]
          exact validateRequirement_path _ hnone
    cases hsame with
    | same =>
      simp only [validatePolicyEntry, check_eq_none]
      refine ⟨hkeys, hreject, hboolean, hdescription, hcontext, ?_⟩
      rw [hrequirement.1]
      exact validateMatch_path hrequirement.2
    | conditions hmatch hgiven hperm =>
      simp only [validatePolicyEntry, check_eq_none]
      refine ⟨hkeys, hreject, hboolean, hdescription, hcontext, ?_⟩
      rw [hrequirement.1]
      have hvalid := hrequirement.2
      rw [hmatch] at hvalid
      exact validateMatch_conditions hgiven hperm hvalid

theorem validatePolicyEntry_path (path path' : String) (item : Member PolicyEntry)
    (h : validatePolicyEntry signerGroups path item = none) :
    validatePolicyEntry signerGroups path' item = none :=
  validatePolicyEntry_same (.same item) h

theorem validateItems_reordered {path path' : String} {index index' : Nat}
    (h : ReorderedItems items items')
    (hvalid : validateItems (validatePolicyEntry signerGroups) path index items = none) :
    validateItems (validatePolicyEntry signerGroups) path' index' items' = none := by
  rw [validateItems_none_iff validatePolicyEntry_path] at hvalid ⊢
  obtain ⟨middle, hperm, hsame⟩ := h
  have hmiddle : ∀ item ∈ middle, ∃ path, validatePolicyEntry signerGroups path item = none :=
    fun item hmem => hvalid item (hperm.mem_iff.mpr hmem)
  clear hperm hvalid
  induction hsame with
  | nil => simp
  | cons hitem _ ih =>
    obtain ⟨⟨itemPath, hfirst⟩, hrest⟩ := List.forall_mem_cons.mp hmiddle
    exact List.forall_mem_cons.mpr ⟨⟨itemPath, validatePolicyEntry_same hitem hfirst⟩, ih hrest⟩

theorem validateOperations_reordered
    {operations operations' : List (String × Member (List (Member PolicyEntry)))}
    (h : List.Forall₂ ReorderedOperation operations operations')
    (hvalid : validateOperations signerGroups operations = none) :
    validateOperations signerGroups operations' = none := by
  induction h with
  | nil => rfl
  | @cons operation operation' rest rest' hoperation _ ih =>
    obtain ⟨name, value⟩ := operation
    cases value with
    | absent => cases hvalid
    | other v => cases hvalid
    | given items =>
      rw [validateOperations] at hvalid
      split at hvalid
      · cases hvalid
      · rename_i hitems
        cases hoperation with
        | same =>
          rw [validateOperations, hitems]
          exact ih hvalid
        | items _ hreordered =>
          rw [validateOperations, validateItems_reordered hreordered hitems]
          exact ih hvalid

end

/-- A reordered policy is validated as well. -/
theorem validatePolicyConfig_reordered (h : Reordered policy policy')
    (hvalid : validatePolicyConfig policy = none) : validatePolicyConfig policy' = none := by
  cases h with
  | same => exact hvalid
  | operations hpolicies hoperations =>
    unfold validatePolicyConfig at hvalid ⊢
    dsimp only
    split at hvalid
    · rename_i signerGroups hgroups
      rw [hpolicies] at hvalid
      simp only [check_eq_none] at hvalid ⊢
      refine ⟨hvalid.1, hvalid.2.1, ?_⟩
      have hrest := hvalid.2.2
      split at hrest
      · cases hrest
      · rename_i hsigners
        split at hrest
        · cases hrest
        · rename_i hdefault
          exact validateOperations_reordered hoperations hrest
    · cases hvalid

/-! ## What an evaluation reads of a policy -/

section

variable {proposerDid : Did}

theorem evaluateThreshold_congr (hgroups : policy'.signerGroups = policy.signerGroups)
    (requirement : ThresholdRequirement) :
    evaluateThreshold verifiedApprovals policy' proposerDid requirement =
      evaluateThreshold verifiedApprovals policy proposerDid requirement := by
  have hresolve : resolveEligibleSigners policy' requirement =
      resolveEligibleSigners policy requirement := by
    unfold resolveEligibleSigners
    rw [hgroups]
  unfold evaluateThreshold
  rw [hresolve]

mutual

/-- A requirement reads the groups of the policy, and nothing else of it. -/
theorem evaluateRequirement_congr (hgroups : policy'.signerGroups = policy.signerGroups) :
    ∀ requirement : Requirement,
      evaluateRequirement verifiedApprovals policy' proposerDid requirement =
        evaluateRequirement verifiedApprovals policy proposerDid requirement
  | .proposerOnly _ => rfl
  | .threshold requirement => evaluateThreshold_congr hgroups requirement
  | .allOf requirements _ => evaluateAll_congr hgroups requirements
  | .allOfNothing _ => rfl
  | .anyOf [] _ => rfl
  | .anyOf (first :: rest) keys => by
    rw [evaluateRequirement, evaluateRequirement, evaluateAny_congr hgroups (first :: rest),
      evaluateRequirement_congr hgroups first]
  | .anyOfNothing _ => rfl
  | .other none => rfl
  | .other (some .null) => rfl
  | .other (some (.bool _)) => rfl
  | .other (some (.num _)) => rfl
  | .other (some (.str _)) => rfl
  | .other (some (.arr _)) => rfl
  | .other (some (.obj _)) => rfl

theorem evaluateAll_congr (hgroups : policy'.signerGroups = policy.signerGroups) :
    ∀ requirements : List Requirement,
      evaluateAll verifiedApprovals policy' proposerDid requirements =
        evaluateAll verifiedApprovals policy proposerDid requirements
  | [] => rfl
  | requirement :: rest => by
    rw [evaluateAll, evaluateAll, evaluateRequirement_congr hgroups requirement,
      evaluateAll_congr hgroups rest]

theorem evaluateAny_congr (hgroups : policy'.signerGroups = policy.signerGroups) :
    ∀ requirements : List Requirement,
      evaluateAny verifiedApprovals policy' proposerDid requirements =
        evaluateAny verifiedApprovals policy proposerDid requirements
  | [] => rfl
  | requirement :: rest => by
    rw [evaluateAny, evaluateAny, evaluateRequirement_congr hgroups requirement,
      evaluateAny_congr hgroups rest]

end

end

/-- Reordered policies have one groups table and one default requirement. -/
theorem Reordered.conclusion_eq (h : Reordered policy policy') (entries : List PolicyEntry) :
    conclusion actionPackage verifiedApprovals policy' entries =
      conclusion actionPackage verifiedApprovals policy entries := by
  have hsame : policy'.signerGroups = policy.signerGroups ∧
      policy'.defaultRequirement = policy.defaultRequirement := by
    cases h <;> exact ⟨rfl, rfl⟩
  unfold conclusion
  dsimp only
  rw [evaluateRequirement_congr hsame.1, evaluateAll_congr hsame.1, hsame.2]

/-! ## The entries of the operation -/

theorem ReorderedItems.refl (items : List (Member PolicyEntry)) : ReorderedItems items items :=
  ⟨items, List.Perm.refl _, List.forall₂_same.mpr fun item _ => .same item⟩

theorem lookup_reordered {operations operations' : List (String × Member (List (Member PolicyEntry)))}
    (h : List.Forall₂ ReorderedOperation operations operations') (name : String) :
    operations.lookup name = operations'.lookup name ∨
      ∃ items items', operations.lookup name = some (.given items) ∧
        operations'.lookup name = some (.given items') ∧ ReorderedItems items items' := by
  induction h with
  | nil => exact .inl rfl
  | @cons operation operation' rest rest' hoperation _ ih =>
    cases hoperation with
    | same =>
      obtain ⟨operationName, value⟩ := operation
      rw [List.lookup_cons, List.lookup_cons]
      cases name == operationName with
      | true => exact .inl rfl
      | false => exact ih
    | items operationName hreordered =>
      rw [List.lookup_cons, List.lookup_cons]
      cases name == operationName with
      | true => exact .inr ⟨_, _, rfl, rfl, hreordered⟩
      | false => exact ih

theorem Reordered.listed (h : Reordered policy policy') (actionPackage : ActionPackage) :
    ReorderedItems (listedItems actionPackage policy) (listedItems actionPackage policy') := by
  cases h with
  | same => exact ReorderedItems.refl _
  | @operations operations operations' hpolicies hoperations =>
    unfold listedItems policyEntriesOf
    rw [hpolicies]
    cases actionNameOf actionPackage.executionPayload with
    | none => exact ReorderedItems.refl _
    | some name =>
      dsimp only
      by_cases hname : name = ""
      · simp only [hname, ↓reduceIte]
        exact ReorderedItems.refl _
      · simp only [hname, ↓reduceIte]
        rcases lookup_reordered hoperations name with heq | ⟨items, items', heq, heq', hitems⟩
        · rw [heq]
          exact ReorderedItems.refl _
        · rw [heq, heq']
          exact hitems

theorem exists_operations {operations : List (String × Member (List (Member PolicyEntry)))}
    {name : String} (hlook : operations.lookup name = some (.given items))
    (h : ReorderedItems items items') :
    ∃ operations', List.Forall₂ ReorderedOperation operations operations' ∧
      operations'.lookup name = some (.given items') := by
  induction operations with
  | nil => cases hlook
  | cons operation rest ih =>
    obtain ⟨operationName, value⟩ := operation
    rw [List.lookup_cons] at hlook
    cases hname : name == operationName with
    | true =>
      rw [hname] at hlook
      cases hlook
      refine ⟨(operationName, .given items') :: rest,
        .cons (.items operationName h) (List.forall₂_same.mpr fun _ _ => .same _), ?_⟩
      rw [List.lookup_cons, hname]
    | false =>
      rw [hname] at hlook
      obtain ⟨rest', hrest, hlook'⟩ := ih hlook
      refine ⟨(operationName, value) :: rest', .cons (.same _) hrest, ?_⟩
      rw [List.lookup_cons, hname]
      exact hlook'

/-- Every order of the listed entries is the order in some policy. -/
theorem exists_reordered (h : ReorderedItems (listedItems actionPackage policy) items') :
    ∃ policy', Reordered policy policy' ∧ listedItems actionPackage policy' = items' := by
  by_cases hlisted : ∃ name operations items,
      actionNameOf actionPackage.executionPayload = some name ∧ name ≠ "" ∧
        policy.policies = .given operations ∧ operations.lookup name = some (.given items)
  · obtain ⟨name, operations, items, hname, hne, hpolicies, hlook⟩ := hlisted
    have hitems : listedItems actionPackage policy = items := by
      simp only [listedItems, policyEntriesOf, hname, hpolicies, hne, ↓reduceIte, hlook]
    rw [hitems] at h
    obtain ⟨operations', hoperations, hlook'⟩ := exists_operations hlook h
    refine ⟨_, .operations hpolicies hoperations, ?_⟩
    simp only [listedItems, policyEntriesOf, hname, hne, ↓reduceIte, hlook']
  · have hnone : listedItems actionPackage policy = [] := by
      unfold listedItems policyEntriesOf
      split
      · rename_i items hitems
        split at hitems
        · rename_i name operations hname hpolicies
          split at hitems
          · cases hitems
            rfl
          · rename_i hne
            split at hitems
            · rename_i entries hlook
              exact absurd ⟨name, operations, entries, hname, hne, hpolicies, hlook⟩ hlisted
            · split at hitems
              · cases hitems
              · cases hitems
                rfl
            · cases hitems
              rfl
            · cases hitems
              rfl
        · cases hitems
          rfl
      · rfl
    refine ⟨policy, .same policy, ?_⟩
    rw [hnone] at h ⊢
    obtain ⟨middle, hperm, hsame⟩ := h
    obtain rfl := hperm.nil_eq
    cases hsame
    rfl

/-! ## Orders that an item decides -/

/-- Every verdict that is not true comes first in some order. -/
theorem exists_sameItem {v : Verdict ConditionError} (hmem : v ∈ verdictsOf actionPackage item)
    (hv : v ≠ .ok true) :
    ∃ item', SameItem item item' ∧ Verdict.every (verdictsOf actionPackage item') = v := by
  by_cases hconditions : ∃ entry m conditions, item = .given entry ∧ entry.match_ = .given m ∧
      m.conditions = .given conditions
  · obtain ⟨entry, m, conditions, rfl, hmatch, hgiven⟩ := hconditions
    simp only [verdictsOf, hmatch, hgiven] at hmem
    obtain ⟨condition, hcondition, rfl⟩ := List.mem_map.mp hmem
    obtain ⟨before, after, rfl⟩ := List.append_of_mem hcondition
    refine ⟨_, .conditions hmatch hgiven List.perm_middle, ?_⟩
    simp only [verdictsOf, List.map_cons]
    exact Verdict.every_cons_of_ne hv _
  · refine ⟨item, .same item, ?_⟩
    have hsingle : verdictsOf actionPackage item = [v] := by
      unfold verdictsOf at hmem ⊢
      split at hmem
      · split at hmem
        · split at hmem
          · rename_i entry _ m hmatch _ conditions hgiven
            exact absurd ⟨entry, m, conditions, rfl, hmatch, hgiven⟩ hconditions
          · cases hmem
          · split at hmem
            · cases hmem
            · rename_i hlength
              rw [if_neg hlength, List.mem_singleton.mp hmem]
        · cases hmem
      · rw [List.mem_singleton.mp hmem]
      · rw [List.mem_singleton.mp hmem]
      · cases hmem
    rw [hsingle]
    exact Verdict.every_cons_of_ne hv _

/-- A failing condition ends the loop in some order. -/
theorem exists_failing {e : ConditionError} (hmem : item ∈ items)
    (hfails : .error e ∈ verdictsOf actionPackage item) :
    ∃ items', ReorderedItems items items' ∧ collectMatching actionPackage items' = .error e := by
  obtain ⟨item', hsame, hevery⟩ := exists_sameItem hfails nofun
  obtain ⟨before, after, rfl⟩ := List.append_of_mem hmem
  refine ⟨item' :: (before ++ after), ⟨item :: (before ++ after), List.perm_middle,
    .cons hsame (List.forall₂_same.mpr fun other _ => .same other)⟩, ?_⟩
  rw [collectMatching_cons, hevery]
  rfl

/-- Where every item has a false condition or only true ones, no condition fails in some order. -/
theorem exists_settled (h : ∀ item ∈ items, Verdict.Settles (verdictsOf actionPackage item)) :
    ∃ items', List.Forall₂ SameItem items items' ∧
      ∃ matchedEntries, collectMatching actionPackage items' = .ok matchedEntries := by
  induction items with
  | nil => exact ⟨[], .nil, [], rfl⟩
  | cons item rest ih =>
    obtain ⟨hitem, hrest⟩ := List.forall_mem_cons.mp h
    obtain ⟨rest', hsame, matchedEntries, hcollect⟩ := ih hrest
    have hdecided : ∃ item' b, SameItem item item' ∧
        Verdict.every (verdictsOf actionPackage item') = .ok b := by
      rcases hitem with hfalse | htrue
      · obtain ⟨item', hsame, hevery⟩ := exists_sameItem hfalse (by simp)
        exact ⟨item', false, hsame, hevery⟩
      · refine ⟨item, true, .same item, ?_⟩
        rcases Verdict.every_cases (verdictsOf actionPackage item) with
          ⟨heq, -⟩ | ⟨-, hmem⟩ | ⟨e, -, hmem⟩
        · exact heq
        · cases htrue _ hmem
        · cases htrue _ hmem
    obtain ⟨item', b, hsameItem, hevery⟩ := hdecided
    refine ⟨item' :: rest', .cons hsameItem hsame, ?_⟩
    rw [collectMatching_cons, hevery, hcollect]
    exact ⟨_, rfl⟩

/-! ## Requirements in force -/

/-- No entry that matches rejects, and reading what is in force comes to an object
in place of the eligible Signers. -/
def ObjectInForce (actionPackage : ActionPackage) (policy : PolicyConfig)
    (verifiedApprovals : VerifiedApprovals) : Prop :=
  (∀ entry, Matching actionPackage policy entry → entry.reject ≠ some (.bool true)) ∧
    ∃ requirement, InForce actionPackage policy requirement ∧
      Halts (Backed policy
        (verifiedApprovals.givers actionPackage.actionEnvelope.proposer)) requirement

theorem passes_given_iff {entry : PolicyEntry} :
    Passes actionPackage (.given entry) ↔ entryMatches actionPackage entry = .ok true := by
  have hread := readEntry_matches actionPackage (.given entry)
  change (entryMatches actionPackage entry).map (entry, ·) = _ at hread
  rcases Verdict.every_cases (verdictsOf actionPackage (.given entry)) with
    ⟨heq, hall⟩ | ⟨heq, hmem⟩ | ⟨e, heq, hmem⟩
  · rw [heq] at hread
    cases hmatches : entryMatches actionPackage entry with
    | error e =>
      rw [hmatches] at hread
      cases hread
    | ok b =>
      rw [hmatches] at hread
      cases hread
      exact ⟨fun _ => rfl, fun _ => hall⟩
  · have hnot : ¬Passes actionPackage (.given entry) := fun h => by cases h _ hmem
    rw [heq] at hread
    refine ⟨fun h => absurd h hnot, fun h => ?_⟩
    rw [h] at hread
    cases hread
  · have hnot : ¬Passes actionPackage (.given entry) := fun h => by cases h _ hmem
    rw [heq] at hread
    refine ⟨fun h => absurd h hnot, fun h => ?_⟩
    rw [h] at hread
    cases hread

theorem passing_listed {entries : List PolicyEntry}
    (hlisted : Listed actionPackage policy entries) :
    passing actionPackage (listedItems actionPackage policy) =
      entries.filter fun entry => decide (entryMatches actionPackage entry = .ok true) := by
  have hitems : listedItems actionPackage policy = entries.map .given := by
    rw [listedItems, hlisted]
  rw [hitems, passing, List.filter_map, List.map_map]
  simp only [Function.comp_def, passes_given_iff, entryOf, List.map_id']

theorem requirementEnding_thrown_iff {x : Except JsError (List UnsatisfiedThreshold)} :
    requirementEnding x = .thrown ↔ ¬∃ unsatisfied, x = .ok unsatisfied := by
  cases x with
  | error e => simp [requirementEnding]
  | ok unsatisfied => cases unsatisfied <;> simp [requirementEnding]

theorem evaluateAll_returns_iff {proposerDid : Did} {requirements : List Requirement} :
    (∃ unsatisfied,
        evaluateAll verifiedApprovals policy proposerDid requirements = .ok unsatisfied) ↔
      ∀ r ∈ requirements, ∃ unsatisfied,
        evaluateRequirement verifiedApprovals policy proposerDid r = .ok unsatisfied := by
  rcases evaluateAll_cases verifiedApprovals policy proposerDid requirements with
    ⟨⟨e, heq⟩, failing, hmem, e', hfails⟩ | ⟨unsatisfied, heq, hall, -⟩
  · rw [heq]
    refine ⟨fun ⟨_, h⟩ => (by cases h), fun h => ?_⟩
    obtain ⟨unsatisfied, hok⟩ := h failing hmem
    rw [hfails] at hok
    cases hok
  · exact ⟨fun _ => hall, fun _ => ⟨unsatisfied, heq⟩⟩

theorem conclusion_thrown_iff (h : validatePolicyConfig policy = none) :
    conclusion actionPackage verifiedApprovals policy
        (passing actionPackage (listedItems actionPackage policy)) = .thrown ↔
      ObjectInForce actionPackage policy verifiedApprovals := by
  obtain ⟨signerGroups, entries, hgroups, hsigners, hdefault, hlisted, hvalid⟩ :=
    listed_validated h actionPackage
  have hreturns : ∀ part, InForce actionPackage policy part →
      ((∃ unsatisfied, evaluateRequirement verifiedApprovals policy
        actionPackage.actionEnvelope.proposer part = .ok unsatisfied) ↔
        ¬Halts (Backed policy
          (verifiedApprovals.givers actionPackage.actionEnvelope.proposer)) part) := by
    intro part hforce
    obtain ⟨path, hpath⟩ := inForce_validated hlisted hdefault hvalid hforce
    exact evaluateRequirement_returns_iff hgroups hsigners
      (requirement_checked hgroups hsigners part path hpath)
      fun threshold hwithin => validateRequirement_within hwithin hpath
  have hmatching : ∀ entry, Matching actionPackage policy entry ↔
      entry ∈ passing actionPackage (listedItems actionPackage policy) := by
    intro entry
    rw [passing_listed hlisted]
    exact matching_iff hlisted
  unfold ObjectInForce
  generalize passing actionPackage (listedItems actionPackage policy) = matched at hmatching
  unfold conclusion
  dsimp only
  split
  · rename_i hreject
    obtain ⟨entry, hmem, hrejects⟩ := List.any_eq_true.mp hreject
    exact ⟨nofun, fun hforce =>
      absurd (of_decide_eq_true hrejects) (hforce.1 entry ((hmatching entry).mpr hmem))⟩
  · rename_i hreject
    have haccept : ∀ entry, Matching actionPackage policy entry →
        entry.reject ≠ some (.bool true) := fun entry hmatch hrejects =>
      hreject (List.any_eq_true.mpr ⟨entry, (hmatching entry).mp hmatch, decide_eq_true hrejects⟩)
    rw [and_iff_right haccept]
    split
    · rename_i hnil
      have hnone : ∀ entry, ¬Matching actionPackage policy entry := by
        intro entry hmatch
        have hmem := (hmatching entry).mp hmatch
        rw [hnil] at hmem
        cases hmem
      rw [requirementEnding_thrown_iff, hreturns _ (.default hnone), not_not]
      refine ⟨fun hhalts => ⟨_, .default hnone, hhalts⟩, ?_⟩
      rintro ⟨part, hforce, hhalts⟩
      cases hforce with
      | default => exact hhalts
      | entry hmatch => exact absurd hmatch (hnone _)
    · rename_i hne
      obtain ⟨first, rest, rfl⟩ := List.exists_cons_of_ne_nil hne
      have hforce : ∀ part, InForce actionPackage policy part ↔ part ∈ (first :: rest).map
          fun entry => entry.requirements.getD (.other none) := by
        intro part
        refine inForce_entry_iff hmatching fun entry hmem => ?_
        have hmatch := (hmatching entry).mpr hmem
        obtain ⟨path, hpath⟩ := hvalid entry (List.mem_of_mem_filter ((matching_iff hlisted).mp hmatch))
        exact validatePolicyEntry_requires hpath (haccept entry hmatch)
      rw [requirementEnding_thrown_iff, evaluateAll_returns_iff]
      simp only [← hforce]
      constructor
      · intro hstops
        by_contra hnone
        refine hstops fun part hpart => (hreturns part hpart).mpr fun hhalts => ?_
        exact hnone ⟨part, hpart, hhalts⟩
      · rintro ⟨part, hpart, hhalts⟩ hall
        exact (hreturns part hpart).mp (hall part hpart) hhalts

/-! ## The order -/

/-- Where every order comes to one end, the condition holds: each failure there is
comes first in some order. -/
theorem oneEnd_of_orders
    (h : ∀ items', ReorderedItems items items' →
      loopEnding actionPackage verifiedApprovals policy items =
        loopEnding actionPackage verifiedApprovals policy items') :
    OneEnd actionPackage items (conclusion actionPackage verifiedApprovals policy
      (passing actionPackage items) = .thrown) := by
  have hmalformed : (∃ item ∈ items, HasUnparseable actionPackage item) →
      loopEnding actionPackage verifiedApprovals policy items = .malformed := by
    rintro ⟨item, hmem, cause, hfails⟩
    obtain ⟨items', hreordered, hcollect⟩ := exists_failing hmem hfails
    rw [h items' hreordered, loopEnding, hcollect]
  have hthrown : (∃ item ∈ items, HasThrowing actionPackage item) →
      loopEnding actionPackage verifiedApprovals policy items = .thrown := by
    rintro ⟨item, hmem, e, hfails⟩
    obtain ⟨items', hreordered, hcollect⟩ := exists_failing hmem hfails
    rw [h items' hreordered, loopEnding, hcollect]
  have hconclusion : (¬∃ item ∈ items, FailsAlways actionPackage item) →
      loopEnding actionPackage verifiedApprovals policy items =
        conclusion actionPackage verifiedApprovals policy (passing actionPackage items) := by
    intro hnever
    obtain ⟨items', hsame, matchedEntries, hcollect⟩ := exists_settled fun item hmem =>
      not_not.mp fun hfails => hnever ⟨item, hmem, hfails⟩
    have hreordered : ReorderedItems items items' := ⟨items, List.Perm.refl _, hsame⟩
    rcases collect_cases actionPackage items' with ⟨hok, -⟩ | ⟨e, herror, -⟩
    · rw [h items' hreordered, loopEnding, hok]
      exact (conclusion_perm hreordered.passing_perm).symm
    · rw [hcollect] at herror
      cases herror
  refine ⟨fun hu => ⟨fun item hmem hthrows => ?_, ?_⟩, fun ht => ⟨fun item hmem hparse => ?_, ?_⟩⟩
  · have hboth := hmalformed hu
    rw [hthrown ⟨item, hmem, hthrows⟩] at hboth
    cases hboth
  · by_contra hnever
    have heq := hconclusion hnever
    rw [hmalformed hu] at heq
    exact conclusion_ne_malformed _ heq.symm
  · have hboth := hthrown ht
    rw [hmalformed ⟨item, hmem, hparse⟩] at hboth
    cases hboth
  · by_contra hneither
    obtain ⟨hnever, hreturns⟩ := not_or.mp hneither
    have heq := hconclusion hnever
    rw [hthrown ht] at heq
    exact hreturns heq.symm

/-- **The order of a policy's conjunctions.** A validated policy comes to the end of
all its reorderings exactly if a Signer contradicts itself, or its conditions and
requirements come to one end. -/
theorem order_irrelevant_iff (policy : PolicyConfig) (h : validatePolicyConfig policy = none)
    (actionPackage : ActionPackage) (verifiedApprovals : VerifiedApprovals) :
    (∀ policy', Reordered policy policy' → validatePolicyConfig policy' = none →
      ending (evaluatePolicy actionPackage verifiedApprovals policy) =
        ending (evaluatePolicy actionPackage verifiedApprovals policy')) ↔
      (ConflictFree verifiedApprovals.decisions →
        OneEnd actionPackage (listedItems actionPackage policy)
          (ObjectInForce actionPackage policy verifiedApprovals)) := by
  rw [← conclusion_thrown_iff h, ← conflictingDecisions_iff]
  cases hconflict : conflictingDecisions [] verifiedApprovals.approvals with
  | true =>
    refine ⟨nofun, fun _ policy' _ hvalid => ?_⟩
    rw [ending_evaluatePolicy h, ending_evaluatePolicy hvalid, hconflict]
    rfl
  | false =>
    have hending : ∀ policy', validatePolicyConfig policy' = none → Reordered policy policy' →
        ending (evaluatePolicy actionPackage verifiedApprovals policy') =
          loopEnding actionPackage verifiedApprovals policy (listedItems actionPackage policy') := by
      intro policy' hvalid hreordered
      rw [ending_evaluatePolicy hvalid, hconflict, if_neg Bool.false_ne_true, loopEnding]
      simp only [hreordered.conclusion_eq]
    rw [hending policy h (.same policy)]
    simp only [forall_const]
    constructor
    · intro horders
      refine oneEnd_of_orders fun items' hitems => ?_
      obtain ⟨policy', hreordered, rfl⟩ := exists_reordered hitems
      have hvalid := validatePolicyConfig_reordered hreordered h
      rw [horders policy' hreordered hvalid, hending policy' hvalid hreordered]
    · intro hone policy' hreordered hvalid
      rw [hending policy' hvalid hreordered]
      exact loopEnding_reordered (hreordered.listed actionPackage) hone

/-! ## A false condition and one that compares no number -/

def nameCondition (op : String) (value : Json) : PolicyCondition where
  source := some (.str "executionPayload")
  path := some (.str "/name")
  op := some (.str op)
  value := some value

/-- One entry for the operation `deploy`, with the conditions. -/
def orderPolicy (conditions : List PolicyCondition) : PolicyConfig :=
  { approversPolicy none with
    policies := .given [("deploy", .given [.given {
      match_ := .given { conditions := .given (conditions.map .given) }
      requirements := some (.proposerOnly []) }])] }

/-- It is false of `deploy`. -/
def otherName : PolicyCondition := nameCondition "eq" (.str "other")

/-- It compares the name of the Action with a number. -/
def aboveOne : PolicyCondition := nameCondition "gt" (.num (.finite 1))

theorem orderPolicy_reordered {conditions conditions' : List PolicyCondition}
    (h : conditions.Perm conditions') :
    Reordered (orderPolicy conditions) (orderPolicy conditions') := by
  let m : PolicyMatch := { conditions := .given (conditions.map .given) }
  let entry : PolicyEntry := { match_ := .given m, requirements := some (.proposerOnly []) }
  have hentry := SameItem.conditions (show entry.match_ = .given m from rfl)
    (show m.conditions = .given (conditions.map .given) from rfl) (h.map Member.given)
  exact .operations rfl (.cons (.items "deploy" ⟨_, List.Perm.refl _, .cons hentry .nil⟩) .nil)

/-- Both conditions of the policy are decided, so their order does not matter. -/
theorem order_irrelevant_decided :
    ending (evaluatePolicy deployAction ⟨⟨"", ""⟩, []⟩
        (orderPolicy [otherName, nameCondition "eq" (.str "deploy")])) =
      .additionalApprovalsRequired ∧
    ∀ policy', Reordered (orderPolicy [otherName, nameCondition "eq" (.str "deploy")]) policy' →
      validatePolicyConfig policy' = none →
      ending (evaluatePolicy deployAction ⟨⟨"", ""⟩, []⟩
          (orderPolicy [otherName, nameCondition "eq" (.str "deploy")])) =
        ending (evaluatePolicy deployAction ⟨⟨"", ""⟩, []⟩ policy') := by
  have hdecided : ∀ item ∈ listedItems deployAction
      (orderPolicy [otherName, nameCondition "eq" (.str "deploy")]),
      verdictsOf deployAction item = [.ok false, .ok true] := by
    decide +kernel
  refine ⟨by decide +kernel, (order_irrelevant_iff _ (by decide +kernel) deployAction
    ⟨⟨"", ""⟩, []⟩).mpr fun _ => ⟨?_, ?_⟩⟩
  · rintro ⟨item, hmem, cause, hfails⟩
    rw [hdecided item hmem] at hfails
    simp at hfails
  · rintro ⟨item, hmem, e, hfails⟩
    rw [hdecided item hmem] at hfails
    simp at hfails

/-- The false condition keeps the other one from being evaluated, but not from behind. -/
theorem order_decides :
    Reordered (orderPolicy [otherName, aboveOne]) (orderPolicy [aboveOne, otherName]) ∧
      validatePolicyConfig (orderPolicy [otherName, aboveOne]) = none ∧
      validatePolicyConfig (orderPolicy [aboveOne, otherName]) = none ∧
      ending (evaluatePolicy deployAction ⟨⟨"", ""⟩, []⟩ (orderPolicy [otherName, aboveOne])) =
        .additionalApprovalsRequired ∧
      ending (evaluatePolicy deployAction ⟨⟨"", ""⟩, []⟩ (orderPolicy [aboveOne, otherName])) =
        .malformed := by
  refine ⟨orderPolicy_reordered (List.Perm.swap _ _ _), ?_⟩
  decide +kernel

end Mpas.PolicyEngine
