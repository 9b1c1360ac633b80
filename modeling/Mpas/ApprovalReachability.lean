import Mpas.DefaultRequirement

/-!
# What an approval expression can still come to

The evaluation in Coordination looks at each threshold for itself and at the
decisions given so far. What it says about the future is compared with what
further decisions can bring about.

* `evaluate_eq`: the status of an expression, by counting Signers;
* `achievable_iff`: when further decisions satisfy it;
* `pending_achievable_iff`: when `pending` means that they can;
* `divisible_of_separate`: thresholds that compete for no Signer are met together.
-/

namespace Mpas.ApprovalRequirements

open PolicyEngine (givers mem_givers givenDecision givenDecision_eq)

/-! ## Thresholds -/

/-- The threshold asks for `k` of these Signers. -/
structure Asks (threshold : ThresholdRequirement) (k : Nat) (eligible : List Did) : Prop where
  count : threshold.threshold = .num (.ofNat k)
  signers : threshold.eligibleSigners = .arr (eligible.map .str)

/-- Thresholds are positive integers and list DIDs. -/
def WellTyped (requirements : ApprovalRequirements) : Prop :=
  ∀ threshold ∈ requirements.anyOf.getD [] ++ requirements.allOf.getD [],
    ∃ k eligible, 0 < k ∧ Asks threshold k eligible

/-- `requirement.decision ?? "approve"`. -/
def expectedDecision (threshold : ThresholdRequirement) : Json :=
  Json.nullish threshold.decision (.str "approve")

/-- The Signers that decided otherwise. -/
def refusers (decision : Json) (decisions : List SignerDecision) : Finset Did :=
  ((decisions.filter fun vote => decide (.str vote.decision.text ≠ decision)).map
    (·.signerDid)).toFinset

/-- Enough eligible Signers gave the decision. -/
def Met (decisions : List SignerDecision) (threshold : ThresholdRequirement) : Prop :=
  ∃ k eligible, Asks threshold k eligible ∧
    Quorum.Reached k eligible.toFinset (givers (expectedDecision threshold) decisions)

/-- Enough eligible Signers did not decide otherwise. -/
def Attainable (decisions : List SignerDecision) (threshold : ThresholdRequirement) : Prop :=
  ∃ k eligible, Asks threshold k eligible ∧
    k ≤ (eligible.toFinset \ refusers (expectedDecision threshold) decisions).card

variable {threshold : ThresholdRequirement} {k : Nat} {eligible : List Did}
  {decisions extension : List SignerDecision} {requirements : ApprovalRequirements}
  {m : OrderedMap Did Decision}

theorem mem_refusers {decision : Json} {did : Did} :
    did ∈ refusers decision decisions ↔
      ∃ d : Decision, ⟨did, d⟩ ∈ decisions ∧ .str d.text ≠ decision := by
  simp only [refusers, List.mem_toFinset, List.mem_map, List.mem_filter, decide_eq_true_eq]
  constructor
  · rintro ⟨⟨_, d⟩, ⟨hvote, hd⟩, rfl⟩
    exact ⟨d, hvote, hd⟩
  · rintro ⟨d, hvote, hd⟩
    exact ⟨⟨did, d⟩, ⟨hvote, hd⟩, rfl⟩

theorem Asks.unique {k' : Nat} {eligible' : List Did} (h : Asks threshold k eligible)
    (h' : Asks threshold k' eligible') : k = k' ∧ eligible = eligible' := by
  have hk := h.count.symm.trans h'.count
  have heligible := h.signers.symm.trans h'.signers
  constructor
  · simpa [JsNumber.ofNat] using hk
  · exact List.map_injective_iff.mpr (fun _ _ => Json.str.inj) (Json.arr.inj heligible)

theorem met_iff (h : Asks threshold k eligible) : Met decisions threshold ↔
    Quorum.Reached k eligible.toFinset (givers (expectedDecision threshold) decisions) := by
  constructor
  · rintro ⟨k', eligible', h', hreached⟩
    obtain ⟨rfl, rfl⟩ := h.unique h'
    exact hreached
  · exact fun hreached => ⟨k, eligible, h, hreached⟩

theorem attainable_iff (h : Asks threshold k eligible) : Attainable decisions threshold ↔
    k ≤ (eligible.toFinset \ refusers (expectedDecision threshold) decisions).card := by
  constructor
  · rintro ⟨k', eligible', h', hcard⟩
    obtain ⟨rfl, rfl⟩ := h.unique h'
    exact hcard
  · exact fun hcard => ⟨k, eligible, h, hcard⟩

/-! ## Counting -/

theorem eq_map_strings {values : List Json} (h : ∀ v ∈ values, ∃ did, v = .str did) :
    values = (Json.strings values).map .str := by
  induction values with
  | nil => rfl
  | cons v values ih =>
    obtain ⟨⟨did, rfl⟩, hrest⟩ := List.forall_mem_cons.mp h
    have hcons : Json.strings (.str did :: values) = did :: Json.strings values := rfl
    rw [hcons, List.map_cons, ← ih hrest]

theorem mem_of_mem_distinct {values : List Json} {v : Json} (h : v ∈ Json.distinct values) :
    v ∈ values := by
  induction values with
  | nil => exact h
  | cons first values ih =>
    rcases List.mem_cons.mp h with rfl | hrest
    · exact List.mem_cons_self
    · exact List.mem_cons_of_mem _ (ih (List.mem_filter.mp hrest).1)

/-- The values of a `Set` of strings are the distinct strings. -/
theorem distinct_strings (eligible : List Did) :
    ∃ dids : List Did, Json.distinct (eligible.map .str) = dids.map .str ∧ dids.Nodup ∧
      dids.toFinset = eligible.toFinset := by
  refine ⟨Json.strings (Json.distinct (eligible.map .str)), eq_map_strings ?_,
    Json.strings_distinct_nodup _, ?_⟩
  · intro v hv
    obtain ⟨did, -, rfl⟩ := List.mem_map.mp (mem_of_mem_distinct hv)
    exact ⟨did, rfl⟩
  · ext did
    rw [List.mem_toFinset, Json.mem_strings_distinct, Json.mem_strings, List.mem_toFinset]
    simp

theorem countP_distinct (eligible : List Did) (p : Json → Bool) :
    (Json.distinct (eligible.map .str)).countP p =
      (eligible.toFinset.filter fun did => p (.str did) = true).card := by
  obtain ⟨dids, hdids, hnodup, hset⟩ := distinct_strings eligible
  rw [hdids, ← hset, List.countP_map, List.countP_eq_length_filter,
    ← List.toFinset_card_of_nodup (hnodup.filter _), List.toFinset_filter]
  rfl

theorem isMatching_str (hm : Records m decisions) (decision : Json) (did : Did) :
    isMatching m decision (.str did) = true ↔ did ∈ givers decision decisions := by
  have hget : decisionOf m (.str did) = m.get? did := rfl
  rw [isMatching, hget, mem_givers]
  cases hgiven : m.get? did with
  | none => simp [← hm did, hgiven]
  | some d => simp [← hm did, hgiven]

theorem isUndecided_str (hm : Records m decisions) (did : Did) :
    isUndecided m (.str did) = true ↔ ∀ d, ⟨did, d⟩ ∉ decisions := by
  have hget : decisionOf m (.str did) = m.get? did := rfl
  rw [isUndecided, hget]
  cases hgiven : m.get? did with
  | none => simp [← hm did, hgiven]
  | some d => simp [← hm did, hgiven]

section Counting

variable (hm : Records m decisions) (decision : Json) (eligible : List Did)

include hm

theorem countP_isMatching_distinct :
    (Json.distinct (eligible.map .str)).countP (isMatching m decision) =
      (eligible.toFinset ∩ givers decision decisions).card := by
  rw [countP_distinct]
  congr 1
  ext did
  rw [Finset.mem_filter, Finset.mem_inter, isMatching_str hm]

/-- Who gave the decision or none did not decide otherwise. -/
theorem countP_open_distinct (hfree : ConflictFree decisions) :
    (Json.distinct (eligible.map .str)).countP (isMatching m decision) +
        (Json.distinct (eligible.map .str)).countP (isUndecided m) =
      (eligible.toFinset \ refusers decision decisions).card := by
  rw [countP_distinct, countP_distinct, ← Finset.card_union_of_disjoint]
  · congr 1
    ext did
    rw [Finset.mem_union, Finset.mem_filter, Finset.mem_filter, Finset.mem_sdiff,
      isMatching_str hm, isUndecided_str hm, mem_givers, mem_refusers]
    constructor
    · rintro (⟨hmem, d, hvote, hd⟩ | ⟨hmem, hnone⟩)
      · refine ⟨hmem, ?_⟩
        rintro ⟨d', hvote', hd'⟩
        have hsame : d = d' := hfree _ hvote _ hvote' rfl
        exact hd' (hsame ▸ hd)
      · exact ⟨hmem, fun ⟨d', hvote', _⟩ => hnone d' hvote'⟩
    · rintro ⟨hmem, hnot⟩
      by_cases hdecided : ∃ d, (⟨did, d⟩ : SignerDecision) ∈ decisions
      · obtain ⟨d, hvote⟩ := hdecided
        left
        refine ⟨hmem, d, hvote, ?_⟩
        by_contra hd
        exact hnot ⟨d, hvote, hd⟩
      · right
        exact ⟨hmem, not_exists.mp hdecided⟩
  · rw [Finset.disjoint_filter]
    intro did _ hmatching hundecided
    rw [isMatching_str hm, mem_givers] at hmatching
    rw [isUndecided_str hm] at hundecided
    obtain ⟨d, hvote, -⟩ := hmatching
    exact hundecided d hvote

end Counting

open Classical in
/-- The status of one threshold. -/
theorem thresholdStatus_asks (h : Asks threshold k eligible) (hm : Records m decisions)
    (hfree : ConflictFree decisions) :
    thresholdStatus m threshold =
      .ok (if Met decisions threshold then .satisfied
        else if Attainable decisions threshold then .pending else .unreachable) := by
  have hreaches (count : Nat) :
      Json.countReaches count (some threshold.threshold) = .ok (decide (k ≤ count)) := by
    rw [h.count, Json.countReaches_ofNat]
  rw [thresholdStatus, h.signers]
  simp only [Json.newSet, hreaches, bind, Except.bind, decide_eq_true_eq]
  rw [countP_open_distinct hm _ _ hfree, countP_isMatching_distinct hm]
  change Except.mapError EvaluationError.exception
    (if Quorum.Reached k eligible.toFinset (givers (expectedDecision threshold) decisions) then
      pure Status.satisfied
    else if k ≤ (eligible.toFinset \ refusers (expectedDecision threshold) decisions).card then
      pure Status.pending
    else pure Status.unreachable) = _
  simp only [← met_iff h, ← attainable_iff h]
  split
  · rfl
  · split <;> rfl

/-! ## The expression -/

/-- An override Signer that may reject did. -/
def Vetoed (requirements : ApprovalRequirements) (decisions : List SignerDecision) : Prop :=
  ∃ entry ∈ requirements.overrideSigners.getD [], "reject" ∈ entry.permissions ∧
    ⟨entry.signer, .reject⟩ ∈ decisions

/-- An override Signer that may approve did. -/
def Overridden (requirements : ApprovalRequirements) (decisions : List SignerDecision) : Prop :=
  ∃ entry ∈ requirements.overrideSigners.getD [], "approve" ∈ entry.permissions ∧
    ⟨entry.signer, .approve⟩ ∈ decisions

/-- An override Signer that may approve has not decided. -/
def OverrideOpen (requirements : ApprovalRequirements) (decisions : List SignerDecision) : Prop :=
  ∃ entry ∈ requirements.overrideSigners.getD [], "approve" ∈ entry.permissions ∧
    ∀ d, ⟨entry.signer, d⟩ ∉ decisions

/-- The paths of the expression, when `p` says which thresholds hold. -/
def Fulfilled (requirements : ApprovalRequirements) (p : ThresholdRequirement → Prop) : Prop :=
  (requirements.anyOf.getD [] = [] ∨ ∃ threshold ∈ requirements.anyOf.getD [], p threshold) ∧
    ∀ threshold ∈ requirements.allOf.getD [], p threshold

theorem Fulfilled.mono {p q : ThresholdRequirement → Prop} (h : Fulfilled requirements p)
    (hpq : ∀ threshold ∈ requirements.anyOf.getD [] ++ requirements.allOf.getD [],
      p threshold → q threshold) : Fulfilled requirements q := by
  obtain ⟨hany, hall⟩ := h
  constructor
  · refine hany.imp id ?_
    rintro ⟨threshold, hmem, hp⟩
    exact ⟨threshold, hmem, hpq threshold (List.mem_append_left _ hmem) hp⟩
  · exact fun threshold hmem =>
      hpq threshold (List.mem_append_right _ hmem) (hall threshold hmem)

/-- What the loops over `anyOf` and `allOf` compute. -/
def fulfills (requirements : ApprovalRequirements) (p : ThresholdRequirement → Bool) : Bool :=
  ((requirements.anyOf.getD []).isEmpty || (requirements.anyOf.getD []).any p) &&
    (requirements.allOf.getD []).all p

theorem fulfills_iff {p : ThresholdRequirement → Bool} {q : ThresholdRequirement → Prop}
    (hpq : ∀ threshold, p threshold = true ↔ q threshold) :
    fulfills requirements p = true ↔ Fulfilled requirements q := by
  simp [fulfills, Fulfilled, hpq]

/-- The evaluation, once every threshold has a status. -/
theorem evaluate_of_status {status : ThresholdRequirement → Status}
    (hm : immutableDecisionMap ∅ decisions = .ok m)
    (hstatus : ∀ threshold ∈ requirements.anyOf.getD [] ++ requirements.allOf.getD [],
      thresholdStatus m threshold = .ok (status threshold)) :
    evaluateApprovalRequirements requirements decisions =
      .ok (if (requirements.overrideSigners.getD []).any fun entry =>
          entry.permissions.contains "reject" &&
            decide (m.get? entry.signer = some .reject) then .unreachable
        else if (requirements.overrideSigners.getD []).any fun entry =>
          entry.permissions.contains "approve" &&
            decide (m.get? entry.signer = some .approve) then .satisfied
        else if fulfills requirements fun threshold => status threshold = .satisfied then .satisfied
        else if (fulfills requirements fun threshold => status threshold ≠ .unreachable) ||
          (requirements.overrideSigners.getD []).any fun entry =>
            entry.permissions.contains "approve" && !m.has entry.signer then .pending
        else .unreachable) := by
  have hany := fun threshold hmem => hstatus threshold (List.mem_append_left _ hmem)
  have hall := fun threshold hmem => hstatus threshold (List.mem_append_right _ hmem)
  have hanySat := map_eq_map_ok (· = Status.satisfied) hany
  have hallSat := map_eq_map_ok (· = Status.satisfied) hall
  have hanyReach := map_eq_map_ok (· ≠ Status.unreachable) hany
  have hallReach := map_eq_map_ok (· ≠ Status.unreachable) hall
  simp only [evaluateApprovalRequirements, hm, Except.bind, bind, hanySat, hallSat, hanyReach,
    hallReach, Verdict.any_map_ok, Verdict.every_map_ok, pure, Except.pure, fulfills]
  split
  · rfl
  split
  · rfl
  by_cases hempty : (requirements.anyOf.getD []).isEmpty = true
  all_goals
    simp only [hempty, ↓reduceIte, Bool.false_eq_true, Bool.true_or, Bool.false_or, Bool.true_and]
    split
    · rfl
    · split
      · rename_i h
        simp only [h, Bool.true_or, ↓reduceIte]
      · rename_i h
        simp only [Bool.not_eq_true _ ▸ h, Bool.false_or]

theorem vetoed_iff (hm : Records m decisions) :
    ((requirements.overrideSigners.getD []).any fun entry =>
      entry.permissions.contains "reject" &&
        decide (m.get? entry.signer = some .reject)) = true ↔ Vetoed requirements decisions := by
  have hget := fun did => hm did .reject
  simp [Vetoed, hget]

theorem overridden_iff (hm : Records m decisions) :
    ((requirements.overrideSigners.getD []).any fun entry =>
      entry.permissions.contains "approve" &&
        decide (m.get? entry.signer = some .approve)) = true ↔
      Overridden requirements decisions := by
  have hget := fun did => hm did .approve
  simp [Overridden, hget]

theorem overrideOpen_iff (hm : Records m decisions) :
    ((requirements.overrideSigners.getD []).any fun entry =>
      entry.permissions.contains "approve" && !m.has entry.signer) = true ↔
      OverrideOpen requirements decisions := by
  have hhas : ∀ did, m.has did = false ↔ ∀ d, (⟨did, d⟩ : SignerDecision) ∉ decisions := by
    intro did
    rw [← Bool.not_eq_true, OrderedMap.has_iff, not_exists]
    exact forall_congr' fun d => not_congr (hm did d)
  simp [OverrideOpen, hhas]

/-- What is met is attainable. -/
theorem attainable_of_met (hfree : ConflictFree decisions) (h : Met decisions threshold) :
    Attainable decisions threshold := by
  obtain ⟨k, eligible, hasks, hreached⟩ := h
  refine ⟨k, eligible, hasks, hreached.trans (Finset.card_le_card ?_)⟩
  intro did hdid
  obtain ⟨heligible, hgiver⟩ := Finset.mem_inter.mp hdid
  obtain ⟨d, hvote, hd⟩ := mem_givers.mp hgiver
  refine Finset.mem_sdiff.mpr ⟨heligible, ?_⟩
  rw [mem_refusers]
  rintro ⟨d', hvote', hd'⟩
  have hsame : d = d' := hfree _ hvote _ hvote' rfl
  exact hd' (hsame ▸ hd)

open Classical in
/-- **Evaluation by counting.** -/
theorem evaluate_eq (htyped : WellTyped requirements) (hfree : ConflictFree decisions) :
    evaluateApprovalRequirements requirements decisions =
      .ok (if Vetoed requirements decisions then .unreachable
        else if Overridden requirements decisions then .satisfied
        else if Fulfilled requirements (Met decisions) then .satisfied
        else if Fulfilled requirements (Attainable decisions) ∨
          OverrideOpen requirements decisions then .pending
        else .unreachable) := by
  obtain ⟨m, hm, hrecords⟩ := immutableDecisionMap_of_conflictFree hfree
  let status (threshold : ThresholdRequirement) : Status :=
    if Met decisions threshold then .satisfied
    else if Attainable decisions threshold then .pending else .unreachable
  have hstatus : ∀ threshold ∈ requirements.anyOf.getD [] ++ requirements.allOf.getD [],
      thresholdStatus m threshold = .ok (status threshold) := by
    intro threshold hmem
    obtain ⟨k, eligible, -, hasks⟩ := htyped threshold hmem
    exact thresholdStatus_asks hasks hrecords hfree
  have hmet : ∀ threshold, decide (status threshold = .satisfied) = true ↔
      Met decisions threshold := by
    intro threshold
    by_cases h : Met decisions threshold
    · simp [status, h]
    · by_cases h' : Attainable decisions threshold <;> simp [status, h, h']
  have hattainable : ∀ threshold, decide (status threshold ≠ .unreachable) = true ↔
      Attainable decisions threshold := by
    intro threshold
    by_cases h : Met decisions threshold
    · simp [status, h, attainable_of_met hfree h]
    · by_cases h' : Attainable decisions threshold <;> simp [status, h, h']
  rw [evaluate_of_status hm hstatus]
  simp only [vetoed_iff hrecords, overridden_iff hrecords, fulfills_iff hmet,
    Bool.or_eq_true, fulfills_iff hattainable, overrideOpen_iff hrecords]

theorem satisfied_iff (htyped : WellTyped requirements) (hfree : ConflictFree decisions) :
    evaluateApprovalRequirements requirements decisions = .ok .satisfied ↔
      ¬Vetoed requirements decisions ∧
        (Overridden requirements decisions ∨ Fulfilled requirements (Met decisions)) := by
  rw [evaluate_eq htyped hfree]
  split_ifs <;> simp_all

theorem pending_iff (htyped : WellTyped requirements) (hfree : ConflictFree decisions) :
    evaluateApprovalRequirements requirements decisions = .ok .pending ↔
      ¬Vetoed requirements decisions ∧ ¬Overridden requirements decisions ∧
        ¬Fulfilled requirements (Met decisions) ∧
        (Fulfilled requirements (Attainable decisions) ∨ OverrideOpen requirements decisions) := by
  rw [evaluate_eq htyped hfree]
  split_ifs <;> simp_all

theorem unreachable_iff (htyped : WellTyped requirements) (hfree : ConflictFree decisions) :
    evaluateApprovalRequirements requirements decisions = .ok .unreachable ↔
      Vetoed requirements decisions ∨
        ¬Overridden requirements decisions ∧ ¬Fulfilled requirements (Met decisions) ∧
          ¬(Fulfilled requirements (Attainable decisions) ∨ OverrideOpen requirements decisions) := by
  rw [evaluate_eq htyped hfree]
  split_ifs <;> simp_all

/-! ## Further decisions -/

/-- Further decisions satisfy the expression. -/
def Achievable (requirements : ApprovalRequirements) (decisions : List SignerDecision) : Prop :=
  ∃ extension, decisions ⊆ extension ∧ ConflictFree extension ∧
    evaluateApprovalRequirements requirements extension = .ok .satisfied

/-- Enough eligible Signers are to give the decision. -/
def Backed (choice : Did → Decision) (threshold : ThresholdRequirement) : Prop :=
  ∃ k eligible, Asks threshold k eligible ∧
    k ≤ (eligible.toFinset.filter fun did =>
      .str (choice did).text = expectedDecision threshold).card

/-- One decision of each Signer, as given so far and no rejection by a Signer
that may veto, meets the thresholds by counting. -/
def Divisible (requirements : ApprovalRequirements) (decisions : List SignerDecision) : Prop :=
  ∃ choice : Did → Decision, (∀ vote ∈ decisions, choice vote.signerDid = vote.decision) ∧
    (∀ entry ∈ requirements.overrideSigners.getD [], "reject" ∈ entry.permissions →
      choice entry.signer ≠ .reject) ∧
    Fulfilled requirements (Backed choice)

def listedSigners (threshold : ThresholdRequirement) : List Did :=
  match threshold.eligibleSigners with
  | .arr items => Json.strings items
  | _ => []

theorem listedSigners_asks (h : Asks threshold k eligible) : listedSigners threshold = eligible := by
  rw [listedSigners, h.signers]
  show Json.strings (eligible.map .str) = eligible
  rw [Json.strings, List.filterMap_map]
  exact List.filterMap_some

/-- The decisions so far, and the choices of all listed Signers. -/
def completion (requirements : ApprovalRequirements) (choice : Did → Decision)
    (decisions : List SignerDecision) : List SignerDecision :=
  decisions ++ ((requirements.anyOf.getD [] ++ requirements.allOf.getD []).flatMap
    listedSigners).map fun did => ⟨did, choice did⟩

section Completion

variable {choice : Did → Decision}

theorem mem_completion (hchoice : ∀ vote ∈ decisions, choice vote.signerDid = vote.decision)
    {vote : SignerDecision} (hvote : vote ∈ completion requirements choice decisions) :
    choice vote.signerDid = vote.decision := by
  rcases List.mem_append.mp hvote with hold | hnew
  · exact hchoice vote hold
  · obtain ⟨did, -, rfl⟩ := List.mem_map.mp hnew
    rfl

theorem conflictFree_completion
    (hchoice : ∀ vote ∈ decisions, choice vote.signerDid = vote.decision) :
    ConflictFree (completion requirements choice decisions) := by
  intro x hx y hy hsame
  rw [← mem_completion hchoice hx, ← mem_completion hchoice hy, hsame]

theorem met_completion
    (hmem : threshold ∈ requirements.anyOf.getD [] ++ requirements.allOf.getD [])
    (h : Backed choice threshold) :
    Met (completion requirements choice decisions) threshold := by
  obtain ⟨k, eligible, hasks, hcard⟩ := h
  refine ⟨k, eligible, hasks, hcard.trans (Finset.card_le_card ?_)⟩
  intro did hdid
  obtain ⟨heligible, hd⟩ := Finset.mem_filter.mp hdid
  refine Finset.mem_inter.mpr ⟨heligible, mem_givers.mpr ⟨choice did, ?_, hd⟩⟩
  apply List.mem_append_right
  refine List.mem_map_of_mem (List.mem_flatMap.mpr ⟨threshold, hmem, ?_⟩)
  rw [listedSigners_asks hasks]
  exact List.mem_toFinset.mp heligible

end Completion

theorem Vetoed.mono (hsub : decisions ⊆ extension) (h : Vetoed requirements decisions) :
    Vetoed requirements extension := by
  obtain ⟨entry, hentry, hpermission, hvote⟩ := h
  exact ⟨entry, hentry, hpermission, hsub hvote⟩

theorem backed_of_met (hfree : ConflictFree decisions) (h : Met decisions threshold) :
    Backed (givenDecision decisions) threshold := by
  obtain ⟨k, eligible, hasks, hreached⟩ := h
  refine ⟨k, eligible, hasks, hreached.trans (Finset.card_le_card ?_)⟩
  intro did hdid
  obtain ⟨heligible, hgiver⟩ := Finset.mem_inter.mp hdid
  obtain ⟨d, hvote, hd⟩ := mem_givers.mp hgiver
  have hgiven : givenDecision decisions did = d := givenDecision_eq hfree hvote
  exact Finset.mem_filter.mpr ⟨heligible, by rw [hgiven]; exact hd⟩

theorem givenDecision_ne_reject {did : Did} (hfree : ConflictFree decisions)
    (h : ⟨did, .reject⟩ ∉ decisions) : givenDecision decisions did ≠ .reject := by
  by_cases hdecided : ∃ d, (⟨did, d⟩ : SignerDecision) ∈ decisions
  · obtain ⟨d, hvote⟩ := hdecided
    have hgiven : givenDecision decisions did = d := givenDecision_eq hfree hvote
    rw [hgiven]
    rintro rfl
    exact h hvote
  · have hnone : (decisions.find? fun vote => decide (vote.signerDid = did)) = none := by
      rw [List.find?_eq_none]
      rintro ⟨did', d⟩ hvote hsame
      rw [decide_eq_true_eq] at hsame
      exact hdecided ⟨d, hsame ▸ hvote⟩
    rw [givenDecision, hnone]
    decide

/-- Decisions that meet the thresholds are a way to divide them up. -/
theorem divisible_of_fulfilled (hfree : ConflictFree extension) (hsub : decisions ⊆ extension)
    (hveto : ¬Vetoed requirements extension) (h : Fulfilled requirements (Met extension)) :
    Divisible requirements decisions := by
  refine ⟨givenDecision extension, fun vote hvote => givenDecision_eq hfree (hsub hvote), ?_,
    h.mono fun threshold _ => backed_of_met hfree⟩
  intro entry hentry hpermission
  apply givenDecision_ne_reject hfree
  exact fun hvote => hveto ⟨entry, hentry, hpermission, hvote⟩

/-- **Further decisions.** Nothing but a veto keeps an override Signer from
approving; else the thresholds have to be met together. -/
theorem achievable_iff (htyped : WellTyped requirements) (hfree : ConflictFree decisions) :
    Achievable requirements decisions ↔
      ¬Vetoed requirements decisions ∧ (Overridden requirements decisions ∨
        OverrideOpen requirements decisions ∨ Divisible requirements decisions) := by
  constructor
  · rintro ⟨extension, hsub, hfree', hsatisfied⟩
    obtain ⟨hveto, hsatisfied⟩ := (satisfied_iff htyped hfree').mp hsatisfied
    refine ⟨fun h => hveto (h.mono hsub), ?_⟩
    rcases hsatisfied with ⟨entry, hentry, hpermission, hvote⟩ | hmet
    · by_cases hdecided : ∃ d, (⟨entry.signer, d⟩ : SignerDecision) ∈ decisions
      · obtain ⟨d, hold⟩ := hdecided
        have hsame : d = .approve := hfree' _ (hsub hold) _ hvote rfl
        exact .inl ⟨entry, hentry, hpermission, hsame ▸ hold⟩
      · exact .inr (.inl ⟨entry, hentry, hpermission, not_exists.mp hdecided⟩)
    · exact .inr (.inr (divisible_of_fulfilled hfree' hsub hveto hmet))
  · rintro ⟨hveto, hoverridden | ⟨entry, hentry, hpermission, hopen⟩ |
      ⟨choice, hchoice, hreject, hbacked⟩⟩
    · exact ⟨decisions, fun _ h => h, hfree,
        (satisfied_iff htyped hfree).mpr ⟨hveto, .inl hoverridden⟩⟩
    · have hfree' : ConflictFree (⟨entry.signer, .approve⟩ :: decisions) := by
        rintro ⟨did, d⟩ hx ⟨did', d'⟩ hy hsame
        obtain rfl : did = did' := hsame
        rcases List.mem_cons.mp hx with hx | hx <;> rcases List.mem_cons.mp hy with hy | hy
        · cases hx
          cases hy
          rfl
        · cases hx
          exact absurd hy (hopen _)
        · cases hy
          exact absurd hx (hopen _)
        · exact hfree _ hx _ hy rfl
      refine ⟨_, fun _ h => List.mem_cons_of_mem _ h, hfree', (satisfied_iff htyped hfree').mpr
        ⟨?_, .inl ⟨entry, hentry, hpermission, List.mem_cons_self⟩⟩⟩
      rintro ⟨entry', hentry', hpermission', hvote⟩
      rcases List.mem_cons.mp hvote with heq | hvote
      · have hdecision := congrArg SignerDecision.decision heq
        cases hdecision
      · exact hveto ⟨entry', hentry', hpermission', hvote⟩
    · have hfree' : ConflictFree (completion requirements choice decisions) :=
        conflictFree_completion hchoice
      refine ⟨completion requirements choice decisions, List.subset_append_left _ _, hfree',
        (satisfied_iff htyped hfree').mpr ⟨?_, .inr (hbacked.mono fun _ hmem => met_completion hmem)⟩⟩
      rintro ⟨entry, hentry, hpermission, hvote⟩
      exact hreject entry hentry hpermission (mem_completion hchoice hvote)

theorem attainable_of_backed {choice : Did → Decision}
    (hchoice : ∀ vote ∈ decisions, choice vote.signerDid = vote.decision)
    (h : Backed choice threshold) : Attainable decisions threshold := by
  obtain ⟨k, eligible, hasks, hcard⟩ := h
  refine ⟨k, eligible, hasks, hcard.trans (Finset.card_le_card ?_)⟩
  intro did hdid
  obtain ⟨heligible, hd⟩ := Finset.mem_filter.mp hdid
  refine Finset.mem_sdiff.mpr ⟨heligible, ?_⟩
  rw [mem_refusers]
  rintro ⟨d', hvote, hd'⟩
  have hsame : choice did = d' := hchoice _ hvote
  exact hd' (hsame ▸ hd)

/-- **Pending, exactly.** `pending` means that further decisions can satisfy the
expression if and only if thresholds that can each be met can be met together,
unless an override Signer may still approve; `unreachable` always means that
none can. -/
theorem pending_achievable_iff (requirements : ApprovalRequirements)
    (decisions : List SignerDecision) (htyped : WellTyped requirements)
    (hfree : ConflictFree decisions) :
    ((evaluateApprovalRequirements requirements decisions = .ok .pending →
        Achievable requirements decisions) ↔
      (¬Vetoed requirements decisions → ¬Overridden requirements decisions →
        ¬OverrideOpen requirements decisions →
        Fulfilled requirements (Attainable decisions) → Divisible requirements decisions)) ∧
    (evaluateApprovalRequirements requirements decisions = .ok .unreachable →
      ¬Achievable requirements decisions) := by
  rw [pending_iff htyped hfree, unreachable_iff htyped hfree, achievable_iff htyped hfree]
  refine ⟨⟨?_, ?_⟩, ?_⟩
  · intro hpending hveto hoverridden hopen hattainable
    by_cases hmet : Fulfilled requirements (Met decisions)
    · exact divisible_of_fulfilled hfree (fun _ h => h) hveto hmet
    · obtain ⟨-, hpath⟩ := hpending ⟨hveto, hoverridden, hmet, .inl hattainable⟩
      exact (hpath.resolve_left hoverridden).resolve_left hopen
  · rintro htogether ⟨hveto, hoverridden, -, hreach⟩
    by_cases hopen : OverrideOpen requirements decisions
    · exact ⟨hveto, .inr (.inl hopen)⟩
    · have hattainable := hreach.resolve_right hopen
      exact ⟨hveto, .inr (.inr (htogether hveto hoverridden hopen hattainable))⟩
  · rintro (hveto | ⟨hoverridden, -, hreach⟩) ⟨hnot, hpath⟩
    · exact hnot hveto
    · obtain ⟨hattainable, hopen⟩ := not_or.mp hreach
      obtain ⟨choice, hchoice, -, hbacked⟩ := (hpath.resolve_left hoverridden).resolve_left hopen
      exact hattainable (hbacked.mono fun _ _ => attainable_of_backed hchoice)

section Deployment

def alice : Did := "did:web:alice"

/-- One of `signers` is to give the decision. -/
def oneOf (signers : List Did) (decision : Decision) : ThresholdRequirement where
  threshold := .num (.ofNat 1)
  eligibleSigners := .arr (signers.map .str)
  decision := some (.str decision.text)
  description := none

theorem oneOf_asks (signers : List Did) (decision : Decision) :
    Asks (oneOf signers decision) 1 signers := ⟨rfl, rfl⟩

/-- One Signer is to approve, and one to abstain. -/
def approvesAndAbstains (approver abstainer : Did) : ApprovalRequirements where
  allOf := some [oneOf [approver] .approve, oneOf [abstainer] .abstain]

theorem wellTyped_approvesAndAbstains (approver abstainer : Did) :
    WellTyped (approvesAndAbstains approver abstainer) := by
  intro threshold hmem
  have hlist : threshold ∈ [oneOf [approver] .approve, oneOf [abstainer] .abstain] := hmem
  rcases List.mem_cons.mp hlist with rfl | hlist
  · exact ⟨1, _, by decide, oneOf_asks _ _⟩
  · obtain rfl := List.mem_singleton.mp hlist
    exact ⟨1, _, by decide, oneOf_asks _ _⟩

/-- Alice has approved, and Bob can still abstain. -/
theorem pending_achievable_approved :
    evaluateApprovalRequirements (approvesAndAbstains alice "did:web:bob") [⟨alice, .approve⟩] =
        .ok .pending ∧
      Divisible (approvesAndAbstains alice "did:web:bob") [⟨alice, .approve⟩] ∧
      Achievable (approvesAndAbstains alice "did:web:bob") [⟨alice, .approve⟩] := by
  have hpending : evaluateApprovalRequirements (approvesAndAbstains alice "did:web:bob")
      [⟨alice, .approve⟩] = .ok .pending := by decide +kernel
  have hdivisible : Divisible (approvesAndAbstains alice "did:web:bob") [⟨alice, .approve⟩] := by
    refine ⟨fun did => if did = alice then .approve else .abstain, ?_, by rintro entry ⟨⟩,
      .inl rfl, ?_⟩
    · intro vote hvote
      rw [List.mem_singleton.mp hvote]
      rfl
    · intro threshold hmem
      have hlist : threshold ∈ [oneOf [alice] .approve, oneOf ["did:web:bob"] .abstain] := hmem
      rcases List.mem_cons.mp hlist with rfl | hlist
      · exact ⟨1, _, oneOf_asks _ _, by decide +kernel⟩
      · obtain rfl := List.mem_singleton.mp hlist
        exact ⟨1, _, oneOf_asks _ _, by decide +kernel⟩
  have hfree : ConflictFree [⟨alice, .approve⟩] := by
    intro x hx y hy _
    rw [List.mem_singleton.mp hx, List.mem_singleton.mp hy]
  refine ⟨hpending, hdivisible, (pending_achievable_iff _ _ (wellTyped_approvesAndAbstains _ _)
    hfree).1.mpr ?_ hpending⟩
  exact fun _ _ _ _ => hdivisible

/-- Alice is to approve and to abstain. -/
def approveAndAbstain : ApprovalRequirements := approvesAndAbstains alice alice

theorem wellTyped_approveAndAbstain : WellTyped approveAndAbstain :=
  wellTyped_approvesAndAbstains alice alice

/-- Each of two thresholds is within reach, both are not. -/
theorem pending_not_achievable :
    ¬ ∀ (requirements : ApprovalRequirements) (decisions : List SignerDecision),
      WellTyped requirements → ConflictFree decisions →
      evaluateApprovalRequirements requirements decisions = .ok .pending →
      Achievable requirements decisions := by
  intro h
  obtain ⟨extension, -, hfree, hsatisfied⟩ :=
    h approveAndAbstain [] wellTyped_approveAndAbstain (by rintro x ⟨⟩) (by decide +kernel)
  obtain ⟨-, hoverridden | ⟨-, hall⟩⟩ :=
    (satisfied_iff wellTyped_approveAndAbstain hfree).mp hsatisfied
  · obtain ⟨entry, hentry, -⟩ := hoverridden
    cases hentry
  · have hvote : ∀ d, oneOf [alice] d ∈ [oneOf [alice] .approve, oneOf [alice] .abstain] →
        (⟨alice, d⟩ : SignerDecision) ∈ extension := by
      intro d hmem
      have hreached := (met_iff (oneOf_asks [alice] d)).mp (hall _ hmem)
      obtain ⟨did, hdid⟩ := Finset.card_pos.mp hreached
      obtain ⟨heligible, hgiver⟩ := Finset.mem_inter.mp hdid
      obtain ⟨d', hvote, hd⟩ := mem_givers.mp hgiver
      have hsigner : did = alice := by simpa using heligible
      have hsame : d' = d := Decision.text_injective (Json.str.inj hd)
      rwa [hsigner, hsame] at hvote
    have happrove := hvote .approve List.mem_cons_self
    have habstain := hvote .abstain (List.mem_cons_of_mem _ List.mem_cons_self)
    have hconflict := hfree _ happrove _ habstain rfl
    cases hconflict

end Deployment

/-! ## Thresholds that compete for no Signer -/

/-- No Signer that may still decide is wanted by thresholds that expect
different decisions, or for a rejection that is a veto. -/
structure Separate (requirements : ApprovalRequirements) (decisions : List SignerDecision) :
    Prop where
  named : ∀ threshold ∈ requirements.anyOf.getD [] ++ requirements.allOf.getD [],
    ∃ d : Decision, expectedDecision threshold = .str d.text
  apart : ∀ threshold ∈ requirements.anyOf.getD [] ++ requirements.allOf.getD [],
    ∀ other ∈ requirements.anyOf.getD [] ++ requirements.allOf.getD [],
    ∀ did ∈ listedSigners threshold, did ∈ listedSigners other →
      (∀ d, ⟨did, d⟩ ∉ decisions) → expectedDecision threshold = expectedDecision other
  vetoes : ∀ threshold ∈ requirements.anyOf.getD [] ++ requirements.allOf.getD [],
    ∀ entry ∈ requirements.overrideSigners.getD [], "reject" ∈ entry.permissions →
      entry.signer ∈ listedSigners threshold → (∀ d, ⟨entry.signer, d⟩ ∉ decisions) →
      expectedDecision threshold ≠ .str Decision.reject.text

open Classical in
/-- The decision that a listed Signer is wanted for. -/
noncomputable def wantedDecision (requirements : ApprovalRequirements) (did : Did) : Decision :=
  if h : ∃ d : Decision, ∃ threshold ∈ requirements.anyOf.getD [] ++ requirements.allOf.getD [],
    did ∈ listedSigners threshold ∧ expectedDecision threshold = .str d.text then h.choose
  else .approve

theorem wantedDecision_spec (requirements : ApprovalRequirements) (did : Did) :
    wantedDecision requirements did = .approve ∨
      ∃ threshold ∈ requirements.anyOf.getD [] ++ requirements.allOf.getD [],
        did ∈ listedSigners threshold ∧
        expectedDecision threshold = .str (wantedDecision requirements did).text := by
  unfold wantedDecision
  split
  · rename_i h
    exact .inr h.choose_spec
  · exact .inl rfl

/-- An undecided Signer is wanted for what every threshold with it expects. -/
theorem Separate.wanted (h : Separate requirements decisions)
    (hmem : threshold ∈ requirements.anyOf.getD [] ++ requirements.allOf.getD []) {did : Did}
    (hdid : did ∈ listedSigners threshold) (hopen : ∀ d, ⟨did, d⟩ ∉ decisions) :
    .str (wantedDecision requirements did).text = expectedDecision threshold := by
  have hsome : ∃ d : Decision, ∃ other ∈ requirements.anyOf.getD [] ++ requirements.allOf.getD [],
      did ∈ listedSigners other ∧ expectedDecision other = .str d.text := by
    obtain ⟨d, hd⟩ := h.named threshold hmem
    exact ⟨d, threshold, hmem, hdid, hd⟩
  obtain ⟨other, hother, hlisted, hexpected⟩ := hsome.choose_spec
  rw [wantedDecision, dif_pos hsome, ← hexpected]
  exact (h.apart threshold hmem other hother did hdid hlisted hopen).symm

open Classical in
/-- **Separate thresholds.** Where thresholds compete for no Signer, those that
can each be met are met together. -/
theorem divisible_of_separate (hfree : ConflictFree decisions)
    (hveto : ¬Vetoed requirements decisions) (hseparate : Separate requirements decisions)
    (hattainable : Fulfilled requirements (Attainable decisions)) :
    Divisible requirements decisions := by
  let choice (did : Did) : Decision :=
    if ∃ d, (⟨did, d⟩ : SignerDecision) ∈ decisions then givenDecision decisions did
    else wantedDecision requirements did
  have hgiven : ∀ vote ∈ decisions, choice vote.signerDid = vote.decision := by
    intro vote hvote
    have hdecided : ∃ d, (⟨vote.signerDid, d⟩ : SignerDecision) ∈ decisions := ⟨_, hvote⟩
    simp only [choice, if_pos hdecided]
    exact givenDecision_eq hfree hvote
  refine ⟨choice, hgiven, ?_, hattainable.mono ?_⟩
  · intro entry hentry hpermission
    by_cases hdecided : ∃ d, (⟨entry.signer, d⟩ : SignerDecision) ∈ decisions
    · simp only [choice, if_pos hdecided]
      apply givenDecision_ne_reject hfree
      exact fun hvote => hveto ⟨entry, hentry, hpermission, hvote⟩
    · simp only [choice, if_neg hdecided]
      rcases wantedDecision_spec requirements entry.signer with hwanted | ⟨threshold, hmem, hdid, hd⟩
      · rw [hwanted]
        decide
      · intro hreject
        rw [hreject] at hd
        exact hseparate.vetoes threshold hmem entry hentry hpermission hdid
          (not_exists.mp hdecided) hd
  · rintro threshold hmem ⟨k, eligible, hasks, hcard⟩
    refine ⟨k, eligible, hasks, hcard.trans (Finset.card_le_card ?_)⟩
    intro did hdid
    obtain ⟨heligible, hrefuses⟩ := Finset.mem_sdiff.mp hdid
    refine Finset.mem_filter.mpr ⟨heligible, ?_⟩
    by_cases hdecided : ∃ d, (⟨did, d⟩ : SignerDecision) ∈ decisions
    · obtain ⟨d, hvote⟩ := hdecided
      have hchoice : choice did = d := hgiven _ hvote
      rw [hchoice]
      by_contra hd
      exact hrefuses (mem_refusers.mpr ⟨d, hvote, hd⟩)
    · simp only [choice, if_neg hdecided]
      apply hseparate.wanted hmem _ (not_exists.mp hdecided)
      rw [listedSigners_asks hasks]
      exact List.mem_toFinset.mp heligible

/-- Then `pending` means that further decisions can satisfy the expression. -/
theorem achievable_of_separate (htyped : WellTyped requirements) (hfree : ConflictFree decisions)
    (hseparate : Separate requirements decisions)
    (hpending : evaluateApprovalRequirements requirements decisions = .ok .pending) :
    Achievable requirements decisions := by
  obtain ⟨hveto, -, -, hreach⟩ := (pending_iff htyped hfree).mp hpending
  refine (achievable_iff htyped hfree).mpr ⟨hveto, ?_⟩
  rcases hreach with hattainable | hopen
  · exact .inr (.inr (divisible_of_separate hfree hveto hseparate hattainable))
  · exact .inr (.inl hopen)

end Mpas.ApprovalRequirements
