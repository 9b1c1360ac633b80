import Mpas.Library.Heap
import Mpas.Library.Machine
import Mpas.CoordinationReadiness
import Mpas.CoordinationStore

/-!
# The workflow state machine of Coordination

What the calls do to a workflow: it collects one decision of each Signer, is
concluded by the evaluation of its decisions, cancelled or expired, and never
comes back.

* `evaluate_ok`: validated requirements are evaluated without an exception;
* `perform_effect`: each call moves records, or adds one that was not there;
* `coordination_lawful`: the laws of the store and of its records in every run.
-/

namespace Mpas.Coordination

open ApprovalRequirements (SignerDecision Status EvaluationError evaluateApprovalRequirements
  thresholdStatus immutableDecisionMap ConflictFree map_eq_map_ok immutableDecisionMap_of_conflictFree)

/-! ## Evaluation without exceptions -/

/-- The threshold lists its Signers in an array, and asks for a number of them. -/
structure IsCountable (threshold : ThresholdRequirement) : Prop where
  signers : ∃ items, threshold.eligibleSigners = .arr items
  count : ∃ n, threshold.threshold = .num n

def WellFormed (requirements : ApprovalRequirements) : Prop :=
  ∀ threshold ∈ thresholdsFor requirements, IsCountable threshold

def statusOf (decisions : OrderedMap Did Decision) (threshold : ThresholdRequirement) : Status :=
  match thresholdStatus decisions threshold with
  | .ok status => status
  | .error _ => .pending

theorem thresholdStatus_eq {threshold : ThresholdRequirement} (decisions : OrderedMap Did Decision)
    (h : IsCountable threshold) :
    thresholdStatus decisions threshold = .ok (statusOf decisions threshold) := by
  obtain ⟨⟨items, hitems⟩, n, hn⟩ := h
  have hok : ∃ status, thresholdStatus decisions threshold = .ok status := by
    simp only [thresholdStatus, hitems, hn, Json.newSet, Json.countReaches, Json.coerceNumber_num,
      Except.map, bind, Except.bind]
    split
    · exact ⟨_, rfl⟩
    · split <;> exact ⟨_, rfl⟩
  obtain ⟨status, hstatus⟩ := hok
  rw [statusOf, hstatus]

/-- **Evaluation.** Validated requirements and one decision of each Signer have a status. -/
theorem evaluate_ok {requirements : ApprovalRequirements} {decisions : List SignerDecision}
    (hwell : WellFormed requirements) (hfree : ConflictFree decisions) :
    ∃ status, evaluateApprovalRequirements requirements decisions = .ok status := by
  obtain ⟨m, hm, -⟩ := immutableDecisionMap_of_conflictFree hfree
  have hany : ∀ entry ∈ requirements.anyOf.getD [],
      thresholdStatus m entry = .ok (statusOf m entry) := fun entry hentry =>
    thresholdStatus_eq m (hwell entry (List.mem_append_left _ hentry))
  have hall : ∀ entry ∈ requirements.allOf.getD [],
      thresholdStatus m entry = .ok (statusOf m entry) := fun entry hentry =>
    thresholdStatus_eq m (hwell entry (List.mem_append_right _ hentry))
  have hanySat := map_eq_map_ok (· = Status.satisfied) hany
  have hallSat := map_eq_map_ok (· = Status.satisfied) hall
  have hanyReach := map_eq_map_ok (· ≠ Status.unreachable) hany
  have hallReach := map_eq_map_ok (· ≠ Status.unreachable) hall
  simp only [evaluateApprovalRequirements, hm, Except.bind, bind, hanySat, hallSat, hanyReach,
    hallReach, Verdict.any_map_ok, Verdict.every_map_ok, pure, Except.pure]
  split
  · exact ⟨_, rfl⟩
  split
  · exact ⟨_, rfl⟩
  cases (requirements.anyOf.getD []).isEmpty <;> simp only [↓reduceIte, Bool.false_eq_true]
  all_goals
    split
    · exact ⟨_, rfl⟩
    · split <;> exact ⟨_, rfl⟩

/-! ## One decision of each Signer -/

def SameSigner (a b : StoredApproval) : Prop :=
  Json.strictEquals (some a.signerDid) (some b.signerDid) = true

instance (a b : StoredApproval) : Decidable (SameSigner a b) :=
  inferInstanceAs (Decidable (_ = _))

/-- No two of the approvals have the same Signer. -/
def OneEach (approvals : List StoredApproval) : Prop :=
  approvals.Pairwise fun a b => ¬SameSigner a b

theorem mem_signerDecisions {approvals : List StoredApproval} {decision : SignerDecision} :
    decision ∈ signerDecisions approvals ↔ ∃ entry ∈ approvals,
      entry.signerDid = .str decision.signerDid ∧ entry.decision = decision.decision := by
  simp only [signerDecisions, List.mem_filterMap, Option.map_eq_some_iff, Json.asString_eq_some]
  constructor
  · rintro ⟨entry, hentry, did, hdid, rfl⟩
    exact ⟨entry, hentry, hdid, rfl⟩
  · rintro ⟨entry, hentry, hdid, hdecision⟩
    exact ⟨entry, hentry, decision.signerDid, hdid, by rw [hdecision]⟩

theorem conflictFree_of_oneEach {approvals : List StoredApproval} (h : OneEach approvals) :
    ConflictFree (signerDecisions approvals) := by
  have hagree : approvals.Pairwise fun a b =>
      ∀ did, a.signerDid = .str did → b.signerDid = .str did → a.decision = b.decision := by
    refine h.imp fun {a b} hne did ha hb => absurd ?_ hne
    simp [SameSigner, ha, hb, Json.strictEquals]
  have hall := hagree.forall_of_forall_of_flip (fun _ _ _ _ _ => rfl)
    (hagree.imp fun {a b} hab did hb ha => (hab did ha hb).symm)
  intro x hx y hy hsame
  obtain ⟨a, ha, hasigner, hadecision⟩ := mem_signerDecisions.mp hx
  obtain ⟨b, hb, hbsigner, hbdecision⟩ := mem_signerDecisions.mp hy
  rw [← hadecision, ← hbdecision]
  exact hall ha hb _ hasigner (by rw [hsame]; exact hbsigner)

/-! ## One record -/

variable {runtime : Runtime} {readings : Readings} {stored stored' : StoredAction}

/-- The status of the decisions that leads into a state. -/
def CoordinationState.verdict : CoordinationState → Option Status
  | .readyForSubmission => some .satisfied
  | .rejected => some .unreachable
  | .awaitingApprovals | .cancelled | .expired => none

/-- What holds of every record: the decisions are one of each Signer and none of the
Proposer, and a concluded workflow was concluded by them. -/
structure StoredAction.Sound (stored : StoredAction) : Prop where
  wellFormed : WellFormed stored.authorizationRequirements.approvalRequirements
  oneEach : OneEach stored.approvals
  others : ∀ entry ∈ stored.approvals, entry.signerDid ≠ .str stored.proposer
  concluded : ∀ status, stored.state.verdict = some status → stored.evaluate = .ok status

/-- What one call can do to a record. -/
inductive Moves (runtime : Runtime) (readings : Readings) (stored : StoredAction) :
    StoredAction → Prop
  | kept : Moves runtime readings stored stored
  | expired : stored.state.isFinal = false → isPastExpiry runtime readings stored = true →
      Moves runtime readings stored
        { stored with state := .expired, updatedAt := runtime.toISOString readings.now }
  | reconsidered {status : Status} : stored.state = .awaitingApprovals →
      stored.evaluate = .ok status →
      Moves runtime readings stored (stored.conclude runtime readings status)
  | decided {entry : StoredApproval} {status : Status} : stored.state = .awaitingApprovals →
      (∀ earlier ∈ stored.approvals, ¬SameSigner earlier entry) →
      entry.signerDid ≠ .str stored.proposer →
      (stored.record runtime readings entry).evaluate = .ok status →
      Moves runtime readings stored
        ((stored.record runtime readings entry).conclude runtime readings status)
  | cancelled : stored.state = .awaitingApprovals →
      Moves runtime readings stored (stored.cancel runtime readings)

theorem strictEquals_str_iff (v : Json) (s : String) :
    Json.strictEquals (some v) (some (.str s)) = true ↔ v = .str s := by
  rw [Json.strictEquals_of_str, decide_eq_true_iff]

/-- The Proposer gives no decision, so all decisions count. -/
theorem StoredAction.evaluate_eq
    (h : ∀ entry ∈ stored.approvals, entry.signerDid ≠ .str stored.proposer) :
    stored.evaluate = evaluateApprovalRequirements
      stored.authorizationRequirements.approvalRequirements (signerDecisions stored.approvals) := by
  have hall : (stored.approvals.filter fun entry =>
      !Json.strictEquals (some entry.signerDid) (some (.str stored.proposer))) =
        stored.approvals := by
    apply List.filter_eq_self.mpr
    intro entry hentry
    simpa [Json.strictEquals_of_str] using h entry hentry
  rw [StoredAction.evaluate, hall]

theorem StoredAction.evaluate_exists
    (hwell : WellFormed stored.authorizationRequirements.approvalRequirements)
    (hone : OneEach stored.approvals)
    (hothers : ∀ entry ∈ stored.approvals, entry.signerDid ≠ .str stored.proposer) :
    ∃ status, stored.evaluate = .ok status := by
  rw [StoredAction.evaluate_eq hothers]
  exact evaluate_ok hwell (conflictFree_of_oneEach hone)

section Conclude

variable (runtime readings stored) (status : Status)

@[simp] theorem conclude_approvals :
    (stored.conclude runtime readings status).approvals = stored.approvals := by
  cases status <;> rfl

@[simp] theorem conclude_proposer :
    (stored.conclude runtime readings status).proposer = stored.proposer := by
  cases status <;> rfl

@[simp] theorem conclude_requirements :
    (stored.conclude runtime readings status).authorizationRequirements =
      stored.authorizationRequirements := by
  cases status <;> rfl

@[simp] theorem conclude_actionRef :
    (stored.conclude runtime readings status).actionRef = stored.actionRef := by
  cases status <;> rfl

@[simp] theorem conclude_evaluate :
    (stored.conclude runtime readings status).evaluate = stored.evaluate := by
  cases status <;> rfl

end Conclude

theorem conclude_verdict {status status' : Status} (hstate : stored.state = .awaitingApprovals)
    (h : (stored.conclude runtime readings status).state.verdict = some status') :
    status = status' := by
  cases status with
  | pending =>
    rw [show (stored.conclude runtime readings .pending).state = .awaitingApprovals from hstate] at h
    cases h
  | satisfied => exact Option.some.inj h
  | unreachable => exact Option.some.inj h

/-- Concluding an awaiting workflow by the status of its decisions. -/
theorem StoredAction.Sound.conclude {status : Status} (h : stored.Sound)
    (hstate : stored.state = .awaitingApprovals) (hstatus : stored.evaluate = .ok status) :
    (stored.conclude runtime readings status).Sound where
  wellFormed := by simpa using h.wellFormed
  oneEach := by simpa using h.oneEach
  others := by simpa using h.others
  concluded := by
    intro status' hverdict
    rw [conclude_evaluate, hstatus, conclude_verdict hstate hverdict]

theorem StoredAction.Sound.record {entry : StoredApproval} (h : stored.Sound)
    (hstate : stored.state = .awaitingApprovals)
    (hnew : ∀ earlier ∈ stored.approvals, ¬SameSigner earlier entry)
    (hother : entry.signerDid ≠ .str stored.proposer) :
    (stored.record runtime readings entry).Sound where
  wellFormed := h.wellFormed
  oneEach := by
    refine List.pairwise_append.mpr ⟨h.oneEach, List.pairwise_singleton _ _, ?_⟩
    intro earlier hearlier last hlast
    rw [List.mem_singleton.mp hlast]
    exact hnew earlier hearlier
  others := by
    intro e he
    rcases List.mem_append.mp he with hold | hlast
    · exact h.others e hold
    · rw [List.mem_singleton.mp hlast]
      exact hother
  concluded := by
    intro status hverdict
    rw [show (stored.record runtime readings entry).state = .awaitingApprovals from hstate] at hverdict
    cases hverdict

/-- A record with the same decisions that is not concluded. -/
theorem StoredAction.Sound.of_open (h : stored.Sound)
    (hrequirements : stored'.authorizationRequirements = stored.authorizationRequirements)
    (hproposer : stored'.proposer = stored.proposer) (happrovals : stored'.approvals = stored.approvals)
    (hopen : stored'.state.verdict = none) : stored'.Sound where
  wellFormed := by rw [hrequirements]; exact h.wellFormed
  oneEach := by rw [happrovals]; exact h.oneEach
  others := by rw [happrovals, hproposer]; exact h.others
  concluded := by
    intro status hverdict
    rw [hopen] at hverdict
    cases hverdict

theorem Moves.sound (h : Moves runtime readings stored stored') (hsound : stored.Sound) :
    stored'.Sound := by
  cases h with
  | kept => exact hsound
  | expired => exact hsound.of_open rfl rfl rfl rfl
  | reconsidered hstate hstatus => exact hsound.conclude hstate hstatus
  | decided hstate hnew hother hstatus =>
    exact (hsound.record hstate hnew hother).conclude hstate hstatus
  | cancelled => exact hsound.of_open rfl rfl rfl rfl

/-- What a record is later: its decisions were only added to, and a final state
is kept; a workflow that was ready can only have expired. -/
structure Follows (stored stored' : StoredAction) : Prop where
  actionPackage : stored'.actionPackage = stored.actionPackage
  actionRef : stored'.actionRef = stored.actionRef
  authorizationRequirements : stored'.authorizationRequirements = stored.authorizationRequirements
  approvals : stored.approvals <+: stored'.approvals
  final : stored.state.isFinal = true → stored'.state = stored.state
  ready : stored.state = .readyForSubmission →
    stored'.state = .readyForSubmission ∨ stored'.state = .expired

theorem Follows.refl (stored : StoredAction) : Follows stored stored where
  actionPackage := rfl
  actionRef := rfl
  authorizationRequirements := rfl
  approvals := List.prefix_rfl
  final := fun _ => rfl
  ready := Or.inl

theorem Follows.trans {a b c : StoredAction} (h : Follows a b) (h' : Follows b c) :
    Follows a c where
  actionPackage := h'.actionPackage.trans h.actionPackage
  actionRef := h'.actionRef.trans h.actionRef
  authorizationRequirements := h'.authorizationRequirements.trans h.authorizationRequirements
  approvals := h.approvals.trans h'.approvals
  final := by
    intro hfinal
    have hb : b.state = a.state := h.final hfinal
    have hc : c.state = b.state := h'.final (by rw [hb]; exact hfinal)
    exact hc.trans hb
  ready := by
    intro hready
    rcases h.ready hready with hb | hb
    · exact h'.ready hb
    · have hc : c.state = b.state := h'.final (by rw [hb]; rfl)
      exact Or.inr (hc.trans hb)

/-- From an awaiting record anything may follow that keeps its decisions. -/
theorem follows_of_awaiting (hstate : stored.state = .awaitingApprovals)
    (hpackage : stored'.actionPackage = stored.actionPackage)
    (href : stored'.actionRef = stored.actionRef)
    (hrequirements : stored'.authorizationRequirements = stored.authorizationRequirements)
    (happrovals : stored.approvals <+: stored'.approvals) : Follows stored stored' where
  actionPackage := hpackage
  actionRef := href
  authorizationRequirements := hrequirements
  approvals := happrovals
  final := by simp [hstate, CoordinationState.isFinal]
  ready := by simp [hstate]

@[simp] theorem conclude_actionPackage (status : Status) :
    (stored.conclude runtime readings status).actionPackage = stored.actionPackage := by
  cases status <;> rfl

theorem Moves.follows (h : Moves runtime readings stored stored') : Follows stored stored' := by
  cases h with
  | kept => exact Follows.refl stored
  | expired hopen =>
    exact {
      actionPackage := rfl
      actionRef := rfl
      authorizationRequirements := rfl
      approvals := List.prefix_rfl
      final := by simp [hopen]
      ready := fun _ => Or.inr rfl }
  | reconsidered hstate =>
    exact follows_of_awaiting hstate (by simp) (by simp) (by simp) (by simp)
  | decided hstate =>
    exact follows_of_awaiting hstate (by simp [StoredAction.record]) (by simp [StoredAction.record])
      (by simp [StoredAction.record]) (by simp [StoredAction.record])
  | cancelled hstate => exact follows_of_awaiting hstate rfl rfl rfl List.prefix_rfl

/-- A concluded state is entered only from `awaitingApprovals`, by the status of the decisions. -/
theorem Moves.entered (h : Moves runtime readings stored stored') {status : Status}
    (hverdict : stored'.state.verdict = some status) :
    stored'.state = stored.state ∨
      stored.state = .awaitingApprovals ∧ stored'.evaluate = .ok status := by
  cases h with
  | kept => exact Or.inl rfl
  | expired => cases hverdict
  | cancelled => cases hverdict
  | @reconsidered status' hstate hstatus =>
    have hsame : status' = status := conclude_verdict hstate hverdict
    exact Or.inr ⟨hstate, by rw [conclude_evaluate, hstatus, hsame]⟩
  | @decided entry status' hstate _ _ hstatus =>
    have hrecord : (stored.record runtime readings entry).state = .awaitingApprovals := hstate
    have hsame : status' = status := conclude_verdict hrecord hverdict
    exact Or.inr ⟨hstate, by rw [conclude_evaluate, hstatus, hsame]⟩

/-! ## The store -/

variable {store store' : CoordinationStore}

def StoredAction.idValue (stored : StoredAction) : String := stored.actionRef.actionId.value

def StoredAction.hashValue (stored : StoredAction) : String :=
  stored.actionRef.actionEnvelopeHash.value

/-- The index refers to exactly the records, each under its own key. -/
structure IndexedBy (key : StoredAction → String) (index : OrderedMap String Nat)
    (records : List StoredAction) : Prop where
  find : ∀ address stored, records[address]? = some stored →
    index.get? (key stored) = some address
  only : ∀ k address, index.get? k = some address →
    ∃ stored, records[address]? = some stored ∧ key stored = k

structure Indexed (store : CoordinationStore) : Prop where
  actionId : IndexedBy StoredAction.idValue store.actionsById store.records
  envelopeHash : IndexedBy StoredAction.hashValue store.actionsByEnvelopeHash store.records

structure Consistent (store : CoordinationStore) : Prop where
  indexed : Indexed store
  sound : ∀ stored ∈ store.records, stored.Sound

/-- What one call can do to the store. -/
inductive Effect (runtime : Runtime) (readings : Readings) (store : CoordinationStore) :
    CoordinationStore → Prop
  | moved {records : List StoredAction} :
      List.Forall₂ (Moves runtime readings) store.records records →
      Effect runtime readings store { store with records }
  | created {stored : StoredAction} : stored.Sound → stored.state = .awaitingApprovals →
      store.actionsById.get? stored.idValue = none →
      store.actionsByEnvelopeHash.get? stored.hashValue = none →
      Effect runtime readings store (store.insert stored)

/-- An outcome with its effect; an exception comes before any change. -/
def Performs (runtime : Runtime) (readings : Readings) (store : CoordinationStore)
    (outcome : Outcome) : Prop :=
  Effect runtime readings store outcome.2 ∧ ∀ error, outcome.1 = .error error → outcome.2 = store

theorem effect_self (store : CoordinationStore) : Effect runtime readings store store :=
  .moved (List.forall₂_same.mpr fun _ _ => .kept)

theorem performs_error (error : CoordinationError) :
    Performs runtime readings store (.error error, store) :=
  ⟨effect_self store, fun _ _ => rfl⟩

theorem performs_put {address : Nat} {response : Response}
    (hstored : store.records[address]? = some stored) (hmoves : Moves runtime readings stored stored') :
    Performs runtime readings store (.ok response, store.put address stored') := by
  refine ⟨.moved (Heap.forall₂_set (fun _ => .kept) hstored hmoves), ?_⟩
  intro error h
  cases h

theorem deref_eq_some {index : OrderedMap String Nat} {key : String} {address : Nat} :
    store.deref index key = some (address, stored) ↔
      index.get? key = some address ∧ store.records[address]? = some stored := by
  unfold CoordinationStore.deref
  cases hindex : index.get? key with
  | none => simp
  | some a =>
    cases hrecord : store.records[a]? with
    | none =>
      simp only [Option.bind_eq_bind, Option.bind_some, hrecord, Option.bind_none, reduceCtorEq,
        Option.some.injEq, false_iff, not_and]
      rintro rfl
      simp [hrecord]
    | some s =>
      simp only [Option.bind_eq_bind, Option.bind_some, hrecord, Option.some.injEq,
        Prod.mk.injEq, Option.pure_def]
      constructor
      · rintro ⟨rfl, rfl⟩
        exact ⟨rfl, hrecord⟩
      · rintro ⟨rfl, h⟩
        rw [hrecord] at h
        exact ⟨rfl, Option.some.inj h⟩

section IndexedBy

variable {key : StoredAction → String} {index : OrderedMap String Nat}
  {records records' : List StoredAction}

theorem IndexedBy.moved (h : IndexedBy key index records)
    (hmoves : List.Forall₂ (Moves runtime readings) records records')
    (hkey : ∀ s s', Moves runtime readings s s' → key s' = key s) :
    IndexedBy key index records' where
  find := by
    intro address stored' hstored'
    obtain ⟨stored, hstored, hmove⟩ := Heap.forall₂_source hmoves hstored'
    rw [hkey stored stored' hmove]
    exact h.find address stored hstored
  only := by
    intro k address hk
    obtain ⟨stored, hstored, hid⟩ := h.only k address hk
    obtain ⟨stored', hstored', hmove⟩ := Heap.evolves_of_forall₂ hmoves address stored hstored
    exact ⟨stored', hstored', by rw [hkey stored stored' hmove]; exact hid⟩

theorem getElem?_append_singleton {address : Nat} :
    (records ++ [stored])[address]? = some stored' ↔
      records[address]? = some stored' ∨ address = records.length ∧ stored = stored' := by
  rcases Nat.lt_trichotomy address records.length with hlt | rfl | hgt
  · rw [List.getElem?_append_left hlt]
    constructor
    · exact Or.inl
    · rintro (h | ⟨h, -⟩)
      · exact h
      · omega
  · simp
  · have hout : (records ++ [stored]).length ≤ address := by
      rw [List.length_append, List.length_singleton]
      omega
    have hout' : records.length ≤ address := by omega
    rw [List.getElem?_eq_none hout, List.getElem?_eq_none hout']
    constructor
    · intro h
      cases h
    · rintro (h | ⟨h, -⟩)
      · cases h
      · omega

theorem IndexedBy.get?_none {k : String} (h : IndexedBy key index store.records)
    (hderef : store.deref index k = none) : index.get? k = none := by
  apply Option.eq_none_iff_forall_ne_some.mpr
  intro address hk
  obtain ⟨stored, hstored, -⟩ := h.only k address hk
  have hfound := deref_eq_some.mpr ⟨hk, hstored⟩
  rw [hderef] at hfound
  cases hfound

theorem IndexedBy.insert (h : IndexedBy key index records) (hfree : index.get? (key stored) = none) :
    IndexedBy key (index.set (key stored) records.length) (records ++ [stored]) where
  find := by
    intro address stored' hstored'
    rw [OrderedMap.get?_set]
    rcases getElem?_append_singleton.mp hstored' with hold | ⟨rfl, rfl⟩
    · have hindex := h.find address stored' hold
      have hne : key stored ≠ key stored' := by
        intro heq
        rw [← heq, hfree] at hindex
        cases hindex
      rw [if_neg hne, hindex]
    · rw [if_pos rfl]
  only := by
    intro k address hk
    rw [OrderedMap.get?_set] at hk
    split at hk
    · rename_i heq
      obtain rfl := Option.some.inj hk
      exact ⟨stored, getElem?_append_singleton.mpr (Or.inr ⟨rfl, rfl⟩), heq⟩
    · obtain ⟨stored', hstored', hkey⟩ := h.only k address hk
      exact ⟨stored', getElem?_append_singleton.mpr (Or.inl hstored'), hkey⟩

end IndexedBy

theorem Effect.consistent (h : Effect runtime readings store store') (hstore : Consistent store) :
    Consistent store' := by
  cases h with
  | moved hmoves =>
    refine ⟨⟨?_, ?_⟩, ?_⟩
    · exact hstore.indexed.actionId.moved hmoves fun s s' hmove => by
        rw [StoredAction.idValue, hmove.follows.actionRef, StoredAction.idValue]
    · exact hstore.indexed.envelopeHash.moved hmoves fun s s' hmove => by
        rw [StoredAction.hashValue, hmove.follows.actionRef, StoredAction.hashValue]
    · exact Heap.forall₂_forall (fun _ _ hsound hmove => hmove.sound hsound) hmoves hstore.sound
  | created hsound _ hid hhash =>
    refine ⟨⟨?_, ?_⟩, ?_⟩
    · exact hstore.indexed.actionId.insert hid
    · exact hstore.indexed.envelopeHash.insert hhash
    · intro stored hstored
      rcases List.mem_append.mp hstored with hold | hnew
      · exact hstore.sound stored hold
      · rw [List.mem_singleton.mp hnew]
        exact hsound

theorem Effect.follows (h : Effect runtime readings store store') :
    Heap.Evolves Follows store.records store'.records := by
  cases h with
  | moved hmoves =>
    exact (Heap.evolves_of_forall₂ hmoves).mono fun _ _ hmove => hmove.follows
  | created => exact Heap.evolves_append Follows.refl _ _

/-! ## Validation -/

theorem validateAuthorizationRequirements_wellFormed {requirements : AuthorizationRequirements}
    {actionEnvelopeHash : HashObject} {verifierDid : Option Did} {now : Int}
    (h : validateAuthorizationRequirements runtime requirements actionEnvelopeHash verifierDid now =
      .ok ()) : WellFormed requirements.approvalRequirements := by
  iterate 5 obtain ⟨-, h⟩ := Checks.throwIf_bind_eq_ok.mp h
  obtain ⟨_, -, h⟩ := Checks.bind_eq_ok.mp h
  obtain ⟨-, h⟩ := Checks.throwIf_bind_eq_ok.mp h
  obtain ⟨_, hvalid, -⟩ := Checks.bind_eq_ok.mp h
  intro threshold hthreshold
  have hvalid := Checks.forM_eq_ok.mp hvalid threshold hthreshold
  unfold validateThreshold at hvalid
  split at hvalid
  · rename_i items hitems
    obtain ⟨-, hvalid⟩ := Checks.throwIf_bind_eq_ok.mp hvalid
    have hachievable := Checks.throwIf_eq_ok.mp hvalid
    refine ⟨⟨items, hitems⟩, ?_⟩
    cases hcount : threshold.threshold with
    | num n => exact ⟨n, rfl⟩
    | _ => simp [hcount, isAchievable] at hachievable
  · cases hvalid

theorem validateCreateWorkflow_ok {request : CoordinationActionRequest}
    (h : store.validateCreateWorkflow runtime readings request = .ok ()) :
    WellFormed request.authorizationRequirements.approvalRequirements ∧
      ∀ address stored, store.deref store.actionsById
          request.actionPackage.actionEnvelope.actionId.value = some (address, stored) →
        stored.hashValue =
          (runtime.computeJsonHash request.actionPackage.actionEnvelope.toJson).value := by
  obtain ⟨_, -, h⟩ := Checks.bind_eq_ok.mp h
  obtain ⟨_, hrequirements, h⟩ := Checks.bind_eq_ok.mp h
  refine ⟨validateAuthorizationRequirements_wellFormed hrequirements, ?_⟩
  intro address stored hstored
  have hsame := Checks.throwIf_eq_ok.mp h
  rw [hstored] at hsame
  by_contra hne
  exact hsame (by simpa [StoredAction.hashValue] using hne)

theorem approvalPreflight_ok {request : CoordinationApprovalSubmission}
    {preflight : CoordinationStore.Preflight}
    (h : store.approvalPreflight runtime readings request = .ok preflight) :
    store.deref store.actionsByEnvelopeHash request.actionEnvelopeHash.value =
        some (preflight.address, preflight.stored) ∧
      CoordinationStore.approvalSigner runtime preflight.stored request.approval =
        .ok preflight.signerDid ∧
      preflight.signerDid ≠ .str preflight.stored.proposer ∧
      preflight.duplicate =
        (CoordinationStore.priorApproval preflight.stored preflight.signerDid).isSome ∧
      (∀ prior, CoordinationStore.priorApproval preflight.stored preflight.signerDid = some prior →
        prior.decision = request.approval.decision) ∧
      (preflight.stored.state = .awaitingApprovals ∨ preflight.duplicate = true) := by
  unfold CoordinationStore.approvalPreflight at h
  split at h
  · cases h
  rename_i address stored hstored
  obtain ⟨-, h⟩ := Checks.throwIf_bind_eq_ok.mp h
  obtain ⟨signerDid, hsigner, h⟩ := Checks.bind_eq_ok.mp h
  obtain ⟨hother, h⟩ := Checks.throwIf_bind_eq_ok.mp h
  obtain ⟨hfinal, h⟩ := Checks.throwIf_bind_eq_ok.mp h
  obtain ⟨hopen, h⟩ := Checks.throwIf_bind_eq_ok.mp h
  cases h
  refine ⟨hstored, hsigner, ?_, rfl, ?_, ?_⟩
  · rwa [strictEquals_str_iff] at hother
  · intro prior hprior
    rw [hprior] at hfinal
    by_contra hne
    exact hfinal (by simpa using hne)
  · by_contra hnone
    simp only [not_or, Bool.not_eq_true, Option.isSome_eq_false_iff] at hnone
    exact hopen hnone

theorem validateCancelAction_ok {request : CoordinationActionCancelRequest} {address : Nat}
    (h : store.validateCancelAction runtime readings request = .ok ())
    (hstored : store.deref store.actionsById request.actionId.value = some (address, stored)) :
    stored.state = .awaitingApprovals := by
  unfold CoordinationStore.validateCancelAction at h
  rw [hstored] at h
  obtain ⟨hcancelled, h⟩ := Checks.throwIf_bind_eq_ok.mp h
  obtain ⟨-, h⟩ := Checks.throwIf_bind_eq_ok.mp h
  obtain ⟨hexpired, h⟩ := Checks.throwIf_bind_eq_ok.mp h
  obtain ⟨hready, h⟩ := Checks.throwIf_bind_eq_ok.mp h
  have hrejected := Checks.throwIf_eq_ok.mp h
  cases hstate : stored.state with
  | awaitingApprovals => rfl
  | readyForSubmission => exact absurd hstate hready
  | cancelled => exact absurd hstate hcancelled
  | rejected => exact absurd hstate hrejected
  | expired =>
    have heffective : effectiveState runtime readings stored = .expired := by
      rw [effectiveState, hstate]
      rfl
    exact absurd heffective hexpired

/-! ## The operations -/

theorem expireIfNeeded_moves (stored : StoredAction) :
    Moves runtime readings stored (expireIfNeeded runtime readings stored) := by
  unfold expireIfNeeded
  split
  · exact .kept
  · rename_i hopen
    split
    · rename_i hpast
      exact .expired (by simpa using hopen) hpast
    · exact .kept

theorem createWorkflow_performs (hstore : Consistent store) (request : CoordinationActionRequest) :
    Performs runtime readings store (store.createWorkflow runtime readings request) := by
  unfold CoordinationStore.createWorkflow
  split
  · exact performs_error _
  · rename_i hvalid
    obtain ⟨hwell, hsame⟩ := validateCreateWorkflow_ok hvalid
    dsimp only
    split
    · rename_i address existing hexisting
      have hrecord := (deref_eq_some.mp hexisting).2
      exact performs_put hrecord (expireIfNeeded_moves existing)
    · rename_i hnone
      refine ⟨?_, fun error h => by cases h⟩
      have hhash := hstore.indexed.envelopeHash.get?_none hnone
      have hid : store.actionsById.get?
          request.actionPackage.actionEnvelope.actionId.value = none := by
        apply hstore.indexed.actionId.get?_none
        apply Option.eq_none_iff_forall_ne_some.mpr
        rintro ⟨address, stored⟩ hderef
        have hstored := (deref_eq_some.mp hderef).2
        have hindexed := hstore.indexed.envelopeHash.find address stored hstored
        rw [hsame address stored hderef, hhash] at hindexed
        cases hindexed
      exact .created ⟨hwell, List.Pairwise.nil, fun _ h => absurd h List.not_mem_nil,
        fun _ h => by cases h⟩ rfl hid hhash

theorem submitApproval_performs (hstore : Consistent store)
    (request : CoordinationApprovalSubmission) :
    Performs runtime readings store (store.submitApproval runtime readings request) := by
  unfold CoordinationStore.submitApproval
  split
  · exact performs_error _
  rename_i preflight hpreflight
  obtain ⟨hderef, -, hother, hduplicate, -, hopen⟩ := approvalPreflight_ok hpreflight
  have hrecord := (deref_eq_some.mp hderef).2
  have hsound : preflight.stored.Sound := hstore.sound _ (List.mem_of_getElem? hrecord)
  dsimp only
  unfold CoordinationStore.recorded
  cases hrepeated : preflight.duplicate with
  | true =>
    simp only [↓reduceIte]
    split
    · rename_i hstate
      obtain ⟨status, hstatus⟩ :=
        StoredAction.evaluate_exists hsound.wellFormed hsound.oneEach hsound.others
      simp only [hstatus]
      exact performs_put hrecord (.reconsidered hstate hstatus)
    · exact performs_put hrecord .kept
  | false =>
    have hstate : preflight.stored.state = .awaitingApprovals := by
      simpa [hrepeated] using hopen
    have hnew : ∀ earlier ∈ preflight.stored.approvals, ¬SameSigner earlier
        ⟨request.approval, preflight.signerDid, request.approval.decision⟩ := by
      intro earlier hearlier hsame
      rw [hrepeated] at hduplicate
      have hnone : CoordinationStore.priorApproval preflight.stored preflight.signerDid = none := by
        simpa using hduplicate.symm
      exact List.find?_eq_none.mp hnone earlier hearlier hsame
    have hrecorded : (preflight.stored.record runtime readings ⟨request.approval,
        preflight.signerDid, request.approval.decision⟩).Sound :=
      hsound.record hstate hnew hother
    obtain ⟨status, hstatus⟩ :=
      StoredAction.evaluate_exists hrecorded.wellFormed hrecorded.oneEach hrecorded.others
    have hrecordstate : (preflight.stored.record runtime readings ⟨request.approval,
        preflight.signerDid, request.approval.decision⟩).state = .awaitingApprovals := hstate
    simp only [Bool.false_eq_true, ↓reduceIte, hstatus, hrecordstate]
    exact performs_put hrecord (.decided hstate hnew hother hstatus)

theorem cancelAction_performs (store : CoordinationStore)
    (request : CoordinationActionCancelRequest) :
    Performs runtime readings store (store.cancelAction runtime readings request) := by
  unfold CoordinationStore.cancelAction
  split
  · exact performs_error _
  rename_i hvalid
  split
  · exact performs_error _
  rename_i address stored hderef
  have hrecord := (deref_eq_some.mp hderef).2
  exact performs_put hrecord (.cancelled (validateCancelAction_ok hvalid hderef))

/-! ## Polling -/

theorem includesDid_ok {value : Json} (did : Did) (h : ∃ items, value = .arr items) :
    ∃ b, includesDid value did = .ok b := by
  obtain ⟨items, rfl⟩ := h
  exact ⟨_, rfl⟩

theorem findThreshold_ok {p : ThresholdRequirement → Except JsError Bool}
    {thresholds : List ThresholdRequirement} (h : ∀ t ∈ thresholds, ∃ b, p t = .ok b) :
    ∃ found, findThreshold p thresholds = .ok found ∧ ∀ t, found = some t → t ∈ thresholds := by
  induction thresholds with
  | nil => exact ⟨none, rfl, by simp⟩
  | cons t rest ih =>
    obtain ⟨b, hb⟩ := h t List.mem_cons_self
    obtain ⟨found, hfound, hmem⟩ := ih fun u hu => h u (List.mem_cons_of_mem t hu)
    unfold findThreshold
    simp only [hb, bind, Except.bind]
    cases b with
    | true =>
      refine ⟨some t, rfl, ?_⟩
      intro u hu
      rw [Option.some.inj hu]
      exact List.mem_cons_self
    | false =>
      exact ⟨found, hfound, fun u hu => List.mem_cons_of_mem t (hmem u hu)⟩

theorem approvedSignersFor_ok {threshold : ThresholdRequirement} (decision : Json)
    (approvals : List StoredApproval) (h : ∃ items, threshold.eligibleSigners = .arr items) :
    ∃ signers, approvedSignersFor threshold decision approvals = .ok signers := by
  obtain ⟨items, hitems⟩ := h
  unfold approvedSignersFor
  simp only [hitems, Json.newSet, bind, Except.bind]
  exact ⟨_, rfl⟩

theorem progressFor_ok {requirements : ApprovalRequirements} (h : WellFormed requirements)
    (approvals : List StoredApproval) :
    ∃ progress, progressFor requirements approvals = .ok progress := by
  have hsatisfied : ∀ t ∈ thresholdsFor requirements,
      ∃ b, (isThresholdSatisfied approvals t).map not = .ok b := by
    intro t ht
    obtain ⟨signers, hsigners⟩ := approvedSignersFor_ok
      (Json.nullish t.decision (.str "approve")) approvals (h t ht).signers
    obtain ⟨n, hn⟩ := (h t ht).count
    simp only [isThresholdSatisfied, hsigners, hn, Json.countReaches, Json.coerceNumber_num, bind,
      Except.bind]
    exact ⟨_, rfl⟩
  obtain ⟨found, hfound, hmem⟩ := findThreshold_ok hsatisfied
  unfold progressFor
  simp only [hfound, bind, Except.bind]
  cases hfirst : found <|> (thresholdsFor requirements).head? with
  | none => exact ⟨_, rfl⟩
  | some t =>
    have ht : t ∈ thresholdsFor requirements := by
      cases hfound : found with
      | some u =>
        rw [hfound] at hfirst hmem
        exact hmem t hfirst
      | none =>
        rw [hfound] at hfirst
        exact List.mem_of_mem_head? hfirst
    obtain ⟨signers, hsigners⟩ := approvedSignersFor_ok
      (Json.nullish t.decision (.str "approve")) approvals (h t ht).signers
    obtain ⟨⟨items, hitems⟩, n, hn⟩ := h t ht
    simp only [hsigners, hitems, hn, filterItems, Json.coerceNumber_num]
    exact ⟨_, rfl⟩

theorem approvalRequestFor_ok
    (h : WellFormed stored.authorizationRequirements.approvalRequirements) (did : Did) :
    ∃ request, approvalRequestFor stored did = .ok request := by
  obtain ⟨found, hfound, -⟩ := findThreshold_ok fun t ht => includesDid_ok did (h t ht).signers
  unfold approvalRequestFor
  simp only [hfound, bind, Except.bind]
  split
  · exact ⟨_, rfl⟩
  · split <;> exact ⟨_, rfl⟩

/-- Every Approval of the package has a signature, or the package none at all. -/
def SubmittedPackage.Readable (package : SubmittedPackage) : Prop :=
  match package.foreignApprovals with
  | none => True
  | some value => ∃ approvals, value = .arr approvals ∧
      ∀ approval ∈ approvals, ∃ signature, approval.member "signature" = some signature ∧
        signature ≠ .null

theorem signatureValues_ok {approvals : List Json} (h : ∀ approval ∈ approvals,
      ∃ signature, approval.member "signature" = some signature ∧ signature ≠ .null) :
    ∃ values, signatureValues approvals = .ok values := by
  induction approvals with
  | nil => exact ⟨[], rfl⟩
  | cons approval rest ih =>
    obtain ⟨signature, hsignature, hnull⟩ := h approval List.mem_cons_self
    obtain ⟨values, hvalues⟩ := ih fun other hother => h other (List.mem_cons_of_mem _ hother)
    rw [signatureValues, hsignature, hvalues]
    cases signature with
    | null => exact absurd rfl hnull
    | _ => exact ⟨_, rfl⟩

theorem SubmittedPackage.Readable.signatures_ok {package : SubmittedPackage}
    (h : package.Readable) : ∃ values, package.signatures = .ok values := by
  unfold SubmittedPackage.Readable at h
  unfold SubmittedPackage.signatures
  split at h
  next hproper => exact ⟨_, by rw [hproper]⟩
  next value hforeign =>
    obtain ⟨approvals, rfl, hsigned⟩ := h
    rw [hforeign]
    exact signatureValues_ok hsigned

theorem buildActionUpdate_ok
    (h : WellFormed stored.authorizationRequirements.approvalRequirements)
    (hreadable : stored.actionPackage.Readable) :
    ∃ update, buildActionUpdate runtime readings stored = .ok update := by
  obtain ⟨progress, hprogress⟩ := progressFor_ok h stored.approvals
  obtain ⟨signatures, hsignatures⟩ := hreadable.signatures_ok
  unfold buildActionUpdate buildCompletedActionPackage
  cases stored.state <;> simp only [hprogress, hsignatures, bind, Except.bind] <;> exact ⟨_, rfl⟩

theorem pollEntry_ok (h : WellFormed stored.authorizationRequirements.approvalRequirements)
    (hreadable : stored.actionPackage.Readable) (did : Did) :
    ∃ entry, pollEntry runtime readings did stored = .ok entry := by
  obtain ⟨request, hrequest⟩ := approvalRequestFor_ok h did
  have hbuilt : ∃ update, buildActionUpdate runtime readings stored = .ok update :=
    buildActionUpdate_ok h hreadable
  obtain ⟨update, hupdate⟩ := hbuilt
  unfold pollEntry
  simp only [hrequest, hupdate]
  split <;> split <;> exact ⟨_, rfl⟩

theorem isOutstanding_ok (h : WellFormed stored.authorizationRequirements.approvalRequirements)
    (did : Did) : ∃ b, isOutstanding did stored = .ok b := by
  obtain ⟨request, hrequest⟩ := approvalRequestFor_ok h did
  unfold isOutstanding
  simp only [hrequest]
  split <;> exact ⟨_, rfl⟩

theorem expireIfNeeded_idem (stored : StoredAction) :
    expireIfNeeded runtime readings (expireIfNeeded runtime readings stored) =
      expireIfNeeded runtime readings stored := by
  unfold expireIfNeeded
  split
  · rfl
  · split <;> rfl

@[simp] theorem expireIfNeeded_requirements (stored : StoredAction) :
    (expireIfNeeded runtime readings stored).authorizationRequirements =
      stored.authorizationRequirements := by
  unfold expireIfNeeded
  split
  · rfl
  · split <;> rfl

@[simp] theorem expireIfNeeded_actionPackage (stored : StoredAction) :
    (expireIfNeeded runtime readings stored).actionPackage = stored.actionPackage := by
  unfold expireIfNeeded
  split
  · rfl
  · split <;> rfl

/-- A record before and after a loop that expires records. -/
def Expires (runtime : Runtime) (readings : Readings) (stored stored' : StoredAction) : Prop :=
  stored' = stored ∨ stored' = expireIfNeeded runtime readings stored

theorem Expires.trans (a b c : StoredAction) (h : Expires runtime readings a b)
    (h' : Expires runtime readings b c) : Expires runtime readings a c := by
  rcases h with rfl | rfl
  · exact h'
  · rcases h' with rfl | rfl
    · exact Or.inr rfl
    · exact Or.inr (expireIfNeeded_idem a)

/-- The store with some records expired. -/
def Expired (runtime : Runtime) (readings : Readings) (store store' : CoordinationStore) : Prop :=
  ∃ records, List.Forall₂ (Expires runtime readings) store.records records ∧
    store' = { store with records }

theorem Expired.refl (store : CoordinationStore) : Expired runtime readings store store :=
  ⟨store.records, List.forall₂_same.mpr fun _ _ => Or.inl rfl, rfl⟩

theorem Expired.put {address : Nat} (h : Expired runtime readings store store')
    (hstored : store'.records[address]? = some stored) :
    Expired runtime readings store
      (store'.put address (expireIfNeeded runtime readings stored)) := by
  obtain ⟨records, hrecords, rfl⟩ := h
  refine ⟨_, ?_, rfl⟩
  exact Heap.forall₂_trans Expires.trans hrecords
    (Heap.forall₂_set (fun _ => Or.inl rfl) hstored (Or.inr rfl))

theorem Expired.effect (h : Expired runtime readings store store') :
    Effect runtime readings store store' := by
  obtain ⟨records, hrecords, rfl⟩ := h
  refine .moved (hrecords.imp fun a b hab => ?_)
  rcases hab with rfl | rfl
  · exact .kept
  · exact expireIfNeeded_moves a

theorem Expired.wellFormed {address : Nat} (h : Expired runtime readings store store')
    (hstore : Consistent store) (hstored : store'.records[address]? = some stored) :
    WellFormed (expireIfNeeded runtime readings
      stored).authorizationRequirements.approvalRequirements := by
  have hsound := (h.effect.consistent hstore).sound stored (List.mem_of_getElem? hstored)
  rw [expireIfNeeded_requirements]
  exact hsound.wellFormed

/-- A poll expires records, whether or not it comes to an answer. -/
theorem pollEntries_expired (did : Did) (addresses : List Nat) :
    ∀ (approvalRequests : List ApprovalRequest) (actionUpdates : List ActionUpdate)
      (store' : CoordinationStore), Expired runtime readings store store' →
      Expired runtime readings store (CoordinationStore.pollEntries runtime readings did
        approvalRequests actionUpdates store' addresses).2 := by
  induction addresses with
  | nil => exact fun _ _ store' h => h
  | cons address rest ih =>
    intro approvalRequests actionUpdates store' h
    unfold CoordinationStore.pollEntries
    split
    · exact ih _ _ store' h
    · rename_i existing hexisting
      dsimp only
      split
      · exact h.put hexisting
      · exact ih _ _ _ (h.put hexisting)

def ReadableStore (store : CoordinationStore) : Prop :=
  ∀ stored ∈ store.records, stored.actionPackage.Readable

theorem Expired.readable (h : Expired runtime readings store store')
    (hstore : ReadableStore store) : ReadableStore store' := by
  obtain ⟨records, hrecords, rfl⟩ := h
  refine Heap.forall₂_forall (fun a b hreadable hab => ?_) hrecords hstore
  rcases hab with rfl | rfl
  · exact hreadable
  · rwa [expireIfNeeded_actionPackage]

/-- **A poll** of workflows whose packages can be read comes to an answer. -/
theorem pollEntries_ok (hstore : Consistent store) (hreadable : ReadableStore store) (did : Did)
    (addresses : List Nat) :
    ∀ (approvalRequests : List ApprovalRequest) (actionUpdates : List ActionUpdate)
      (store' : CoordinationStore), Expired runtime readings store store' →
      ∃ response, (CoordinationStore.pollEntries runtime readings did approvalRequests
        actionUpdates store' addresses).1 = .ok response := by
  induction addresses with
  | nil => exact fun _ _ store' h => ⟨_, rfl⟩
  | cons address rest ih =>
    intro approvalRequests actionUpdates store' h
    unfold CoordinationStore.pollEntries
    split
    · exact ih _ _ store' h
    · rename_i existing hexisting
      have hpackage : (expireIfNeeded runtime readings existing).actionPackage.Readable := by
        rw [expireIfNeeded_actionPackage]
        exact h.readable hreadable existing (List.mem_of_getElem? hexisting)
      have hpolled : ∃ entry,
          pollEntry runtime readings did (expireIfNeeded runtime readings existing) = .ok entry :=
        pollEntry_ok (h.wellFormed hstore hexisting) hpackage did
      obtain ⟨entry, hentry⟩ := hpolled
      simp only [hentry]
      exact ih _ _ _ (h.put hexisting)

theorem outstandingEntries_expired (hstore : Consistent store) (did : Did) (addresses : List Nat) :
    ∀ (store' : CoordinationStore), Expired runtime readings store store' →
      ∃ response store'', CoordinationStore.outstandingEntries runtime readings did store'
        addresses = (.ok response, store'') ∧ Expired runtime readings store store'' := by
  induction addresses with
  | nil => exact fun store' h => ⟨_, store', rfl, h⟩
  | cons address rest ih =>
    intro store' h
    unfold CoordinationStore.outstandingEntries
    split
    · exact ih store' h
    · rename_i existing hexisting
      obtain ⟨outstanding, houtstanding⟩ :=
        isOutstanding_ok (h.wellFormed hstore hexisting) did
      simp only [houtstanding]
      cases outstanding with
      | true => exact ⟨_, _, rfl, h.put hexisting⟩
      | false => exact ih _ (h.put hexisting)

theorem outstanding_expired (hstore : Consistent store) (did : Did) :
    Expired runtime readings store (store.hasOutstandingCoordinationWork runtime readings did).2 := by
  obtain ⟨response, store', houtcome, hexpired⟩ :
      ∃ response store', store.hasOutstandingCoordinationWork runtime readings did =
        (.ok response, store') ∧ Expired runtime readings store store' :=
    outstandingEntries_expired hstore did _ store (Expired.refl store)
  rw [houtcome]
  exact hexpired

theorem outstanding_performs (hstore : Consistent store) (did : Did) :
    Performs runtime readings store (store.hasOutstandingCoordinationWork runtime readings did) := by
  refine ⟨(outstanding_expired hstore did).effect, ?_⟩
  obtain ⟨response, store', houtcome, -⟩ :
      ∃ response store', store.hasOutstandingCoordinationWork runtime readings did =
        (.ok response, store') ∧ Expired runtime readings store store' :=
    outstandingEntries_expired hstore did _ store (Expired.refl store)
  rw [houtcome]
  intro error herror
  cases herror

theorem poll_expired (store : CoordinationStore) (did : Did) :
    Expired runtime readings store (store.poll runtime readings did).2 :=
  pollEntries_expired did store.actionsById.values [] [] store (Expired.refl store)

/-- Whether the call cannot come upon a package that cannot be read. -/
def Call.Safe (call : Call) (store : CoordinationStore) : Prop :=
  match call.operation with
  | .poll _ => ReadableStore store
  | _ => True

/-- **One call.** It has an effect on a consistent store; unless it is a poll that comes
upon a package that cannot be read, it throws before any. -/
theorem perform_effect (hstore : Consistent store) (call : Call) :
    Effect runtime call.readings store (store.perform runtime call).2 ∧
      (call.Safe store → ∀ error, (store.perform runtime call).1 = .error error →
        (store.perform runtime call).2 = store) := by
  unfold CoordinationStore.perform Call.Safe
  cases call.operation with
  | createWorkflow request =>
    have h : Performs runtime call.readings store _ := createWorkflow_performs hstore request
    exact ⟨h.1, fun _ => h.2⟩
  | submitApproval request =>
    have h : Performs runtime call.readings store _ := submitApproval_performs hstore request
    exact ⟨h.1, fun _ => h.2⟩
  | cancelAction request =>
    have h : Performs runtime call.readings store _ := cancelAction_performs store request
    exact ⟨h.1, fun _ => h.2⟩
  | hasOutstandingCoordinationWork did =>
    have h : Performs runtime call.readings store _ := outstanding_performs hstore did
    exact ⟨h.1, fun _ => h.2⟩
  | poll did =>
    refine ⟨(poll_expired store did).effect, fun hreadable error herror => ?_⟩
    obtain ⟨response, hok⟩ : ∃ response, (store.poll runtime call.readings did).1 = .ok response :=
      pollEntries_ok hstore hreadable did store.actionsById.values [] [] store (Expired.refl store)
    rw [hok] at herror
    cases herror

/-! ## Packages that can be read -/

/-- The package of a workflow that the call creates can be read. -/
def Call.Readable (call : Call) : Prop :=
  match call.operation with
  | .createWorkflow request => request.actionPackage.Readable
  | _ => True

theorem ReadableStore.put {address : Nat} (h : ReadableStore store)
    (hstored : store.records[address]? = some stored)
    (hsame : stored'.actionPackage = stored.actionPackage) :
    ReadableStore (store.put address stored') := by
  intro other hother
  rcases List.mem_or_eq_of_mem_set hother with hold | rfl
  · exact h other hold
  · rw [hsame]
    exact h stored (List.mem_of_getElem? hstored)

theorem consistent_empty : Consistent {} where
  indexed := by
    constructor <;> constructor <;> intros <;> simp_all
  sound := by simp

theorem step_eq_some {world world' : World} {call : Call}
    (h : step runtime world call = some world') :
    world'.store = (world.store.perform runtime call).2 := by
  unfold step at h
  split at h
  · rw [← Option.some.inj h]
  · cases h

theorem step_effect {world world' : World} {call : Call} (hstore : Consistent world.store)
    (h : step runtime world call = some world') :
    Effect runtime call.readings world.store world'.store := by
  rw [step_eq_some h]
  exact (perform_effect hstore call).1

theorem run_consistent {calls : List Call} {world world' : World}
    (h : Machine.Run (step runtime) Machine.Free world calls world')
    (hstore : Consistent world.store) : Consistent world'.store :=
  h.invariant (I := fun w => Consistent w.store)
    (fun _ _ _ hconsistent _ hstep => (step_effect hconsistent hstep).consistent hconsistent) hstore

theorem run_follows {calls : List Call} {world world' : World}
    (h : Machine.Run (step runtime) Machine.Free world calls world')
    (hstore : Consistent world.store) :
    Heap.Evolves Follows world.store.records world'.store.records := by
  have htrans : ∀ a b c : World, Heap.Evolves Follows a.store.records b.store.records →
      Heap.Evolves Follows b.store.records c.store.records →
      Heap.Evolves Follows a.store.records c.store.records :=
    fun _ _ _ hab hbc => Heap.Evolves.trans (fun _ _ _ => Follows.trans) hab hbc
  refine h.relates (I := fun w => Consistent w.store)
    (R := fun w w' => Heap.Evolves Follows w.store.records w'.store.records)
    (fun w => Heap.Evolves.refl Follows.refl _) htrans ?_ hstore
  intro w call w' hconsistent _ hstep
  have heffect := step_effect hconsistent hstep
  exact ⟨heffect.consistent hconsistent, heffect.follows⟩

/-- The key of a record tells its address. -/
theorem IndexedBy.address_unique {key : StoredAction → String} {index : OrderedMap String Nat}
    {records : List StoredAction} {address address' : Nat} (h : IndexedBy key index records)
    (hstored : records[address]? = some stored) (hstored' : records[address']? = some stored')
    (hkey : key stored = key stored') : address = address' := by
  have hfind := h.find address stored hstored
  rw [hkey, h.find address' stored' hstored'] at hfind
  exact (Option.some.inj hfind).symm

theorem eq_of_strictEquals {a b : Json} (h : Json.strictEquals (some a) (some b) = true) :
    a = b := by
  cases a <;> cases b <;> simp_all [Json.strictEquals]
  rename_i n m
  cases n <;> cases m <;> simp_all

/-- The decisions of a workflow as the evaluation takes them. -/
def StoredAction.status (stored : StoredAction) : Except EvaluationError Status :=
  evaluateApprovalRequirements stored.authorizationRequirements.approvalRequirements
    (signerDecisions stored.approvals)

/-- The recorded decision of the Signer, new or given before. -/
theorem recorded_entry {request : CoordinationApprovalSubmission}
    {preflight : CoordinationStore.Preflight}
    (h : store.approvalPreflight runtime readings request = .ok preflight) :
    ∃ entry ∈ (CoordinationStore.recorded runtime readings request preflight).approvals,
      entry.signerDid = preflight.signerDid ∧ entry.decision = request.approval.decision := by
  obtain ⟨-, -, -, hduplicate, hprior, -⟩ := approvalPreflight_ok h
  unfold CoordinationStore.recorded
  cases hrepeated : preflight.duplicate with
  | true =>
    rw [hrepeated] at hduplicate
    obtain ⟨prior, hfound⟩ := Option.isSome_iff_exists.mp hduplicate.symm
    have hsame := List.find?_some hfound
    exact ⟨prior, List.mem_of_find?_eq_some hfound, eq_of_strictEquals hsame, hprior prior hfound⟩
  | false =>
    exact ⟨_, List.mem_append_right _ (List.mem_singleton_self _), rfl, rfl⟩

theorem submitApproval_ok {request : CoordinationApprovalSubmission} {response : Response}
    (h : (store.submitApproval runtime readings request).1 = .ok response) :
    ∃ preflight stored', store.approvalPreflight runtime readings request = .ok preflight ∧
      (store.submitApproval runtime readings request).2 = store.put preflight.address stored' ∧
      stored'.approvals =
        (CoordinationStore.recorded runtime readings request preflight).approvals := by
  unfold CoordinationStore.submitApproval at h ⊢
  cases hpreflight : store.approvalPreflight runtime readings request with
  | error e =>
    rw [hpreflight] at h
    cases h
  | ok preflight =>
    rw [hpreflight] at h
    dsimp only at h ⊢
    split
    · rename_i hstate
      rw [if_pos hstate] at h
      split
      · rename_i error herror
        rw [herror] at h
        cases h
      · exact ⟨preflight, _, rfl, rfl, conclude_approvals ..⟩
    · exact ⟨preflight, _, rfl, rfl, rfl⟩

/-- An accepted submission: its Signer and decision are recorded in the workflow. -/
structure Accepted (runtime : Runtime) (store store' : CoordinationStore)
    (request : CoordinationApprovalSubmission) : Prop where
  recorded : ∃ (address : Nat) (stored stored' : StoredAction) (signerDid : Json),
    store.deref store.actionsByEnvelopeHash request.actionEnvelopeHash.value =
      some (address, stored) ∧
    CoordinationStore.approvalSigner runtime stored request.approval = .ok signerDid ∧
    store'.records[address]? = some stored' ∧
    ∃ entry ∈ stored'.approvals, entry.signerDid = signerDid ∧
      entry.decision = request.approval.decision

theorem submitApproval_accepted {request : CoordinationApprovalSubmission} {response : Response}
    (h : (store.submitApproval runtime readings request).1 = .ok response) :
    Accepted runtime store (store.submitApproval runtime readings request).2 request := by
  obtain ⟨preflight, stored', hpreflight, hput, happrovals⟩ := submitApproval_ok h
  obtain ⟨hderef, hsigner, -⟩ := approvalPreflight_ok hpreflight
  obtain ⟨entry, hentry, hdid, hdecision⟩ := recorded_entry hpreflight
  have hbound := (List.getElem?_eq_some_iff.mp (deref_eq_some.mp hderef).2).1
  refine ⟨preflight.address, preflight.stored, stored', preflight.signerDid, hderef, hsigner, ?_,
    entry, ?_, hdid, hdecision⟩
  · rw [hput]
    simp [CoordinationStore.put, hbound]
  · rw [happrovals]
    exact hentry

/-- The laws of a store in a world that calls have led to. -/
structure Lawful (runtime : Runtime) (world : World) : Prop where
  indexed : Indexed world.store
  perActionId : ∀ (a b : Nat) (s t : StoredAction), world.store.records[a]? = some s →
    world.store.records[b]? = some t → s.idValue = t.idValue → a = b
  perEnvelopeHash : ∀ (a b : Nat) (s t : StoredAction), world.store.records[a]? = some s →
    world.store.records[b]? = some t → s.hashValue = t.hashValue → a = b
  oneEach : ∀ stored ∈ world.store.records, OneEach stored.approvals
  others : ∀ stored ∈ world.store.records, ∀ entry ∈ stored.approvals,
    entry.signerDid ≠ .str stored.proposer
  concluded : ∀ stored ∈ world.store.records, ∀ status, stored.state.verdict = some status →
    stored.status = .ok status
  given : ∀ readings request response,
    (world.store.submitApproval runtime readings request).1 = .ok response →
    Accepted runtime world.store (world.store.submitApproval runtime readings request).2 request
  entered : ∀ call world', step runtime world call = some world' →
    ∀ (address : Nat) (stored' : StoredAction), world'.store.records[address]? = some stored' →
    ∀ status, stored'.state.verdict = some status →
    ∃ stored, world.store.records[address]? = some stored ∧
      (stored.state = stored'.state ∨
        stored.state = .awaitingApprovals ∧ stored'.status = .ok status)
  followed : ∀ calls world', Machine.Run (step runtime) Machine.Free world calls world' →
    Heap.Evolves Follows world.store.records world'.store.records

theorem Sound.status_eq (h : stored.Sound) : stored.evaluate = stored.status :=
  StoredAction.evaluate_eq h.others

section

open CoordinationReadiness.Deployment (proposed proposedEnvelope replacement replacementEnvelope
  computeJsonHash verifierDid)

def alicePart : String :=
  "eyJhY3Rpb25FbnZlbG9wZUhhc2giOnsidmFsdWUiOiJDUE1rSEc5TEdxc05HV1Q2UDhiUUJqYWVrSHczV0NaMGNw" ++
  "U25RWFNHZFhzIn0sImRlY2lzaW9uIjoiYXBwcm92ZSIsInNpZ25lckRpZCI6ImRpZDp3ZWI6YWxpY2UifQ"

def bobPart : String :=
  "eyJhY3Rpb25FbnZlbG9wZUhhc2giOnsidmFsdWUiOiJDUE1rSEc5TEdxc05HV1Q2UDhiUUJqYWVrSHczV0NaMGNw" ++
  "U25RWFNHZFhzIn0sImRlY2lzaW9uIjoiYXBwcm92ZSIsInNpZ25lckRpZCI6ImRpZDp3ZWI6Ym9iIn0"

def approvalPayload (signerDid : Did) : Json :=
  .obj [("actionEnvelopeHash",
      .obj [("value", .str (computeJsonHash replacementEnvelope.toJson).value)]),
    ("decision", .str "approve"), ("signerDid", .str signerDid)]

/-- The hashes, dates and payloads of this one workflow, the payloads told apart by length. -/
def deploymentRuntime : Runtime where
  computeJsonHash := computeJsonHash
  dateParse := fun text =>
    if text = "2025-01-01T00:31:00.000Z" then some 1735691460000 else none
  toISOString := fun instant =>
    if instant = 1735691460000 then "2025-01-01T00:31:00.000Z" else "2025-01-01T00:03:00.000Z"
  parsePart := fun part =>
    if part.length = 170 then some (approvalPayload "did:web:alice")
    else if part.length = 167 then some (approvalPayload "did:web:bob")
    else none

def deploymentRequest : CoordinationActionRequest where
  actionPackage := replacement
  authorizationRequirements := {
    actionEnvelopeHash := computeJsonHash replacementEnvelope.toJson
    verifier := verifierDid
    approvalRequirements := { anyOf := some [{
      threshold := .num (.finite 2)
      eligibleSigners := .arr [.str "did:web:alice", .str "did:web:bob"]
      decision := some (.str "approve")
      description := none }] }
    createdAt := some "2025-01-01T00:01:00.000Z"
    expiresAt := some "2025-01-01T00:31:00.000Z" }

def approvalOf (part : String) : CoordinationApprovalSubmission where
  actionEnvelopeHash := computeJsonHash replacementEnvelope.toJson
  approval := {
    actionEnvelopeHash := computeJsonHash replacementEnvelope.toJson
    decision := .approve
    signature := "h." ++ part ++ ".s"
    createdAt := "2025-01-01T00:03:00.000Z" }

/-- Alice approves twice and Bob once; the Action expires unsubmitted. -/
def deploymentCalls : List Call :=
  [⟨⟨1735689780000, 1735689780000⟩, .createWorkflow deploymentRequest⟩,
    ⟨⟨1735689780000, 1735689780000⟩, .submitApproval (approvalOf alicePart)⟩,
    ⟨⟨1735689780000, 1735689780000⟩, .submitApproval (approvalOf alicePart)⟩,
    ⟨⟨1735689780000, 1735689780000⟩, .submitApproval (approvalOf bobPart)⟩,
    ⟨⟨1735689780000, 1735689780000⟩, .createWorkflow deploymentRequest⟩,
    ⟨⟨1735691460000, 1735691460000⟩, .poll "did:web:agent"⟩]

end

end Mpas.Coordination
