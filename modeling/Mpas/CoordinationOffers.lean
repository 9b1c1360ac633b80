import Mpas.CoordinationEvidence

/-!
# What Coordination offers and what it accepts

A poll offers a Signer the Approvals that it may give, and reports to a Proposer
whose decisions are pending. Whether the decision is then accepted is checked by
other code, which also knows that a Proposer may not approve its own Action.

* `pollEntries_found`: where the offers and reports of a poll come from;
* `submitApproval_open`: which decisions are accepted;
* `offers_answered_iff`: when an offer can be answered, and a pending Signer heard.
-/

namespace Mpas.Coordination

variable {runtime : Runtime} {readings : Readings} {store store' : CoordinationStore}
  {stored stored' : StoredAction} {did : Did}

/-! ## What a poll reports -/

/-- The record is not to expire at this time. -/
def Current (runtime : Runtime) (readings : Readings) (stored : StoredAction) : Prop :=
  expireIfNeeded runtime readings stored = stored

structure Offered (runtime : Runtime) (readings : Readings) (did : Did) (stored : StoredAction)
    (request : ApprovalRequest) : Prop where
  current : Current runtime readings stored
  awaiting : stored.state = .awaitingApprovals
  offered : approvalRequestFor stored did = .ok (some request)

structure Reported (runtime : Runtime) (readings : Readings) (did : Did) (stored : StoredAction)
    (update : ActionUpdate) : Prop where
  current : Current runtime readings stored
  proposer : stored.proposer = did
  built : buildActionUpdate runtime readings stored = .ok update

theorem pollEntry_parts {request : Option ApprovalRequest} {update : Option ActionUpdate}
    (h : pollEntry runtime readings did stored = .ok (request, update)) :
    (if stored.state = .awaitingApprovals then approvalRequestFor stored did else .ok none) =
        .ok request ∧
      (if stored.proposer = did then (buildActionUpdate runtime readings stored).map some
        else .ok none) = .ok update := by
  unfold pollEntry at h
  by_cases hawaiting : stored.state = .awaitingApprovals
  · by_cases hproposer : stored.proposer = did
    · simp only [hawaiting, hproposer, ↓reduceIte] at h ⊢
      obtain ⟨found, hfound, h⟩ := Checks.bind_eq_ok.mp h
      obtain ⟨built, hbuilt, h⟩ := Checks.bind_eq_ok.mp h
      cases h
      exact ⟨hfound, hbuilt⟩
    · simp only [hawaiting, hproposer, ↓reduceIte] at h ⊢
      obtain ⟨found, hfound, h⟩ := Checks.bind_eq_ok.mp h
      cases h
      exact ⟨hfound, rfl⟩
  · by_cases hproposer : stored.proposer = did
    · simp only [hawaiting, hproposer, ↓reduceIte] at h ⊢
      obtain ⟨_, hnone, h⟩ := Checks.bind_eq_ok.mp h
      obtain ⟨built, hbuilt, h⟩ := Checks.bind_eq_ok.mp h
      cases hnone
      cases h
      exact ⟨rfl, hbuilt⟩
    · simp only [hawaiting, hproposer, ↓reduceIte] at h ⊢
      cases h
      exact ⟨rfl, rfl⟩

theorem pollEntry_found {request : Option ApprovalRequest} {update : Option ActionUpdate}
    (hcurrent : Current runtime readings stored)
    (h : pollEntry runtime readings did stored = .ok (request, update)) :
    (∀ offer ∈ request, Offered runtime readings did stored offer) ∧
      ∀ report ∈ update, Reported runtime readings did stored report := by
  obtain ⟨hrequest, hupdate⟩ := pollEntry_parts h
  constructor
  · rintro offer hoffer
    obtain rfl : request = some offer := hoffer
    split at hrequest
    · rename_i hawaiting
      exact ⟨hcurrent, hawaiting, hrequest⟩
    · cases hrequest
  · rintro report hreport
    obtain rfl : update = some report := hreport
    split at hupdate
    · rename_i hproposer
      obtain ⟨_, hbuilt, heq⟩ := Checks.map_eq_ok.mp hupdate
      cases heq
      exact ⟨hcurrent, hproposer, hbuilt⟩
    · cases hupdate

/-- **The loop of a poll.** Every offer and every report is about a record as
the poll leaves it. -/
theorem pollEntries_found (addresses : List Nat) :
    ∀ (approvalRequests : List ApprovalRequest) (actionUpdates : List ActionUpdate)
      (store : CoordinationStore) {store' : CoordinationStore}
      {approvalRequests' : List ApprovalRequest} {actionUpdates' : List ActionUpdate},
      CoordinationStore.pollEntries runtime readings did approvalRequests actionUpdates store
        addresses = (.ok (.polled approvalRequests' actionUpdates'), store') →
      (∀ (address : Nat) (stored : StoredAction), store.records[address]? = some stored →
        Current runtime readings stored → store'.records[address]? = some stored) ∧
      (∀ request ∈ approvalRequests', request ∈ approvalRequests ∨
        ∃ stored ∈ store'.records, Offered runtime readings did stored request) ∧
      ∀ update ∈ actionUpdates', update ∈ actionUpdates ∨
        ∃ stored ∈ store'.records, Reported runtime readings did stored update := by
  induction addresses with
  | nil =>
    intro approvalRequests actionUpdates store store' requests' updates' h
    cases h
    exact ⟨fun _ _ hstored _ => hstored, fun _ => .inl, fun _ => .inl⟩
  | cons address rest ih =>
    intro approvalRequests actionUpdates store store' requests' updates' h
    unfold CoordinationStore.pollEntries at h
    split at h
    · exact ih _ _ _ h
    · rename_i existing hexisting
      dsimp only at h
      split at h
      · cases h
      · rename_i request update hentry
        obtain ⟨hkept, hrequests, hupdates⟩ := ih _ _ _ h
        have hcurrent : Current runtime readings (expireIfNeeded runtime readings existing) :=
          expireIfNeeded_idem existing
        have hbound := (List.getElem?_eq_some_iff.mp hexisting).1
        have hhere : (store.put address (expireIfNeeded runtime readings
            existing)).records[address]? = some (expireIfNeeded runtime readings existing) := by
          simp [CoordinationStore.put, hbound]
        have hlast := List.mem_of_getElem? (hkept _ _ hhere hcurrent)
        obtain ⟨hoffers, hreports⟩ := pollEntry_found hcurrent hentry
        refine ⟨?_, ?_, ?_⟩
        · intro other stored hstored hstays
          apply hkept _ _ _ hstays
          by_cases hsame : address = other
          · subst hsame
            rw [hexisting] at hstored
            cases hstored
            rw [hstays] at hhere ⊢
            exact hhere
          · simp [CoordinationStore.put, hsame, hstored]
        · intro offer hoffer
          rcases hrequests offer hoffer with hmem | hfound
          · rcases List.mem_append.mp hmem with hold | hnew
            · exact .inl hold
            · exact .inr ⟨_, hlast, hoffers offer (Option.mem_toList.mp hnew)⟩
          · exact .inr hfound
        · intro report hreport
          rcases hupdates report hreport with hmem | hfound
          · rcases List.mem_append.mp hmem with hold | hnew
            · exact .inl hold
            · exact .inr ⟨_, hlast, hreports report (Option.mem_toList.mp hnew)⟩
          · exact .inr hfound

theorem poll_found {approvalRequests : List ApprovalRequest} {actionUpdates : List ActionUpdate}
    (h : store.poll runtime readings did =
      (.ok (.polled approvalRequests actionUpdates), store')) :
    (∀ request ∈ approvalRequests,
      ∃ stored ∈ store'.records, Offered runtime readings did stored request) ∧
    ∀ update ∈ actionUpdates,
      ∃ stored ∈ store'.records, Reported runtime readings did stored update := by
  obtain ⟨-, hrequests, hupdates⟩ := pollEntries_found _ _ _ _ h
  constructor
  · intro request hrequest
    exact (hrequests request hrequest).resolve_left List.not_mem_nil
  · intro update hupdate
    exact (hupdates update hupdate).resolve_left List.not_mem_nil

/-! ## Who is offered an Approval -/

theorem findThreshold_some {p : ThresholdRequirement → Except JsError Bool}
    {thresholds : List ThresholdRequirement} {threshold : ThresholdRequirement}
    (h : findThreshold p thresholds = .ok (some threshold)) :
    threshold ∈ thresholds ∧ p threshold = .ok true := by
  induction thresholds with
  | nil => cases h
  | cons first rest ih =>
    unfold findThreshold at h
    obtain ⟨b, hb, h⟩ := Checks.bind_eq_ok.mp h
    cases b with
    | true =>
      cases h
      exact ⟨List.mem_cons_self, hb⟩
    | false =>
      obtain ⟨hmem, hp⟩ := ih h
      exact ⟨List.mem_cons_of_mem _ hmem, hp⟩

/-- The DID is listed by a threshold or is an override Signer. -/
def Named (requirements : ApprovalRequirements) (did : Did) : Prop :=
  (∃ threshold ∈ thresholdsFor requirements, includesDid threshold.eligibleSigners did = .ok true) ∨
    ∃ entry ∈ overridesFor requirements, entry.signer = did

theorem approvalRequestFor_some {request : ApprovalRequest}
    (h : approvalRequestFor stored did = .ok (some request)) :
    request.actionRef = stored.actionRef ∧
      request.signerReviewSet.actionEnvelope = stored.actionPackage.actionEnvelope ∧
      hasResponded stored.approvals (.str did) = false ∧
      Named stored.authorizationRequirements.approvalRequirements did := by
  unfold approvalRequestFor at h
  obtain ⟨requirement, hrequirement, h⟩ := Checks.bind_eq_ok.mp h
  dsimp only at h
  split at h
  · cases h
  · rename_i hnamed
    split at h
    · cases h
    · rename_i hresponded
      cases h
      refine ⟨rfl, rfl, by simpa using hresponded, ?_⟩
      cases requirement with
      | some threshold =>
        obtain ⟨hmem, hincludes⟩ := findThreshold_some hrequirement
        exact .inl ⟨threshold, hmem, hincludes⟩
      | none =>
        have hfound : ((overridesFor stored.authorizationRequirements.approvalRequirements).find?
            fun entry => decide (entry.signer = did)).isSome = true := by
          simpa using hnamed
        obtain ⟨entry, hentry⟩ := Option.isSome_iff_exists.mp hfound
        exact .inr ⟨entry, List.mem_of_find?_eq_some hentry, by simpa using List.find?_some hentry⟩

/-- Validated requirements name only DIDs. -/
theorem named_isDid {requirements : AuthorizationRequirements} (h : Validated runtime requirements)
    (hnamed : Named requirements.approvalRequirements did) : isDid did = true := by
  obtain ⟨_, _, _, h⟩ := h
  obtain ⟨-, h⟩ := Checks.throwIf_bind_eq_ok.mp h
  obtain ⟨hformed, h⟩ := Checks.throwIf_bind_eq_ok.mp h
  obtain ⟨hoverrides, -⟩ := Checks.throwIf_bind_eq_ok.mp h
  rcases hnamed with ⟨threshold, hmem, hincludes⟩ | ⟨entry, hmem, rfl⟩
  · have hgood : isMalformed threshold = false := by
      by_contra hbad
      exact hformed (List.any_eq_true.mpr ⟨threshold, hmem, by simpa using hbad⟩)
    unfold isMalformed at hgood
    split at hgood
    · rename_i items hitems
      rw [hitems, includesDid] at hincludes
      have hincludes := Except.ok.inj hincludes
      obtain ⟨v, hv, hsame⟩ := List.any_eq_true.mp hincludes
      obtain rfl := (strictEquals_str_iff v did).mp hsame
      simpa [Json.asString] using List.any_eq_false.mp hgood _ hv
    · cases hgood
  · by_contra hbad
    exact hoverrides (List.any_eq_true.mpr ⟨entry, hmem, by simp [hbad]⟩)

/-! ## What is accepted -/

/-- The submission is an Approval of the Action, signed by the DID. -/
structure Answers (runtime : Runtime) (actionRef : ActionRef) (did : Did)
    (submission : CoordinationApprovalSubmission) : Prop where
  addressed : submission.actionEnvelopeHash.value = actionRef.actionEnvelopeHash.value
  bound : submission.approval.actionEnvelopeHash.value = actionRef.actionEnvelopeHash.value
  signed : ∃ payload hash,
    CoordinationStore.decodeApprovalPayload runtime submission.approval = some payload ∧
    payload.member "actionEnvelopeHash" = some hash ∧
    hash.member "value" = some (.str actionRef.actionEnvelopeHash.value) ∧
    payload.member "signerDid" = some (.str did) ∧
    payload.member "decision" = some (.str submission.approval.decision.text)

variable {actionRef : ActionRef} {submission : CoordinationApprovalSubmission}

theorem Answers.signer (h : Answers runtime stored.actionRef did submission) (hdid : did ≠ "") :
    CoordinationStore.approvalSigner runtime stored submission.approval = .ok (.str did) := by
  obtain ⟨payload, hash, hpayload, hhash, hvalue, hsigner, hdecision⟩ := h.signed
  have hsigned : CoordinationStore.payloadHash (some payload) =
      .ok (some (.str stored.actionRef.actionEnvelopeHash.value)) := by
    cases payload with
    | obj members =>
      cases hash with
      | obj inner => simp only [CoordinationStore.payloadHash, hhash, hvalue]
      | _ => cases hvalue
    | _ => cases hhash
  have htruthy : (Json.str did).truthy = true := by simpa [Json.truthy] using hdid
  simp only [CoordinationStore.approvalSigner, hpayload, h.bound, hsigned, Option.bind_some,
    hsigner, hdecision, Option.filter_some, htruthy, Json.strictEquals_str]
  simp [Checks.throwIf, Except.mapError, Json.strictEquals_str, bind, Except.bind, pure,
    Except.pure]

theorem effectiveState_current (hcurrent : Current runtime readings stored) :
    effectiveState runtime readings stored = stored.state := by
  unfold Current expireIfNeeded at hcurrent
  unfold effectiveState
  split at hcurrent
  · rename_i hfinal
    rw [if_pos hfinal]
  · rename_i hopen
    split at hcurrent
    · rw [← hcurrent] at hopen
      exact absurd rfl hopen
    · rename_i hpast
      rw [if_neg hopen, if_neg hpast]

theorem priorApproval_none (h : hasResponded stored.approvals (.str did) = false) :
    CoordinationStore.priorApproval stored (.str did) = none :=
  List.find?_eq_none.mpr fun entry hentry => by simpa using List.any_eq_false.mp h entry hentry

/-- **Acceptance.** A first decision of a DID is accepted while the workflow
awaits decisions, unless it is the Proposer's. -/
theorem submitApproval_open (hstore : Consistent store) (hmem : stored ∈ store.records)
    (hcurrent : Current runtime readings stored) (hdid : did ≠ "")
    (hanswers : Answers runtime stored.actionRef did submission)
    (hresponded : hasResponded stored.approvals (.str did) = false) :
    (∃ response, (store.submitApproval runtime readings submission).1 = .ok response) ↔
      stored.state = .awaitingApprovals ∧ did ≠ stored.proposer := by
  obtain ⟨address, hstored⟩ := List.getElem?_of_mem hmem
  have hderef : store.deref store.actionsByEnvelopeHash submission.actionEnvelopeHash.value =
      some (address, stored) := by
    rw [deref_eq_some]
    refine ⟨?_, hstored⟩
    rw [hanswers.addressed]
    exact hstore.indexed.envelopeHash.find address stored hstored
  have hsigner := hanswers.signer hdid
  have hprior := priorApproval_none hresponded
  constructor
  · rintro ⟨response, hok⟩
    obtain ⟨preflight, -, hpreflight, -⟩ := submitApproval_ok hok
    obtain ⟨hderef', hsigner', hother, hduplicate, -, hopen⟩ := approvalPreflight_ok hpreflight
    rw [hderef] at hderef'
    obtain ⟨-, hsame⟩ := Prod.mk.inj (Option.some.inj hderef')
    rw [← hsame, hsigner] at hsigner'
    have hdidSame := Except.ok.inj hsigner'
    rw [← hsame, ← hdidSame] at hother hduplicate
    rw [hprior] at hduplicate
    constructor
    · rw [hsame]
      exact hopen.resolve_right (by simp [hduplicate])
    · rintro rfl
      exact hother rfl
  · rintro ⟨hstate, hother⟩
    have hself : Json.strictEquals (some (.str did)) (some (.str stored.proposer)) = false := by
      simpa [Json.strictEquals_str] using Ne.symm hother
    have hpreflight : store.approvalPreflight runtime readings submission =
        .ok ⟨address, stored, .str did, false⟩ := by
      unfold CoordinationStore.approvalPreflight
      rw [hderef]
      simp only [effectiveState_current hcurrent, hstate, hsigner]
      simp [Checks.throwIf, hself, hprior, bind, Except.bind, pure, Except.pure]
    have hsound : stored.Sound := hstore.sound stored hmem
    have hnew : ∀ earlier ∈ stored.approvals, ¬SameSigner earlier
        ⟨submission.approval, .str did, submission.approval.decision⟩ := by
      intro earlier hearlier hsame
      exact List.any_eq_false.mp hresponded earlier hearlier hsame
    have hrecorded : (stored.record runtime readings ⟨submission.approval, .str did,
        submission.approval.decision⟩).Sound :=
      hsound.record hstate hnew fun heq => hother (Json.str.inj heq)
    obtain ⟨status, hstatus⟩ :=
      StoredAction.evaluate_exists hrecorded.wellFormed hrecorded.oneEach hrecorded.others
    have hrecordstate : (stored.record runtime readings ⟨submission.approval, .str did,
        submission.approval.decision⟩).state = .awaitingApprovals := hstate
    unfold CoordinationStore.submitApproval
    simp only [hpreflight, CoordinationStore.recorded, Bool.false_eq_true, ↓reduceIte,
      hrecordstate, hstatus]
    exact ⟨_, rfl⟩

/-- The decision is recorded, and the DID is offered the Action no more. -/
structure Taken (runtime : Runtime) (readings : Readings) (store : CoordinationStore)
    (actionRef : ActionRef) (did : Did) (submission : CoordinationApprovalSubmission) : Prop where
  accepted : ∃ response, (store.submitApproval runtime readings submission).1 = .ok response
  recorded : ∃ stored ∈ (store.submitApproval runtime readings submission).2.records,
    stored.actionRef = actionRef ∧ ∃ entry ∈ stored.approvals,
      entry.signerDid = .str did ∧ entry.decision = submission.approval.decision
  settled : ∀ calls world, Machine.Run (step runtime) Machine.Free
      ⟨(store.submitApproval runtime readings submission).2, some readings.now⟩ calls world →
    ∀ later approvalRequests actionUpdates store',
      world.store.poll runtime later did =
        (.ok (.polled approvalRequests actionUpdates), store') →
      ∀ request ∈ approvalRequests,
        request.actionRef.actionEnvelopeHash.value ≠ actionRef.actionEnvelopeHash.value

theorem submitApproval_consistent (hstore : Consistent store)
    (submission : CoordinationApprovalSubmission) :
    Consistent (store.submitApproval runtime readings submission).2 :=
  (submitApproval_performs hstore submission).1.consistent hstore

/-- A DID that has decided is offered nothing of the Action. -/
theorem poll_settled (hstore : Consistent store) (hmem : stored ∈ store.records)
    (hresponded : hasResponded stored.approvals (.str did) = true)
    {approvalRequests : List ApprovalRequest} {actionUpdates : List ActionUpdate}
    (hpoll : store.poll runtime readings did =
      (.ok (.polled approvalRequests actionUpdates), store')) :
    ∀ request ∈ approvalRequests,
      request.actionRef.actionEnvelopeHash.value ≠ stored.hashValue := by
  intro request hrequest hsame
  obtain ⟨offering, hoffering, hoffered⟩ := (poll_found hpoll).1 request hrequest
  obtain ⟨href, -, hopen, -⟩ := approvalRequestFor_some hoffered.offered
  have hexpired : Expired runtime readings store store' := by
    have h : Expired runtime readings store (store.poll runtime readings did).2 :=
      poll_expired store did
    rwa [hpoll] at h
  have heffect := hexpired.effect
  obtain ⟨address, hstored⟩ := List.getElem?_of_mem hmem
  obtain ⟨last, hlast, hfollows⟩ := heffect.follows address stored hstored
  obtain ⟨address', hoffering⟩ := List.getElem?_of_mem hoffering
  have hkey : offering.hashValue = last.hashValue := by
    rw [StoredAction.hashValue, ← href, hsame, StoredAction.hashValue, StoredAction.hashValue,
      hfollows.actionRef]
  have haddress := (heffect.consistent hstore).indexed.envelopeHash.address_unique hoffering hlast hkey
  rw [haddress, hlast] at hoffering
  obtain rfl := Option.some.inj hoffering
  obtain ⟨entry, hentry, hdid⟩ := List.any_eq_true.mp hresponded
  have hlater : hasResponded last.approvals (.str did) = true :=
    List.any_eq_true.mpr ⟨entry, hfollows.approvals.subset hentry, hdid⟩
  rw [hopen] at hlater
  cases hlater

/-- An accepted answer is recorded and settles the offer. -/
theorem taken_of_accepted (hstore : Consistent store) (hmem : stored ∈ store.records)
    (hdid : did ≠ "") (hanswers : Answers runtime stored.actionRef did submission)
    (h : ∃ response, (store.submitApproval runtime readings submission).1 = .ok response) :
    Taken runtime readings store stored.actionRef did submission := by
  obtain ⟨address, hstored⟩ := List.getElem?_of_mem hmem
  have hderef : store.deref store.actionsByEnvelopeHash submission.actionEnvelopeHash.value =
      some (address, stored) := by
    rw [deref_eq_some]
    refine ⟨?_, hstored⟩
    rw [hanswers.addressed]
    exact hstore.indexed.envelopeHash.find address stored hstored
  obtain ⟨response, hok⟩ := h
  obtain ⟨address', stored₀, last, signerDid, hderef', hsigner, hlast, entry, hentry, hentryDid,
    hdecision⟩ := (submitApproval_accepted hok).recorded
  rw [hderef] at hderef'
  obtain ⟨rfl, rfl⟩ := Prod.mk.inj (Option.some.inj hderef')
  rw [hanswers.signer hdid] at hsigner
  have hsignerDid := Except.ok.inj hsigner
  have hperforms : Performs runtime readings store
      (store.submitApproval runtime readings submission) := submitApproval_performs hstore submission
  obtain ⟨last', hlast', hfollows⟩ := hperforms.1.follows address stored hstored
  rw [hlast] at hlast'
  obtain rfl := Option.some.inj hlast'
  have hentryDid : entry.signerDid = .str did := by rw [hentryDid, ← hsignerDid]
  refine ⟨⟨response, hok⟩, ⟨last, List.mem_of_getElem? hlast, hfollows.actionRef, entry, hentry,
    hentryDid, hdecision⟩, ?_⟩
  intro calls world hrun later approvalRequests actionUpdates store' hpoll
  have hconsistent : Consistent (store.submitApproval runtime readings submission).2 :=
    submitApproval_consistent hstore submission
  obtain ⟨final, hfinal, hfollowed⟩ := run_follows hrun hconsistent address last hlast
  have hresponded : hasResponded final.approvals (.str did) = true := by
    refine List.any_eq_true.mpr ⟨entry, hfollowed.approvals.subset hentry, ?_⟩
    rw [strictEquals_str_iff]
    exact hentryDid
  have hhash : final.hashValue = stored.actionRef.actionEnvelopeHash.value := by
    rw [StoredAction.hashValue, hfollowed.actionRef, hfollows.actionRef]
  rw [← hhash]
  exact poll_settled (run_consistent hrun hconsistent) (List.mem_of_getElem? hfinal) hresponded hpoll

/-! ## Progress -/

/-- Who is pending is named and has not decided. -/
theorem progressFor_pending {requirements : ApprovalRequirements}
    {approvals : List StoredApproval} {progress : CoordinationProgress}
    (h : progressFor requirements approvals = .ok progress) (hmem : .str did ∈ progress.pending) :
    hasResponded approvals (.str did) = false ∧ Named requirements did := by
  unfold progressFor at h
  obtain ⟨unsatisfied, hunsatisfied, h⟩ := Checks.bind_eq_ok.mp h
  dsimp only at h
  split at h
  · cases h
    cases hmem
  · rename_i threshold hthreshold
    obtain ⟨approved, -, h⟩ := Checks.bind_eq_ok.mp h
    obtain ⟨required, -, h⟩ := Checks.bind_eq_ok.mp h
    obtain ⟨pending, hpending, h⟩ := Checks.bind_eq_ok.mp h
    cases h
    have hlisted : threshold ∈ thresholdsFor requirements := by
      cases unsatisfied with
      | some other =>
        obtain rfl : other = threshold := Option.some.inj hthreshold
        exact (findThreshold_some hunsatisfied).1
      | none => exact List.mem_of_mem_head? hthreshold
    cases hsigners : threshold.eligibleSigners with
    | arr items =>
      rw [hsigners, filterItems] at hpending
      cases hpending
      obtain ⟨hitem, hopen⟩ := List.mem_filter.mp hmem
      refine ⟨by simpa using hopen, .inl ⟨threshold, hlisted, ?_⟩⟩
      rw [hsigners, includesDid]
      congr 1
      exact List.any_eq_true.mpr ⟨_, hitem, (strictEquals_str_iff _ _).mpr rfl⟩
    | _ =>
      rw [hsigners] at hpending
      cases hpending

theorem buildActionUpdate_progress {update : ActionUpdate} {progress : CoordinationProgress}
    (h : buildActionUpdate runtime readings stored = .ok update)
    (hprogress : update.progress = some progress) :
    update.actionRef = stored.actionRef ∧ update.state = stored.state ∧
      progressFor stored.authorizationRequirements.approvalRequirements stored.approvals =
        .ok progress := by
  unfold buildActionUpdate at h
  dsimp only at h
  cases hstate : stored.state <;> rw [hstate] at h
  case cancelled | rejected | expired =>
    cases h
    cases hprogress
  case awaitingApprovals | readyForSubmission =>
    obtain ⟨found, hfound, h⟩ := Checks.bind_eq_ok.mp h
    obtain ⟨package, -, h⟩ := Checks.bind_eq_ok.mp h
    cases h
    cases hprogress
    exact ⟨rfl, rfl, hfound⟩

/-- **Offers, exactly.** After any run, what a poll offers can be answered at the
same time, is then recorded and not offered again, if and only if the DID is not
the Proposer; a Signer whose decision is reported pending is heard if and only
if the workflow awaits decisions and the Signer is not the Proposer. -/
theorem offers_answered_iff (runtime : Runtime) (calls : List Call) (world : World)
    (hrun : Machine.Run (step runtime) Machine.Free {} calls world) (readings : Readings)
    (did : Did) (approvalRequests : List ApprovalRequest) (actionUpdates : List ActionUpdate)
    (store' : CoordinationStore)
    (hpoll : world.store.poll runtime readings did =
      (.ok (.polled approvalRequests actionUpdates), store')) :
    (∀ request ∈ approvalRequests, ∀ date submission,
      Answers runtime request.actionRef did submission →
      (Taken runtime ⟨readings.now, date⟩ store' request.actionRef did submission ↔
        did ≠ request.signerReviewSet.actionEnvelope.proposer)) ∧
    ∀ update ∈ actionUpdates, ∀ progress, update.progress = some progress →
      ∀ signer, .str signer ∈ progress.pending → ∀ date submission,
      Answers runtime update.actionRef signer submission →
      ((∃ response,
          (store'.submitApproval runtime ⟨readings.now, date⟩ submission).1 = .ok response) ↔
        update.state = .awaitingApprovals ∧ signer ≠ did) := by
  have hstore : Consistent world.store := run_consistent hrun consistent_empty
  have hexpired : Expired runtime readings world.store store' := by
    have h : Expired runtime readings world.store (world.store.poll runtime readings did).2 :=
      poll_expired world.store did
    rwa [hpoll] at h
  have hstore' : Consistent store' := hexpired.effect.consistent hstore
  have hvalidated : ∀ stored ∈ store'.records, Validated runtime stored.authorizationRequirements := by
    intro stored hstored
    rcases traced_expired hexpired stored hstored with ⟨before, hbefore, hsame⟩ | hnew
    · rw [hsame]
      exact run_accepted hrun before hbefore
    · exact hnew
  have hnonempty : ∀ signer, ∀ stored ∈ store'.records,
      Named stored.authorizationRequirements.approvalRequirements signer → signer ≠ "" := by
    rintro signer stored hstored hnamed rfl
    exact absurd (named_isDid (hvalidated stored hstored) hnamed) (by decide)
  obtain ⟨hoffers, hreports⟩ := poll_found hpoll
  constructor
  · intro request hrequest date submission hanswers
    obtain ⟨stored, hstored, hoffered⟩ := hoffers request hrequest
    obtain ⟨href, henvelope, hresponded, hnamed⟩ := approvalRequestFor_some hoffered.offered
    have hdid := hnonempty did stored hstored hnamed
    have hcurrent : Current runtime ⟨readings.now, date⟩ stored := hoffered.current
    rw [href] at hanswers ⊢
    have haccepted := submitApproval_open hstore' hstored hcurrent hdid hanswers hresponded
    rw [henvelope]
    constructor
    · intro htaken
      exact (haccepted.mp htaken.accepted).2
    · intro hother
      exact taken_of_accepted hstore' hstored hdid hanswers
        (haccepted.mpr ⟨hoffered.awaiting, hother⟩)
  · intro update hupdate progress hprogress signer hpending date submission hanswers
    obtain ⟨stored, hstored, hreported⟩ := hreports update hupdate
    obtain ⟨href, hstate, hbuilt⟩ := buildActionUpdate_progress hreported.built hprogress
    obtain ⟨hresponded, hnamed⟩ := progressFor_pending hbuilt hpending
    have hsigner := hnonempty signer stored hstored hnamed
    have hcurrent : Current runtime ⟨readings.now, date⟩ stored := hreported.current
    rw [href] at hanswers
    rw [submitApproval_open hstore' hstored hcurrent hsigner hanswers hresponded, hstate,
      hreported.proposer]

/-! ## A Proposer among the Signers -/

section

open CoordinationReadiness.Deployment (computeJsonHash replacementEnvelope)

def agentPart : String :=
  "eyJhY3Rpb25FbnZlbG9wZUhhc2giOnsidmFsdWUiOiJDUE1rSEc5TEdxc05HV1Q2UDhiUUJqYWVrSHczV0NaMGNw" ++
  "U25RWFNHZFhzIn0sImRlY2lzaW9uIjoiYXBwcm92ZSIsInNpZ25lckRpZCI6ImRpZDp3ZWI6YWdlbnQifQ"

/-- The runtime of the deployment, reading the payloads of Alice and of the agent. -/
def agentRuntime : Runtime where
  computeJsonHash := deploymentRuntime.computeJsonHash
  dateParse := deploymentRuntime.dateParse
  toISOString := deploymentRuntime.toISOString
  parsePart := fun part =>
    if part = alicePart.toList then some (approvalPayload "did:web:alice")
    else if part = agentPart.toList then some (approvalPayload "did:web:agent")
    else none

/-- Two of a group of three are to approve; the group has the Proposer in it. -/
def groupRequest : CoordinationActionRequest where
  actionPackage := deploymentRequest.actionPackage
  authorizationRequirements := { deploymentRequest.authorizationRequirements with
    approvalRequirements := { anyOf := some [{
      threshold := .num (.finite 2)
      eligibleSigners :=
        .arr [.str "did:web:agent", .str "did:web:alice", .str "did:web:bob"]
      decision := some (.str "approve")
      description := none }] } }

def groupReadings : Readings := ⟨1735689780000, 1735689780000⟩

def groupWorld : World :=
  ((step agentRuntime {} ⟨groupReadings, .createWorkflow groupRequest⟩).getD {})

def groupPoll (did : Did) : Outcome := groupWorld.store.poll agentRuntime groupReadings did

def offersOf (outcome : Outcome) : List ApprovalRequest :=
  match outcome.1 with
  | .ok (.polled approvalRequests _) => approvalRequests
  | _ => []

def reportsOf (outcome : Outcome) : List ActionUpdate :=
  match outcome.1 with
  | .ok (.polled _ actionUpdates) => actionUpdates
  | _ => []

/-- A poll that is answered, with its parts. -/
theorem polled_parts {outcome : Outcome}
    (h : (match outcome.1 with
      | .ok (.polled _ _) => true
      | _ => false) = true) :
    outcome = (.ok (.polled (offersOf outcome) (reportsOf outcome)), outcome.2) := by
  obtain ⟨result, store⟩ := outcome
  dsimp only at h
  split at h
  · rfl
  · cases h

theorem groupWorld_run : Machine.Run (step agentRuntime) Machine.Free {}
    [⟨groupReadings, .createWorkflow groupRequest⟩] groupWorld := by
  have hsome : (step agentRuntime {} ⟨groupReadings, .createWorkflow groupRequest⟩).isSome = true :=
    by decide +kernel
  obtain ⟨world, hstep⟩ := Option.isSome_iff_exists.mp hsome
  have hworld : groupWorld = world := by rw [groupWorld, hstep, Option.getD_some]
  exact .single trivial (hworld ▸ hstep)

theorem answers_approvalOf {part : String} {did : Did} {actionRef : ActionRef}
    (hash : actionRef.actionEnvelopeHash.value = (computeJsonHash replacementEnvelope.toJson).value)
    (hpart : CoordinationStore.decodeApprovalPayload agentRuntime (approvalOf part).approval =
      some (approvalPayload did)) :
    Answers agentRuntime actionRef did (approvalOf part) := by
  refine ⟨hash.symm, hash.symm, _, _, hpart, rfl, ?_, rfl, rfl⟩
  rw [hash]
  rfl

/-- The one offer of a poll. -/
theorem offer_of_map (outcome : Outcome) (hash : String) (decision : Json) (proposer : Did)
    (h : (offersOf outcome).map (fun request => (request.actionRef.actionEnvelopeHash.value,
      request.requestedDecision, request.signerReviewSet.actionEnvelope.proposer)) =
        [(hash, decision, proposer)]) :
    ∃ request, offersOf outcome = [request] ∧
      request.actionRef.actionEnvelopeHash.value = hash ∧ request.requestedDecision = decision ∧
      request.signerReviewSet.actionEnvelope.proposer = proposer := by
  obtain ⟨request, rest, hoffers, hrequest, hrest⟩ := List.map_eq_cons_iff.mp h
  obtain rfl := List.map_eq_nil_iff.mp hrest
  simp only [Prod.mk.injEq] at hrequest
  exact ⟨request, hoffers, hrequest⟩

/-- Alice's Approval of what she is offered is taken, and she is heard as a Signer whose
decision the Proposer is told is pending. -/
theorem offers_answered_alice :
    (∃ request, offersOf (groupPoll "did:web:alice") = [request] ∧
      Taken agentRuntime groupReadings (groupPoll "did:web:alice").2 request.actionRef
        "did:web:alice" (approvalOf alicePart)) ∧
    ∃ update progress, reportsOf (groupPoll "did:web:agent") = [update] ∧
      update.progress = some progress ∧ .str "did:web:alice" ∈ progress.pending ∧
      ∃ response, ((groupPoll "did:web:agent").2.submitApproval agentRuntime groupReadings
        (approvalOf alicePart)).1 = .ok response := by
  constructor
  · obtain ⟨request, hoffers, hhash, -, hproposer⟩ : ∃ request,
        offersOf (groupPoll "did:web:alice") = [request] ∧
        request.actionRef.actionEnvelopeHash.value =
          (computeJsonHash replacementEnvelope.toJson).value ∧
        request.requestedDecision = .str "approve" ∧
        request.signerReviewSet.actionEnvelope.proposer = "did:web:agent" :=
      offer_of_map _ _ _ _ (by decide +kernel)
    have hanswers : Answers agentRuntime request.actionRef "did:web:alice" (approvalOf alicePart) :=
      answers_approvalOf hhash (by decide +kernel)
    refine ⟨request, hoffers, ?_⟩
    refine ((offers_answered_iff agentRuntime _ groupWorld groupWorld_run groupReadings
      "did:web:alice" _ _ _ (polled_parts (by decide +kernel))).1 request
      (hoffers ▸ List.mem_singleton_self request) groupReadings.date _ hanswers).mpr ?_
    rw [hproposer]
    decide
  · have hreports : (reportsOf (groupPoll "did:web:agent")).map (fun update =>
        (update.actionRef.actionEnvelopeHash.value, update.state,
          update.progress.map (·.pending))) =
        [((computeJsonHash replacementEnvelope.toJson).value, .awaitingApprovals,
          some [.str "did:web:agent", .str "did:web:alice", .str "did:web:bob"])] := by
      decide +kernel
    obtain ⟨update, rest, hupdates, hupdate, hrest⟩ := List.map_eq_cons_iff.mp hreports
    obtain rfl := List.map_eq_nil_iff.mp hrest
    simp only [Prod.mk.injEq, Option.map_eq_some_iff] at hupdate
    obtain ⟨hhash, hstate, progress, hprogress, hpending⟩ := hupdate
    have hanswers : Answers agentRuntime update.actionRef "did:web:alice" (approvalOf alicePart) :=
      answers_approvalOf hhash (by decide +kernel)
    have hlisted : Json.str "did:web:alice" ∈ progress.pending := by simp [hpending]
    refine ⟨update, progress, hupdates, hprogress, hlisted, ?_⟩
    exact ((offers_answered_iff agentRuntime _ groupWorld groupWorld_run groupReadings
      "did:web:agent" _ _ _ (polled_parts (by decide +kernel))).2 update
      (hupdates ▸ List.mem_singleton_self update) progress hprogress _ hlisted groupReadings.date _
      hanswers).mpr ⟨hstate, by decide⟩

/-- The Proposer is offered its own Action, and its Approval is refused. -/
theorem offer_refused :
    ∃ request ∈ offersOf (groupPoll "did:web:agent"),
      Machine.Run (step agentRuntime) Machine.Free {}
        [⟨groupReadings, .createWorkflow groupRequest⟩] groupWorld ∧
      Answers agentRuntime request.actionRef "did:web:agent" (approvalOf agentPart) ∧
      request.requestedDecision = .str (approvalOf agentPart).approval.decision.text ∧
      ¬Taken agentRuntime groupReadings (groupPoll "did:web:agent").2 request.actionRef
        "did:web:agent" (approvalOf agentPart) := by
  obtain ⟨request, hoffers, hhash, hdecision, -⟩ : ∃ request,
      offersOf (groupPoll "did:web:agent") = [request] ∧
      request.actionRef.actionEnvelopeHash.value =
        (computeJsonHash replacementEnvelope.toJson).value ∧
      request.requestedDecision = .str (approvalOf agentPart).approval.decision.text ∧
      request.signerReviewSet.actionEnvelope.proposer = "did:web:agent" :=
    offer_of_map _ _ _ _ (by decide +kernel)
  refine ⟨request, by simp [hoffers], groupWorld_run,
    answers_approvalOf hhash (by decide +kernel), hdecision, ?_⟩
  intro htaken
  obtain ⟨response, hok⟩ := htaken.accepted
  have hrefused : ((groupPoll "did:web:agent").2.submitApproval agentRuntime groupReadings
      (approvalOf agentPart)).1 = .error (.service 403 "SELF_APPROVAL_DENIED"
        "The proposer cannot approve their own action under the JSON policy profile.") := by
    decide +kernel
  rw [hrefused] at hok
  cases hok

end

end Mpas.Coordination
