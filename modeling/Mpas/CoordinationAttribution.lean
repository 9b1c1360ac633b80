import Mpas.CoordinationRuns

/-!
# What an operation leaves in the store

A workflow, an Approval and a cancellation are in the store of the Coordination Service only
because one operation put them there, and an operation leaves everything else.

* `Amends`: what an operation makes of a record that was there;
* `perform_caused`: each record is amended, or is new and the operation's own.
-/

namespace Mpas.Coordination

open Checks (throwIf_bind_eq_ok bind_eq_ok)

variable {runtime : Runtime} {readings : Readings} {store store' : CoordinationStore}
  {stored stored' : StoredAction}

/-- An Approval that an operation has recorded. -/
def Records (runtime : Runtime) (operation : Operation) (stored : StoredAction)
    (entry : StoredApproval) : Prop :=
  ∃ body, operation = .submitApproval body ∧ body.approval = entry.approval ∧
    body.actionEnvelopeHash.value = stored.hashValue ∧
    (CoordinationStore.decodeApprovalPayload runtime entry.approval).bind (·.member "signerDid") =
      some entry.signerDid

/-- The cancellation of a workflow. -/
def Cancels (operation : Operation) (stored : StoredAction) : Prop :=
  ∃ body, operation = .cancelAction body ∧ body.actionId.value = stored.idValue ∧
    body.proposerDid = stored.proposer

/-- What an operation makes of a record. -/
structure Amends (runtime : Runtime) (operation : Operation) (stored stored' : StoredAction) :
    Prop where
  actionPackage : stored'.actionPackage = stored.actionPackage
  requirements : stored'.authorizationRequirements = stored.authorizationRequirements
  actionRef : stored'.actionRef = stored.actionRef
  approvals : ∀ entry ∈ stored'.approvals,
    entry ∈ stored.approvals ∨ Records runtime operation stored entry
  cancelled : stored'.state = .cancelled → stored.state = .cancelled ∨ Cancels operation stored

theorem Amends.refl (operation : Operation) (stored : StoredAction) :
    Amends runtime operation stored stored :=
  ⟨rfl, rfl, rfl, fun _ => .inl, .inl⟩

/-- A record was there and is amended, or is a new one of the operation. -/
def Caused (runtime : Runtime) (operation : Operation) (store store' : CoordinationStore) : Prop :=
  ∀ stored' ∈ store'.records,
    (∃ stored ∈ store.records, Amends runtime operation stored stored') ∨
    ∃ body, operation = .createWorkflow body ∧ stored'.actionPackage = body.actionPackage ∧
      stored'.authorizationRequirements = body.authorizationRequirements ∧
      stored'.approvals = [] ∧ stored'.state = .awaitingApprovals

theorem caused_self (operation : Operation) (store : CoordinationStore) :
    Caused runtime operation store store :=
  fun stored hstored => .inl ⟨stored, hstored, Amends.refl operation stored⟩

theorem caused_put {operation : Operation} {address : Nat}
    (hstored : store.records[address]? = some stored)
    (hamends : Amends runtime operation stored stored') :
    Caused runtime operation store (store.put address stored') := by
  intro last hlast
  rcases List.mem_or_eq_of_mem_set hlast with hold | rfl
  · exact .inl ⟨last, hold, Amends.refl operation last⟩
  · exact .inl ⟨stored, List.mem_of_getElem? hstored, hamends⟩

theorem amends_expireIfNeeded (operation : Operation) (stored : StoredAction) :
    Amends runtime operation stored (expireIfNeeded runtime readings stored) := by
  unfold expireIfNeeded
  split
  · exact Amends.refl operation stored
  · split
    · exact ⟨rfl, rfl, rfl, fun _ => .inl, fun h => by cases h⟩
    · exact Amends.refl operation stored

theorem caused_expired (operation : Operation) (h : Expired runtime readings store store') :
    Caused runtime operation store store' := by
  obtain ⟨records, hrecords, rfl⟩ := h
  intro stored' hstored'
  obtain ⟨address, haddress⟩ := List.getElem?_of_mem hstored'
  obtain ⟨stored, hstored, hexpires⟩ := Heap.forall₂_source hrecords haddress
  refine .inl ⟨stored, List.mem_of_getElem? hstored, ?_⟩
  rcases hexpires with rfl | rfl
  · exact Amends.refl operation _
  · exact amends_expireIfNeeded operation stored

theorem createWorkflow_caused (body : CoordinationActionRequest) :
    Caused runtime (.createWorkflow body) store
      (store.createWorkflow runtime readings body).2 := by
  unfold CoordinationStore.createWorkflow
  split
  · exact caused_self _ store
  dsimp only
  split
  · rename_i address existing hexisting
    exact caused_put (deref_eq_some.mp hexisting).2 (amends_expireIfNeeded _ existing)
  · intro last hlast
    rcases List.mem_append.mp hlast with hold | hnew
    · exact .inl ⟨last, hold, Amends.refl _ last⟩
    · obtain rfl := List.mem_singleton.mp hnew
      exact .inr ⟨body, rfl, rfl, rfl, rfl, rfl⟩

/-- The Signer of an approval is the one that its payload names. -/
theorem approvalSigner_named {approval : Approval} {signerDid : Json}
    (h : CoordinationStore.approvalSigner runtime stored approval = .ok signerDid) :
    (CoordinationStore.decodeApprovalPayload runtime approval).bind (·.member "signerDid") =
      some signerDid := by
  unfold CoordinationStore.approvalSigner at h
  obtain ⟨-, h⟩ := throwIf_bind_eq_ok.mp h
  obtain ⟨_, -, h⟩ := bind_eq_ok.mp h
  obtain ⟨-, h⟩ := throwIf_bind_eq_ok.mp h
  split at h
  · cases h
  · rename_i named hnamed
    obtain ⟨-, h⟩ := throwIf_bind_eq_ok.mp h
    cases h
    exact (Option.filter_eq_some_iff.mp hnamed).1

theorem amends_recorded {body : CoordinationApprovalSubmission}
    {preflight : CoordinationStore.Preflight} (hconsistent : Consistent store)
    (h : store.approvalPreflight runtime readings body = .ok preflight) :
    Amends runtime (.submitApproval body) preflight.stored
      (CoordinationStore.recorded runtime readings body preflight) := by
  obtain ⟨hderef, hsigner, -⟩ := approvalPreflight_ok h
  have hhash : preflight.stored.hashValue = body.actionEnvelopeHash.value := by
    obtain ⟨hindex, hrecord⟩ := deref_eq_some.mp hderef
    obtain ⟨found, hfound, hkey⟩ := hconsistent.indexed.envelopeHash.only _ _ hindex
    rw [hrecord] at hfound
    rw [Option.some.inj hfound]
    exact hkey
  unfold CoordinationStore.recorded
  split
  · exact Amends.refl _ _
  · refine ⟨rfl, rfl, rfl, ?_, .inl⟩
    intro entry hentry
    rcases List.mem_append.mp hentry with hold | hnew
    · exact .inl hold
    · obtain rfl := List.mem_singleton.mp hnew
      exact .inr ⟨body, rfl, rfl, hhash.symm, approvalSigner_named hsigner⟩

theorem Amends.conclude {operation : Operation} {status : ApprovalRequirements.Status}
    (h : Amends runtime operation stored stored') (hstate : stored'.state = .awaitingApprovals) :
    Amends runtime operation stored (stored'.conclude runtime readings status) where
  actionPackage := (conclude_actionPackage status).trans h.actionPackage
  requirements := (conclude_requirements ..).trans h.requirements
  actionRef := (conclude_actionRef ..).trans h.actionRef
  approvals := by
    rw [conclude_approvals]
    exact h.approvals
  cancelled := by
    intro hcancelled
    cases status with
    | satisfied => cases hcancelled
    | unreachable => cases hcancelled
    | pending =>
      change stored'.state = .cancelled at hcancelled
      rw [hstate] at hcancelled
      cases hcancelled

theorem submitApproval_caused (hconsistent : Consistent store)
    (body : CoordinationApprovalSubmission) :
    Caused runtime (.submitApproval body) store
      (store.submitApproval runtime readings body).2 := by
  unfold CoordinationStore.submitApproval
  split
  · exact caused_self _ store
  rename_i preflight hpreflight
  have hrecord := (deref_eq_some.mp (approvalPreflight_ok hpreflight).1).2
  have hamends := amends_recorded hconsistent hpreflight
  dsimp only
  split
  · rename_i hstate
    split
    · exact caused_put hrecord hamends
    · exact caused_put hrecord (hamends.conclude hstate)
  · exact caused_put hrecord hamends

theorem cancelAction_caused (hconsistent : Consistent store)
    (body : CoordinationActionCancelRequest) :
    Caused runtime (.cancelAction body) store (store.cancelAction runtime readings body).2 := by
  unfold CoordinationStore.cancelAction
  split
  · exact caused_self _ store
  rename_i hvalid
  split
  · exact caused_self _ store
  rename_i address stored hderef
  obtain ⟨hindex, hrecord⟩ := deref_eq_some.mp hderef
  refine caused_put hrecord ⟨rfl, rfl, rfl, fun _ => .inl, fun _ => .inr ⟨body, rfl, ?_, ?_⟩⟩
  · obtain ⟨found, hfound, hkey⟩ := hconsistent.indexed.actionId.only _ _ hindex
    rw [hrecord] at hfound
    rw [Option.some.inj hfound]
    exact hkey.symm
  · unfold CoordinationStore.validateCancelAction at hvalid
    rw [hderef] at hvalid
    obtain ⟨-, hvalid⟩ := throwIf_bind_eq_ok.mp hvalid
    obtain ⟨hproposer, -⟩ := throwIf_bind_eq_ok.mp hvalid
    exact (not_not.mp hproposer).symm

theorem perform_caused (hconsistent : Consistent store) (call : Call) :
    Caused runtime call.operation store (store.perform runtime call).2 := by
  unfold CoordinationStore.perform
  cases call.operation with
  | createWorkflow body => exact createWorkflow_caused body
  | submitApproval body => exact submitApproval_caused hconsistent body
  | cancelAction body => exact cancelAction_caused hconsistent body
  | poll did => exact caused_expired _ (poll_expired store did)
  | hasOutstandingCoordinationWork did =>
    exact caused_expired _ (outstanding_expired hconsistent did)

end Mpas.Coordination
