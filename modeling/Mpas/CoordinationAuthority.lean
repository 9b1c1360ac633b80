import Mpas.CoordinationAttribution
import Mpas.CoordinationHandlers

/-!
# Who did what

The Coordination server acts on a request once its signature is verified, its Signer is found
entitled to it and its nonce is claimed; these checks come before two waits, the operation
after them. Everything a store holds in any run is attributed here to the signed request that
put it there.

* `admit_asked`: whom a task is for;
* `Signed`: a request whose signature was verified and whose nonce was granted;
* `effects_signed`: the records, Approvals and cancellations of every run.
-/

namespace Mpas.CoordinationServer

open Checks (throwIf_eq_ok throwIf_bind_eq_ok bind_eq_ok mapError_eq_ok)
open Coordination (CoordinationStore CoordinationActionRequest CoordinationApprovalSubmission
  CoordinationActionCancelRequest Readings StoredAction StoredApproval Operation Call Consistent
  deref_eq_some)

variable {μ : Type}

/-! ## Who may ask -/

section Entitled

variable {platform : Platform μ} {store store' : CoordinationStore} {readings : Readings}
  {success : MpasAuthSuccess} {request : Request μ}

/-- The record of a hash lists a DID. -/
def Eligible (store : CoordinationStore) (hash : String) (did : Did) : Prop :=
  ∃ address stored, store.deref store.actionsByEnvelopeHash hash = some (address, stored) ∧
    listsSigner stored.authorizationRequirements.approvalRequirements did = .ok true

/-- Whom an order is for. -/
def Entitled (platform : Platform μ) (store : CoordinationStore) (did : Did) : Order → Prop
  | .create body => body.actionPackage.actionEnvelope.proposer = did
  | .submit body => decodeApprovalSignerDid platform body.approval = some (.str did) ∧
      Eligible store body.actionEnvelopeHash.value did
  | .cancel body => body.proposerDid = did

/-- An order as the handler of a route reads it from a body. -/
def Reads (platform : Platform μ) (body : Json) : Route → Order → Prop
  | .workflow, .create order => platform.asActionRequest body = order
  | .approval, .submit order => platform.asApprovalSubmission body = order
  | .cancel, .cancel order => platform.asCancelRequest body = order
  | _, _ => False

theorem isOther_some {did : Did} : ¬isOther (some success) did = true ↔ success.did = did := by
  simp [isOther]

theorem requireRecord_body {value : Option Json} {body : Json}
    (h : requireRecord value = .ok body) : value = some body := by
  unfold requireRecord at h
  split at h
  · cases h
    rfl
  · cases h

theorem validateCoordinationActionRequest_body {value : Option Json} {body : Json}
    (h : validateCoordinationActionRequest value = .ok body) : value = some body := by
  obtain ⟨record, hrecord, h⟩ := bind_eq_ok.mp h
  obtain ⟨_, -, h⟩ := bind_eq_ok.mp h
  obtain ⟨-, h⟩ := throwIf_bind_eq_ok.mp h
  obtain ⟨-, h⟩ := throwIf_bind_eq_ok.mp h
  obtain ⟨_, -, h⟩ := bind_eq_ok.mp h
  cases h
  exact requireRecord_body hrecord

theorem validateApprovalSubmission_body {value : Option Json} {body : Json}
    (h : validateApprovalSubmission value = .ok body) : value = some body := by
  obtain ⟨record, hrecord, h⟩ := bind_eq_ok.mp h
  obtain ⟨_, -, h⟩ := bind_eq_ok.mp h
  obtain ⟨-, h⟩ := throwIf_bind_eq_ok.mp h
  obtain ⟨-, h⟩ := throwIf_bind_eq_ok.mp h
  obtain ⟨_, -, h⟩ := bind_eq_ok.mp h
  cases h
  exact requireRecord_body hrecord

theorem validateCancelRequest_body {value : Option Json} {body : Json}
    (h : validateCancelRequest value = .ok body) : value = some body := by
  obtain ⟨record, hrecord, h⟩ := bind_eq_ok.mp h
  obtain ⟨_, -, h⟩ := bind_eq_ok.mp h
  obtain ⟨-, h⟩ := throwIf_bind_eq_ok.mp h
  obtain ⟨_, -, h⟩ := bind_eq_ok.mp h
  cases h
  exact requireRecord_body hrecord

theorem permitSigner_eq_ok {hash : String} {signerDid : Option Json}
    (h : permitSigner store hash signerDid success = .ok ()) :
    signerDid = some (.str success.did) ∧ Eligible store hash success.did := by
  obtain ⟨hsigner, h⟩ := throwIf_bind_eq_ok.mp h
  obtain ⟨-, h⟩ := throwIf_bind_eq_ok.mp h
  refine ⟨?_, ?_⟩
  · by_contra hne
    exact hsigner (by simp [hne])
  · split at h
    · rename_i eligible hlisted
      have helig : eligible = true := by simpa using throwIf_eq_ok.mp h
      subst helig
      unfold isEligibleSigner at hlisted
      split at hlisted
      · rename_i address stored hderef
        exact ⟨address, stored, hderef, hlisted⟩
      · cases hlisted
    · cases h

/-- What a task says of the request it was admitted for. -/
def Task.Asked (platform : Platform μ) (store : CoordinationStore) (request : Request μ) (did : Did) :
    Task → Prop
  | .session asked => asked = did ∧ request.route = .session
  | .call asked _ body order => asked = did ∧ request.body = some body ∧
      Reads platform body request.route order ∧ Entitled platform store did order

theorem admitWorkflow_asked {task : Task}
    (h : admitWorkflow platform store readings (some success) request = .ok (.task task))
    (hroute : request.route = .workflow) : task.Asked platform store request success.did := by
  obtain ⟨body, hbody, h⟩ := bind_eq_ok.mp h
  obtain ⟨_, -, h⟩ := bind_eq_ok.mp h
  obtain ⟨hother, h⟩ := throwIf_bind_eq_ok.mp h
  obtain ⟨_, -, h⟩ := bind_eq_ok.mp h
  cases h
  have hdid := isOther_some.mp hother
  refine ⟨hdid.symm, validateCoordinationActionRequest_body hbody, ?_, hdid.symm⟩
  rw [hroute]
  rfl

theorem admitApproval_asked {task : Task}
    (h : admitApproval platform store readings (some success) request = .ok (.task task))
    (hroute : request.route = .approval) : task.Asked platform store request success.did := by
  obtain ⟨body, hbody, h⟩ := bind_eq_ok.mp h
  obtain ⟨_, -, h⟩ := bind_eq_ok.mp h
  obtain ⟨_, hpermitted, h⟩ := bind_eq_ok.mp h
  obtain ⟨preflight, hpreflight, h⟩ := bind_eq_ok.mp h
  obtain ⟨hsigner, heligible⟩ := permitSigner_eq_ok hpermitted
  have hnamed := Coordination.approvalSigner_named
    (Coordination.approvalPreflight_ok (mapError_eq_ok.mp hpreflight)).2.1
  have hdid : preflight.signerDid = .str success.did :=
    Option.some.inj (hnamed.symm.trans hsigner)
  rw [hdid] at h
  cases h
  refine ⟨rfl, validateApprovalSubmission_body hbody, ?_, hsigner, heligible⟩
  rw [hroute]
  rfl

theorem admitCancel_asked {task : Task}
    (h : admitCancel platform store readings (some success) request = .ok (.task task))
    (hroute : request.route = .cancel) : task.Asked platform store request success.did := by
  obtain ⟨body, hbody, h⟩ := bind_eq_ok.mp h
  obtain ⟨_, -, h⟩ := bind_eq_ok.mp h
  obtain ⟨_, hpermitted, h⟩ := bind_eq_ok.mp h
  obtain ⟨_, -, h⟩ := bind_eq_ok.mp h
  cases h
  have hdid : success.did = (platform.asCancelRequest body).proposerDid := by
    by_contra hne
    exact throwIf_eq_ok.mp hpermitted (.inl hne)
  refine ⟨hdid.symm, validateCancelRequest_body hbody, ?_, hdid.symm⟩
  rw [hroute]
  rfl

theorem admit_asked {task : Task}
    (h : admitRequest platform store readings (some success) request = .ok (.task task)) :
    task.Asked platform store request success.did := by
  unfold admitRequest at h
  split at h
  · obtain ⟨did, -, h⟩ := bind_eq_ok.mp h
    obtain ⟨hother, h⟩ := throwIf_bind_eq_ok.mp h
    cases h
    exact ⟨(isOther_some.mp hother).symm, ‹_›⟩
  · obtain ⟨did, -, h⟩ := bind_eq_ok.mp h
    obtain ⟨-, h⟩ := throwIf_bind_eq_ok.mp h
    cases h
  · exact admitWorkflow_asked h ‹_›
  · exact admitApproval_asked h ‹_›
  · exact admitCancel_asked h ‹_›

end Entitled

/-! ## Signed requests -/

section Signed

variable {platform : Platform μ} {store store' : CoordinationStore} {w w' : World μ} {event : Event μ}
  {handler handler' : Handler μ} {did : Did} {order : Order}

/-- The signature of the request was verified as the DID's, and its nonce was granted. -/
def Verified (platform : Platform μ) (handler : Handler μ) (did : Did) : Prop :=
  ∃ success time, platform.verifyMpasRfc9421 handler.request.message handler.startedAt = .ok success ∧
    success.did = did ∧
    handler.grant = some ⟨success.did, success.nonce, success.expires, time⟩

/-- The DID has signed the request, and the request asks for the order. -/
structure Signed (platform : Platform μ) (handler : Handler μ) (did : Did) (order : Order) :
    Prop where
  verified : Verified platform handler did
  reads : ∃ body, handler.request.body = some body ∧
    Reads platform body handler.request.route order

def Task.Signed (platform : Platform μ) (store : CoordinationStore) (handler : Handler μ) :
    Task → Prop
  | .session did => Verified platform handler did ∧ handler.request.route = .session
  | .call did _ _ order => CoordinationServer.Signed platform handler did order ∧
      Entitled platform store did order

theorem Verified.keeps (h : Verified platform handler did) (hkeeps : Keeps handler handler')
    (hphase : handler.phase ≠ .authenticating) : Verified platform handler' did := by
  obtain ⟨success, time, hverified, hdid, hgrant⟩ := h
  refine ⟨success, time, ?_, hdid, ?_⟩
  · rw [hkeeps.request, hkeeps.startedAt, hverified]
  · rw [hkeeps.grant hphase, hgrant]

theorem Signed.keeps (h : Signed platform handler did order) (hkeeps : Keeps handler handler')
    (hphase : handler.phase ≠ .authenticating) : Signed platform handler' did order where
  verified := h.verified.keeps hkeeps hphase
  reads := by
    rw [hkeeps.request]
    exact h.reads

/-- A record stays listed under its hash, with its requirements. -/
theorem Eligible.mono {readings : Readings} {hash : String} (hconsistent : Consistent store)
    (heffect : Coordination.Effect platform.runtime readings store store')
    (h : Eligible store hash did) : Eligible store' hash did := by
  obtain ⟨address, stored, hderef, hlists⟩ := h
  obtain ⟨hindex, hstored⟩ := deref_eq_some.mp hderef
  obtain ⟨found, hfound, hkey⟩ := hconsistent.indexed.envelopeHash.only _ _ hindex
  rw [hstored] at hfound
  obtain rfl := Option.some.inj hfound
  obtain ⟨stored', hstored', hfollows⟩ := heffect.follows address stored hstored
  have hindex' := (heffect.consistent hconsistent).indexed.envelopeHash.find _ _ hstored'
  have hhash : stored'.hashValue = hash := by
    rw [StoredAction.hashValue, hfollows.actionRef]
    exact hkey
  rw [hhash] at hindex'
  refine ⟨address, stored', deref_eq_some.mpr ⟨hindex', hstored'⟩, ?_⟩
  rw [hfollows.authorizationRequirements]
  exact hlists

theorem Entitled.mono {readings : Readings} (hconsistent : Consistent store)
    (heffect : Coordination.Effect platform.runtime readings store store')
    (h : Entitled platform store did order) : Entitled platform store' did order := by
  cases order with
  | create body => exact h
  | submit body => exact ⟨h.1, h.2.mono hconsistent heffect⟩
  | cancel body => exact h

/-- A task that is about to begin has been signed for. -/
def Handler.Sound (platform : Platform μ) (store : CoordinationStore) (handler : Handler μ) : Prop :=
  ∀ task, handler.phase = .claiming true task → task.Signed platform store handler

/-- Every operation of the server, and every task that is about to begin, has been signed by
one who is entitled to it. -/
structure Authorized (platform : Platform μ) (w : World μ) : Prop where
  sound : ∀ handler ∈ w.handlers, handler.Sound platform w.store
  jobs : ∀ job ∈ w.jobs, ∃ handler did order, w.handlers[job.origin]? = some handler ∧
    handler.phase ≠ .authenticating ∧ job.operation = order.operation ∧
    Signed platform handler did order ∧ Entitled platform w.store did order

theorem authorized_empty : Authorized platform ({} : World μ) where
  sound _ h := absurd h List.not_mem_nil
  jobs _ h := absurd h List.not_mem_nil

theorem Moved.sound {i : Nat} (h : Moved platform w i handler w') :
    ∃ handler', w'.handlers = w.handlers.set i handler' ∧ handler'.Sound platform w.store := by
  cases h with
  | replied => exact ⟨_, rfl, fun task h => by cases h⟩
  | polled => exact ⟨_, rfl, fun task h => by cases h⟩
  | @claimed success task hphase hverified hadmitted =>
    refine ⟨_, rfl, ?_⟩
    intro task' hclaiming
    have hgranted : (NonceStore.claimNonce w.nonces (w.claimOf success)).1 = true ∧
        task = task' := by
      have hinj := Phase.claiming.inj hclaiming
      exact hinj
    have hasked := admit_asked hadmitted
    have hgrant : (handler.claimed (w.claimOf success)
        (NonceStore.claimNonce w.nonces (w.claimOf success)).1 task).grant =
          some (w.claimOf success) := if_pos hgranted.1
    have hverified' : ∀ asked, asked = success.did → Verified platform
        (handler.claimed (w.claimOf success)
          (NonceStore.claimNonce w.nonces (w.claimOf success)).1 task) asked :=
      fun asked hsame => ⟨success, w.clock, hverified, hsame.symm, hgrant⟩
    rw [← hgranted.2]
    cases task with
    | session asked => exact ⟨hverified' asked hasked.1, hasked.2⟩
    | call asked key body order =>
      obtain ⟨rfl, hbody, hreads, hentitled⟩ := hasked
      exact ⟨⟨hverified' _ rfl, body, hbody, hreads⟩, hentitled⟩
  | issued => exact ⟨_, rfl, fun task h => by cases h⟩
  | joined => exact ⟨_, rfl, fun task h => by cases h⟩
  | started => exact ⟨_, rfl, fun task h => by cases h⟩
  | finished => exact ⟨_, rfl, fun task h => by cases h⟩

theorem Task.Signed.mono {task : Task} {readings : Readings} (hconsistent : Consistent store)
    (heffect : Coordination.Effect platform.runtime readings store store')
    (h : task.Signed platform store handler) : task.Signed platform store' handler := by
  cases task with
  | session did => exact h
  | call did key body order => exact ⟨h.1, h.2.mono hconsistent heffect⟩

theorem step_sound (h : step platform w event = some w')
    (hsound : ∀ handler ∈ w.handlers, handler.Sound platform w.store) :
    ∀ handler ∈ w'.handlers, handler.Sound platform w.store := by
  have hold : w'.handlers = w.handlers →
      ∀ handler ∈ w'.handlers, handler.Sound platform w.store := by
    intro hsame
    rw [hsame]
    exact hsound
  cases event with
  | receive request =>
    cases h
    intro handler hmem
    rcases List.mem_append.mp hmem with hmem | hmem
    · exact hsound handler hmem
    · obtain rfl := List.mem_singleton.mp hmem
      intro task hphase
      cases hphase
  | proceed i ticket =>
    obtain ⟨moving, -, h⟩ := Option.bind_eq_some_iff.mp h
    obtain ⟨moved, hset, hmoved⟩ := (proceed_moved h).sound
    rw [hset]
    intro handler hmem
    rcases List.mem_or_eq_of_mem_set hmem with hmem | rfl
    · exact hsound handler hmem
    · exact hmoved
  | tick ms =>
    cases h
    exact hold rfl
  | run p =>
    obtain ⟨job, -, h⟩ := Option.bind_eq_some_iff.mp h
    obtain ⟨-, calls, -, -, rfl⟩ := run_eq_some h
    exact hold rfl
  | handle p =>
    obtain ⟨calls, -, -, rfl⟩ := handle_eq_some h
    exact hold rfl
  | upgrade authorization handshake =>
    cases h
    exact hold (upgrade_same platform w authorization handshake).1
  | shut i =>
    cases h
    exact hold rfl
  | remove i =>
    obtain ⟨socket, -, -, rfl⟩ := remove_eq_some h
    exact hold rfl

theorem Authorized.step (hauthorized : Authorized platform w) (hstable : Stable w)
    (henforced : platform.enforcement = true) (h : step platform w event = some w') :
    Authorized platform w' := by
  obtain ⟨readings, heffect⟩ := step_effect hstable.consistent h
  refine ⟨?_, ?_⟩
  · intro handler hmem task hphase
    exact (step_sound h hauthorized.sound handler hmem task hphase).mono hstable.consistent heffect
  · intro job' hjob'
    rcases step_jobs h hjob' with ⟨job, hjob, hoperation, horigin⟩ |
        ⟨handler, did, key, body, order, hhandler, hready, hoperation⟩
    · obtain ⟨handler, did, order, hhandler, hphase, horder, hsigned, hentitled⟩ :=
        hauthorized.jobs job hjob
      obtain ⟨handler', hhandler', hkeeps⟩ := step_handlers h _ handler hhandler
      exact ⟨handler', did, order, horigin ▸ hhandler', hkeeps.phase hphase,
        hoperation.trans horder, hsigned.keeps hkeeps hphase,
        hentitled.mono hstable.consistent heffect⟩
    · have hclaimed : handler.phase = .claiming true (.call did key body order) := by
        cases hready with
        | granted hphase => exact hphase
        | unenforced _ hdisabled =>
          rw [henforced] at hdisabled
          cases hdisabled
      have hphase : handler.phase ≠ .authenticating := by
        rw [hclaimed]
        exact fun h => by cases h
      obtain ⟨hsigned, hentitled⟩ :=
        hauthorized.sound handler (List.mem_of_getElem? hhandler) _ hclaimed
      obtain ⟨handler', hhandler', hkeeps⟩ := step_handlers h _ handler hhandler
      exact ⟨handler', did, order, hhandler', hkeeps.phase hphase, hoperation,
        hsigned.keeps hkeeps hphase, hentitled.mono hstable.consistent heffect⟩

/-! ## What the store holds -/

/-- A record, its Approvals and its cancellation are operations' of the server. -/
structure Attributed (platform : Platform μ) (w : World μ) (stored : StoredAction) : Prop where
  created : ∃ job ∈ w.jobs, job.operation =
    .createWorkflow ⟨stored.actionPackage, stored.authorizationRequirements⟩
  approved : ∀ entry ∈ stored.approvals, ∃ job ∈ w.jobs,
    Coordination.Records platform.runtime job.operation stored entry
  cancelled : stored.state = .cancelled → ∃ job ∈ w.jobs,
    Coordination.Cancels job.operation stored

theorem job_kept (P : Operation → Prop) (h : Heap.Evolves SameJob w.jobs w'.jobs)
    (hjob : ∃ job ∈ w.jobs, P job.operation) : ∃ job ∈ w'.jobs, P job.operation := by
  obtain ⟨job, hmem, hP⟩ := hjob
  obtain ⟨p, hp⟩ := List.getElem?_of_mem hmem
  obtain ⟨job', hjob', hoperation, -⟩ := h p job hp
  exact ⟨job', List.mem_of_getElem? hjob', hoperation ▸ hP⟩

theorem Attributed.kept {stored : StoredAction} (h : Attributed platform w stored)
    (hjobs : Heap.Evolves SameJob w.jobs w'.jobs) : Attributed platform w' stored where
  created := job_kept (· = .createWorkflow ⟨stored.actionPackage,
    stored.authorizationRequirements⟩) hjobs h.created
  approved entry hentry := job_kept (Coordination.Records platform.runtime · stored entry) hjobs
    (h.approved entry hentry)
  cancelled hstate := job_kept (Coordination.Cancels · stored) hjobs (h.cancelled hstate)

/-- What an operation makes of a record is attributed to the operation. -/
theorem Attributed.amended {stored stored' : StoredAction} {operation : Operation}
    (h : Attributed platform w stored)
    (hamends : Coordination.Amends platform.runtime operation stored stored')
    (hoperation : Quiet operation ∨ ∃ job ∈ w.jobs, job.operation = operation) :
    Attributed platform w stored' := by
  have hid : stored'.idValue = stored.idValue := by
    rw [StoredAction.idValue, hamends.actionRef, StoredAction.idValue]
  have hhash : stored'.hashValue = stored.hashValue := by
    rw [StoredAction.hashValue, hamends.actionRef, StoredAction.hashValue]
  have hproposer : stored'.proposer = stored.proposer := by
    rw [StoredAction.proposer, hamends.actionPackage, StoredAction.proposer]
  refine ⟨?_, ?_, ?_⟩
  · rw [hamends.actionPackage, hamends.requirements]
    exact h.created
  · intro entry hentry
    rcases hamends.approvals entry hentry with hold | hnew
    · obtain ⟨job, hjob, body, hbody, happroval, hkey, hsigner⟩ := h.approved entry hold
      exact ⟨job, hjob, body, hbody, happroval, hkey.trans hhash.symm, hsigner⟩
    · obtain ⟨body, rfl, happroval, hkey, hsigner⟩ := hnew
      rcases hoperation with hquiet | ⟨job, hjob, hsame⟩
      · exact absurd hquiet id
      · exact ⟨job, hjob, body, hsame, happroval, hkey.trans hhash.symm, hsigner⟩
  · intro hstate
    rcases hamends.cancelled hstate with hold | hnew
    · obtain ⟨job, hjob, body, hbody, hkey, hproposer'⟩ := h.cancelled hold
      exact ⟨job, hjob, body, hbody, hkey.trans hid.symm, hproposer'.trans hproposer.symm⟩
    · obtain ⟨body, rfl, hkey, hproposer'⟩ := hnew
      rcases hoperation with hquiet | ⟨job, hjob, hsame⟩
      · exact absurd hquiet id
      · exact ⟨job, hjob, body, hsame, hkey.trans hid.symm, hproposer'.trans hproposer.symm⟩

theorem attributed_step (hstable : Stable w) (h : step platform w event = some w')
    (hattributed : ∀ stored ∈ w.store.records, Attributed platform w stored) :
    ∀ stored ∈ w'.store.records, Attributed platform w' stored := by
  have hjobs := step_jobs_kept h
  intro stored' hstored'
  apply Attributed.kept _ hjobs
  rcases step_store h with hsame | ⟨call, hoperation, hstore⟩
  · rw [hsame] at hstored'
    exact hattributed stored' hstored'
  · rw [hstore] at hstored'
    rcases Coordination.perform_caused hstable.consistent call stored' hstored' with
      ⟨stored, hstored, hamends⟩ | ⟨body, hbody, hpackage, hrequirements, happrovals, hstate⟩
    · exact (hattributed stored hstored).amended hamends hoperation
    · refine ⟨?_, ?_, ?_⟩
      · rw [hbody] at hoperation
        rcases hoperation with hquiet | ⟨job, hjob, hsame⟩
        · exact absurd hquiet id
        · exact ⟨job, hjob, by rw [hsame, hpackage, hrequirements]⟩
      · rw [happrovals]
        exact fun entry hentry => absurd hentry List.not_mem_nil
      · rw [hstate]
        exact fun hcancelled => by cases hcancelled

/-! ## Runs -/

/-- What the store holds because a signed request asked for it. -/
structure SignedFor (platform : Platform μ) (w : World μ) (stored : StoredAction) : Prop where
  created : ∃ handler ∈ w.handlers, Signed platform handler stored.proposer
    (.create ⟨stored.actionPackage, stored.authorizationRequirements⟩)
  approved : ∀ entry ∈ stored.approvals, ∃ did body, entry.signerDid = .str did ∧
    body.approval = entry.approval ∧ body.actionEnvelopeHash.value = stored.hashValue ∧
    listsSigner stored.authorizationRequirements.approvalRequirements did = .ok true ∧
    ∃ handler ∈ w.handlers, Signed platform handler did (.submit body)
  cancelled : stored.state = .cancelled → ∃ body, body.actionId.value = stored.idValue ∧
    ∃ handler ∈ w.handlers, Signed platform handler stored.proposer (.cancel body)

theorem Order.operation_create {body : CoordinationActionRequest}
    (h : order.operation = .createWorkflow body) : order = .create body := by
  cases order <;> cases h
  rfl

theorem Order.operation_submit {body : CoordinationApprovalSubmission}
    (h : order.operation = .submitApproval body) : order = .submit body := by
  cases order <;> cases h
  rfl

theorem Order.operation_cancel {body : CoordinationActionCancelRequest}
    (h : order.operation = .cancelAction body) : order = .cancel body := by
  cases order <;> cases h
  rfl

theorem Attributed.signedFor {stored : StoredAction} (h : Attributed platform w stored)
    (hstored : stored ∈ w.store.records) (hconsistent : Consistent w.store)
    (hauthorized : Authorized platform w) : SignedFor platform w stored := by
  refine ⟨?_, ?_, ?_⟩
  · obtain ⟨job, hjob, hoperation⟩ := h.created
    obtain ⟨handler, did, order, hhandler, -, horder, hsigned, hentitled⟩ :=
      hauthorized.jobs job hjob
    obtain rfl := Order.operation_create (horder.symm.trans hoperation)
    obtain rfl : stored.proposer = did := hentitled
    exact ⟨handler, List.mem_of_getElem? hhandler, hsigned⟩
  · intro entry hentry
    obtain ⟨job, hjob, body, hoperation, happroval, hkey, hsigner⟩ := h.approved entry hentry
    obtain ⟨handler, did, order, hhandler, -, horder, hsigned, hentitled⟩ :=
      hauthorized.jobs job hjob
    obtain rfl := Order.operation_submit (horder.symm.trans hoperation)
    obtain ⟨hnamed, address, found, hderef, hlists⟩ := hentitled
    rw [decodeApprovalSignerDid, happroval, hsigner] at hnamed
    obtain ⟨hindex, hfound⟩ := deref_eq_some.mp hderef
    obtain ⟨place, hplace⟩ := List.getElem?_of_mem hstored
    have hown := hconsistent.indexed.envelopeHash.find place stored hplace
    rw [← hkey, hindex] at hown
    rw [← Option.some.inj hown, hfound] at hplace
    obtain rfl := Option.some.inj hplace
    exact ⟨did, body, Option.some.inj hnamed, happroval, hkey, hlists, handler,
      List.mem_of_getElem? hhandler, hsigned⟩
  · intro hstate
    obtain ⟨job, hjob, body, hoperation, hkey, hproposer⟩ := h.cancelled hstate
    obtain ⟨handler, did, order, hhandler, -, horder, hsigned, hentitled⟩ :=
      hauthorized.jobs job hjob
    obtain rfl := Order.operation_cancel (horder.symm.trans hoperation)
    obtain rfl : body.proposerDid = did := hentitled
    exact ⟨body, hkey, handler, List.mem_of_getElem? hhandler, hproposer ▸ hsigned⟩

theorem run_authorized {events : List (Event μ)} (henforced : platform.enforcement = true)
    (h : Machine.Run (step platform) Machine.Free {} events w) :
    Stable w ∧ Authorized platform w ∧
      ∀ stored ∈ w.store.records, Attributed platform w stored := by
  refine h.invariant (I := fun w => Stable w ∧ Authorized platform w ∧
    ∀ stored ∈ w.store.records, Attributed platform w stored) ?_
    ⟨stable_empty, authorized_empty, fun _ hmem => absurd hmem List.not_mem_nil⟩
  rintro w event w' ⟨hstable, hauthorized, hattributed⟩ - hs
  exact ⟨hstable.step hs, hauthorized.step hstable henforced hs,
    attributed_step hstable hs hattributed⟩

/-- **Authority.** A server that enforces authentication holds a workflow only if its Proposer
signed the request that created it, each Approval only if the Signer it names, whom the
workflow lists, signed its submission, and a cancellation only if the Proposer signed it. -/
theorem effects_signed (platform : Platform μ) (events : List (Event μ)) (w : World μ)
    (henforced : platform.enforcement = true)
    (h : Machine.Run (step platform) Machine.Free {} events w) :
    ∀ stored ∈ w.store.records, SignedFor platform w stored := by
  obtain ⟨hstable, hauthorized, hattributed⟩ := run_authorized henforced h
  exact fun stored hstored =>
    (hattributed stored hstored).signedFor hstored hstable.consistent hauthorized

end Signed

/-! ## A workflow over signed requests -/

section Example

open Coordination (deploymentRuntime deploymentRequest approvalOf alicePart)
open CoordinationReadiness.Deployment (replacement replacementEnvelope computeJsonHash verifierDid)

/-- What verification finds in the headers of a request. -/
structure SignedMessage where
  keyid : Did
  nonce : String
  expires : Int

def requirementsBody : Json := .obj [
  ("version", .str "1"), ("type", .str "AuthorizationRequirements"),
  ("actionEnvelopeHash", (computeJsonHash replacementEnvelope.toJson).toJson),
  ("verifier", .obj [("did", .str verifierDid)]),
  ("approvalRequirements", .obj [("anyOf", .arr [.obj [("threshold", .num (.finite 2)),
    ("eligibleSigners", .arr [.str "did:web:alice", .str "did:web:bob"]),
    ("decision", .str "approve")]])]),
  ("createdAt", .str "2025-01-01T00:01:00.000Z"), ("expiresAt", .str "2025-01-01T00:31:00.000Z")]

def creationBody : Json := .obj [
  ("version", .str "1"), ("type", .str "CoordinationActionRequest"),
  ("actionPackage", replacement.toJson), ("authorizationRequirements", requirementsBody)]

def approvalBody : Json := .obj [
  ("version", .str "1"), ("type", .str "CoordinationApprovalSubmission"),
  ("actionEnvelopeHash", (approvalOf alicePart).actionEnvelopeHash.toJson),
  ("approval", (approvalOf alicePart).approval.toJson)]

def cancellation : CoordinationActionCancelRequest where
  actionId := replacementEnvelope.actionId
  proposerDid := "did:web:agent"

def cancellationBody : Json := .obj [
  ("version", .str "1"), ("type", .str "CoordinationActionCancelRequest"),
  ("actionId", cancellation.actionId.toJson), ("proposerDid", .str cancellation.proposerDid)]

def sessionBody : Json := .obj [
  ("version", .str "1"), ("type", .str "CoordinationSessionRequest"),
  ("did", .str "did:web:alice")]

/-- The bodies of one workflow, and the hash of one ticket. -/
def signedPlatform : Platform SignedMessage where
  runtime := deploymentRuntime
  routing := Idempotency.hashPlatform
  enforcement := true
  verifyMpasRfc9421 message now :=
    if now < message.expires * 1000 then .ok ⟨message.keyid, message.nonce, message.expires⟩
    else .error (401, "signature_invalid")
  websocketUrl := .ok "wss://coordination.example/mpas/v1/coordination/ws"
  hashTicket ticket :=
    if ticket = "QWxpY2Ugb3BlbnMgb25lIHNvY2tldCB3aXRoIHRoaXM" then
      "uBFiNVPNRHuF8qzdWZDTQQdTqCmt8me0qBDFeoAf4h8"
    else ""
  toText _ := "[object Object]"
  asActionRequest _ := deploymentRequest
  asApprovalSubmission _ := approvalOf alicePart
  asCancelRequest _ := cancellation

def signedBy (keyid : Did) (nonce : String) (expires : Int) (route : Route) (body : Json) :
    Request SignedMessage :=
  ⟨route, ⟨keyid, nonce, expires⟩, none, some body⟩

/-- The agent creates a workflow, and Alice approves while she opens a session. -/
def approvedEvents : List (Event SignedMessage) :=
  [.tick 1735689780000,
    .receive (signedBy "did:web:agent" "n1" 1735689840 .workflow creationBody),
    .proceed 0 "", .proceed 0 "", .run 0, .proceed 0 "",
    .receive (signedBy "did:web:alice" "n1" 1735689840 .approval approvalBody),
    .receive (signedBy "did:web:alice" "n2" 1735689840 .session sessionBody),
    .proceed 1 "", .proceed 2 "", .proceed 1 "",
    .proceed 2 "QWxpY2Ugb3BlbnMgb25lIHNvY2tldCB3aXRoIHRoaXM", .run 1,
    .upgrade (some "Bearer QWxpY2Ugb3BlbnMgb25lIHNvY2tldCB3aXRoIHRoaXM") true, .proceed 1 ""]

/-- A minute later the agent cancels it, with the nonce of its first request. -/
def cancelledEvents : List (Event SignedMessage) :=
  approvedEvents ++ [.tick 61000,
    .receive (signedBy "did:web:agent" "n1" 1735689900 .cancel cancellationBody),
    .proceed 3 "", .proceed 3 "", .run 2, .proceed 3 ""]

theorem effects_signed_cancelled :
    ∃ w, Machine.Run (step signedPlatform) Machine.Free {} cancelledEvents w ∧
      w.store.records.map (fun stored => (stored.state, stored.approvals.map (·.signerDid))) =
        [(.cancelled, [.str "did:web:alice"])] ∧
      ∀ stored ∈ w.store.records, SignedFor signedPlatform w stored := by
  obtain ⟨w, hrun, hrecords⟩ : ∃ w,
      Machine.Run (step signedPlatform) Machine.Free {} cancelledEvents w ∧
        w.store.records.map (fun stored => (stored.state, stored.approvals.map (·.signerDid))) =
          [(.cancelled, [.str "did:web:alice"])] :=
    Machine.run_of_exec_any (by decide +kernel)
  exact ⟨w, hrun, hrecords, effects_signed signedPlatform cancelledEvents w rfl hrun⟩

end Example

end Mpas.CoordinationServer
