import Mpas.WorkflowEngine

/-!
# What the workflow engine does to its store

Every program of the engine is taken apart once into single writes: changes of
one record and remote calls, each with what held when it was made. A process
that ends in the middle of a program leaves a prefix of them.
-/

namespace Mpas.WorkflowEngine

open Routing WorkflowStore Program
open Relation (ReflTransGen)

/-! ## Single writes -/

/-- What only some steps may do. -/
inductive Occasion
  /-- change a workflow and leave it alive -/
  | own (taskId : String)
  /-- send a request of the phase -/
  | submit (taskId : String) (phase : SubmissionPhase) (actionIdempotencyKey : String)
      (adapterAttempts : List AdapterAttempt) (actionPackage : Json)
  | settle (taskId : String) (phase : SubmissionPhase) (response : ActionResponse)
  | accept (record : WorkflowRecord) (completedPackage : Json)
  | lateCancel (taskId : String)
  | replace (taskId actionIdempotencyKey : String)
  | create (input : CreateWorkflowInput)

def packageFor : SubmissionPhase → WorkflowRecord → Json
  | .initial, record => record.actionPackage
  | .completed, record => Json.nullish record.completedPackage record.actionPackage

/-- The states in which a request of the phase is sent. -/
def PhaseFits : SubmissionPhase → BridgeWorkflowState → Prop
  | .initial, state => state = .created
  | .completed, state => state = .submittingToVerifier ∨ state = .awaitingVerifierResult

/-- The transitions between states that are not terminal. -/
inductive Edge : BridgeWorkflowState → BridgeWorkflowState → Prop
  | pending : Edge .created .awaitingVerifierResult
  | coordinated : Edge .submittingToCoordination .awaitingApprovals
  | approved : Edge .awaitingApprovals .readyForSubmission
  | submitting : Edge .readyForSubmission .submittingToVerifier
  | failed : Edge .submittingToVerifier .readyForSubmission
  | stillPending : Edge .submittingToVerifier .awaitingVerifierResult

def claimedRecord (ctx : Context) (record : WorkflowRecord) : WorkflowRecord :=
  { record with
    claimedBy := some ctx.options.workerId
    claimExpiresAt := some (ctx.now + ctx.options.claimLeaseMs)
    updatedAt := ctx.now }

def loggedRecord (ctx : Context) (attempt : AdapterAttempt) (record : WorkflowRecord) :
    WorkflowRecord :=
  { record with adapterAttempts := record.adapterAttempts ++ [attempt], updatedAt := ctx.now }

def movedRecord (ctx : Context) (target : BridgeWorkflowState) (record : WorkflowRecord) :
    WorkflowRecord :=
  { record with state := target, updatedAt := ctx.now }

/-- How one write changes the record of a Task. -/
inductive Change (ctx : Context) (allowed : Occasion → Prop) (taskId : String)
    (r : WorkflowRecord) : WorkflowRecord → Prop
  | kept : Change ctx allowed taskId r r
  | claimed : allowed (.own taskId) → Change ctx allowed taskId r (claimedRecord ctx r)
  | attempted (entry : AttemptRecord) :
      allowed (.own taskId) → Change ctx allowed taskId r (loggedRecord ctx (.attempt entry) r)
  | bound (phase : SubmissionPhase) (requestFingerprint : String) :
      allowed (.submit taskId phase r.actionIdempotencyKey r.adapterAttempts
        (packageFor phase r)) →
      allowed (.own taskId) → PhaseFits phase r.state →
      (actionRequestFor ctx r.actionIdempotencyKey (packageFor phase r)).fingerprint ctx.platform =
        .ok requestFingerprint →
      bindingsOf r.adapterAttempts phase r.actionIdempotencyKey = [] →
      Change ctx allowed taskId r (loggedRecord ctx (.idempotencyBound
        ⟨phase, r.actionIdempotencyKey, requestFingerprint, ctx.now⟩) r)
  | answered (response : ActionResponse) :
      allowed (.own taskId) → Change ctx allowed taskId r
        { r with lastActionResponse := some response, updatedAt := ctx.now }
  | referred (ref : Json) :
      allowed (.own taskId) →
      Change ctx allowed taskId r { r with coordinationRef := some ref, updatedAt := ctx.now }
  | moved (source target : BridgeWorkflowState) :
      allowed (.own taskId) → r.state = source → Edge source target →
      Change ctx allowed taskId r (movedRecord ctx target r)
  | accepted (completedPackage : Json) :
      allowed (.accept r completedPackage) → allowed (.own taskId) →
      r.state = .awaitingApprovals →
      proposerDidOfPackage completedPackage = some ctx.options.proposerDid →
      Change ctx allowed taskId r
        { r with completedPackage := some completedPackage, updatedAt := ctx.now }
  | settled (phase : SubmissionPhase) (response : ActionResponse) :
      allowed (.settle taskId phase response) →
      (phase = .completed → isReplayRejection response = false) → r.state.isTerminal = false →
      Change ctx allowed taskId r
        (MemoryWorkflowStore.settledRecord ctx.now (.resolved response response.executionReceipt) r)
  | unresolvable (errorCode errorMessage : String) :
      r.state.isTerminal = false → Change ctx allowed taskId r
        (MemoryWorkflowStore.settledRecord ctx.now (.unresolvable errorCode errorMessage) r)
  | cancelled :
      r.state.isTerminal = false → Change ctx allowed taskId r
        (MemoryWorkflowStore.settledRecord ctx.now (.cancelled ctx.now) r)
  | replaced (input : ReplaceWorkflowActionInput) (actionPackage : ActionPackage) :
      allowed (.replace taskId input.actionIdempotencyKey) → allowed (.own taskId) →
      r.state = input.fromState → input.fromState.isTerminal = false →
      input.actionPackage = actionPackage.toJson →
      input.actionEnvelopeHash =
        (ctx.platform.computeJsonHash actionPackage.actionEnvelope.toJson).value →
      Change ctx allowed taskId r (MemoryWorkflowStore.replacedRecord ctx.now input r)

/-- What holds when a remote call starts. -/
def MayCall (ctx : Context) (allowed : Occasion → Prop) (d : Durable) : RemoteCall → Prop
  | .submitActionRequest taskId phase request actionEnvelopeHash =>
    ctx.stopped = false ∧ ∃ r, d.store.getWorkflow taskId = some r ∧
      actionEnvelopeHash = r.actionEnvelopeHash ∧ PhaseFits phase r.state ∧
      request = actionRequestFor ctx r.actionIdempotencyKey (packageFor phase r) ∧
      ∃ binding, .idempotencyBound binding ∈ r.adapterAttempts ∧ binding.stage = phase ∧
        binding.idempotencyKey = r.actionIdempotencyKey ∧
        request.fingerprint ctx.platform = .ok binding.requestFingerprint
  | .createApprovalWorkflow taskId actionId _ _ =>
    ctx.stopped = false ∧ ∃ r, d.store.getWorkflow taskId = some r ∧ r.actionId = actionId ∧
      r.state.isTerminal = false
  | .pollWork => ctx.stopped = false
  | .cancelAction _ byCaller => byCaller = true ∨ ∃ taskId, allowed (.lateCancel taskId)

/-- One write of the engine. -/
inductive Micro (ctx : Context) (allowed : Occasion → Prop) (d : Durable) : Durable → Prop
  | change {taskId : String} {r r' : WorkflowRecord} {store : MemoryWorkflowStore} :
      d.store.getWorkflow taskId = some r → Change ctx allowed taskId r r' →
      (∀ task, store.getWorkflow task =
        if taskId = task then some r' else d.store.getWorkflow task) →
      Micro ctx allowed d { d with store }
  | created {input : CreateWorkflowInput} {store : MemoryWorkflowStore} :
      allowed (.create input) → d.store.getWorkflow input.taskId = none →
      (∀ task, store.getWorkflow task = if input.taskId = task then some { input with
        state := .created, adapterAttempts := [], createdAt := ctx.now, updatedAt := ctx.now }
        else d.store.getWorkflow task) →
      Micro ctx allowed d { d with store }
  | called (call : RemoteCall) :
      MayCall ctx allowed d call →
      Micro ctx allowed d { d with calls := d.calls ++ [⟨call, ctx.stopped⟩] }

/-- Every record is stored under its own Task ID. -/
def Keyed (store : MemoryWorkflowStore) : Prop :=
  ∀ task r, store.getWorkflow task = some r → r.taskId = task

section

variable {ctx : Context} {allowed : Occasion → Prop} {d d' : Durable}

@[simp] theorem settledRecord_taskId (now : Int) (resolution : WorkflowResolution)
    (r : WorkflowRecord) :
    (MemoryWorkflowStore.settledRecord now resolution r).taskId = r.taskId := by
  unfold MemoryWorkflowStore.settledRecord
  split <;> rfl

theorem Change.taskId {taskId : String} {r r' : WorkflowRecord}
    (h : Change ctx allowed taskId r r') : r'.taskId = r.taskId := by
  cases h <;> first | rfl | exact settledRecord_taskId _ _ _

theorem Micro.keyed (h : Micro ctx allowed d d') (hk : Keyed d.store) : Keyed d'.store := by
  intro task r hr
  cases h with
  | change hget hchange hlookup =>
    rw [hlookup] at hr
    split at hr
    · rename_i heq
      cases hr
      rw [hchange.taskId, hk _ _ hget, heq]
    · exact hk task r hr
  | created _ _ hlookup =>
    rw [hlookup] at hr
    split at hr
    · rename_i heq
      cases hr
      exact heq
    · exact hk task r hr
  | called call _ => exact hk task r hr

theorem keyed_of_moves (h : ReflTransGen (Micro ctx allowed) d d') (hk : Keyed d.store) :
    Keyed d'.store := by
  induction h with
  | refl => exact hk
  | tail _ hm ih => exact hm.keyed ih

/-- A record is rewritten by a change, or there is none. -/
theorem modify_moves {taskId : String} {apply : WorkflowRecord → WorkflowRecord}
    (h : ∀ r, d.store.getWorkflow taskId = some r → Change ctx allowed taskId r (apply r)) :
    ReflTransGen (Micro ctx allowed) d { d with store := d.store.modify taskId apply } := by
  cases hr : d.store.getWorkflow taskId with
  | none =>
    rw [show d.store.modify taskId apply = d.store by
      unfold MemoryWorkflowStore.modify
      rw [hr]]
  | some r =>
    refine .single (.change hr (h r hr) fun task => ?_)
    rw [MemoryWorkflowStore.getWorkflow_modify]
    split
    · rename_i heq
      subst heq
      rw [hr]
      rfl
    · rfl

end

/-! ## Store operations -/

section Store

variable {ctx : Context} {allowed : Occasion → Prop} {d : Durable} {taskId : String}

theorem getWorkflow_moves {Q : Option WorkflowRecord → Durable → Prop}
    (h : Q (d.store.getWorkflow taskId) d) :
    Moves (Micro ctx allowed) (getWorkflow taskId) d Q :=
  Moves.seq (Moves.read (Moves.pure h))

theorem mustGet_moves {Q : WorkflowRecord → Durable → Prop}
    (h : ∀ r, d.store.getWorkflow taskId = some r → Q r d) :
    Moves (Micro ctx allowed) (mustGet taskId) d Q := by
  refine Moves.seq (getWorkflow_moves ?_)
  cases hr : d.store.getWorkflow taskId with
  | none => exact Moves.throw
  | some r => exact Moves.pure (h r hr)

theorem updateStore_moves {f : MemoryWorkflowStore → MemoryWorkflowStore}
    {Q : Unit → Durable → Prop}
    (hm : ReflTransGen (Micro ctx allowed) d { d with store := f d.store })
    (h : Q () { d with store := f d.store }) :
    Moves (Micro ctx allowed) (updateStore f) d Q :=
  Moves.write hm h

theorem tryStore_moves {f : MemoryWorkflowStore → Bool × MemoryWorkflowStore} {b : Bool}
    {store : MemoryWorkflowStore} {Q : Bool → Durable → Prop} (heq : f d.store = (b, store))
    (hm : ReflTransGen (Micro ctx allowed) d { d with store }) (h : Q b { d with store }) :
    Moves (Micro ctx allowed) (tryStore f) d Q := by
  refine Moves.write ?_ ?_
  · simpa only [heq] using hm
  · simpa only [heq] using h

theorem holdClaim_moves {Q : Bool → Durable → Prop} (hown : allowed (.own taskId))
    (hrefused : Q false d)
    (hheld : ∀ r, d.store.getWorkflow taskId = some r → r.state.isTerminal = false →
      MemoryWorkflowStore.isHeld ctx.now ctx.options.workerId r = false →
      Q true { d with store := d.store.modify taskId (claimedRecord ctx) }) :
    Moves (Micro ctx allowed) (holdClaim ctx taskId) d Q := by
  rcases d.store.claimWorkflow_cases ctx.now taskId ctx.options.workerId
    ctx.options.claimLeaseMs with heq | ⟨⟨r, hr, hopen, hfree⟩, heq⟩
  · exact tryStore_moves heq .refl hrefused
  · exact tryStore_moves heq (modify_moves fun r _ => .claimed hown) (hheld r hr hopen hfree)

theorem compareAndSetState_moves {source target : BridgeWorkflowState} {Q : Bool → Durable → Prop}
    (hown : allowed (.own taskId)) (hedge : Edge source target) (hrefused : Q false d)
    (hset : ∀ r, d.store.getWorkflow taskId = some r → r.state = source →
      Q true { d with store := d.store.modify taskId (movedRecord ctx target) }) :
    Moves (Micro ctx allowed) (compareAndSetState ctx taskId source target) d Q := by
  rcases d.store.compareAndSetState_cases ctx.now taskId source target with heq | ⟨⟨r, hr, hstate, -⟩, heq⟩
  · exact tryStore_moves heq .refl hrefused
  · refine tryStore_moves heq (modify_moves fun r' hr' => .moved source target hown ?_ hedge)
      (hset r hr hstate)
    rw [hr] at hr'
    cases hr'
    exact hstate

theorem cancelWorkflow_moves {Q : Bool → Durable → Prop} (hrefused : Q false d)
    (hset : ∀ d, Q true d) :
    Moves (Micro ctx allowed) (tryStore fun store => store.cancelWorkflow ctx.now taskId) d Q := by
  rcases d.store.cancelWorkflow_cases ctx.now taskId with heq | ⟨⟨r, hr, hopen⟩, heq⟩
  · exact tryStore_moves heq .refl hrefused
  · refine tryStore_moves heq (modify_moves fun r' hr' => .cancelled ?_) (hset _)
    rw [hr] at hr'
    cases hr'
    exact hopen

theorem send_moves {call : RemoteCall} {Q : Unit → Durable → Prop} (hmay : MayCall ctx allowed d call)
    (h : Q () { d with calls := d.calls ++ [⟨call, ctx.stopped⟩] }) :
    Moves (Micro ctx allowed) (send ctx call) d Q :=
  Moves.write (.single (.called call hmay)) h

theorem resolveUnresolvable_moves {errorCode errorMessage : String} {Q : Unit → Durable → Prop}
    (h : Q () { d with
      store := d.store.resolveWorkflow ctx.now taskId (.unresolvable errorCode errorMessage) }) :
    Moves (Micro ctx allowed) (resolveUnresolvable ctx taskId errorCode errorMessage) d Q := by
  refine updateStore_moves (modify_moves fun r _ => ?_) h
  cases hopen : r.state.isTerminal with
  | false => exact .unresolvable _ _ hopen
  | true =>
    rw [MemoryWorkflowStore.settledRecord, if_pos hopen]
    exact .kept

theorem settle_moves {phase : SubmissionPhase} {response : ActionResponse}
    {Q : Unit → Durable → Prop} (hallow : allowed (.settle taskId phase response))
    (hreplay : phase = .completed → isReplayRejection response = false)
    (h : Q () { d with
      store := d.store.resolveWorkflow ctx.now taskId
        (.resolved response response.executionReceipt) }) :
    Moves (Micro ctx allowed) (settle ctx taskId response) d Q := by
  refine updateStore_moves (modify_moves fun r _ => ?_) h
  cases hopen : r.state.isTerminal with
  | false => exact .settled phase response hallow hreplay hopen
  | true =>
    rw [MemoryWorkflowStore.settledRecord, if_pos hopen]
    exact .kept

theorem saveLastActionResponse_moves {response : ActionResponse} {Q : Unit → Durable → Prop}
    (hown : allowed (.own taskId))
    (h : Q () { d with store := d.store.saveLastActionResponse ctx.now taskId response }) :
    Moves (Micro ctx allowed) (saveLastActionResponse ctx taskId response) d Q :=
  updateStore_moves (modify_moves fun _ _ => .answered response hown) h

theorem recordAttempt_moves {stage : AttemptStage} {outcome : AttemptOutcome}
    {error : Option Failure} {Q : Unit → Durable → Prop} (hown : allowed (.own taskId))
    (h : ∀ entry, Q () { d with
      store := d.store.modify taskId (loggedRecord ctx (.attempt entry)) }) :
    Moves (Micro ctx allowed) (recordAttempt ctx taskId stage outcome error) d Q :=
  Moves.seq (getWorkflow_moves
    (updateStore_moves (modify_moves fun _ _ => .attempted _ hown) (h _)))

theorem recordFailure_moves {stage : AttemptStage} {error : Failure} {permanentCode : String}
    (hown : allowed (.own taskId)) :
    Moves (Micro ctx allowed) (recordFailure ctx taskId stage error permanentCode) d
      fun _ _ => True := by
  unfold recordFailure
  split
  · exact Moves.seq (recordAttempt_moves hown fun _ => resolveUnresolvable_moves trivial)
  · exact recordAttempt_moves hown fun _ => trivial

end Store

/-! ## Programs of a lane -/

/-- What the point where a lane waits says about the workflow. -/
def PointOk (store : MemoryWorkflowStore) (taskId : String) : Point → Prop
  | .submitted phase => ∃ r, store.getWorkflow taskId = some r ∧
    (PhaseFits phase r.state ∨ r.state.isTerminal = true)
  | .building record fromState _ => record.taskId = taskId ∧ fromState.isTerminal = false
  | .creating record => record.taskId = taskId ∧
    ∃ r, store.getWorkflow taskId = some r ∧ r.actionId = record.actionId
  | .queued | .cancelling => True

def ProgressOk (taskId : String) (progress : Progress) (d : Durable) : Prop :=
  match progress with
  | .awaiting point => PointOk d.store taskId point
  | .finished _ => True

/-- The states in which a job starts to submit in a phase. -/
def PhaseStarts : SubmissionPhase → BridgeWorkflowState → Prop
  | .initial, state => state = .created
  | .completed, state =>
    state = .readyForSubmission ∨ state = .submittingToVerifier ∨ state = .awaitingVerifierResult

instance (phase : SubmissionPhase) (state : BridgeWorkflowState) :
    Decidable (PhaseStarts phase state) :=
  match phase with
  | .initial => inferInstanceAs (Decidable (state = .created))
  | .completed => inferInstanceAs (Decidable (state = .readyForSubmission ∨ _ ∨ _))

/-- The step may submit what the record of the Task has. -/
def MaySubmit (allowed : Occasion → Prop) (taskId : String) (phase : SubmissionPhase)
    (r : WorkflowRecord) : Prop :=
  PhaseStarts phase r.state →
    allowed (.submit taskId phase r.actionIdempotencyKey r.adapterAttempts (packageFor phase r))

/-- A job that advances the workflow gets as far as its remote call. -/
def claimable (ctx : Context) (respectSchedule : Bool) (r : WorkflowRecord) : Bool :=
  decide (proposerDidOf r = some ctx.options.proposerDid) && !ctx.isPast r.expiresAt &&
    !ctx.stopped && !(respectSchedule && decide (ctx.now < (retryNotBefore r).getD 0)) &&
    !MemoryWorkflowStore.isHeld ctx.now ctx.options.workerId r

section Lane

variable {ctx : Context} {allowed : Occasion → Prop} {d : Durable} {taskId : String}

theorem done_moves : Moves (Micro ctx allowed) done d (ProgressOk taskId) := Moves.pure trivial

/-- Bind a request and send it: the record is that of the store, up to its claim. -/
theorem submitRequest_moves {record r : WorkflowRecord} {phase : SubmissionPhase}
    (hr : d.store.getWorkflow taskId = some r) (hid : record.taskId = taskId)
    (hkey : record.actionIdempotencyKey = r.actionIdempotencyKey)
    (hattempts : record.adapterAttempts = r.adapterAttempts)
    (hhash : record.actionEnvelopeHash = r.actionEnvelopeHash) (hfits : PhaseFits phase r.state)
    (hstopped : ctx.stopped = false) (hown : allowed (.own taskId))
    (hsubmit : allowed (.submit taskId phase r.actionIdempotencyKey r.adapterAttempts
      (packageFor phase r))) :
    Moves (Micro ctx allowed) (submitRequest ctx record (packageFor phase r) phase) d
      (ProgressOk taskId) := by
  unfold submitRequest submissionRequest
  rw [hid, hkey, hattempts, hhash]
  cases hfp : (actionRequestFor ctx r.actionIdempotencyKey (packageFor phase r)).fingerprint
      ctx.platform with
  | error error =>
    simp only [hfp]
    exact Moves.seq Moves.throw
  | ok fp =>
    simp only [hfp]
    have hsend : ∀ (d' : Durable) (r' : WorkflowRecord) (binding : SubmissionIdempotencyBinding),
        d'.store.getWorkflow taskId = some r' → r'.state = r.state →
        r'.actionEnvelopeHash = r.actionEnvelopeHash →
        r'.actionIdempotencyKey = r.actionIdempotencyKey → packageFor phase r' = packageFor phase r →
        .idempotencyBound binding ∈ r'.adapterAttempts → binding.stage = phase →
        binding.idempotencyKey = r.actionIdempotencyKey → binding.requestFingerprint = fp →
        Moves (Micro ctx allowed) (do
          send ctx (.submitActionRequest taskId phase
            (actionRequestFor ctx r.actionIdempotencyKey (packageFor phase r)) r.actionEnvelopeHash)
          return .awaiting (.submitted phase)) d' (ProgressOk taskId) := by
      intro d' r' binding hr' hstate hhash' hkey' hpackage hmem hstage hbkey hbfp
      refine Moves.seq (send_moves ⟨hstopped, r', hr', hhash'.symm, hstate ▸ hfits, ?_, binding,
        hmem, hstage, hbkey.trans hkey'.symm, ?_⟩ (Moves.pure ?_))
      · rw [hkey', hpackage]
      · rw [hfp, hbfp]
      · exact ⟨r', hr', Or.inl (hstate ▸ hfits)⟩
    cases hb : (bindingsOf r.adapterAttempts phase r.actionIdempotencyKey).head? with
    | some binding =>
      simp only
      split
      · exact Moves.seq (Moves.seq (resolveUnresolvable_moves (Moves.pure done_moves)))
      · rename_i hsame
        have hmem := List.mem_of_mem_head? hb
        obtain ⟨hmem, hprops⟩ := List.mem_filter.mp hmem
        obtain ⟨attempt, hattempt, hbinding⟩ := List.mem_filterMap.mp hmem
        have hlogged : attempt = .idempotencyBound binding := by
          cases attempt with
          | attempt entry => cases hbinding
          | idempotencyBound b =>
            simp only [submissionIdempotencyBinding] at hbinding
            split at hbinding <;> cases hbinding
            rfl
        simp only [decide_eq_true_eq] at hprops
        exact Moves.seq (Moves.pure (hsend d r binding hr rfl rfl rfl rfl (hlogged ▸ hattempt)
          hprops.1 hprops.2 (not_not.mp hsame)))
    | none =>
      simp only
      refine Moves.seq (Moves.seq (updateStore_moves (modify_moves fun r' hr' => ?_) (Moves.pure ?_)))
      · rw [hr] at hr'
        cases hr'
        exact .bound phase fp hsubmit hown hfits hfp (List.head?_eq_none_iff.mp hb)
      · refine hsend _ (loggedRecord ctx (.idempotencyBound
          ⟨phase, r.actionIdempotencyKey, fp, ctx.now⟩) r)
          ⟨phase, r.actionIdempotencyKey, fp, ctx.now⟩ ?_ rfl rfl rfl ?_ (by simp [loggedRecord])
          rfl rfl rfl
        · simp [MemoryWorkflowStore.saveAdapterAttempt, hr, loggedRecord]
        · cases phase <;> rfl

theorem claimed_getWorkflow {r : WorkflowRecord} (hr : d.store.getWorkflow taskId = some r) :
    (d.store.modify taskId (claimedRecord ctx)).getWorkflow taskId =
      some (claimedRecord ctx r) := by
  simp [hr]

theorem MaySubmit.claimed {phase : SubmissionPhase} {r : WorkflowRecord}
    (h : MaySubmit allowed taskId phase r) :
    MaySubmit allowed taskId phase (claimedRecord ctx r) := by
  intro hphase
  have := h hphase
  cases phase <;> exact this

/-- A failed submission is recorded, whatever its exception left behind. -/
theorem failed_moves {stage : AttemptStage} {error : Failure} {permanentCode : String}
    (hown : allowed (.own taskId)) :
    Moves (Micro ctx allowed) (do
      recordFailure ctx taskId stage error permanentCode
      done) d (ProgressOk taskId) :=
  Moves.bind (recordFailure_moves hown) fun _ _ _ _ => done_moves

theorem submitInitial_moves (hk : Keyed d.store) (hown : allowed (.own taskId))
    (hsubmit : ∀ r, d.store.getWorkflow taskId = some r →
      MaySubmit allowed taskId .initial r) :
    Moves (Micro ctx allowed) (submitInitial ctx taskId) d (ProgressOk taskId) := by
  refine Moves.seq (getWorkflow_moves ?_)
  cases hr : d.store.getWorkflow taskId with
  | none => exact done_moves
  | some current =>
    simp only
    split
    · exact done_moves
    rename_i hopen
    simp only [not_or, not_not] at hopen
    split
    · exact done_moves
    rename_i hstopped
    refine Moves.seq (holdClaim_moves hown done_moves fun r hr' _ _ => ?_)
    rw [hr] at hr'
    cases hr'
    simp only [Bool.not_true, Bool.false_eq_true, ↓reduceIte]
    refine Moves.tryCatch ?_ fun error s' _ => failed_moves hown
    show Moves _ (submitRequest ctx current (packageFor .initial (claimedRecord ctx current))
      .initial) _ _
    exact submitRequest_moves (claimed_getWorkflow hr) (hk _ _ hr) rfl rfl rfl hopen.2.2
      (by simpa using hstopped) hown (hsubmit current hr hopen.2.2)

theorem submitToCoordination_moves {record : WorkflowRecord} (hid : record.taskId = taskId)
    (hr : d.store.getWorkflow taskId = some record) (hown : allowed (.own taskId)) :
    Moves (Micro ctx allowed) (submitToCoordination ctx record) d (ProgressOk taskId) := by
  unfold submitToCoordination
  split
  · exact done_moves
  rename_i hstopped
  rw [hid]
  refine Moves.seq (holdClaim_moves hown done_moves fun r hr' hopen _ => ?_)
  rw [hr] at hr'
  cases hr'
  have hclaimed : (d.store.modify taskId (claimedRecord ctx)).getWorkflow taskId =
      some (claimedRecord ctx record) := by simp [hr]
  simp only [Bool.not_true, Bool.false_eq_true, ↓reduceIte]
  refine Moves.seq (send_moves ⟨by simpa using hstopped, _, hclaimed, rfl, hopen⟩ (Moves.pure ?_))
  exact ⟨hid, _, hclaimed, rfl⟩

theorem replaceAndSubmitToCoordination_moves {record : WorkflowRecord}
    {fromState : BridgeWorkflowState} {response : ActionResponse} (hid : record.taskId = taskId)
    (hfrom : fromState.isTerminal = false) :
    Moves (Micro ctx allowed) (replaceAndSubmitToCoordination ctx record fromState response) d
      (ProgressOk taskId) := by
  unfold replaceAndSubmitToCoordination
  cases response.authorizationRequirements with
  | none => exact Moves.seq (resolveUnresolvable_moves done_moves)
  | some verifierRequirements => exact Moves.pure ⟨hid, hfrom⟩

theorem replaceWith_moves {record : WorkflowRecord} {fromState : BridgeWorkflowState}
    {verifierRequirements : AuthorizationRequirements} {replacement : CoordinationReplacement}
    {randomUUID : String} (hid : record.taskId = taskId) (hfrom : fromState.isTerminal = false)
    (hown : allowed (.own taskId)) (hreplace : allowed (.replace taskId randomUUID)) :
    Moves (Micro ctx allowed)
      (replaceWith ctx record fromState verifierRequirements replacement randomUUID) d
      fun _ _ => True := by
  unfold replaceWith
  simp only [hid]
  iterate 5
    split
    · exact Moves.throw
  refine Moves.seq (Moves.write ?_ ?_)
  · split
    · rename_i store hreplaced
      obtain ⟨-, ⟨r, hr, hstate⟩, rfl⟩ := MemoryWorkflowStore.replaceAction_cases hreplaced
      refine .single (.change hr (.replaced _ replacement.actionPackage hreplace hown hstate hfrom
        rfl rfl) fun task => ?_)
      refine (MemoryWorkflowStore.getWorkflow_modify _ _ _ task).trans ?_
      split
      · rename_i heq
        subst heq
        rw [hr]
        rfl
      · rfl
    · exact .refl
  · split
    · exact Moves.pure trivial
    · exact Moves.throw

theorem afterReplacement_moves {record : WorkflowRecord} {fromState : BridgeWorkflowState}
    {verifierRequirements : AuthorizationRequirements}
    {outcome : Except Failure CoordinationReplacement} {randomUUID : String}
    (hk : Keyed d.store) (hid : record.taskId = taskId) (hfrom : fromState.isTerminal = false)
    (hown : allowed (.own taskId))
    (hreplace : ∀ replacement, outcome = .ok replacement → allowed (.replace taskId randomUUID)) :
    Moves (Micro ctx allowed)
      (afterReplacement ctx record fromState verifierRequirements outcome randomUUID) d
      (ProgressOk taskId) := by
  unfold afterReplacement
  refine Moves.bind (P := fun _ _ => True) (Moves.tryCatch ?_ fun error s' _ => ?_)
    fun replaced s' hs' _ => ?_
  · cases outcome with
    | error error => exact Moves.throw
    | ok replacement =>
      exact Moves.bind (replaceWith_moves hid hfrom hown (hreplace replacement rfl))
        fun _ _ _ _ => Moves.pure trivial
  · refine Moves.seq (getWorkflow_moves ?_)
    split
    · exact Moves.pure trivial
    · exact Moves.seq (resolveUnresolvable_moves (Moves.pure trivial))
  · cases replaced with
    | false => exact done_moves
    | true =>
      refine Moves.seq (mustGet_moves fun r hr => ?_)
      refine submitToCoordination_moves ?_ (hid ▸ hr) hown
      rw [keyed_of_moves hs' hk _ _ hr, hid]

theorem afterCreation_moves {record : WorkflowRecord} {outcome : Except Failure Json}
    (hid : record.taskId = taskId) (hown : allowed (.own taskId))
    (hlate : ∀ ref r, outcome = .ok ref → d.store.getWorkflow taskId = some r →
      r.state = .cancelled → allowed (.lateCancel taskId)) :
    Moves (Micro ctx allowed) (afterCreation ctx record outcome) d (ProgressOk taskId) := by
  unfold afterCreation
  rw [hid]
  refine Moves.tryCatch ?_ fun error s' _ => ?_
  · cases outcome with
    | error error => exact Moves.throw
    | ok ref =>
      refine Moves.seq (updateStore_moves (modify_moves fun r _ => .referred ref hown) ?_)
      refine Moves.seq (mustGet_moves fun r hr => ?_)
      split
      · rename_i hcancelled
        obtain ⟨r₀, hr₀, rfl⟩ := Option.map_eq_some_iff.mp
          ((MemoryWorkflowStore.getWorkflow_modify_self _ _ _).symm.trans hr)
        exact Moves.seq (send_moves (Or.inr ⟨taskId, hlate ref r₀ rfl hr₀ hcancelled⟩)
          (Moves.pure trivial))
      · refine Moves.seq (recordAttempt_moves hown fun entry => ?_)
        exact Moves.seq (compareAndSetState_moves hown .coordinated done_moves
          fun _ _ _ => done_moves)
  · split
    · exact Moves.seq (recordAttempt_moves hown fun entry =>
        Moves.seq (resolveUnresolvable_moves done_moves))
    · exact failed_moves hown

theorem afterInitial_moves {outcome : Except Failure ActionResponse} (hk : Keyed d.store)
    (hown : allowed (.own taskId))
    (hsettle : ∀ response r, outcome = .ok response → d.store.getWorkflow taskId = some r →
      r.state.isTerminal = false → allowed (.settle taskId .initial response)) :
    Moves (Micro ctx allowed) (afterInitial ctx taskId outcome) d (ProgressOk taskId) := by
  unfold afterInitial
  cases outcome with
  | error error => exact failed_moves hown
  | ok response =>
    simp only
    refine Moves.seq (mustGet_moves fun current hr => ?_)
    split
    · exact done_moves
    rename_i hopen
    split
    · refine Moves.bind (P := fun _ _ => True) (recordAttempt_moves hown fun _ => trivial)
        fun _ s₁ hs₁ _ => ?_
      refine Moves.bind (P := fun _ _ => True) (saveLastActionResponse_moves hown trivial)
        fun _ s₂ hs₂ _ => ?_
      refine Moves.seq (mustGet_moves fun r hr => replaceAndSubmitToCoordination_moves ?_ rfl)
      exact keyed_of_moves hs₂ (keyed_of_moves hs₁ hk) _ _ hr
    · refine Moves.seq (recordAttempt_moves hown fun entry => ?_)
      refine Moves.seq (saveLastActionResponse_moves hown ?_)
      exact Moves.seq (compareAndSetState_moves hown .pending done_moves fun _ _ _ => done_moves)
    · refine Moves.seq (recordAttempt_moves hown fun entry => ?_)
      exact Moves.seq (settle_moves (hsettle response current rfl hr (by simpa using hopen))
        (by simp) done_moves)

/-- The completed package is sent with the record as the store has it then. -/
theorem submitPackage_moves {r : WorkflowRecord} {pkg : Json}
    (hr : d.store.getWorkflow taskId = some r) (hid : r.taskId = taskId)
    (hpkg : pkg = packageFor .completed r) (hfits : PhaseFits .completed r.state)
    (hstopped : ctx.stopped = false) (hown : allowed (.own taskId))
    (hsubmit : allowed (.submit taskId .completed r.actionIdempotencyKey r.adapterAttempts
      (packageFor .completed r))) :
    Moves (Micro ctx allowed)
      (tryCatch (do submitRequest ctx (← mustGet taskId) pkg .completed) fun error => do
        recordFailure ctx taskId .completed error "ACTION_SUBMISSION_REJECTED"
        let _ ← compareAndSetState ctx taskId .submittingToVerifier .readyForSubmission
        done) d (ProgressOk taskId) := by
  refine Moves.tryCatch (Moves.seq (mustGet_moves fun r' hr' => ?_)) fun error s' _ => ?_
  · rw [hr] at hr'
    cases hr'
    rw [hpkg]
    exact submitRequest_moves hr hid rfl rfl rfl hfits hstopped hown hsubmit
  · exact Moves.bind (recordFailure_moves hown) fun _ _ _ _ => Moves.seq
      (compareAndSetState_moves hown .failed done_moves fun _ _ _ => done_moves)

theorem submitCompleted_moves (hk : Keyed d.store) (hown : allowed (.own taskId))
    (hstarts : ∀ r, d.store.getWorkflow taskId = some r → PhaseStarts .completed r.state)
    (hsubmit : ∀ r, d.store.getWorkflow taskId = some r →
      MaySubmit allowed taskId .completed r) :
    Moves (Micro ctx allowed) (submitCompleted ctx taskId) d (ProgressOk taskId) := by
  refine Moves.seq (getWorkflow_moves ?_)
  cases hr : d.store.getWorkflow taskId with
  | none => exact done_moves
  | some current =>
    simp only
    split
    · exact done_moves
    split
    · exact done_moves
    rename_i hstopped
    have hstopped : ctx.stopped = false := by simpa using hstopped
    refine Moves.seq (holdClaim_moves hown done_moves fun r hr' _ _ => ?_)
    rw [hr] at hr'
    cases hr'
    have hid : current.taskId = taskId := hk _ _ hr
    have hclaimed : (d.store.modify taskId (claimedRecord ctx)).getWorkflow taskId =
      some (claimedRecord ctx current) := claimed_getWorkflow hr
    have hallowed := hsubmit _ hr (hstarts _ hr)
    simp only [Bool.not_true, Bool.false_eq_true, ↓reduceIte]
    split
    · exact Moves.seq (resolveUnresolvable_moves done_moves)
    split
    · refine Moves.seq (compareAndSetState_moves hown .submitting done_moves fun r' hr' _ => ?_)
      simp only [Bool.not_true, Bool.false_eq_true, ↓reduceIte]
      refine submitPackage_moves (r := movedRecord ctx .submittingToVerifier
        (claimedRecord ctx current)) ?_ hid rfl (Or.inl rfl) hstopped hown hallowed
      rw [MemoryWorkflowStore.getWorkflow_modify_self, hclaimed]
      rfl
    · rename_i hready
      refine Moves.seq (Moves.pure ?_)
      simp only [Bool.not_true, Bool.false_eq_true, ↓reduceIte]
      refine submitPackage_moves hclaimed hid rfl ?_ hstopped hown hallowed
      exact (hstarts _ hr).resolve_left hready

theorem afterCompleted_moves {outcome : Except Failure ActionResponse} (hk : Keyed d.store)
    (hown : allowed (.own taskId))
    (hsettle : ∀ response r, outcome = .ok response → d.store.getWorkflow taskId = some r →
      r.state.isTerminal = false → allowed (.settle taskId .completed response)) :
    Moves (Micro ctx allowed) (afterCompleted ctx taskId outcome) d (ProgressOk taskId) := by
  unfold afterCompleted
  cases outcome with
  | error error =>
    exact Moves.bind (recordFailure_moves hown) fun _ _ _ _ => Moves.seq
      (compareAndSetState_moves hown .failed done_moves fun _ _ _ => done_moves)
  | ok response =>
    simp only
    refine Moves.seq (mustGet_moves fun current hr => ?_)
    split
    · exact done_moves
    rename_i hopen
    refine Moves.bind (P := fun _ _ => True) (recordAttempt_moves hown fun _ => trivial)
      fun _ s₁ hs₁ _ => ?_
    split
    · refine Moves.seq (saveLastActionResponse_moves hown ?_)
      exact Moves.seq (compareAndSetState_moves hown .stillPending done_moves
        fun _ _ _ => done_moves)
    split
    · exact Moves.seq (resolveUnresolvable_moves done_moves)
    rename_i hreplay
    split
    · refine Moves.bind (P := fun _ _ => True) (saveLastActionResponse_moves hown trivial)
        fun _ s₂ hs₂ _ => ?_
      refine Moves.seq (mustGet_moves fun r hr => replaceAndSubmitToCoordination_moves ?_ rfl)
      exact keyed_of_moves hs₂ (keyed_of_moves hs₁ hk) _ _ hr
    · exact Moves.seq (settle_moves (hsettle response current rfl hr (by simpa using hopen))
        (fun _ => by simpa using hreplay) done_moves)

theorem expire_moves {Q : Unit → Durable → Prop} (hown : allowed (.own taskId))
    (h : ∀ d, Q () d) : Moves (Micro ctx allowed) (expire ctx taskId) d Q :=
  Moves.seq (holdClaim_moves hown (Moves.pure (h _))
    fun _ _ _ _ => resolveUnresolvable_moves (h _))

/-- What a claimed workflow goes on with, by the state it was claimed in. -/
theorem claimed_moves (hown : allowed (.own taskId)) (hk : Keyed d.store)
    (hsubmit : ∀ r phase, d.store.getWorkflow taskId = some r →
      MaySubmit allowed taskId phase r) :
    Moves (Micro ctx allowed) (do
      let claimed ← mustGet taskId
      match claimed.state with
      | .created => submitInitial ctx taskId
      | .submittingToCoordination => submitToCoordination ctx claimed
      | .readyForSubmission | .submittingToVerifier | .awaitingVerifierResult =>
        submitCompleted ctx taskId
      | _ => done) d (ProgressOk taskId) := by
  refine Moves.seq (mustGet_moves fun claimed hclaimed => ?_)
  have hstarts : PhaseStarts .completed claimed.state →
      Moves (Micro ctx allowed) (submitCompleted ctx taskId) d (ProgressOk taskId) := by
    intro hstate
    refine submitCompleted_moves hk hown (fun r hr => ?_) fun r hr => hsubmit r _ hr
    rw [hclaimed] at hr
    cases hr
    exact hstate
  split
  · exact submitInitial_moves hk hown fun r hr => hsubmit r _ hr
  · exact submitToCoordination_moves (hk _ _ hclaimed) hclaimed hown
  · rename_i hstate
    exact hstarts (Or.inl hstate)
  · rename_i hstate
    exact hstarts (Or.inr (Or.inl hstate))
  · rename_i hstate
    exact hstarts (Or.inr (Or.inr hstate))
  · exact done_moves

theorem dispatchClaimable_moves {respectSchedule : Bool} (hk : Keyed d.store)
    (hown : allowed (.own taskId))
    (hsubmit : ∀ r, d.store.getWorkflow taskId = some r → claimable ctx respectSchedule r →
      ∀ phase, MaySubmit allowed taskId phase r) :
    Moves (Micro ctx allowed) (dispatchClaimable ctx taskId respectSchedule) d
      (ProgressOk taskId) := by
  refine Moves.seq (getWorkflow_moves ?_)
  cases hr : d.store.getWorkflow taskId with
  | none => exact done_moves
  | some current =>
    simp only
    split
    · exact done_moves
    rename_i hlive
    split
    · exact Moves.seq (expire_moves hown fun _ => done_moves)
    rename_i halive
    split
    · exact done_moves
    rename_i hrunning
    split
    · exact done_moves
    rename_i hdue
    have hholds : Moves (Micro ctx allowed) (holdClaim ctx taskId) d fun held d' =>
        held = true → Keyed d'.store ∧
          ∀ r phase, d'.store.getWorkflow taskId = some r → MaySubmit allowed taskId phase r := by
      refine holdClaim_moves hown (by simp) fun r hr' _ hfree _ => ?_
      refine ⟨keyed_of_moves (modify_moves fun _ _ => .claimed hown) hk, fun r' phase hr'' => ?_⟩
      rw [claimed_getWorkflow hr'] at hr''
      cases hr''
      rw [hr] at hr'
      cases hr'
      refine (hsubmit _ hr ?_ phase).claimed
      simp only [not_or, not_not] at hlive
      simp only [claimable, hlive.2, halive, hrunning, hdue, hfree, decide_true, Bool.not_false,
        Bool.and_self]
    -- The five states that are claimed go on alike.
    split
    case h_6 => exact done_moves
    all_goals
      refine Moves.bind hholds fun held s hs hheld => ?_
      cases held with
      | false => exact done_moves
      | true => exact claimed_moves hown (hheld rfl).1 (hheld rfl).2

theorem proposed_moves (hk : Keyed d.store) (hown : allowed (.own taskId))
    (hsubmit : ∀ r, d.store.getWorkflow taskId = some r →
      MaySubmit allowed taskId .initial r) :
    Moves (Micro ctx allowed) (proposed ctx taskId) d (ProgressOk taskId) := by
  refine Moves.seq (mustGet_moves fun current hr => ?_)
  split
  · exact done_moves
  split
  · exact done_moves
  refine Moves.seq (holdClaim_moves hown done_moves fun r hr' _ _ => ?_)
  simp only [Bool.not_true, Bool.false_eq_true, ↓reduceIte]
  refine submitInitial_moves (keyed_of_moves (modify_moves fun _ _ => .claimed hown) hk) hown
    fun r' hr'' => ?_
  rw [claimed_getWorkflow hr'] at hr''
  cases hr''
  exact (hsubmit _ hr').claimed

theorem sweptExpired_moves (hown : allowed (.own taskId)) :
    Moves (Micro ctx allowed) (sweptExpired ctx taskId) d (ProgressOk taskId) := by
  refine Moves.seq (getWorkflow_moves ?_)
  split
  · exact done_moves
  split
  · exact done_moves
  split
  · exact done_moves
  exact Moves.seq (expire_moves hown fun _ => done_moves)

theorem appliedUpdate_moves {update : CoordinationActionUpdate} (hown : allowed (.own taskId))
    (haccept : ∀ r pkg, d.store.getWorkflow taskId = some r → update.state = .readyForSubmission →
      update.actionPackage = some pkg → allowed (.accept r pkg)) :
    Moves (Micro ctx allowed) (appliedUpdate ctx taskId update) d (ProgressOk taskId) := by
  refine Moves.seq (getWorkflow_moves ?_)
  cases hr : d.store.getWorkflow taskId with
  | none => exact done_moves
  | some current =>
    simp only
    split
    · exact done_moves
    split
    · rename_i hready
      split
      · exact done_moves
      rename_i pkg hpkg
      split
      · exact Moves.seq (resolveUnresolvable_moves done_moves)
      rename_i hmine
      split
      · exact done_moves
      rename_i hawaiting
      refine Moves.seq (updateStore_moves (modify_moves fun r hr' => ?_) ?_)
      · rw [hr] at hr'
        cases hr'
        exact .accepted pkg (haccept _ pkg hr hready hpkg) hown (not_not.mp hawaiting)
          (not_not.mp hmine)
      · exact Moves.seq (compareAndSetState_moves hown .approved (Moves.pure trivial)
          fun _ _ _ => Moves.pure trivial)
    · exact Moves.seq (resolveUnresolvable_moves done_moves)
    · exact Moves.seq (resolveUnresolvable_moves done_moves)
    · exact Moves.seq (resolveUnresolvable_moves done_moves)
    · exact Moves.seq (cancelWorkflow_moves done_moves fun _ => done_moves)
    · exact done_moves

end Lane

end Mpas.WorkflowEngine
