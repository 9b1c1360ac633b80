import Mpas.CoordinationReadiness
import Mpas.WorkflowSteps

/-!
# Runs of the workflow engine

What holds of the store and of the log of remote calls over whole runs, with
crashes and restarts, and what a run needs for it.

* `no_call_after_stop`: after `stop` the engine starts no remote call;
* `replay_never_outcome`: no replay rejection becomes an outcome;
* `key_names_one_request`: requests under one idempotency key have one fingerprint.
-/

namespace Mpas.WorkflowEngine

open Routing WorkflowStore Program Machine

/-! ## One bridge -/

namespace Bridge

open CoordinationReadiness Deployment

def upstreamBinding : Json :=
  .obj [("toolSurface", HashObject.toJson ⟨"sha-256", "n_mVK5yzpcI-JlVh5yf87vkBYnCmzYSLhJ4bx0_w_xU"⟩)]

/-- The replacement with the Approval that Coordination collected. -/
def approved : ActionPackage :=
  { replacement with
    approvalBundle := { replacement.approvalBundle with
      approvals := replacement.approvalBundle.approvals ++
        [⟨replacement.approvalBundle.actionEnvelopeHash, .approve, "header.payload.signature",
          "2025-01-01T00:03:00.000Z", none⟩] } }

def secondReplacementEnvelope : ActionEnvelope :=
  envelope "3f8e5d17-94c1-4f6a-b2d0-71c6a9e4b852" "2025-01-01T00:05:00.000Z"
    "2025-01-01T00:35:00.000Z"

/-- What of a request is fingerprinted. -/
def projection (actionPackage : ActionPackage) (upstreamBinding : List (String × Json)) : Json :=
  .obj ([("version", .str "1"), ("type", .str "ActionRequest"),
    ("actionPackage", actionPackage.toJson)] ++ upstreamBinding)

def digests : List (Json × String) :=
  [(payload, "C1QrUqEwlRhNboIFU1xVyqedBZ5vlikV0pLqPKMsero"),
    (proposedEnvelope.toJson, "uCj9TCr9SJO9PMx7qVJV92_cF4DbruPYh3KkyL9sMLg"),
    (replacementEnvelope.toJson, "CPMkHG9LGqsNGWT6P8bQBjaekHw3WCZ0cpSnQXSGdXs"),
    (secondReplacementEnvelope.toJson, "suJcPbubL3t-l3qRnLXURiP_QAYumALV3fpKMSgocsA"),
    (projection Deployment.proposed [], "Ak0I1Rvf4dHJ8HHLZDdUoEFZkzEcvwR1eRIFFvk64mo"),
    (projection Deployment.proposed [("upstreamBinding", upstreamBinding)],
      "JMB_CdCGOGvllXKSh1BZqHKIL2qh4uWN9z_BeN4NUu8"),
    (projection approved [], "h4ouKS0UrdeCF4bQs8OyItYPvIQ7fSPvvLQ2JQnAyuM")]

def times : List (String × Int) :=
  [("2025-01-01T00:30:00.000Z", 1735691400000), ("2025-01-01T00:31:00.000Z", 1735691460000),
    ("2025-01-01T00:35:00.000Z", 1735691700000)]

def platform : Platform where
  computeJsonHash value := ⟨"sha-256", (digests.lookup value).getD "undigested"⟩
  dateParse text := times.lookup text
  urlOrigin _ := none
  stringify _ := ""

def options : BridgeWorkflowEngineOptions where
  proposerDid := "did:web:agent"
  workerId := "4a6f2c1e-0b8d-4d53-9e27-8c5a1f3b7d60"

def taskId : String := "urn:uuid:d2b1f0a9-58c7-4e36-a415-6f9e3c7b8d02"

def proposal : CreateWorkflowInput where
  taskId := taskId
  actionId := proposedEnvelope.actionId.value
  actionIdempotencyKey := "9c3d7e58-1f42-4b06-8a9d-2e5b7c1f4a30"
  actionEnvelopeHash := (platform.computeJsonHash proposedEnvelope.toJson).value
  toolName := "deploy"
  actionPackage := Deployment.proposed.toJson
  expiresAt := proposedEnvelope.expiresAt

def act (action : Action) : Event := .act { now := 1735689660000 } action

def pending : ActionResponse where
  verifier := some verifierDid
  actionEnvelopeHash := none
  result := .pending

def replayed : ActionResponse where
  verifier := some verifierDid
  actionEnvelopeHash := none
  result := .rejected
  error := some ⟨"REPLAY_DETECTED", "The Action was already dispatched."⟩

def answered (response : ActionResponse) : Event :=
  act (.reply taskId (.actionResponse (.ok response)))

/-- The Verifier wants an Approval. -/
def asked : ActionResponse where
  verifier := some verifierDid
  actionEnvelopeHash := some (platform.computeJsonHash proposedEnvelope.toJson)
  result := .additionalApprovalsRequired
  authorizationRequirements := some (Builders.buildAuthorizationRequirements platform.computeJsonHash
    1735689650000 proposedEnvelope [missing alice] verifierDid)

def replaced : CoordinationReplacement := ⟨replacement, requirementsFor [missing alice]⟩

def replacedWith (replacement : CoordinationReplacement) (randomUUID : String) : Event :=
  act (.reply taskId (.replacement (.ok replacement) randomUUID))

def replacementId : String := replacementEnvelope.actionId.value

/-- Coordination has created the workflow. -/
def created : Event :=
  act (.reply taskId (.coordination (.ok (.obj [("actionId", replacementEnvelope.actionId.toJson)]))))

/-- The Action is proposed and submitted. -/
def submitted : List Event :=
  [.start options, act (.propose proposal), act (.startJob taskId)]

/-- The answer of the Verifier is lost, and the Action is submitted again. -/
def lostAndReplayed : List Event :=
  submitted ++ [act (.reply taskId (.actionResponse (.error (plainError "socket hang up")))),
    act (.advanceTask taskId), .act { now := 1735689960000 } (.startJob taskId),
    answered replayed]

/-- The Action is replaced, and Coordination is asked for Approvals. -/
def handedOver : List Event :=
  submitted ++ [answered asked, replacedWith replaced "5e0a9b1c-7d3f-4a62-8c14-f6b2d9073e58"]

/-- The Verifier has answered that the result is pending, and is asked again. -/
def rechecked : List Event :=
  submitted ++ [answered pending, act (.advanceTask taskId),
    .act { now := 1735689960000 } (.startJob taskId)]


/-- The bridge restarts with its upstream binding while the result is pending. -/
def restartedAndRechecked : List Event :=
  submitted ++ [answered pending, .crash,
    .start { options with upstreamBinding := some upstreamBinding }, act (.advanceTask taskId),
    .act { now := 1735689960000 } (.startJob taskId)]

/-- The requests of the Task that were sent under a key. -/
def sentUnder (key : String) (w : World) : List ActionRequest :=
  w.durable.calls.filterMap fun call => match call.call with
    | .submitActionRequest _ _ request _ => if request.idempotencyKey = key then some request else none
    | _ => none

end Bridge

/-! ## Shutdown -/

/-- A call that starts after `stop` belongs to a call of `cancel`. -/
def CallsStopped (d : Durable) : Prop :=
  ∀ call ∈ d.calls, call.stopped = true → ∃ actionId, call.call = .cancelAction actionId true

/-- No workflow is created in Coordination that was cancelled meanwhile, once
`stop` has returned. -/
def createdInTime (w : World) : Event → Bool
  | .act _ (.reply taskId (.coordination (.ok _))) =>
    !(w.engine.any (·.stopped) &&
      (w.durable.store.getWorkflow taskId).any fun r => decide (r.state = .cancelled))
  | _ => true

theorem CallsStopped.micro {ctx : Context} {allowed : Occasion → Prop} {d d' : Durable}
    (h : CallsStopped d) (hm : Micro ctx allowed d d')
    (hlate : ∀ taskId, allowed (.lateCancel taskId) → ctx.stopped = false) : CallsStopped d' := by
  cases hm with
  | change => exact h
  | created => exact h
  | called call hmay =>
    intro c hc hstopped
    rcases List.mem_append.mp hc with hold | hnew
    · exact h c hold hstopped
    · rw [List.mem_singleton] at hnew
      subst hnew
      simp only at hstopped
      cases call with
      | submitActionRequest => exact absurd hmay.1 (by simp [hstopped])
      | createApprovalWorkflow => exact absurd hmay (by simp [MayCall, hstopped])
      | pollWork => exact absurd hmay (by simp [MayCall, hstopped])
      | cancelAction actionId byCaller =>
        rcases hmay with rfl | ⟨taskId, hallowed⟩
        · exact ⟨actionId, rfl⟩
        · exact absurd (hlate taskId hallowed) (by simp [hstopped])

/-- **No remote call starts after `stop`** has returned, but for those of `cancel`. -/
theorem no_call_after_stop (platform : Platform) {events : List Event} {w : World}
    (hrun : Run (step platform) (fun w event => createdInTime w event = true) {} events w) :
    ∀ call ∈ w.durable.calls, call.stopped = true →
      ∃ actionId, call.call = .cancelAction actionId true := by
  refine run_invariant (I := CallsStopped) ?_ hrun .init (by simp [CallsStopped])
  intro w engine moment action d d' _ hengine hc hi hm
  refine hi.micro hm fun taskId hlate => ?_
  obtain ⟨⟨ref, rfl⟩, r, hr, hcancelled⟩ := hlate
  show engine.stopped = false
  simpa [createdInTime, hengine, hr, hcancelled] using hc

section

open Bridge

/-- The cancellation that the caller asks for after `stop` is the only call. -/
theorem no_call_after_stop_cancelled : ∃ w,
    Run (step platform) (fun w event => createdInTime w event = true) {}
      (handedOver ++ [created, act .stop, act (.cancel taskId)]) w ∧
    w.durable.calls.filter (·.stopped) = [⟨.cancelAction replacementId true, true⟩] ∧
    ∀ call ∈ w.durable.calls, call.stopped = true →
      ∃ actionId, call.call = .cancelAction actionId true := by
  have hexec : ∃ w, Run (step platform) (fun w event => createdInTime w event = true) {}
      (handedOver ++ [created, act .stop, act (.cancel taskId)]) w ∧
      w.durable.calls.filter (·.stopped) = [⟨.cancelAction replacementId true, true⟩] :=
    run_of_checked_any (by decide +kernel)
  obtain ⟨w, hw, hcalls⟩ := hexec
  exact ⟨w, hw, hcalls, no_call_after_stop platform hw⟩

/-- Coordination answers after the workflow was cancelled and the engine
stopped, and the engine calls it again. -/
theorem late_cancellation_after_stop : ∃ w,
    Run (step platform) Free {} (handedOver ++ [act (.cancel taskId), act .stop, created]) w ∧
    ⟨.cancelAction replacementId false, true⟩ ∈ w.durable.calls :=
  run_of_exec_any (by decide +kernel)

end

/-! ## Replays -/

/-- No outcome is the rejection of a replay. -/
def OutcomesOk (d : Durable) : Prop :=
  ∀ taskId r, d.store.getWorkflow taskId = some r → ∀ response receipt,
    r.resolution = some (.resolved response receipt) → isReplayRejection response = false

/-- No initial submission of a workflow that is still open is answered as a replay. -/
def initialIsFirst (w : World) : Event → Bool
  | .act _ (.reply taskId (.actionResponse (.ok response))) =>
    !isReplayRejection response ||
      (w.engine.any fun engine => (engine.lane taskId).head?.any fun job =>
        decide (job.point ≠ .submitted .initial)) ||
      (w.durable.store.getWorkflow taskId).all (·.state.isTerminal)
  | _ => true

theorem settledRecord_resolution {now : Int} {resolution : WorkflowResolution} {r : WorkflowRecord}
    (hopen : r.state.isTerminal = false) :
    (MemoryWorkflowStore.settledRecord now resolution r).resolution = some resolution := by
  simp [MemoryWorkflowStore.settledRecord, hopen]

section Outcomes

variable {ctx : Context} {allowed : Occasion → Prop} {d d' : Durable} {taskId : String}

/-- An outcome is an answer that the step settles on. -/
theorem Change.outcome {r r' : WorkflowRecord} (h : Change ctx allowed taskId r r')
    {response : ActionResponse} {receipt : Option String}
    (hr' : r'.resolution = some (.resolved response receipt)) :
    r.resolution = some (.resolved response receipt) ∨
      ∃ phase, allowed (.settle taskId phase response) ∧
        (phase = .completed → isReplayRejection response = false) := by
  cases h with
  | settled phase answer hallowed hreplay hopen =>
    rw [settledRecord_resolution hopen] at hr'
    cases hr'
    exact Or.inr ⟨phase, hallowed, hreplay⟩
  | unresolvable errorCode errorMessage hopen =>
    rw [settledRecord_resolution hopen] at hr'
    cases hr'
  | cancelled hopen =>
    rw [settledRecord_resolution hopen] at hr'
    cases hr'
  | _ => exact Or.inl hr'

theorem OutcomesOk.micro (h : OutcomesOk d) (hm : Micro ctx allowed d d')
    (hfirst : ∀ taskId response, allowed (.settle taskId .initial response) →
      isReplayRejection response = false) : OutcomesOk d' := by
  intro task r' hr' response receipt hresolved
  cases hm with
  | called => exact h task r' hr' response receipt hresolved
  | created _ _ hlookup =>
    rw [hlookup] at hr'
    split at hr'
    · cases hr'
      cases hresolved
    · exact h task r' hr' response receipt hresolved
  | change hget hchange hlookup =>
    rw [hlookup] at hr'
    split at hr'
    · cases hr'
      rcases hchange.outcome hresolved with hold | ⟨phase, hallowed, hreplay⟩
      · exact h _ _ hget response receipt hold
      · cases phase with
        | initial => exact hfirst _ response hallowed
        | completed => exact hreplay rfl
    · exact h task r' hr' response receipt hresolved

end Outcomes

/-! ### What a program does where nothing can fail -/

section Execution

variable {ctx : Context} {taskId : String} {d : Durable} {E : Failure → Durable → Prop}
variable {C : Durable → Prop}

@[simp] theorem wp_getWorkflow {Q : Option WorkflowRecord → Durable → Prop} :
    wp (getWorkflow taskId) Q E C d ↔ Q (d.store.getWorkflow taskId) d := by
  simp [getWorkflow]

theorem wp_mustGet {r : WorkflowRecord} (hr : d.store.getWorkflow taskId = some r)
    {Q : WorkflowRecord → Durable → Prop} : wp (mustGet taskId) Q E C d ↔ Q r d := by
  simp [mustGet, hr]

@[simp] theorem wp_updateStore {f : MemoryWorkflowStore → MemoryWorkflowStore}
    {Q : Unit → Durable → Prop} :
    wp (updateStore f) Q E C d ↔ C d ∧ Q () { d with store := f d.store } :=
  wp_write _

@[simp] theorem wp_tryStore {f : MemoryWorkflowStore → Bool × MemoryWorkflowStore}
    {Q : Bool → Durable → Prop} :
    wp (tryStore f) Q E C d ↔ C d ∧ Q (f d.store).1 { d with store := (f d.store).2 } :=
  wp_write _

@[simp] theorem wp_send {call : RemoteCall} {Q : Unit → Durable → Prop} :
    wp (send ctx call) Q E C d ↔ C d ∧ Q () { d with calls := d.calls ++ [⟨call, ctx.stopped⟩] } :=
  wp_write _

@[simp] theorem wp_recordAttempt {stage : AttemptStage} {outcome : AttemptOutcome}
    {error : Option Failure} {Q : Unit → Durable → Prop} :
    wp (recordAttempt ctx taskId stage outcome error) Q E C d ↔ C d ∧ Q () { d with
      store := d.store.saveAdapterAttempt ctx.now taskId (.attempt (attemptEntry ctx
        ((d.store.getWorkflow taskId).bind lastAttempt) stage outcome error)) } := by
  simp [recordAttempt, saveAdapterAttempt]

/-- Nothing comes of an answer once the workflow has ended. -/
theorem afterInitial_terminal {r : WorkflowRecord} {response : ActionResponse}
    (hr : d.store.getWorkflow taskId = some r) (hterminal : r.state.isTerminal = true) :
    wp (afterInitial ctx taskId (.ok response)) (fun _ d' => d' = d) E C d := by
  simp [afterInitial, wp_mustGet hr, hterminal, done]

theorem afterCompleted_terminal {r : WorkflowRecord} {response : ActionResponse}
    (hr : d.store.getWorkflow taskId = some r) (hterminal : r.state.isTerminal = true) :
    wp (afterCompleted ctx taskId (.ok response)) (fun _ d' => d' = d) E C d := by
  simp [afterCompleted, wp_mustGet hr, hterminal, done]

theorem rejected_of_replay {response : ActionResponse} (h : isReplayRejection response = true) :
    response.result = .rejected := by
  simp only [isReplayRejection, Bool.and_eq_true, decide_eq_true_eq] at h
  exact h.1

theorem afterCompleted_replay {r : WorkflowRecord} {response : ActionResponse}
    (hr : d.store.getWorkflow taskId = some r) (hopen : r.state.isTerminal = false)
    (hreplay : isReplayRejection response = true) :
    wp (afterCompleted ctx taskId (.ok response))
      (fun _ d' => ∃ r', d'.store.getWorkflow taskId = some r' ∧ r'.state = .unresolvable)
      E (fun _ => True) d := by
  have hresult := rejected_of_replay hreplay
  simp [afterCompleted, wp_mustGet hr, hopen, hresult, hreplay, resolveUnresolvable, done,
    MemoryWorkflowStore.saveAdapterAttempt, MemoryWorkflowStore.resolveWorkflow,
    MemoryWorkflowStore.settledRecord, WorkflowResolution.kind, hr]

end Execution

/-- An answer to a submission reaches the program that waits for it. -/
theorem step_actionResponse {platform : Platform} {w w' : World} {moment : Moment}
    {taskId : String} {outcome : Except Failure ActionResponse}
    (h : step platform w (.act moment (.reply taskId (.actionResponse outcome))) = some w') :
    ∃ engine job rest phase, w.engine = some engine ∧ engine.lane taskId = job :: rest ∧
      job.point = .submitted phase ∧
      engine.act (contextAt platform engine moment) (.reply taskId (.actionResponse outcome)) =
        some (engine.onLane taskId job rest (match phase with
          | .initial => afterInitial (contextAt platform engine moment) taskId outcome
          | .completed => afterCompleted (contextAt platform engine moment) taskId outcome)) := by
  obtain ⟨engine, hengine, hact⟩ := Option.bind_eq_some_iff.mp h
  obtain ⟨program, hprogram, -⟩ := Option.bind_eq_some_iff.mp hact
  simp only [Engine.act] at hprogram
  split at hprogram
  · rename_i job rest hlane
    obtain ⟨program', hcontinue, -⟩ := Option.map_eq_some_iff.mp hprogram
    cases hpoint : job.point with
    | submitted phase =>
      refine ⟨engine, job, rest, phase, hengine, hlane, hpoint, ?_⟩
      cases phase <;> simp [Engine.act, hlane, hpoint, Point.continue]
    | _ => simp [hpoint, Point.continue] at hcontinue
  · cases hprogram

/-- **No replay rejection becomes the outcome** of a workflow, and one that
answers a submission leaves the workflow unresolvable, or ended as it was. -/
theorem replay_never_outcome (platform : Platform) {events : List Event} {w : World}
    (hrun : Run (step platform) (fun w event => initialIsFirst w event = true) {} events w) :
    (∀ taskId r, w.durable.store.getWorkflow taskId = some r → ∀ response receipt,
      r.resolution = some (.resolved response receipt) → isReplayRejection response = false) ∧
    ∀ taskId response moment w', isReplayRejection response = true → moment.crashAfter = none →
      initialIsFirst w (.act moment (.reply taskId (.actionResponse (.ok response)))) = true →
      step platform w (.act moment (.reply taskId (.actionResponse (.ok response)))) = some w' →
      ∃ r r', w.durable.store.getWorkflow taskId = some r ∧
        w'.durable.store.getWorkflow taskId = some r' ∧
        (r' = r ∧ r.state.isTerminal = true ∨ r'.state = .unresolvable) := by
  constructor
  · refine run_invariant (I := OutcomesOk) ?_ hrun .init (fun _ _ h => by cases h)
    intro w engine moment action d d' _ hengine hc hi hm
    refine hi.micro hm fun taskId response hsettle => ?_
    obtain ⟨rfl, ⟨job, rest, hlane, hpoint⟩, r, hr, hopen⟩ := hsettle
    simpa [initialIsFirst, hengine, hlane, hpoint, hr, hopen] using hc
  · intro taskId response moment w' hreplay hcrash hc hstep
    obtain ⟨engine, job, rest, phase, hengine, hlane, hpoint, hact⟩ := step_actionResponse hstep
    have hok := ((Sound.init.run hrun).lanes engine hengine taskId job rest hlane).1
    rw [hpoint] at hok
    obtain ⟨r, hr, -⟩ := hok
    cases hterminal : r.state.isTerminal with
    | true =>
      have hsame : w'.durable = w.durable := by
        cases phase with
        | initial =>
          exact (step_onLane hengine hact (afterInitial_terminal (C := fun _ => True) hr hterminal)
            hcrash hstep).choose_spec.1
        | completed =>
          exact (step_onLane hengine hact
            (afterCompleted_terminal (C := fun _ => True) hr hterminal) hcrash hstep).choose_spec.1
      exact ⟨r, r, hr, by rw [hsame, hr], Or.inl ⟨rfl, hterminal⟩⟩
    | false =>
      cases phase with
      | initial => simp [initialIsFirst, hengine, hlane, hpoint, hr, hterminal, hreplay] at hc
      | completed =>
        obtain ⟨-, ⟨r', hr', hstate⟩, -⟩ :=
          step_onLane hengine hact (afterCompleted_replay hr hterminal hreplay) hcrash hstep
        exact ⟨r, r', hr, hr', Or.inr hstate⟩

section

open Bridge

/-- The replay that answers the second submission is not the outcome. -/
theorem replay_never_outcome_recheck : ∃ w,
    Run (step platform) (fun w event => initialIsFirst w event = true) {}
      (rechecked ++ [answered replayed]) w ∧
    (w.durable.store.getWorkflow taskId).map (·.state) = some .unresolvable ∧
    ∀ r, w.durable.store.getWorkflow taskId = some r → ∀ response receipt,
      r.resolution = some (.resolved response receipt) → isReplayRejection response = false := by
  have hexec : ∃ w, Run (step platform) (fun w event => initialIsFirst w event = true) {}
      (rechecked ++ [answered replayed]) w ∧
      (w.durable.store.getWorkflow taskId).map (·.state) = some .unresolvable :=
    run_of_checked_any (by decide +kernel)
  obtain ⟨w, hw, hstate⟩ := hexec
  exact ⟨w, hw, hstate, (replay_never_outcome platform hw).1 taskId⟩

/-- The replay that answers the first submission after a lost response is
reported as the outcome of the Action. -/
theorem replay_resolved : ∃ w, Run (step platform) Free {} lostAndReplayed w ∧
    isReplayRejection replayed = true ∧
    (w.durable.store.getWorkflow taskId).map (·.resolution) =
      some (some (.resolved replayed none)) :=
  run_of_exec_any (by decide +kernel)

end

/-! ## Idempotency keys -/

def validIdempotencyKey (key : String) : Bool :=
  decide (0 < lengthOf key ∧ lengthOf key ≤ MPAS_MAX_IDEMPOTENCY_KEY_LENGTH)

/-- The initial requests of a Task that were sent under a key. -/
def initialSent (d : Durable) (taskId key : String) : List ActionRequest :=
  d.calls.filterMap fun call => match call.call with
    | .submitActionRequest task .initial request _ =>
      if task = taskId ∧ request.idempotencyKey = key then some request else none
    | _ => none

/-- The option is the one that the initial requests under the key of the workflow were
sent with, unless a completed submission was bound to the key before. -/
def keepsBinding (ctx : Context) (d : Durable) (taskId : String) (r : WorkflowRecord) : Bool :=
  !(bindingsOf r.adapterAttempts .completed r.actionIdempotencyKey).isEmpty ||
    (initialSent d taskId r.actionIdempotencyKey).all fun request =>
      decide (request.upstreamBinding = ctx.options.upstreamBinding)

/-- Nothing in the log of the record is bound to the key. -/
def isNewKey (key : String) (r : WorkflowRecord) : Bool :=
  r.adapterAttempts.all fun
    | .idempotencyBound binding => decide (binding.idempotencyKey ≠ key)
    | _ => true

/-- Keys are well-formed, random ones are new, and the upstream binding is not changed
between the initial request under a key and the first completed one. -/
def keysKept (platform : Platform) (w : World) : Event → Bool
  | .act _ (.propose input) => validIdempotencyKey input.actionIdempotencyKey
  | .act _ (.reply taskId (.replacement (.ok _) randomUUID)) =>
    validIdempotencyKey randomUUID && (w.durable.store.getWorkflow taskId).all (isNewKey randomUUID)
  | .act moment (.startJob taskId) => match w.engine, w.durable.store.getWorkflow taskId with
    | some engine, some r => match engine.lane taskId with
      | { operation := .claimable respectSchedule, .. } :: _ =>
        let ctx := contextAt platform engine moment
        !(claimable ctx respectSchedule r && decide (PhaseStarts .completed r.state)) ||
          keepsBinding ctx w.durable taskId r
      | _ => true
    | _, _ => true
  | _ => true

/-- The bindings in the log of a record. -/
structure LogOk (r : WorkflowRecord) : Prop where
  key : validIdempotencyKey r.actionIdempotencyKey = true
  wellFormed : ∀ binding, .idempotencyBound binding ∈ r.adapterAttempts →
    submissionIdempotencyBinding (.idempotencyBound binding) = some binding
  agree : ∀ a b, .idempotencyBound a ∈ r.adapterAttempts → .idempotencyBound b ∈ r.adapterAttempts →
    a.stage = b.stage → a.idempotencyKey = b.idempotencyKey →
    a.requestFingerprint = b.requestFingerprint
  created : ∀ binding, r.state = .created → .idempotencyBound binding ∈ r.adapterAttempts →
    binding.stage = .initial

theorem LogOk.mem_bindingsOf {r : WorkflowRecord} (h : LogOk r)
    {binding : SubmissionIdempotencyBinding}
    (hmem : .idempotencyBound binding ∈ r.adapterAttempts) :
    binding ∈ bindingsOf r.adapterAttempts binding.stage binding.idempotencyKey := by
  refine List.mem_filter.mpr ⟨List.mem_filterMap.mpr ⟨_, hmem, h.wellFormed binding hmem⟩, ?_⟩
  simp

section Log

variable {ctx : Context} {allowed : Occasion → Prop} {d d' : Durable} {taskId : String}

/-- A fresh record has an empty log. -/
theorem LogOk.new {r : WorkflowRecord} (hkey : validIdempotencyKey r.actionIdempotencyKey = true)
    (hempty : r.adapterAttempts = []) : LogOk r := by
  refine ⟨hkey, ?_, ?_, ?_⟩ <;> simp [hempty]

/-- A record that ends keeps its log. -/
theorem LogOk.settled {r : WorkflowRecord} (h : LogOk r) {now : Int}
    {resolution : WorkflowResolution} :
    LogOk (MemoryWorkflowStore.settledRecord now resolution r) := by
  unfold MemoryWorkflowStore.settledRecord
  split
  · exact h
  · refine ⟨h.key, h.wellFormed, h.agree, fun binding hstate => ?_⟩
    cases resolution <;> cases hstate

/-- The first request of a phase under a key binds it. -/
theorem LogOk.bound {r : WorkflowRecord} (h : LogOk r) {phase : SubmissionPhase}
    {requestFingerprint : String} (hfits : PhaseFits phase r.state)
    (hnonempty : 0 < lengthOf requestFingerprint)
    (hfirst : bindingsOf r.adapterAttempts phase r.actionIdempotencyKey = []) :
    LogOk (loggedRecord ctx (.idempotencyBound
      ⟨phase, r.actionIdempotencyKey, requestFingerprint, ctx.now⟩) r) := by
  have hnone : ∀ binding, .idempotencyBound binding ∈ r.adapterAttempts →
      binding.stage = phase → binding.idempotencyKey ≠ r.actionIdempotencyKey := by
    rintro binding hmem rfl hkey
    have hin := h.mem_bindingsOf hmem
    rw [hkey, hfirst] at hin
    cases hin
  have hkey := of_decide_eq_true h.key
  refine ⟨h.key, fun binding hmem => ?_, fun a b ha hb hstage hab => ?_,
    fun binding hstate hmem => ?_⟩
  · rcases List.mem_append.mp hmem with hold | hnew
    · exact h.wellFormed binding hold
    · cases List.mem_singleton.mp hnew
      exact if_pos ⟨hkey.1, hkey.2, hnonempty⟩
  · rcases List.mem_append.mp ha with ha | ha <;> rcases List.mem_append.mp hb with hb | hb
    · exact h.agree a b ha hb hstage hab
    · cases List.mem_singleton.mp hb
      exact absurd hab (hnone a ha hstage)
    · cases List.mem_singleton.mp ha
      exact absurd hab.symm (hnone b hb hstage.symm)
    · cases List.mem_singleton.mp ha
      cases List.mem_singleton.mp hb
      rfl
  · rcases List.mem_append.mp hmem with hold | hnew
    · exact h.created binding hstate hold
    · cases List.mem_singleton.mp hnew
      cases phase with
      | initial => rfl
      | completed =>
        have hstate : r.state = .created := hstate
        rcases hfits with hfits | hfits <;> rw [hfits] at hstate <;> cases hstate

/-- What a write needs of its environment for the logs. -/
structure KeysAllowed (ctx : Context) (allowed : Occasion → Prop) (d : Durable) : Prop where
  fingerprints : ∀ value, 0 < lengthOf (ctx.platform.computeJsonHash value).value
  created : ∀ input, allowed (.create input) →
    validIdempotencyKey input.actionIdempotencyKey = true
  replaced : ∀ taskId key, allowed (.replace taskId key) → validIdempotencyKey key = true ∧
    ∀ r, d.store.getWorkflow taskId = some r → isNewKey key r = true
  submitted : ∀ taskId key attempts pkg, allowed (.submit taskId .completed key attempts pkg) →
    bindingsOf attempts .completed key = [] →
    ∀ request ∈ initialSent d taskId key, request.upstreamBinding = ctx.options.upstreamBinding

theorem fingerprint_nonempty {platform : Platform} {request : ActionRequest}
    {requestFingerprint : String}
    (hhash : ∀ value, 0 < lengthOf (platform.computeJsonHash value).value)
    (h : request.fingerprint platform = .ok requestFingerprint) : 0 < lengthOf requestFingerprint := by
  unfold ActionRequest.fingerprint computeIdempotencyFingerprint at h
  cases hp : idempotencyProjection platform "$" request.toJson with
  | error error => simp [hp, bind, Except.bind] at h
  | ok projection =>
    simp only [hp, bind, Except.bind, pure, Except.pure, Except.ok.injEq] at h
    rw [← h]
    exact hhash projection

theorem LogOk.change {r r' : WorkflowRecord} (h : LogOk r) (hallow : KeysAllowed ctx allowed d)
    (hc : Change ctx allowed taskId r r') : LogOk r' := by
  cases hc with
  | kept => exact h
  | claimed => exact ⟨h.key, h.wellFormed, h.agree, h.created⟩
  | attempted entry =>
    have hold : ∀ binding,
        .idempotencyBound binding ∈ (loggedRecord ctx (.attempt entry) r).adapterAttempts →
        .idempotencyBound binding ∈ r.adapterAttempts := by simp [loggedRecord]
    exact ⟨h.key, fun b hb => h.wellFormed b (hold b hb),
      fun a b ha hb => h.agree a b (hold a ha) (hold b hb),
      fun b hstate hb => h.created b hstate (hold b hb)⟩
  | bound phase requestFingerprint _ _ hfits hfp hfirst =>
    exact h.bound hfits (fingerprint_nonempty hallow.fingerprints hfp) hfirst
  | answered => exact ⟨h.key, h.wellFormed, h.agree, h.created⟩
  | referred => exact ⟨h.key, h.wellFormed, h.agree, h.created⟩
  | moved source target _ _ hedge =>
    refine ⟨h.key, h.wellFormed, h.agree, fun binding hstate => ?_⟩
    have htarget : target = .created := hstate
    subst htarget
    cases hedge
  | accepted => exact ⟨h.key, h.wellFormed, h.agree, h.created⟩
  | settled => exact h.settled
  | unresolvable => exact h.settled
  | cancelled => exact h.settled
  | replaced input _ hallowed =>
    exact ⟨(hallow.replaced taskId _ hallowed).1, h.wellFormed, h.agree,
      fun _ hstate => by cases hstate⟩

/-- Logs only grow. -/
theorem Change.keeps_log {r r' : WorkflowRecord} (h : Change ctx allowed taskId r r')
    {attempt : AdapterAttempt} (hmem : attempt ∈ r.adapterAttempts) :
    attempt ∈ r'.adapterAttempts := by
  have hsettled : ∀ resolution,
      attempt ∈ (MemoryWorkflowStore.settledRecord ctx.now resolution r).adapterAttempts := by
    intro resolution
    unfold MemoryWorkflowStore.settledRecord
    split <;> exact hmem
  cases h with
  | attempted => exact List.mem_append_left _ hmem
  | bound => exact List.mem_append_left _ hmem
  | settled => exact hsettled _
  | unresolvable => exact hsettled _
  | cancelled => exact hsettled _
  | _ => exact hmem

/-- Every request that was sent is bound to its key in the log of its workflow. -/
def SentBound (platform : Platform) (d : Durable) : Prop :=
  ∀ call ∈ d.calls, ∀ taskId phase request hash,
    call.call = .submitActionRequest taskId phase request hash →
    ∃ r binding, d.store.getWorkflow taskId = some r ∧
      .idempotencyBound binding ∈ r.adapterAttempts ∧ binding.stage = phase ∧
      binding.idempotencyKey = request.idempotencyKey ∧
      request.fingerprint platform = .ok binding.requestFingerprint

theorem SentBound.micro (h : SentBound ctx.platform d) (hm : Micro ctx allowed d d') :
    SentBound ctx.platform d' := by
  intro call hcall task phase request hash heq
  cases hm with
  | called call' hmay =>
    rcases List.mem_append.mp hcall with hold | hnew
    · exact h call hold task phase request hash heq
    · cases List.mem_singleton.mp hnew
      simp only at heq
      subst heq
      obtain ⟨-, r, hr, -, -, hrequest, binding, hmem, hstage, hkey, hfp⟩ := hmay
      refine ⟨r, binding, hr, hmem, hstage, ?_, hfp⟩
      rw [hkey, hrequest]
      rfl
  | created _ hnone hlookup =>
    obtain ⟨r, binding, hr, hrest⟩ := h call hcall task phase request hash heq
    refine ⟨r, binding, ?_, hrest⟩
    rw [hlookup, if_neg, hr]
    rintro rfl
    rw [hnone] at hr
    cases hr
  | change hget hchange hlookup =>
    obtain ⟨r, binding, hr, hmem, hrest⟩ := h call hcall task phase request hash heq
    rename_i taskId r₁ r₁' store
    by_cases htask : taskId = task
    · subst htask
      rw [hget] at hr
      cases hr
      exact ⟨r₁', binding, by rw [hlookup, if_pos rfl], hchange.keeps_log hmem, hrest⟩
    · exact ⟨r, binding, by rw [hlookup, if_neg htask, hr], hmem, hrest⟩

/-! ### Initial requests -/

theorem mem_initialSent {key : String} {request : ActionRequest} :
    request ∈ initialSent d taskId key ↔ ∃ call ∈ d.calls, ∃ hash,
      call.call = .submitActionRequest taskId .initial request hash ∧
        request.idempotencyKey = key := by
  simp only [initialSent, List.mem_filterMap]
  refine exists_congr fun call => and_congr_right fun _ => ?_
  split
  next task sent hash hcall =>
    rw [hcall]
    constructor
    · intro h
      split at h
      next hsame =>
        obtain rfl := Option.some.inj h
        exact ⟨hash, by rw [hsame.1], hsame.2⟩
      next => cases h
    · rintro ⟨_, heq, hkey⟩
      cases heq
      rw [if_pos ⟨rfl, hkey⟩]
  next hother =>
    refine iff_of_false (by simp) ?_
    rintro ⟨hash, heq, -⟩
    exact hother _ _ _ heq

/-- What the record of a Task and its initial requests have to do with each other: the
request under the current key is that of the first Action, for which nothing else was
sent yet but the same package, and a completed submission under its key repeats it. -/
structure InitialOk (platform : Platform) (d : Durable) (taskId : String) (r : WorkflowRecord) :
    Prop where
  incomplete : r.state = .created → r.completedPackage = none
  sent : ∀ request ∈ initialSent d taskId r.actionIdempotencyKey,
    request.actionPackage = r.actionPackage ∧ r.completedPackage = none ∧
      (r.state = .created ∨ r.state = .awaitingVerifierResult ∨ r.state.isTerminal = true)
  repeated : ∀ binding, .idempotencyBound binding ∈ r.adapterAttempts →
    binding.stage = .completed → ∀ request ∈ initialSent d taskId binding.idempotencyKey,
    request.fingerprint platform = .ok binding.requestFingerprint

theorem InitialOk.of_calls {platform : Platform} {r : WorkflowRecord}
    (h : InitialOk platform d taskId r) (hcalls : d'.calls = d.calls) :
    InitialOk platform d' taskId r := by
  have hsame : ∀ key, initialSent d' taskId key = initialSent d taskId key := by
    intro key
    unfold initialSent
    rw [hcalls]
  refine ⟨h.incomplete, ?_, ?_⟩
  · rw [hsame]
    exact h.sent
  · intro binding
    rw [hsame]
    exact h.repeated binding

/-- A record with the same request and no new bindings, moved or ended. -/
theorem InitialOk.of_same {platform : Platform} {r r' : WorkflowRecord}
    (h : InitialOk platform d taskId r) (hkey : r'.actionIdempotencyKey = r.actionIdempotencyKey)
    (hpackage : r'.actionPackage = r.actionPackage)
    (hcompleted : r'.completedPackage = r.completedPackage)
    (hlog : ∀ binding, .idempotencyBound binding ∈ r'.adapterAttempts →
      .idempotencyBound binding ∈ r.adapterAttempts)
    (hstate : r'.state = r.state ∨ r'.state ≠ .created ∧
      (r.state = .created ∨ r.state = .awaitingVerifierResult ∨ r.state.isTerminal = true →
        r'.state = .awaitingVerifierResult ∨ r'.state.isTerminal = true)) :
    InitialOk platform d taskId r' := by
  refine ⟨fun hcreated => ?_, fun request hmem => ?_, fun binding hbinding => ?_⟩
  · rcases hstate with hsame | ⟨hne, -⟩
    · rw [hcompleted, h.incomplete (hsame ▸ hcreated)]
    · exact absurd hcreated hne
  · rw [hkey] at hmem
    obtain ⟨hpkg, hnone, hfirst⟩ := h.sent request hmem
    refine ⟨hpkg.trans hpackage.symm, hcompleted.trans hnone, ?_⟩
    rcases hstate with hsame | ⟨-, hmoved⟩
    · rwa [hsame]
    · exact .inr (hmoved hfirst)
  · exact h.repeated binding (hlog binding hbinding)

theorem InitialOk.settled {platform : Platform} {r : WorkflowRecord} {now : Int}
    {resolution : WorkflowResolution} (h : InitialOk platform d taskId r) :
    InitialOk platform d taskId (MemoryWorkflowStore.settledRecord now resolution r) := by
  have hterminal := settledRecord_isTerminal now resolution r
  refine h.of_same ?_ ?_ ?_ ?_ (.inr ⟨fun hcreated => ?_, fun _ => .inr hterminal⟩)
  · unfold MemoryWorkflowStore.settledRecord
    split <;> rfl
  · unfold MemoryWorkflowStore.settledRecord
    split <;> rfl
  · unfold MemoryWorkflowStore.settledRecord
    split <;> rfl
  · unfold MemoryWorkflowStore.settledRecord
    split <;> exact fun _ hmem => hmem
  · rw [hcreated] at hterminal
    cases hterminal

/-- The states that no edge leads out of the first Action into. -/
theorem Edge.of_first {source target : BridgeWorkflowState} (h : Edge source target)
    (hfirst : source = .created ∨ source = .awaitingVerifierResult ∨ source.isTerminal = true) :
    target = .awaitingVerifierResult := by
  cases h with
  | pending => rfl
  | _ => simp [BridgeWorkflowState.isTerminal] at hfirst

/-- The first completed submission under a key repeats the initial request. -/
theorem InitialOk.bound_completed {r : WorkflowRecord} {requestFingerprint : String}
    (h : InitialOk ctx.platform d taskId r)
    (hoption : ∀ request ∈ initialSent d taskId r.actionIdempotencyKey,
      request.upstreamBinding = ctx.options.upstreamBinding)
    (hfp : (actionRequestFor ctx r.actionIdempotencyKey (packageFor .completed r)).fingerprint
      ctx.platform = .ok requestFingerprint) :
    ∀ request ∈ initialSent d taskId r.actionIdempotencyKey,
      request.fingerprint ctx.platform = .ok requestFingerprint := by
  intro request hmem
  obtain ⟨hpackage, hnone, -⟩ := h.sent request hmem
  obtain ⟨_, _, _, _, hkey⟩ := mem_initialSent.mp hmem
  have hsame : request =
      actionRequestFor ctx r.actionIdempotencyKey (packageFor .completed r) := by
    obtain ⟨key, actionPackage, upstreamBinding⟩ := request
    have hbinding := hoption _ hmem
    simp only at hkey hpackage hbinding
    subst hkey hpackage hbinding
    simp [actionRequestFor, packageFor, hnone, Json.nullish]
  rw [hsame, hfp]

theorem InitialOk.change {r r' : WorkflowRecord} (h : InitialOk ctx.platform d taskId r)
    (hsent : SentBound ctx.platform d)
    (hget : d.store.getWorkflow taskId = some r) (hallow : KeysAllowed ctx allowed d)
    (hc : Change ctx allowed taskId r r') : InitialOk ctx.platform d taskId r' := by
  cases hc with
  | kept => exact h
  | claimed => exact h.of_same rfl rfl rfl (fun _ hmem => hmem) (.inl rfl)
  | attempted entry =>
    exact h.of_same rfl rfl rfl (by simp [loggedRecord]) (.inl rfl)
  | answered => exact h.of_same rfl rfl rfl (fun _ hmem => hmem) (.inl rfl)
  | referred => exact h.of_same rfl rfl rfl (fun _ hmem => hmem) (.inl rfl)
  | settled => exact h.settled
  | unresolvable => exact h.settled
  | cancelled => exact h.settled
  | moved source target _ hstate hedge =>
    refine h.of_same rfl rfl rfl (fun _ hmem => hmem) (.inr ⟨fun hcreated => ?_, fun hfirst => ?_⟩)
    · have htarget : target = .created := hcreated
      subst htarget
      cases hedge
    · exact .inl (hedge.of_first (hstate ▸ hfirst))
  | bound phase requestFingerprint hallowed _ _ hfp hfirst =>
    refine ⟨h.incomplete, h.sent, fun binding hmem hstage => ?_⟩
    rcases List.mem_append.mp hmem with hold | hnew
    · exact h.repeated binding hold hstage
    · cases List.mem_singleton.mp hnew
      subst hstage
      exact h.bound_completed (hallow.submitted taskId _ _ _ hallowed hfirst) hfp
  | accepted completedPackage _ _ hstate =>
    refine ⟨fun hcreated => ?_, fun request hmem => ?_, h.repeated⟩
    · have hcreated : r.state = .created := hcreated
      rw [hstate] at hcreated
      cases hcreated
    · have hfirst := (h.sent request hmem).2.2
      rw [hstate] at hfirst
      simp [BridgeWorkflowState.isTerminal] at hfirst
  | replaced input _ hallowed =>
    -- nothing was sent under a key that nothing is bound to
    have hnew := (hallow.replaced taskId _ hallowed).2 r hget
    refine ⟨fun hcreated => (by cases hcreated), fun request hmem => ?_, h.repeated⟩
    obtain ⟨call, hcall, hash, heq, hkey⟩ := mem_initialSent.mp hmem
    obtain ⟨r₁, binding, hr₁, hbinding, -, hbkey, -⟩ := hsent call hcall _ _ _ _ heq
    rw [hget] at hr₁
    cases hr₁
    have hne := List.all_eq_true.mp hnew _ hbinding
    exact absurd (hbkey.trans hkey) (of_decide_eq_true hne)

structure KeysOk (platform : Platform) (d : Durable) : Prop where
  logs : ∀ taskId r, d.store.getWorkflow taskId = some r → LogOk r
  sent : SentBound platform d
  initial : ∀ taskId r, d.store.getWorkflow taskId = some r → InitialOk platform d taskId r

/-- An initial request is sent for a new workflow. -/
theorem InitialOk.called {r : WorkflowRecord} {call : RemoteCall}
    (h : InitialOk ctx.platform d taskId r) (hlog : LogOk r)
    (hget : d.store.getWorkflow taskId = some r) (hmay : MayCall ctx allowed d call) :
    InitialOk ctx.platform { d with calls := d.calls ++ [⟨call, ctx.stopped⟩] } taskId r := by
  have hnew : ∀ {key request},
      request ∈ initialSent { d with calls := d.calls ++ [⟨call, ctx.stopped⟩] } taskId key →
      request ∈ initialSent d taskId key ∨ key = r.actionIdempotencyKey ∧ r.state = .created ∧
        request.actionPackage = r.actionPackage := by
    intro key request hmem
    obtain ⟨sent, hsent, hash, heq, hkey⟩ := mem_initialSent.mp hmem
    rcases List.mem_append.mp hsent with hold | hlast
    · exact .inl (mem_initialSent.mpr ⟨sent, hold, hash, heq, hkey⟩)
    · cases List.mem_singleton.mp hlast
      simp only at heq
      subst heq
      obtain ⟨-, r₁, hr₁, -, hfits, hrequest, -⟩ := hmay
      rw [hget] at hr₁
      cases hr₁
      refine .inr ⟨?_, hfits, ?_⟩
      · rw [← hkey, hrequest]
        rfl
      · rw [hrequest]
        rfl
  refine ⟨h.incomplete, fun request hmem => ?_, fun binding hbinding hstage request hmem => ?_⟩
  · rcases hnew hmem with hold | ⟨-, hstate, hpackage⟩
    · exact h.sent request hold
    · exact ⟨hpackage, h.incomplete hstate, .inl hstate⟩
  · rcases hnew hmem with hold | ⟨-, hstate, -⟩
    · exact h.repeated binding hbinding hstage request hold
    · rw [hlog.created binding hstate hbinding] at hstage
      cases hstage

theorem KeysOk.micro (hm : Micro ctx allowed d d') (h : KeysOk ctx.platform d)
    (hallow : KeysAllowed ctx allowed d) : KeysOk ctx.platform d' := by
  refine ⟨fun task r hr => ?_, h.sent.micro hm, fun task r hr => ?_⟩
  · cases hm with
    | called => exact h.logs task r hr
    | created hallowed _ hlookup =>
      rw [hlookup] at hr
      split at hr
      · cases hr
        exact .new (hallow.created _ hallowed) rfl
      · exact h.logs task r hr
    | change hget hchange hlookup =>
      rw [hlookup] at hr
      split at hr
      · cases hr
        exact (h.logs _ _ hget).change hallow hchange
      · exact h.logs task r hr
  · cases hm with
    | called call hmay => exact (h.initial task r hr).called (h.logs task r hr) hr hmay
    | created hallowed hnone hlookup =>
      rw [hlookup] at hr
      split at hr
      · rename_i htask
        cases hr
        refine ⟨fun _ => rfl, fun request hmem => ?_, fun binding hmem => by cases hmem⟩
        obtain ⟨call, hcall, hash, heq, -⟩ := mem_initialSent.mp hmem
        obtain ⟨r₁, -, hr₁, -⟩ := h.sent call hcall _ _ _ _ heq
        rw [← htask, hnone] at hr₁
        cases hr₁
      · exact (h.initial task r hr).of_calls rfl
    | change hget hchange hlookup =>
      rw [hlookup] at hr
      split at hr
      · rename_i htask
        cases hr
        subst htask
        exact ((h.initial _ _ hget).change h.sent hget hallow hchange).of_calls rfl
      · exact (h.initial task r hr).of_calls rfl

end Log

/-! ### Within a step -/

section Within

variable {ctx : Context} {allowed : Occasion → Prop} {d d' : Durable} {taskId : String}

theorem Change.not_created {r r' : WorkflowRecord} (h : Change ctx allowed taskId r r')
    (hstate : r.state ≠ .created) : r'.state ≠ .created := by
  have hsettled : ∀ resolution,
      (MemoryWorkflowStore.settledRecord ctx.now resolution r).state ≠ .created := by
    intro resolution hcreated
    have hterminal := settledRecord_isTerminal ctx.now resolution r
    rw [hcreated] at hterminal
    cases hterminal
  cases h with
  | moved source target _ _ hedge =>
    intro hcreated
    have htarget : target = .created := hcreated
    subst htarget
    cases hedge
  | settled => exact hsettled _
  | unresolvable => exact hsettled _
  | cancelled => exact hsettled _
  | replaced => exact fun hcreated => by cases hcreated
  | _ => exact hstate

/-- Once a workflow is not new, no initial request is sent for it. -/
theorem moves_initialSent (h : Relation.ReflTransGen (Micro ctx allowed) d d') {r : WorkflowRecord}
    (hr : d.store.getWorkflow taskId = some r) (hstate : r.state ≠ .created) (key : String) :
    (∃ r', d'.store.getWorkflow taskId = some r' ∧ r'.state ≠ .created) ∧
      ∀ request ∈ initialSent d' taskId key, request ∈ initialSent d taskId key := by
  induction h with
  | refl => exact ⟨⟨r, hr, hstate⟩, fun _ hmem => hmem⟩
  | tail _ hm ih =>
    obtain ⟨⟨r₁, hr₁, hstate₁⟩, hsent⟩ := ih
    cases hm with
    | change hget hchange hlookup =>
      refine ⟨?_, hsent⟩
      rename_i task r₂ r₂' store
      by_cases htask : task = taskId
      · subst htask
        rw [hget] at hr₁
        cases hr₁
        exact ⟨r₂', by rw [hlookup, if_pos rfl], hchange.not_created hstate₁⟩
      · exact ⟨r₁, by rw [hlookup, if_neg htask, hr₁], hstate₁⟩
    | created _ hnone hlookup =>
      refine ⟨⟨r₁, ?_, hstate₁⟩, hsent⟩
      rw [hlookup, if_neg, hr₁]
      rintro rfl
      rw [hnone] at hr₁
      cases hr₁
    | called call hmay =>
      refine ⟨⟨r₁, hr₁, hstate₁⟩, fun request hmem => hsent request ?_⟩
      obtain ⟨sent, hcall, hash, heq, hkey⟩ := mem_initialSent.mp hmem
      rcases List.mem_append.mp hcall with hold | hlast
      · exact mem_initialSent.mpr ⟨sent, hold, hash, heq, hkey⟩
      · cases List.mem_singleton.mp hlast
        simp only at heq
        subst heq
        obtain ⟨-, r₂, hr₂, -, hfits, -⟩ := hmay
        rw [hr₁] at hr₂
        cases hr₂
        exact absurd hfits hstate₁

/-- A step that submits nothing binds nothing. -/
theorem moves_isNewKey (h : Relation.ReflTransGen (Micro ctx allowed) d d') {key : String}
    (hsubmit : ∀ phase key attempts pkg, ¬ allowed (.submit taskId phase key attempts pkg))
    {r' : WorkflowRecord} (hr' : d'.store.getWorkflow taskId = some r')
    (hnew : (d.store.getWorkflow taskId).all (isNewKey key) = true) : isNewKey key r' = true := by
  induction h generalizing r' with
  | refl =>
    rw [hr'] at hnew
    exact hnew
  | tail _ hm ih =>
    cases hm with
    | called => exact ih hr'
    | created _ hnone hlookup =>
      rw [hlookup] at hr'
      split at hr'
      · cases hr'
        rfl
      · exact ih hr'
    | change hget hchange hlookup =>
      rw [hlookup] at hr'
      split at hr'
      · rename_i htask
        cases hr'
        subst htask
        have hold := ih hget
        rename_i r₁ store
        have hsettled : ∀ resolution, isNewKey key
            (MemoryWorkflowStore.settledRecord ctx.now resolution r₁) = true := by
          intro resolution
          unfold MemoryWorkflowStore.settledRecord
          split <;> exact hold
        cases hchange with
        | attempted entry =>
          unfold isNewKey loggedRecord
          rw [List.all_append]
          exact Bool.and_eq_true_iff.mpr ⟨hold, rfl⟩
        | bound phase _ hallowed => exact absurd hallowed (hsubmit _ _ _ _)
        | settled => exact hsettled _
        | unresolvable => exact hsettled _
        | cancelled => exact hsettled _
        | _ => exact hold
      · exact ih hr'

end Within

theorem keysAllowed_of_kept {platform : Platform} {w : World} {engine : Engine} {moment : Moment}
    {action : Action} {d : Durable}
    (hhash : ∀ value, 0 < lengthOf (platform.computeJsonHash value).value)
    (hengine : w.engine = some engine) (hc : keysKept platform w (.act moment action) = true)
    (hmoves : Relation.ReflTransGen (Micro (contextAt platform engine moment)
      (Allowed (contextAt platform engine moment) engine w.durable action)) w.durable d) :
    KeysAllowed (contextAt platform engine moment)
      (Allowed (contextAt platform engine moment) engine w.durable action) d := by
  refine ⟨hhash, ?_, ?_, ?_⟩
  · rintro input rfl
    exact hc
  · rintro taskId key ⟨replacement, rfl⟩
    obtain ⟨hvalid, hnew⟩ := Bool.and_eq_true_iff.mp hc
    refine ⟨hvalid, fun r hr => moves_isNewKey hmoves ?_ hr hnew⟩
    intro phase key attempts pkg hallowed
    cases hallowed.1
  · rintro taskId key attempts pkg ⟨rfl, r, hr, hstarts, rfl, rfl, rfl, hjob⟩ hfirst request hmem
    obtain ⟨job, rest, respectSchedule, hlane, hop, hclaimable⟩ := hjob rfl
    obtain ⟨id, operation, point⟩ := job
    simp only at hop
    subst hop
    have hstate : r.state ≠ .created := by
      intro hcreated
      rw [hcreated] at hstarts
      simp [PhaseStarts] at hstarts
    have hbefore := (moves_initialSent hmoves hr hstate r.actionIdempotencyKey).2 request hmem
    simp only [keysKept, hengine, hr, hlane, hclaimable, hstarts, decide_true, Bool.and_self,
      Bool.not_true, Bool.false_or, keepsBinding, hfirst, List.isEmpty_nil, List.all_eq_true,
      decide_eq_true_eq] at hc
    exact hc request hbefore

/-- Two requests of one Task under one key have the fingerprint of its binding. -/
theorem KeysOk.same_fingerprint {platform : Platform} {d : Durable} (h : KeysOk platform d)
    {a b : LoggedCall} (ha : a ∈ d.calls) (hb : b ∈ d.calls) {taskId : String}
    {phase phase' : SubmissionPhase} {request request' : ActionRequest} {hash hash' : String}
    (hcall : a.call = .submitActionRequest taskId phase request hash)
    (hcall' : b.call = .submitActionRequest taskId phase' request' hash')
    (hkey : request.idempotencyKey = request'.idempotencyKey) :
    request.fingerprint platform = request'.fingerprint platform := by
  obtain ⟨r, binding, hr, hmem, hstage, hbkey, hfp⟩ := h.sent a ha _ _ _ _ hcall
  obtain ⟨r', binding', hr', hmem', hstage', hbkey', hfp'⟩ := h.sent b hb _ _ _ _ hcall'
  rw [hr] at hr'
  cases hr'
  have hinitial := h.initial taskId r hr
  cases phase <;> cases phase'
  case initial.completed =>
    have hsent := mem_initialSent.mpr ⟨a, ha, hash, hcall, hkey.trans hbkey'.symm⟩
    exact (hinitial.repeated binding' hmem' hstage' request hsent).trans hfp'.symm
  case completed.initial =>
    have hsent := mem_initialSent.mpr ⟨b, hb, hash', hcall', hkey.symm.trans hbkey.symm⟩
    exact hfp.trans (hinitial.repeated binding hmem hstage request' hsent).symm
  all_goals
    have hsame := (h.logs taskId r hr).agree binding binding' hmem hmem'
      (hstage.trans hstage'.symm) (hbkey.trans (hkey.trans hbkey'.symm))
    rw [hfp, hfp', hsame]

/-- **An idempotency key names one request** of its workflow, over crashes and
restarts with other options. -/
theorem key_names_one_request (platform : Platform)
    (hhash : ∀ value, 0 < lengthOf (platform.computeJsonHash value).value) {events : List Event}
    {w : World}
    (hrun : Run (step platform) (fun w event => keysKept platform w event = true) {} events w) :
    ∀ a ∈ w.durable.calls, ∀ b ∈ w.durable.calls, ∀ taskId phase phase' request request' hash hash',
      a.call = .submitActionRequest taskId phase request hash →
      b.call = .submitActionRequest taskId phase' request' hash' →
      request.idempotencyKey = request'.idempotencyKey →
      request.fingerprint platform = request'.fingerprint platform := by
  have hok : KeysOk platform w.durable := by
    refine run_invariant_within (I := KeysOk platform) ?_ hrun .init
      ⟨fun _ _ h => (by cases h), fun _ h => (by cases h), fun _ _ h => (by cases h)⟩
    intro w engine moment action d d' _ hengine hc hmoves hi hm
    exact KeysOk.micro hm hi (keysAllowed_of_kept hhash hengine hc hmoves)
  intro a ha b hb taskId phase phase' request request' hash hash' hcall hcall' hkey
  exact hok.same_fingerprint ha hb hcall hcall' hkey

section

open Bridge

theorem platform_digests (value : Json) : 0 < lengthOf (platform.computeJsonHash value).value := by
  show 0 < lengthOf ((digests.lookup value).getD "undigested")
  cases hlookup : digests.lookup value with
  | none => decide +kernel
  | some digest =>
    have hall : (digests.all fun entry => decide (0 < lengthOf entry.2)) = true := by decide +kernel
    obtain ⟨l, r, heq, -⟩ := List.lookup_eq_some_iff.mp hlookup
    have hmem : (value, digest) ∈ digests := by
      rw [heq]
      exact List.mem_append_right _ (List.mem_cons_self ..)
    have hdigest := List.all_eq_true.mp hall (value, digest) hmem
    exact of_decide_eq_true hdigest

/-- The key of a pending Action is used a second time, for the same request. -/
theorem key_names_one_request_recheck : ∃ w,
    Run (step platform) (fun w event => keysKept platform w event = true) {} rechecked w ∧
    (sentUnder proposal.actionIdempotencyKey w).length = 2 ∧
    ∀ a ∈ w.durable.calls, ∀ b ∈ w.durable.calls, ∀ taskId phase phase' request request' hash hash',
      a.call = .submitActionRequest taskId phase request hash →
      b.call = .submitActionRequest taskId phase' request' hash' →
      request.idempotencyKey = request'.idempotencyKey →
      request.fingerprint platform = request'.fingerprint platform := by
  have hexec : ∃ w, Run (step platform) (fun w event => keysKept platform w event = true) {}
      rechecked w ∧ (sentUnder proposal.actionIdempotencyKey w).length = 2 :=
    run_of_checked_any (by decide +kernel)
  obtain ⟨w, hw, hsent⟩ := hexec
  exact ⟨w, hw, hsent, key_names_one_request platform platform_digests hw⟩

/-- The bridge restarts with an upstream binding, and checks a pending Action
again: under the key of the first request, a second one is sent. -/
theorem key_reused_after_restart : ∃ w, Run (step platform) Free {} restartedAndRechecked w ∧
    (sentUnder proposal.actionIdempotencyKey w).map (·.fingerprint platform) =
      [.ok "Ak0I1Rvf4dHJ8HHLZDdUoEFZkzEcvwR1eRIFFvk64mo",
        .ok "JMB_CdCGOGvllXKSh1BZqHKIL2qh4uWN9z_BeN4NUu8"] :=
  run_of_exec_any (by decide +kernel)

end

end Mpas.WorkflowEngine
