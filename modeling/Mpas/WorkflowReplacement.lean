import Mpas.WorkflowRuns

/-!
# Replaced Actions

A Verifier that wants more Approvals makes the engine replace the Action of a
Task. Coordination then collects Approvals for the replacement, and its updates
may name the new Action or one that was replaced.

* `replacement_collects_approvals_iff`: when a replacement reaches Coordination;
* `stale_updates_ignored`: when updates about a replaced Action change nothing.
-/

namespace Mpas.WorkflowEngine

open Routing WorkflowStore Program Machine
open Relation (ReflTransGen)

/-! ## Steps elsewhere -/

/-- The process goes on, and does not run on the lane of the Task. -/
def Elsewhere (taskId : String) (w : World) : Event → Prop
  | .act moment action => moment.crashAfter = none ∧
    ∀ engine, w.engine = some engine → ¬ engine.Runs taskId action
  | _ => False

/-- The workflow of the Task has not ended. -/
def Live (taskId : String) (d : Durable) : Prop :=
  ∃ r, d.store.getWorkflow taskId = some r ∧ r.state.isTerminal = false

/-- The first job of the lane waits for an answer. -/
def Waits (taskId : String) (point : Point) (w : World) : Prop :=
  ∃ engine job rest, w.engine = some engine ∧ engine.lane taskId = job :: rest ∧ job.point = point

section Elsewhere

variable {platform : Platform} {taskId : String} {w w' : World}

theorem elsewhere_cases {event : Event} (hsound : Sound w) (he : Elsewhere taskId w event)
    (h : step platform w event = some w') :
    ∃ ctx engine action engine', w.engine = some engine ∧ ¬ engine.Runs taskId action ∧
      ReflTransGen (Micro ctx (Allowed ctx engine w.durable action)) w.durable w'.durable ∧
      w'.engine = some engine' ∧ EngineStep engine w.durable action engine' w'.durable := by
  cases event with
  | start options => exact he.elim
  | crash => exact he.elim
  | act moment action =>
    obtain ⟨engine, hengine, -⟩ := Option.bind_eq_some_iff.mp h
    obtain ⟨hmoves, ⟨hcrash, -⟩ | ⟨engine', hengine', hstep⟩⟩ := step_cases hsound hengine h
    · exact absurd he.1 hcrash
    · exact ⟨_, engine, action, engine', hengine, he.2 engine hengine, hmoves, hengine', hstep⟩

theorem elsewhere_record {events : List Event}
    (h : Run (step platform) (Elsewhere taskId) w events w') (hsound : Sound w)
    {r : WorkflowRecord} (hr : w.durable.store.getWorkflow taskId = some r) :
    ∃ r', w'.durable.store.getWorkflow taskId = some r' ∧ (r' = r ∨ r'.state.isTerminal = true) := by
  induction h generalizing r with
  | nil => exact ⟨r, hr, Or.inl rfl⟩
  | cons he hstep _ ih =>
    obtain ⟨ctx, engine, action, -, -, hnot, hmoves, -⟩ := elsewhere_cases hsound he hstep
    obtain ⟨r₁, hr₁, hcase⟩ := moves_frame hmoves hnot hr
    obtain ⟨r₂, hr₂, hcase₂⟩ := ih (hsound.step hstep) hr₁
    refine ⟨r₂, hr₂, ?_⟩
    rcases hcase₂ with rfl | hterminal
    · exact hcase
    · exact Or.inr hterminal

theorem EngineStep.waits {engine engine' : Engine} {action : Action} {d d' : Durable}
    (h : EngineStep engine d action engine' d') (hnot : ¬ engine.Runs taskId action) {job : Job}
    {rest : List Job} (hlane : engine.lane taskId = job :: rest) :
    ∃ rest', engine'.lane taskId = job :: rest' := by
  cases h with
  | enqueued _ hext =>
    obtain ⟨jobs, heq, -⟩ := hext.lanes taskId
    exact ⟨rest ++ jobs, by rw [heq, hlane, List.cons_append]⟩
  | progressed task _ _ _ _ honly heq =>
    have hne : task ≠ taskId := fun htask => hnot ((honly taskId).mpr htask.symm)
    exact ⟨rest, by rw [heq, progress_lane, if_neg hne, hlane]⟩

theorem elsewhere_waits {events : List Event} {point : Point}
    (h : Run (step platform) (Elsewhere taskId) w events w') (hsound : Sound w)
    (hw : Waits taskId point w) : Waits taskId point w' := by
  induction h with
  | nil => exact hw
  | cons he hstep _ ih =>
    refine ih (hsound.step hstep) ?_
    obtain ⟨engine₀, job, rest, hengine₀, hlane, hpoint⟩ := hw
    obtain ⟨-, engine, action, engine', hengine, hnot, -, hengine', hes⟩ :=
      elsewhere_cases hsound he hstep
    rw [hengine] at hengine₀
    cases hengine₀
    obtain ⟨rest', hlane'⟩ := hes.waits hnot hlane
    exact ⟨engine', job, rest', hengine', hlane', hpoint⟩

end Elsewhere

/-! ## From the Verifier's answer to Coordination -/

structure Binds (platform : Platform) (verifierRequirements : AuthorizationRequirements)
    (replacement : CoordinationReplacement) : Prop where
  bundle : replacement.actionPackage.approvalBundle.actionEnvelopeHash =
    platform.computeJsonHash replacement.actionPackage.actionEnvelope.toJson
  requirements : replacement.authorizationRequirements.actionEnvelopeHash =
    platform.computeJsonHash replacement.actionPackage.actionEnvelope.toJson
  verifier : replacement.authorizationRequirements.verifier = verifierRequirements.verifier

def CoordinationReplacement.actionId (replacement : CoordinationReplacement) : String :=
  replacement.actionPackage.actionEnvelope.actionId.value

/-- An Action ID that is in use nowhere in the store. -/
structure FreshActionId (store : MemoryWorkflowStore) (taskId : String) (actionId : String) : Prop where
  notTask : actionId ≠ taskId
  notAction : ∀ r, store.getWorkflow taskId = some r → actionId ≠ r.actionId
  notMapped : store.actionTasks.has actionId = false

/-- The workflow collects Approvals for the Action. -/
def Collecting (taskId actionId : String) (d : Durable) : Prop :=
  ∃ r, d.store.getWorkflow taskId = some r ∧
    (r.state = .submittingToCoordination ∨ r.state = .awaitingApprovals) ∧ r.actionId = actionId

/-- `fromState` of a replacement, by the phase that the Verifier answers. -/
def replacementState : SubmissionPhase → BridgeWorkflowState
  | .initial => .created
  | .completed => .submittingToVerifier

section Programs

variable {ctx : Context} {taskId : String} {d : Durable}

theorem asked_builds {phase : SubmissionPhase} {r : WorkflowRecord} {response : ActionResponse}
    {requirements : AuthorizationRequirements} (hr : d.store.getWorkflow taskId = some r)
    (hopen : r.state.isTerminal = false) (hresult : response.result = .additionalApprovalsRequired)
    (hreq : response.authorizationRequirements = some requirements) :
    wp (match phase with
        | .initial => afterInitial ctx taskId (.ok response)
        | .completed => afterCompleted ctx taskId (.ok response))
      (fun progress d' => ∃ r₁, d'.store.getWorkflow taskId = some r₁ ∧ r₁.state = r.state ∧
        r₁.actionId = r.actionId ∧ r₁.taskId = r.taskId ∧
        progress = .awaiting (.building r₁ (replacementState phase) requirements))
      (fun _ _ => False) (fun _ => True) d := by
  have hreplay : isReplayRejection response = false := by simp [isReplayRejection, hresult]
  have hbuilds : ∀ (d' : Durable) (r₁ : WorkflowRecord), d'.store.getWorkflow taskId = some r₁ →
      r₁.state = r.state → r₁.actionId = r.actionId → r₁.taskId = r.taskId →
      wp (do
          saveLastActionResponse ctx taskId response
          replaceAndSubmitToCoordination ctx (← mustGet taskId) (replacementState phase) response)
        (fun progress d' => ∃ r₁, d'.store.getWorkflow taskId = some r₁ ∧ r₁.state = r.state ∧
          r₁.actionId = r.actionId ∧ r₁.taskId = r.taskId ∧
          progress = .awaiting (.building r₁ (replacementState phase) requirements))
        (fun _ _ => False) (fun _ => True) d' := by
    intro d' r₁ hr₁ hstate hid htask
    have hsaved : (d'.store.saveLastActionResponse ctx.now taskId response).getWorkflow taskId =
        some { r₁ with lastActionResponse := some response, updatedAt := ctx.now } := by
      rw [MemoryWorkflowStore.saveLastActionResponse, MemoryWorkflowStore.getWorkflow_modify_self,
        hr₁]
      rfl
    rw [wp_bind, saveLastActionResponse, wp_updateStore, wp_bind]
    refine ⟨trivial, (wp_mustGet hsaved).mpr ?_⟩
    simp only [replaceAndSubmitToCoordination, hreq, wp_pure]
    exact ⟨_, hsaved, hstate, hid, htask, rfl⟩
  have hlogged : ∀ attempt,
      (d.store.saveAdapterAttempt ctx.now taskId attempt).getWorkflow taskId =
        some (loggedRecord ctx attempt r) := by
    intro attempt
    rw [MemoryWorkflowStore.saveAdapterAttempt, MemoryWorkflowStore.getWorkflow_modify_self, hr]
    rfl
  cases phase with
  | initial =>
    simp only [afterInitial]
    rw [wp_bind, wp_mustGet hr]
    simp only [hopen, Bool.false_eq_true, ↓reduceIte, hresult]
    rw [wp_bind, wp_recordAttempt]
    exact ⟨trivial, hbuilds _ _ (hlogged _) rfl rfl rfl⟩
  | completed =>
    simp only [afterCompleted]
    rw [wp_bind, wp_mustGet hr]
    simp only [hopen, Bool.false_eq_true, ↓reduceIte, hresult, hreplay, reduceCtorEq]
    rw [wp_bind, wp_recordAttempt]
    exact ⟨trivial, hbuilds _ _ (hlogged _) rfl rfl rfl⟩

/-- Coordination is called, or left for a later job; the record stays as it is
but for the claim. -/
theorem submitToCoordination_keeps {record r : WorkflowRecord}
    (hr : d.store.getWorkflow taskId = some r) (hid : record.taskId = taskId) :
    wp (submitToCoordination ctx record)
      (fun _ d' => ∃ r', d'.store.getWorkflow taskId = some r' ∧ r'.state = r.state ∧
        r'.actionId = r.actionId)
      (fun _ _ => False) (fun _ => True) d := by
  unfold submitToCoordination
  split
  · exact (wp_pure _).mpr ⟨r, hr, rfl, rfl⟩
  rw [hid, wp_bind, holdClaim, wp_tryStore]
  refine ⟨trivial, ?_⟩
  rcases d.store.claimWorkflow_cases ctx.now taskId ctx.options.workerId
    ctx.options.claimLeaseMs with heq | ⟨-, heq⟩
  · simp only [heq, Bool.not_false, ↓reduceIte]
    exact (wp_pure _).mpr ⟨r, hr, rfl, rfl⟩
  · simp only [heq, Bool.not_true, Bool.false_eq_true, ↓reduceIte]
    rw [wp_bind, wp_send, wp_pure]
    refine ⟨trivial, claimedRecord ctx r, ?_, rfl, rfl⟩
    rw [MemoryWorkflowStore.getWorkflow_modify_self, hr]
    rfl

/-- A correctly bound replacement with a fresh Action ID becomes the current
Action, if the workflow is in the state it is replaced from. -/
theorem afterReplacement_replaces {record r : WorkflowRecord} {fromState : BridgeWorkflowState}
    {requirements : AuthorizationRequirements} {replacement : CoordinationReplacement}
    {randomUUID : String} (hr : d.store.getWorkflow taskId = some r) (hkeyed : r.taskId = taskId)
    (hid : record.taskId = taskId) (hopen : r.state.isTerminal = false)
    (hcurrent : record.actionId = r.actionId) (hbinds : Binds ctx.platform requirements replacement)
    (hfresh : FreshActionId d.store taskId replacement.actionId) :
    wp (afterReplacement ctx record fromState requirements (.ok replacement) randomUUID)
      (fun _ d' => ∃ r', d'.store.getWorkflow taskId = some r' ∧
        if r.state = fromState then
          r'.state = .submittingToCoordination ∧ r'.actionId = replacement.actionId
        else r'.state = .unresolvable)
      (fun _ _ => False) (fun _ => True) d := by
  have hnew : replacement.actionPackage.actionEnvelope.actionId.value ≠ record.actionId := by
    rw [hcurrent]
    exact hfresh.notAction r hr
  have htask : replacement.actionPackage.actionEnvelope.actionId.value ≠ record.taskId := by
    rw [hid]
    exact hfresh.notTask
  unfold afterReplacement
  rw [wp_bind, wp_tryCatch]
  simp only [replaceWith, if_neg hnew, if_neg htask, ne_eq, hbinds.bundle, hbinds.requirements,
    hbinds.verifier, not_true_eq_false, ↓reduceIte, wp_bind, wp_write]
  refine ⟨trivial, ?_⟩
  rw [hid]
  by_cases hstate : r.state = fromState
  · rw [MemoryWorkflowStore.replaceAction_of_state hr hstate (Ne.symm hfresh.notTask)
      hfresh.notMapped]
    simp only [wp_pure, ↓reduceIte, wp_bind, if_pos hstate]
    refine (wp_mustGet ((MemoryWorkflowStore.getWorkflow_modify_self _ _ _).trans
      (congrArg _ hr))).mpr ?_
    refine wp_mono (submitToCoordination_keeps ((MemoryWorkflowStore.getWorkflow_modify_self _ _
      _).trans (congrArg _ hr)) hkeyed) ?_ (fun _ _ h => h) fun _ h => h
    rintro progress d' ⟨r', hr', hsubmitting, haction⟩
    exact ⟨r', hr', hsubmitting, haction⟩
  · rw [MemoryWorkflowStore.replaceAction_of_state_ne hr hstate (Ne.symm hfresh.notTask)]
    simp only [wp_throw, wp_bind, wp_getWorkflow, hr, Option.any_some, hopen, Bool.false_eq_true,
      ↓reduceIte, resolveUnresolvable, wp_updateStore, wp_pure, if_neg hstate, done]
    refine ⟨trivial, _, (MemoryWorkflowStore.getWorkflow_modify_self _ _ _).trans
      (congrArg _ hr), ?_⟩
    simp [MemoryWorkflowStore.settledRecord, hopen, WorkflowResolution.kind]

theorem Collecting.modify {actionId : String} {apply : WorkflowRecord → WorkflowRecord}
    (h : Collecting taskId actionId d)
    (hstate : ∀ r, r.state = .submittingToCoordination ∨ r.state = .awaitingApprovals →
      (apply r).state = .submittingToCoordination ∨ (apply r).state = .awaitingApprovals)
    (haction : ∀ r, (apply r).actionId = r.actionId) :
    Collecting taskId actionId { d with store := d.store.modify taskId apply } := by
  obtain ⟨r, hr, hs, ha⟩ := h
  exact ⟨apply r, by rw [MemoryWorkflowStore.getWorkflow_modify_self, hr, Option.map_some],
    hstate r hs, by rw [haction, ha]⟩

/-- Coordination accepts the workflow, or is unavailable for now. -/
def acceptedOrUnavailable : Except Failure Json → Bool
  | .ok _ => true
  | .error error => !isPermanentRemoteFailure error

/-- Such an answer of Coordination leaves the workflow collecting Approvals. -/
theorem afterCreation_collects {record : WorkflowRecord} {actionId : String}
    {outcome : Except Failure Json} (hid : record.taskId = taskId)
    (h : Collecting taskId actionId d) (hout : acceptedOrUnavailable outcome = true) :
    wp (afterCreation ctx record outcome) (fun _ => Collecting taskId actionId)
      (fun _ => Collecting taskId actionId) (Collecting taskId actionId) d := by
  unfold afterCreation
  rw [hid, wp_tryCatch]
  cases outcome with
  | error error =>
    have htransient : isPermanentRemoteFailure error = false := by
      simpa [acceptedOrUnavailable] using hout
    have hcoordination : permanentCoordinationFailure error = false := by
      cases hclass : error.errorClass <;>
        simp_all [permanentCoordinationFailure, isPermanentRemoteFailure]
    simp only [wp_throw, hcoordination, Bool.false_eq_true, ↓reduceIte, recordFailure,
      htransient, wp_bind, wp_recordAttempt, done, wp_pure]
    exact ⟨h, h.modify (fun _ hs => hs) fun _ => rfl⟩
  | ok ref =>
    have hreferred : Collecting taskId actionId
        { d with store := d.store.saveCoordinationReference ctx.now taskId ref } :=
      h.modify (fun _ hs => hs) fun _ => rfl
    rw [wp_bind, wp_updateStore]
    refine ⟨h, ?_⟩
    obtain ⟨r, hr, hs, ha⟩ := hreferred
    have hnot : r.state ≠ .cancelled := by rcases hs with hs | hs <;> simp [hs]
    rw [wp_bind, wp_mustGet hr]
    simp only [if_neg hnot]
    have hattempted : ∀ entry, Collecting taskId actionId { d with
        store := (d.store.saveCoordinationReference ctx.now taskId ref).saveAdapterAttempt ctx.now
          taskId entry } :=
      fun entry => Collecting.modify ⟨r, hr, hs, ha⟩ (fun _ hs => hs) fun _ => rfl
    rw [wp_bind, wp_recordAttempt]
    refine ⟨⟨r, hr, hs, ha⟩, ?_⟩
    rw [wp_bind, compareAndSetState, wp_tryStore]
    refine ⟨hattempted _, ?_⟩
    rcases MemoryWorkflowStore.compareAndSetState_cases _ ctx.now taskId
      .submittingToCoordination .awaitingApprovals with heq | ⟨-, heq⟩
    · rw [heq]
      exact (wp_pure _).mpr (hattempted _)
    · rw [heq]
      exact (wp_pure _).mpr ((hattempted _).modify (fun _ _ => Or.inr rfl) fun _ => rfl)

end Programs

/-! ## The exchange -/

theorem step_coordination {platform : Platform} {w w' : World} {moment : Moment} {taskId : String}
    {outcome : Except Failure Json}
    (h : step platform w (.act moment (.reply taskId (.coordination outcome))) = some w') :
    ∃ engine job rest record, w.engine = some engine ∧ engine.lane taskId = job :: rest ∧
      job.point = .creating record ∧
      engine.act (contextAt platform engine moment) (.reply taskId (.coordination outcome)) =
        some (engine.onLane taskId job rest
          (afterCreation (contextAt platform engine moment) record outcome)) := by
  obtain ⟨engine, hengine, hact⟩ := Option.bind_eq_some_iff.mp h
  obtain ⟨program, hprogram, -⟩ := Option.bind_eq_some_iff.mp hact
  simp only [Engine.act] at hprogram
  split at hprogram
  · rename_i job rest hlane
    obtain ⟨program', hcontinue, -⟩ := Option.map_eq_some_iff.mp hprogram
    cases hpoint : job.point with
    | creating record =>
      exact ⟨engine, job, rest, record, hengine, hlane, hpoint, by
        simp [Engine.act, hlane, hpoint, Point.continue]⟩
    | submitted phase => cases phase <;> simp [hpoint, Point.continue] at hcontinue
    | _ => simp [hpoint, Point.continue] at hcontinue
  · cases hprogram

/-- The Verifier answers the submission of a workflow, as the record `r` has it,
that it wants more Approvals; a correctly bound replacement with a fresh Action
ID comes back, and nothing else has ended the workflow meanwhile. -/
structure ReplacementExchange (platform : Platform) (taskId : String) (r : WorkflowRecord)
    (replacement : CoordinationReplacement) (w w' : World) : Prop where
  reachable : ∃ events, Run (step platform) Free {} events w
  record : w.durable.store.getWorkflow taskId = some r
  live : r.state.isTerminal = false
  exchange : ∃ response requirements first events w₁ w₂ second randomUUID,
    response.result = .additionalApprovalsRequired ∧
    response.authorizationRequirements = some requirements ∧ first.crashAfter = none ∧
    step platform w (.act first (.reply taskId (.actionResponse (.ok response)))) = some w₁ ∧
    Run (step platform) (Elsewhere taskId) w₁ events w₂ ∧ Live taskId w₂.durable ∧
    Binds platform requirements replacement ∧
    FreshActionId w₂.durable.store taskId replacement.actionId ∧ second.crashAfter = none ∧
    step platform w₂ (.act second (.reply taskId (.replacement (.ok replacement) randomUUID))) =
      some w'

section Exchange

variable {platform : Platform} {taskId : String} {r : WorkflowRecord}
variable {replacement : CoordinationReplacement} {w w' : World}

/-- The replacement is stored if the Verifier answered a workflow in the state
that a replacement is made from. -/
theorem ReplacementExchange.replaced (h : ReplacementExchange platform taskId r replacement w w') :
    ∃ r', w'.durable.store.getWorkflow taskId = some r' ∧
      if r.state = .awaitingVerifierResult then r'.state = .unresolvable
      else r'.state = .submittingToCoordination ∧ r'.actionId = replacement.actionId := by
  obtain ⟨⟨events, hrun⟩, hr, hlive, response, requirements, first, between, w₁, w₂, second,
    randomUUID, hresult, hreq, hfirst, hstep₁, hbetween, hlive₂, hbinds, hfresh, hsecond,
    hstep₂⟩ := h
  have hsound := Sound.init.run hrun
  obtain ⟨engine, job, rest, phase, hengine, hlane, hpoint, hact⟩ := step_actionResponse hstep₁
  have hok := (hsound.lanes engine hengine taskId job rest hlane).1
  rw [hpoint] at hok
  obtain ⟨r₀, hr₀, hfits⟩ := hok
  rw [hr] at hr₀
  cases hr₀
  have hfits : PhaseFits phase r.state := hfits.resolve_right (by simp [hlive])
  -- the answer makes the lane wait for the replacement
  obtain ⟨progress, ⟨r₁, hr₁, hstate₁, haction₁, htask₁, rfl⟩, hengine₁⟩ :=
    step_onLane hengine hact (asked_builds hr hlive hresult hreq) hfirst hstep₁
  have hsound₁ := hsound.step hstep₁
  have hwaits₁ : Waits taskId (.building r₁ (replacementState phase) requirements) w₁ :=
    ⟨_, _, rest, hengine₁, by rw [progress_lane, if_pos rfl], rfl⟩
  -- what happens elsewhere changes neither the lane nor the record
  have hsound₂ := hsound₁.run hbetween
  obtain ⟨engine₂, job₂, rest₂, hengine₂, hlane₂, hpoint₂⟩ :=
    elsewhere_waits hbetween hsound₁ hwaits₁
  obtain ⟨r₂, hr₂, hcase⟩ := elsewhere_record hbetween hsound₁ hr₁
  obtain ⟨r₂', hr₂', hopen₂⟩ := hlive₂
  rw [hr₂] at hr₂'
  cases hr₂'
  have hsame : r₂ = r₁ := hcase.resolve_right (by simp [hopen₂])
  subst hsame
  have htask : r₂.taskId = taskId := hsound₂.keyed _ _ hr₂
  have hact₂ : engine₂.act (contextAt platform engine₂ second)
      (.reply taskId (.replacement (.ok replacement) randomUUID)) =
      some (engine₂.onLane taskId job₂ rest₂ (afterReplacement (contextAt platform engine₂ second)
        r₂ (replacementState phase) requirements (.ok replacement) randomUUID)) := by
    simp [Engine.act, hlane₂, hpoint₂, Point.continue]
  obtain ⟨-, ⟨r', hr', hcases⟩, -⟩ := step_onLane hengine₂ hact₂
    (afterReplacement_replaces hr₂ htask htask hopen₂ rfl hbinds hfresh) hsecond hstep₂
  refine ⟨r', hr', ?_⟩
  rw [hstate₁] at hcases
  cases phase with
  | initial =>
    have hcreated : r.state = .created := hfits
    simpa [hcreated, replacementState] using hcases
  | completed =>
    rcases hfits with hstate | hstate <;> simpa [hstate, replacementState] using hcases

theorem ReplacementExchange.sound (h : ReplacementExchange platform taskId r replacement w w') :
    Sound w' := by
  obtain ⟨⟨events, hrun⟩, -, -, response, requirements, first, between, w₁, w₂, second,
    randomUUID, -, -, -, hstep₁, hbetween, -, -, -, -, hstep₂⟩ := h
  exact (((Sound.init.run hrun).step hstep₁).run hbetween).step hstep₂

/-- **A request for more Approvals leads to their collection** for the
replacement exactly when the submitted workflow was not waiting for a result,
and then for as long as nothing else ends the workflow and Coordination accepts
it or is unavailable. -/
theorem replacement_collects_approvals_iff
    (h : ReplacementExchange platform taskId r replacement w w') :
    (Collecting taskId replacement.actionId w'.durable ↔ r.state ≠ .awaitingVerifierResult) ∧
    (∀ events u, Run (step platform) (Elsewhere taskId) w' events u → Live taskId u.durable →
      (Collecting taskId replacement.actionId u.durable ↔ r.state ≠ .awaitingVerifierResult)) ∧
    ∀ events u moment outcome u', Run (step platform) Free w' events u →
      Collecting taskId replacement.actionId u.durable → acceptedOrUnavailable outcome = true →
      step platform u (.act moment (.reply taskId (.coordination outcome))) = some u' →
      Collecting taskId replacement.actionId u'.durable := by
  obtain ⟨r', hr', hcases⟩ := h.replaced
  have hiff : Collecting taskId replacement.actionId w'.durable ↔
      r.state ≠ .awaitingVerifierResult := by
    split at hcases
    · rename_i hpending
      refine iff_of_false ?_ (not_not.mpr hpending)
      rintro ⟨r₀, hr₀, hs, -⟩
      rw [hr'] at hr₀
      cases hr₀
      rw [hcases] at hs
      rcases hs with hs | hs <;> cases hs
    · rename_i hother
      exact iff_of_true ⟨r', hr', Or.inl hcases.1, hcases.2⟩ hother
  refine ⟨hiff, fun events u hrun hlive => ?_, fun events u moment outcome u' hrun hc hout hstep => ?_⟩
  · obtain ⟨r₁, hr₁, hcase⟩ := elsewhere_record hrun h.sound hr'
    obtain ⟨r₁', hr₁', hopen⟩ := hlive
    rw [hr₁] at hr₁'
    cases hr₁'
    have hsame : r₁ = r' := hcase.resolve_right (by simp [hopen])
    subst hsame
    rw [← hiff]
    constructor
    · rintro ⟨r₀, hr₀, hrest⟩
      rw [hr₁] at hr₀
      cases hr₀
      exact ⟨r₁, hr', hrest⟩
    · rintro ⟨r₀, hr₀, hrest⟩
      rw [hr'] at hr₀
      cases hr₀
      exact ⟨r₁, hr₁, hrest⟩
  · obtain ⟨engine, job, rest, record, hengine, hlane, hpoint, hact⟩ := step_coordination hstep
    have hok := ((h.sound.run hrun).lanes engine hengine taskId job rest hlane).1
    rw [hpoint] at hok
    exact step_onLane_always hengine hact (afterCreation_collects hok.1 hc hout) hstep

end Exchange

namespace Bridge

/-- Approvals are wanted after the events, and the replacement comes at once. -/
theorem exchanged (events : List Event) (randomUUID : String) (before after : WorkflowRecord → Bool)
    (h : (exec (step platform) {} events).any fun w =>
      (w.durable.store.getWorkflow taskId).any (fun r => !r.state.isTerminal && before r) &&
      (step platform w (answered asked)).any fun w₁ =>
        (w₁.durable.store.getWorkflow taskId).any
          (fun r => !r.state.isTerminal && decide (replacementId ≠ r.actionId)) &&
        !w₁.durable.store.actionTasks.has replacementId &&
        (step platform w₁ (replacedWith replaced randomUUID)).any fun w' =>
          (w'.durable.store.getWorkflow taskId).any after) :
    ∃ r w w', ReplacementExchange platform taskId r replaced w w' ∧ before r = true ∧
      ∃ r', w'.durable.store.getWorkflow taskId = some r' ∧ after r' = true := by
  simp only [Option.any_eq_true, Bool.and_eq_true, Bool.not_eq_true'] at h
  obtain ⟨w, hw, ⟨r, hr, hlive, hbefore⟩, w₁, hw₁, ⟨⟨r₁, hr₁, hlive₁, hid⟩, hmapped⟩, w', hw', hafter⟩ := h
  refine ⟨r, w, w', ⟨⟨events, run_of_exec hw⟩, hr, hlive, asked, _, _, [], w₁, w₁, _, randomUUID,
    rfl, rfl, rfl, hw₁, .nil _, ⟨r₁, hr₁, hlive₁⟩, ?_, ?_, rfl, hw'⟩, hbefore, hafter⟩
  · exact ⟨by decide +kernel, by decide +kernel, by decide +kernel⟩
  · refine ⟨by decide +kernel, fun r₂ hr₂ => ?_, hmapped⟩
    rw [hr₁] at hr₂
    cases hr₂
    exact of_decide_eq_true hid

end Bridge

section

open Bridge

theorem replacement_collects_approvals_submitted : ∃ r w w',
    ReplacementExchange platform taskId r replaced w w' ∧ r.state = .created ∧
      Collecting taskId replaced.actionId w'.durable := by
  obtain ⟨r, w, w', h, hstate, -⟩ := exchanged submitted
    "5e0a9b1c-7d3f-4a62-8c14-f6b2d9073e58" (fun r => decide (r.state = .created)) (fun _ => true)
    (by decide +kernel)
  have hcreated : r.state = .created := of_decide_eq_true hstate
  exact ⟨r, w, w', h, hcreated, (replacement_collects_approvals_iff h).1.mpr (by simp [hcreated])⟩

/-- The Verifier answers the second check of a pending Action, and the workflow
ends because it is not in the state that the engine replaces the Action from. -/
theorem pending_not_replaced : ∃ r w w',
    ReplacementExchange platform taskId r replaced w w' ∧ r.state = .awaitingVerifierResult ∧
      ∃ r', w'.durable.store.getWorkflow taskId = some r' ∧ r'.state = .unresolvable := by
  obtain ⟨r, w, w', h, hstate, r', hr', hafter⟩ := exchanged rechecked
    "5e0a9b1c-7d3f-4a62-8c14-f6b2d9073e58" (fun r => decide (r.state = .awaitingVerifierResult))
    (fun r => decide (r.state = .unresolvable)) (by decide +kernel)
  exact ⟨r, w, w', h, of_decide_eq_true hstate, r', hr', of_decide_eq_true hafter⟩

end

/-! ## Updates about replaced Actions -/

namespace Bridge

open CoordinationReadiness Deployment

def firstKey : String := "5e0a9b1c-7d3f-4a62-8c14-f6b2d9073e58"

def secondKey : String := "b84d1f36-2c97-4e05-93ab-0d6e5f8a7c21"

def ready : CoordinationActionUpdate where
  actionId := replacementId
  state := .readyForSubmission
  actionPackage := some approved.toJson

/-- Coordination is polled, and its update is applied. -/
def readied (thread : Nat) : List Event :=
  [act (.refreshCoordination true), act (.polled thread (.ok [ready])), act (.resume thread),
    act (.startJob taskId), act (.resume thread)]

def approvedOnce : List Event :=
  handedOver ++ [created] ++ readied 1 ++ [act (.startJob taskId)]

/-- What the Verifier wants for the first replacement. -/
def askedAgain : ActionResponse where
  verifier := some verifierDid
  actionEnvelopeHash := some (platform.computeJsonHash replacementEnvelope.toJson)
  result := .additionalApprovalsRequired
  authorizationRequirements := some (Builders.buildAuthorizationRequirements
    platform.computeJsonHash 1735689890000 replacementEnvelope [missing bob] verifierDid)

def secondReplacement : ActionPackage :=
  builder.createPackage platform.computeJsonHash
    ⟨1735689900000, 1735689900000, 1735689900000, "3f8e5d17-94c1-4f6a-b2d0-71c6a9e4b852"⟩ payload
    secondReplacementEnvelope (builder.createProposerApproval platform.computeJsonHash
      ⟨1735689900000, 1735689900000, 1735689900000, "3f8e5d17-94c1-4f6a-b2d0-71c6a9e4b852"⟩
      secondReplacementEnvelope)

def replacedAgain : CoordinationReplacement where
  actionPackage := secondReplacement
  authorizationRequirements := { requirementsFor [missing bob] with
    actionEnvelopeHash := platform.computeJsonHash secondReplacementEnvelope.toJson }

/-- The second replacement with its Approval. -/
def secondApproved : ActionPackage :=
  { secondReplacement with
    approvalBundle := { secondReplacement.approvalBundle with
      approvals := secondReplacement.approvalBundle.approvals ++
        [⟨secondReplacement.approvalBundle.actionEnvelopeHash, .approve, "header.payload.signature",
          "2025-01-01T00:08:00.000Z", none⟩] } }

def secondReady : CoordinationActionUpdate where
  actionId := secondReplacementEnvelope.actionId.value
  state := .readyForSubmission
  actionPackage := some secondApproved.toJson

/-- One poll is answered after the first replacement was submitted and replaced, and
the second one has its Approvals. -/
def overtaken : List Event :=
  handedOver ++ [created, act (.refreshCoordination false)] ++ readied 2 ++
    [act (.startJob taskId), answered askedAgain, replacedWith replacedAgain secondKey, created,
      act (.refreshCoordination false), act (.polled 5 (.ok [secondReady])), act (.resume 5),
      act (.startJob taskId), act (.polled 1 (.ok [ready])), act (.resume 1)]

def misdirected : List Event :=
  approvedOnce ++ [answered askedAgain, replacedWith replacedAgain secondKey, created] ++
    readied 4 ++ [act (.startJob taskId)]

end Bridge

def envelopeHash (platform : Platform) (actionPackage : Json) : Option String :=
  (actionPackage.member "actionEnvelope").map fun envelope =>
    (platform.computeJsonHash envelope).value

/-- The update leaves every workflow as it is. -/
def CoordinationActionUpdate.isIdle (update : CoordinationActionUpdate) : Bool :=
  match update.state with
  | .awaitingApprovals => true
  | .readyForSubmission => update.actionPackage.isNone
  | _ => false

/-- The Approvals of the current Action are still to come from Coordination. -/
def awaitsCoordination : BridgeWorkflowState → Bool
  | .submittingToCoordination | .awaitingApprovals => true
  | _ => false

/-- Of the current Action of a live workflow anything may be reported, with its own
package when it is ready; of a replaced Action that it waits for Approvals or, once
the current Action has its own, that it is ready. -/
def isFaithful (platform : Platform) (proposerDid : Did) (r : WorkflowRecord)
    (update : CoordinationActionUpdate) : Bool :=
  r.state.isTerminal || update.isIdle ||
    if update.actionId = r.actionId then
      decide (update.state ≠ .readyForSubmission) || update.actionPackage.all fun actionPackage =>
        decide (proposerDidOfPackage actionPackage ≠ some proposerDid) ||
          decide (envelopeHash platform actionPackage = some r.actionEnvelopeHash)
    else
      decide (update.state = .readyForSubmission) && !awaitsCoordination r.state &&
        update.actionPackage.all fun actionPackage =>
          decide (proposerDidOfPackage actionPackage = some proposerDid)

def Job.isIdle (job : Job) : Bool :=
  match job.operation with
  | .applyUpdate update _ => update.isIdle
  | _ => true

/-- A proposed Action comes with its own hash, the updates that are taken up are
faithful, and when an Action is replaced none is queued that does something. -/
def reportsFaithfully (platform : Platform) (w : World) : Event → Bool
  | .act _ (.propose input) =>
    decide (envelopeHash platform input.actionPackage = some input.actionEnvelopeHash)
  | .act _ (.resume thread) => match w.engine with
    | some engine => match engine.threads.get? thread with
      | some (.applying _ (update :: _) _ _) =>
        (w.durable.store.getWorkflowByActionId update.actionId).all fun r =>
          isFaithful platform engine.options.proposerDid r update
      | _ => true
    | none => true
  | .act _ (.reply taskId (.replacement (.ok _) _)) => match w.engine with
    | some engine => (engine.lane taskId).all Job.isIdle
    | none => true
  | _ => true

/-- The packages of a record are those of its current Action. -/
structure PackagesOk (platform : Platform) (r : WorkflowRecord) : Prop where
  current : envelopeHash platform r.actionPackage = some r.actionEnvelopeHash
  completed : ∀ actionPackage, r.completedPackage = some actionPackage →
    envelopeHash platform actionPackage = some r.actionEnvelopeHash

/-- What was submitted is a package of the Action that was current then. -/
def SubmittedCurrent (platform : Platform) (d : Durable) : Prop :=
  ∀ call ∈ d.calls, ∀ taskId phase request hash,
    call.call = .submitActionRequest taskId phase request hash →
    envelopeHash platform request.actionPackage = some hash

structure HashesOk (platform : Platform) (d : Durable) : Prop where
  records : ∀ taskId r, d.store.getWorkflow taskId = some r → PackagesOk platform r
  submitted : SubmittedCurrent platform d

/-- Every queued update is faithful to the workflow as it is now. -/
def QueueOk (platform : Platform) (engine : Engine) (d : Durable) : Prop :=
  ∀ taskId, ∀ job ∈ engine.lane taskId, ∀ update thread,
    job.operation = .applyUpdate update thread →
    ∃ r, d.store.getWorkflow taskId = some r ∧
      isFaithful platform engine.options.proposerDid r update = true

section Hashes

variable {ctx : Context} {allowed : Occasion → Prop} {d d' : Durable} {taskId : String}

theorem envelopeHash_toJson (platform : Platform) (package : ActionPackage) :
    envelopeHash platform package.toJson =
      some (platform.computeJsonHash package.actionEnvelope.toJson).value := by
  simp [envelopeHash, ActionPackage.toJson, Json.member, List.lookup_cons]

theorem PackagesOk.packageFor {platform : Platform} {r : WorkflowRecord} (h : PackagesOk platform r)
    (phase : SubmissionPhase) :
    envelopeHash platform (packageFor phase r) = some r.actionEnvelopeHash := by
  cases phase with
  | initial => exact h.current
  | completed =>
    show envelopeHash platform (Json.nullish r.completedPackage r.actionPackage) = _
    unfold Json.nullish
    split
    · exact h.current
    · exact h.current
    · rename_i actionPackage _ heq
      exact h.completed actionPackage heq

theorem PackagesOk.settled {platform : Platform} {r : WorkflowRecord} (h : PackagesOk platform r)
    (now : Int) (resolution : WorkflowResolution) :
    PackagesOk platform (MemoryWorkflowStore.settledRecord now resolution r) := by
  unfold MemoryWorkflowStore.settledRecord
  split
  · exact h
  · exact ⟨h.current, h.completed⟩

theorem PackagesOk.change {r r' : WorkflowRecord} (h : PackagesOk ctx.platform r)
    (haccept : ∀ actionPackage, allowed (.accept r actionPackage) → r.state = .awaitingApprovals →
      proposerDidOfPackage actionPackage = some ctx.options.proposerDid →
      envelopeHash ctx.platform actionPackage = some r.actionEnvelopeHash)
    (hc : Change ctx allowed taskId r r') : PackagesOk ctx.platform r' := by
  cases hc with
  | accepted actionPackage hallowed _ hstate hown =>
    refine ⟨h.current, fun pkg hpkg => ?_⟩
    cases hpkg
    exact haccept actionPackage hallowed hstate hown
  | replaced input actionPackage _ _ _ _ hpkg hhash =>
    refine ⟨?_, fun pkg hpkg => by cases hpkg⟩
    show envelopeHash ctx.platform input.actionPackage = some input.actionEnvelopeHash
    rw [hpkg, hhash, envelopeHash_toJson]
  | settled => exact h.settled _ _
  | unresolvable => exact h.settled _ _
  | cancelled => exact h.settled _ _
  | _ => exact ⟨h.current, h.completed⟩

theorem HashesOk.micro (h : HashesOk ctx.platform d) (hm : Micro ctx allowed d d')
    (hcreate : ∀ input, allowed (.create input) →
      envelopeHash ctx.platform input.actionPackage = some input.actionEnvelopeHash)
    (haccept : ∀ r actionPackage, allowed (.accept r actionPackage) →
      r.state = .awaitingApprovals →
      proposerDidOfPackage actionPackage = some ctx.options.proposerDid →
      envelopeHash ctx.platform actionPackage = some r.actionEnvelopeHash) :
    HashesOk ctx.platform d' := by
  cases hm with
  | called call hmay =>
    refine ⟨h.records, fun c hc task phase request hash heq => ?_⟩
    rcases List.mem_append.mp hc with hold | hnew
    · exact h.submitted c hold task phase request hash heq
    · cases List.mem_singleton.mp hnew
      simp only at heq
      subst heq
      obtain ⟨-, r, hr, rfl, -, rfl, -⟩ := hmay
      exact (h.records task r hr).packageFor phase
  | created hallowed _ hlookup =>
    refine ⟨fun task r hr => ?_, h.submitted⟩
    rw [hlookup] at hr
    split at hr
    · cases hr
      exact ⟨hcreate _ hallowed, fun _ hpkg => by cases hpkg⟩
    · exact h.records task r hr
  | change hget hchange hlookup =>
    refine ⟨fun task r hr => ?_, h.submitted⟩
    rw [hlookup] at hr
    split at hr
    · cases hr
      exact (h.records _ _ hget).change (haccept _) hchange
    · exact h.records task r hr

theorem Edge.awaitsCoordination {source target : BridgeWorkflowState} (h : Edge source target)
    (hsource : awaitsCoordination source = false) : awaitsCoordination target = false := by
  cases h with
  | coordinated => cases hsource
  | _ => rfl

theorem Edge.open_source {source target : BridgeWorkflowState} (h : Edge source target) :
    source.isTerminal = false := by
  cases h <;> rfl

/-- Only a replacement makes a faithful update unfaithful. -/
theorem isFaithful_change {platform : Platform} {proposerDid : Did} {r r' : WorkflowRecord}
    {update : CoordinationActionUpdate} (h : isFaithful platform proposerDid r update = true)
    (hreplace : ∀ key, allowed (.replace taskId key) → update.isIdle = true)
    (hc : Change ctx allowed taskId r r') : isFaithful platform proposerDid r' update = true := by
  have hsettled : ∀ resolution, isFaithful platform proposerDid
      (MemoryWorkflowStore.settledRecord ctx.now resolution r) update = true := by
    intro resolution
    simp [isFaithful, settledRecord_isTerminal]
  cases hc with
  | settled => exact hsettled _
  | unresolvable => exact hsettled _
  | cancelled => exact hsettled _
  | replaced input _ hallowed =>
    simp [isFaithful, hreplace _ hallowed]
  | moved source target _ hstate hedge =>
    unfold isFaithful at h ⊢
    simp only [hstate, hedge.open_source, Bool.false_or, Bool.or_eq_true] at h
    simp only [Bool.or_eq_true]
    rcases h with hidle | h
    · exact .inl (.inr hidle)
    refine .inr ?_
    by_cases hcurrent : update.actionId = r.actionId
    · rw [if_pos hcurrent] at h
      exact (if_pos hcurrent).trans h
    · rw [if_neg hcurrent] at h
      refine (if_neg hcurrent).trans ?_
      simp only [Bool.and_eq_true, Bool.not_eq_true'] at h ⊢
      exact ⟨⟨h.1.1, hedge.awaitsCoordination h.1.2⟩, h.2⟩
  | _ => exact h

theorem QueueOk.micro {platform : Platform} {engine : Engine} (hm : Micro ctx allowed d d')
    (h : QueueOk platform engine d)
    (hreplace : ∀ taskId key, allowed (.replace taskId key) →
      (engine.lane taskId).all Job.isIdle = true) : QueueOk platform engine d' := by
  intro task job hjob update thread hop
  obtain ⟨r, hr, hfaithful⟩ := h task job hjob update thread hop
  cases hm with
  | called => exact ⟨r, hr, hfaithful⟩
  | created _ hnone hlookup =>
    refine ⟨r, ?_, hfaithful⟩
    rw [hlookup, if_neg, hr]
    rintro rfl
    rw [hnone] at hr
    cases hr
  | change hget hchange hlookup =>
    rename_i taskId r₁ r₁' store
    by_cases htask : taskId = task
    · subst htask
      rw [hget] at hr
      cases hr
      have hidle : ∀ key, allowed (.replace taskId key) → update.isIdle = true := by
        intro key hallowed
        have hjobs := List.all_eq_true.mp (hreplace taskId key hallowed) job hjob
        rwa [Job.isIdle, hop] at hjobs
      exact ⟨r₁', by rw [hlookup, if_pos rfl], isFaithful_change hfaithful hidle hchange⟩
    · exact ⟨r, by rw [hlookup, if_neg htask, hr], hfaithful⟩

/-- A queued update that is ready brings a package of the current Action. -/
theorem accepted_current {platform : Platform} {engine : Engine} {moment : Moment}
    {action : Action} (hqueue : QueueOk platform engine d) (r : WorkflowRecord)
    (actionPackage : Json)
    (hallowed : Allowed (contextAt platform engine moment) engine d action
      (.accept r actionPackage)) (hstate : r.state = .awaitingApprovals)
    (hown : proposerDidOfPackage actionPackage = some engine.options.proposerDid) :
    envelopeHash platform actionPackage = some r.actionEnvelopeHash := by
  obtain ⟨taskId, job, rest, update, thread, -, hr, hlane, hop, hready, hpkg⟩ := hallowed
  have hjob : job ∈ engine.lane taskId := hlane ▸ List.mem_cons_self ..
  obtain ⟨r', hr', hfaithful⟩ := hqueue taskId job hjob update thread hop
  rw [hr] at hr'
  cases hr'
  have hcurrent : update.actionId = r.actionId ∧
      envelopeHash platform actionPackage = some r.actionEnvelopeHash := by
    simpa [isFaithful, hstate, BridgeWorkflowState.isTerminal, awaitsCoordination,
      CoordinationActionUpdate.isIdle, hready, hpkg, hown] using hfaithful
  exact hcurrent.2

theorem progress_options (engine : Engine) (taskId : String) (job : Job) (rest : List Job)
    (outcome : Except Failure Progress) :
    (engine.progress taskId job rest outcome).options = engine.options := by
  have happlied : ∀ (engine : Engine) newlyReady,
      (engine.applied taskId job.operation newlyReady).options = engine.options := by
    intro engine newlyReady
    unfold Engine.applied
    split
    · split <;> rfl
    · rfl
  unfold Engine.progress
  split
  · rfl
  · exact happlied _ _
  · exact happlied _ _

theorem QueueOk.step {platform : Platform} {engine engine' : Engine} {action : Action}
    (h : EngineStep engine d action engine' d') (hqueue : QueueOk platform engine d')
    (htaken : ∀ taskId update, engine.Takes d action taskId update →
      ∃ r, d'.store.getWorkflow taskId = some r ∧
        isFaithful platform engine.options.proposerDid r update = true) :
    QueueOk platform engine' d' := by
  intro task job hjob update thread hop
  cases h with
  | enqueued _ hext =>
    obtain ⟨jobs, hlane, hnew⟩ := hext.lanes task
    rw [hext.options]
    rw [hlane] at hjob
    rcases List.mem_append.mp hjob with hold | hadded
    · exact hqueue task job hold update thread hop
    · exact htaken task update ((hnew job hadded).2 update thread hop)
  | progressed taskId first rest outcome hlane _ heq =>
    subst heq
    rw [progress_options]
    rw [progress_lane] at hjob
    split at hjob
    next htask =>
      subst htask
      have hold : ∃ old ∈ engine.lane taskId, old.operation = job.operation := by
        rw [hlane]
        split at hjob
        · rcases List.mem_cons.mp hjob with rfl | hrest
          · exact ⟨first, List.mem_cons_self .., rfl⟩
          · exact ⟨job, List.mem_cons_of_mem _ hrest, rfl⟩
        · exact ⟨job, List.mem_cons_of_mem _ hjob, rfl⟩
      obtain ⟨old, hmem, heq⟩ := hold
      exact hqueue taskId old hmem update thread (heq.trans hop)
    next => exact hqueue task job hjob update thread hop

/-- A faithful update that names another Action does nothing. -/
theorem appliedUpdate_harmless {platform : Platform} {r : WorkflowRecord}
    {update : CoordinationActionUpdate} (hr : d.store.getWorkflow taskId = some r)
    (hne : update.actionId ≠ r.actionId)
    (hfaithful : isFaithful platform ctx.options.proposerDid r update = true) :
    wp (appliedUpdate ctx taskId update) (fun _ d' => d' = d) (fun _ d' => d' = d)
      (fun d' => d' = d) d := by
  unfold appliedUpdate
  rw [wp_bind, wp_getWorkflow, hr]
  simp only
  split
  · exact (wp_pure _).mpr rfl
  rename_i hopen
  simp only [isFaithful, hopen, Bool.false_or, if_neg hne] at hfaithful
  rcases Bool.or_eq_true_iff.mp hfaithful with hidle | hready
  · unfold CoordinationActionUpdate.isIdle at hidle
    split at hidle
    next hstate =>
      simp only [hstate]
      exact (wp_pure _).mpr rfl
    next hstate =>
      simp only [hstate, Option.isNone_iff_eq_none.mp hidle]
      exact (wp_pure _).mpr rfl
    next => cases hidle
  · simp only [Bool.and_eq_true, decide_eq_true_eq, Bool.not_eq_true'] at hready
    obtain ⟨⟨hstate, hpassed⟩, hown⟩ := hready
    simp only [hstate]
    cases hpkg : update.actionPackage with
    | none => exact (wp_pure _).mpr rfl
    | some actionPackage =>
      rw [hpkg, Option.all_some, decide_eq_true_eq] at hown
      have hnot : r.state ≠ .awaitingApprovals := by
        intro hawaiting
        rw [hawaiting] at hpassed
        cases hpassed
      simp only
      rw [if_neg (not_not.mpr hown), if_pos hnot]
      exact (wp_pure _).mpr rfl

end Hashes

structure Reported (platform : Platform) (w : World) : Prop where
  sound : Sound w
  hashes : HashesOk platform w.durable
  queue : ∀ engine, w.engine = some engine → QueueOk platform engine w.durable

theorem Reported.init (platform : Platform) : Reported platform {} :=
  ⟨.init, ⟨fun _ _ h => (by cases h), fun _ h => (by cases h)⟩, fun _ h => (by cases h)⟩

theorem taken_isFaithful {platform : Platform} {w : World} {engine : Engine} {moment : Moment}
    {action : Action} {d : Durable} {taskId : String} {update : CoordinationActionUpdate}
    (hkeyed : Keyed w.durable.store) (hengine : w.engine = some engine)
    (hc : reportsFaithfully platform w (.act moment action) = true)
    (hmoves : ReflTransGen (Micro (contextAt platform engine moment)
      (Allowed (contextAt platform engine moment) engine w.durable action)) w.durable d)
    (htakes : engine.Takes w.durable action taskId update) :
    ∃ r, d.store.getWorkflow taskId = some r ∧
      isFaithful platform engine.options.proposerDid r update = true := by
  obtain ⟨thread, afterPoll, rest, awaited, ready, r, rfl, hthread, hlookup, rfl⟩ := htakes
  simp only [reportsFaithfully, hengine, hthread, hlookup, Option.all_some] at hc
  obtain ⟨task, -, hr⟩ := Option.bind_eq_some_iff.mp hlookup
  rw [← hkeyed _ _ hr] at hr
  obtain ⟨r', hr', rfl | hterminal⟩ := moves_frame hmoves (fun hown => hown) hr
  · exact ⟨r', hr', hc⟩
  · exact ⟨r', hr', by simp [isFaithful, hterminal]⟩

theorem Reported.step {platform : Platform} {w w' : World} {event : Event}
    (h : Reported platform w) (hc : reportsFaithfully platform w event = true)
    (hstep : WorkflowEngine.step platform w event = some w') : Reported platform w' := by
  have hsound := h.sound.step hstep
  cases event with
  | start options =>
    simp only [WorkflowEngine.step] at hstep
    split at hstep
    · cases hstep
    · cases hstep
      refine ⟨hsound, h.hashes, fun engine heq taskId job hjob => ?_⟩
      cases heq
      cases hjob
  | crash =>
    obtain ⟨engine, -, rfl⟩ := Option.map_eq_some_iff.mp hstep
    exact ⟨hsound, h.hashes, fun _ heq => by cases heq⟩
  | act moment action =>
    obtain ⟨engine, hengine, -⟩ := Option.bind_eq_some_iff.mp hstep
    obtain ⟨hmoves, hcase⟩ := step_cases h.sound hengine hstep
    have hqueue := h.queue engine hengine
    have hkept : ∀ d, ReflTransGen (Micro (contextAt platform engine moment)
        (Allowed (contextAt platform engine moment) engine w.durable action)) w.durable d →
        HashesOk platform d ∧ QueueOk platform engine d := by
      intro d hmoves
      induction hmoves with
      | refl => exact ⟨h.hashes, hqueue⟩
      | tail _ hm ih =>
        refine ⟨ih.1.micro hm ?_ ?_, ih.2.micro hm ?_⟩
        · rintro input rfl
          exact of_decide_eq_true hc
        · exact accepted_current hqueue
        · rintro taskId key ⟨replacement, rfl⟩
          simpa only [reportsFaithfully, hengine] using hc
    obtain ⟨hhashes, hkeptQueue⟩ := hkept _ hmoves
    refine ⟨hsound, hhashes, fun engine₁ heq => ?_⟩
    rcases hcase with ⟨-, hnone⟩ | ⟨engine', heq', hes⟩
    · rw [hnone] at heq
      cases heq
    · rw [heq'] at heq
      cases heq
      exact hkeptQueue.step hes fun taskId update =>
        taken_isFaithful h.sound.keyed hengine hc hmoves

theorem Reported.run {platform : Platform} {events : List Event} {w : World}
    (hrun : Run (WorkflowEngine.step platform)
      (fun w event => reportsFaithfully platform w event = true) {} events w) :
    Reported platform w :=
  hrun.invariant (fun _ _ _ h hc hstep => h.step hc hstep) (.init platform)

/-- **Updates about a replaced Action change nothing**, and what is submitted is
a package of the Action that is current. -/
theorem stale_updates_ignored (platform : Platform) {events : List Event} {w : World}
    (hrun : Run (step platform) (fun w event => reportsFaithfully platform w event = true) {} events
      w) :
    (∀ taskId engine job rest update thread r moment w', w.engine = some engine →
      engine.lane taskId = job :: rest → job.operation = .applyUpdate update thread →
      w.durable.store.getWorkflow taskId = some r → update.actionId ≠ r.actionId →
      step platform w (.act moment (.startJob taskId)) = some w' → w'.durable = w.durable) ∧
    ∀ call ∈ w.durable.calls, ∀ taskId phase request hash,
      call.call = .submitActionRequest taskId phase request hash →
      envelopeHash platform request.actionPackage = some hash := by
  have hreported := Reported.run hrun
  refine ⟨?_, hreported.hashes.submitted⟩
  intro taskId engine job rest update thread r moment w' hengine hlane hop hr hne hstep
  obtain ⟨r', hr', hfaithful⟩ := hreported.queue engine hengine taskId job
    (hlane ▸ List.mem_cons_self ..) update thread hop
  rw [hr] at hr'
  cases hr'
  obtain ⟨id, operation, point⟩ := job
  simp only at hop
  subst hop
  obtain ⟨engine', hengine', hbind⟩ := Option.bind_eq_some_iff.mp hstep
  rw [hengine] at hengine'
  cases hengine'
  obtain ⟨program, hact, -⟩ := Option.bind_eq_some_iff.mp hbind
  have hprogram : engine.act (contextAt platform engine moment) (.startJob taskId) =
      some (engine.onLane taskId ⟨id, .applyUpdate update thread, point⟩ rest
        (appliedUpdate (contextAt platform engine moment) taskId update)) := by
    simp only [Engine.act, hlane] at hact ⊢
    split at hact
    · rename_i hqueued
      rw [if_pos hqueued]
      rfl
    · cases hact
  exact step_onLane_always (I := fun d => d = w.durable) hengine hprogram
    (appliedUpdate_harmless hr hne hfaithful) hstep

section

open Bridge CoordinationReadiness.Deployment

/-- The poll that reports the first replacement ready is answered when the second
one has its Approvals: the update is applied, and changes nothing. -/
theorem stale_updates_ignored_overtaken : ∃ w w',
    Run (step platform) (fun w event => reportsFaithfully platform w event = true) {} overtaken w ∧
    w.engine.map (fun engine => (engine.lane taskId).map (·.operation)) =
      some [.applyUpdate ready 1] ∧
    (w.durable.store.getWorkflow taskId).map (fun r => (r.actionId, r.state)) =
      some (secondReady.actionId, .readyForSubmission) ∧
    ⟨.submitActionRequest taskId .completed ⟨firstKey, approved.toJson, none⟩
      (platform.computeJsonHash replacementEnvelope.toJson).value, false⟩ ∈ w.durable.calls ∧
    step platform w (act (.startJob taskId)) = some w' ∧ w'.durable = w.durable ∧
    ∀ call ∈ w.durable.calls, ∀ taskId phase request hash,
      call.call = .submitActionRequest taskId phase request hash →
      envelopeHash platform request.actionPackage = some hash := by
  have hexec : ∃ w, Run (step platform)
      (fun w event => reportsFaithfully platform w event = true) {} overtaken w ∧
      w.engine.map (fun engine => (engine.lane taskId).map (·.operation)) =
        some [.applyUpdate ready 1] ∧
      (w.durable.store.getWorkflow taskId).map (fun r => (r.actionId, r.state)) =
        some (secondReady.actionId, .readyForSubmission) ∧
      ⟨.submitActionRequest taskId .completed ⟨firstKey, approved.toJson, none⟩
        (platform.computeJsonHash replacementEnvelope.toJson).value, false⟩ ∈ w.durable.calls ∧
      (step platform w (act (.startJob taskId))).isSome = true :=
    run_of_checked_any (by decide +kernel)
  obtain ⟨w, hw, hqueued, hrecord, hcall, hsome⟩ := hexec
  obtain ⟨w', hstep⟩ := Option.isSome_iff_exists.mp hsome
  obtain ⟨hstale, hsubmitted⟩ := stale_updates_ignored platform hw
  obtain ⟨engine, hengine, hlane⟩ := Option.map_eq_some_iff.mp hqueued
  obtain ⟨job, rest, hlane, hop, -⟩ := List.map_eq_cons_iff.mp hlane
  obtain ⟨r, hr, hid⟩ := Option.map_eq_some_iff.mp hrecord
  have hne : ready.actionId ≠ r.actionId := by
    have hsecond : r.actionId = secondReady.actionId := congrArg Prod.fst hid
    rw [hsecond]
    decide +kernel
  exact ⟨w, w', hw, hqueued, hrecord, hcall, hstep,
    hstale taskId engine job rest ready 1 r _ w' hengine hlane hop hr hne hstep, hsubmitted⟩

/-- The update about the first replacement makes the second one ready, and the
package of the first is submitted under the key of the second. -/
theorem stale_update_misdirects : ∃ w, Run (step platform) Free {} misdirected w ∧
    ⟨.submitActionRequest taskId .completed ⟨secondKey, approved.toJson, none⟩
      (platform.computeJsonHash secondReplacementEnvelope.toJson).value, false⟩ ∈ w.durable.calls ∧
    envelopeHash platform approved.toJson ≠
      some (platform.computeJsonHash secondReplacementEnvelope.toJson).value :=
  run_of_exec_any (by decide +kernel)

end

end Mpas.WorkflowEngine
