import Mpas.Library.Machine
import Mpas.WorkflowMoves

/-!
# What a step of the workflow engine can do

A step is a sequence of single writes on the lane of one Task; what it may do to
the store is told by its action. Other lanes are left alone, but for
cancellations and failures that end their workflow.

* `Sound.step`: what the lanes say about the store stays true;
* `run_invariant`: what every single write keeps holds in every reachable state,
  and after a crash in the middle of a program.
-/

namespace Mpas.WorkflowEngine

open Routing WorkflowStore Program Machine
open Relation (ReflTransGen)

/-! ## What an action allows -/

/-- The action runs a program on the lane of the Task, or on its own while the lane is idle. -/
def Engine.Runs (engine : Engine) (taskId : String) : Action → Prop
  | .startJob task => task = taskId
  | .reply task _ => task = taskId
  | .expireIfOverdue task => task = taskId ∧ engine.lanes.has taskId = false
  | _ => False

def Allowed (ctx : Context) (engine : Engine) (d : Durable) (action : Action) : Occasion → Prop
  | .own taskId => engine.Runs taskId action
  | .submit taskId phase actionIdempotencyKey adapterAttempts actionPackage =>
    action = .startJob taskId ∧ ∃ r, d.store.getWorkflow taskId = some r ∧
      PhaseStarts phase r.state ∧ actionIdempotencyKey = r.actionIdempotencyKey ∧
      adapterAttempts = r.adapterAttempts ∧ actionPackage = packageFor phase r ∧
      (phase = .completed → ∃ job rest respectSchedule, engine.lane taskId = job :: rest ∧
        job.operation = .claimable respectSchedule ∧ claimable ctx respectSchedule r = true)
  | .settle taskId phase response =>
    action = .reply taskId (.actionResponse (.ok response)) ∧
      (∃ job rest, engine.lane taskId = job :: rest ∧ job.point = .submitted phase) ∧
      ∃ r, d.store.getWorkflow taskId = some r ∧ r.state.isTerminal = false
  | .accept record completedPackage => ∃ taskId job rest update thread,
    action = .startJob taskId ∧ d.store.getWorkflow taskId = some record ∧
      engine.lane taskId = job :: rest ∧ job.operation = .applyUpdate update thread ∧
      update.state = .readyForSubmission ∧ update.actionPackage = some completedPackage
  | .lateCancel taskId => (∃ ref, action = .reply taskId (.coordination (.ok ref))) ∧
    ∃ r, d.store.getWorkflow taskId = some r ∧ r.state = .cancelled
  | .replace taskId randomUUID =>
    ∃ replacement, action = .reply taskId (.replacement (.ok replacement) randomUUID)
  | .create input => action = .propose input

/-! ## Frames -/

theorem settledRecord_isTerminal (now : Int) (resolution : WorkflowResolution)
    (r : WorkflowRecord) :
    (MemoryWorkflowStore.settledRecord now resolution r).state.isTerminal = true := by
  unfold MemoryWorkflowStore.settledRecord
  split
  · assumption
  · cases resolution <;> rfl

section Frame

variable {ctx : Context} {allowed : Occasion → Prop} {d d' : Durable} {taskId : String}

/-- A step that does not run on a lane changes its workflow at most by ending it. -/
theorem Change.frame {r r' : WorkflowRecord} (h : Change ctx allowed taskId r r')
    (hown : ¬ allowed (.own taskId)) : r' = r ∨ r'.state.isTerminal = true := by
  cases h with
  | kept => exact Or.inl rfl
  | settled => exact Or.inr (settledRecord_isTerminal _ _ _)
  | unresolvable => exact Or.inr (settledRecord_isTerminal _ _ _)
  | cancelled => exact Or.inr (settledRecord_isTerminal _ _ _)
  | claimed h => exact absurd h hown
  | attempted _ h => exact absurd h hown
  | bound _ _ _ h => exact absurd h hown
  | answered _ h => exact absurd h hown
  | referred _ h => exact absurd h hown
  | moved _ _ h => exact absurd h hown
  | accepted _ _ h => exact absurd h hown
  | replaced _ _ _ h => exact absurd h hown

theorem Micro.frame (h : Micro ctx allowed d d') (hown : ¬ allowed (.own taskId))
    {r : WorkflowRecord} (hr : d.store.getWorkflow taskId = some r) :
    ∃ r', d'.store.getWorkflow taskId = some r' ∧ (r' = r ∨ r'.state.isTerminal = true) := by
  cases h with
  | called call _ => exact ⟨r, hr, Or.inl rfl⟩
  | @created input store _ hnone hlookup =>
    refine ⟨r, ?_, Or.inl rfl⟩
    rw [hlookup, if_neg, hr]
    rintro rfl
    rw [hnone] at hr
    cases hr
  | @change task r₁ r₁' store hget hchange hlookup =>
    by_cases heq : task = taskId
    · subst heq
      rw [hget] at hr
      cases hr
      exact ⟨r₁', by rw [hlookup, if_pos rfl], hchange.frame hown⟩
    · exact ⟨r, by rw [hlookup, if_neg heq, hr], Or.inl rfl⟩

theorem moves_frame (h : ReflTransGen (Micro ctx allowed) d d') (hown : ¬ allowed (.own taskId))
    {r : WorkflowRecord} (hr : d.store.getWorkflow taskId = some r) :
    ∃ r', d'.store.getWorkflow taskId = some r' ∧ (r' = r ∨ r'.state.isTerminal = true) := by
  induction h with
  | refl => exact ⟨r, hr, Or.inl rfl⟩
  | tail _ hm ih =>
    obtain ⟨r₁, hr₁, hcase⟩ := ih
    obtain ⟨r₂, hr₂, hcase₂⟩ := hm.frame hown hr₁
    refine ⟨r₂, hr₂, ?_⟩
    rcases hcase₂ with rfl | hterminal
    · exact hcase
    · exact Or.inr hterminal

@[simp] theorem settledRecord_actionId (now : Int) (resolution : WorkflowResolution)
    (r : WorkflowRecord) :
    (MemoryWorkflowStore.settledRecord now resolution r).actionId = r.actionId := by
  unfold MemoryWorkflowStore.settledRecord
  split <;> rfl

/-- Only on its own lane is the Action of a workflow replaced. -/
theorem Micro.actionId (h : Micro ctx allowed d d') (hown : ¬ allowed (.own taskId))
    {r : WorkflowRecord} (hr : d.store.getWorkflow taskId = some r) :
    ∃ r', d'.store.getWorkflow taskId = some r' ∧ r'.actionId = r.actionId := by
  cases h with
  | called call _ => exact ⟨r, hr, rfl⟩
  | @created input store _ hnone hlookup =>
    refine ⟨r, ?_, rfl⟩
    rw [hlookup, if_neg, hr]
    rintro rfl
    rw [hnone] at hr
    cases hr
  | @change task r₁ r₁' store hget hchange hlookup =>
    by_cases heq : task = taskId
    · subst heq
      rw [hget] at hr
      cases hr
      refine ⟨r₁', by rw [hlookup, if_pos rfl], ?_⟩
      cases hchange with
      | replaced _ _ _ h => exact absurd h hown
      | settled => exact settledRecord_actionId _ _ _
      | unresolvable => exact settledRecord_actionId _ _ _
      | cancelled => exact settledRecord_actionId _ _ _
      | _ => rfl
    · exact ⟨r, by rw [hlookup, if_neg heq, hr], rfl⟩

theorem moves_actionId (h : ReflTransGen (Micro ctx allowed) d d')
    (hown : ¬ allowed (.own taskId)) {r : WorkflowRecord}
    (hr : d.store.getWorkflow taskId = some r) :
    ∃ r', d'.store.getWorkflow taskId = some r' ∧ r'.actionId = r.actionId := by
  induction h with
  | refl => exact ⟨r, hr, rfl⟩
  | tail _ hm ih =>
    obtain ⟨r₁, hr₁, hid₁⟩ := ih
    obtain ⟨r₂, hr₂, hid₂⟩ := hm.actionId hown hr₁
    exact ⟨r₂, hr₂, hid₂.trans hid₁⟩

theorem PointOk.frame {point : Point} (h : PointOk d.store taskId point)
    (hm : ReflTransGen (Micro ctx allowed) d d') (hown : ¬ allowed (.own taskId)) :
    PointOk d'.store taskId point := by
  cases point with
  | submitted phase =>
    obtain ⟨r, hr, hfits⟩ := h
    obtain ⟨r', hr', hcase⟩ := moves_frame hm hown hr
    refine ⟨r', hr', ?_⟩
    rcases hcase with rfl | hterminal
    · exact hfits
    · exact Or.inr hterminal
  | building => exact h
  | creating record =>
    obtain ⟨hid, r, hr, haction⟩ := h
    obtain ⟨r', hr', haction'⟩ := moves_actionId hm hown hr
    exact ⟨hid, r', hr', haction'.trans haction⟩
  | queued => trivial
  | cancelling => trivial

end Frame

/-! ## Lanes -/

/-- Every lane waits at most in its first job, where the store fits. -/
def LanesOk (engine : Engine) (d : Durable) : Prop :=
  ∀ taskId job rest, engine.lane taskId = job :: rest →
    PointOk d.store taskId job.point ∧ ∀ j ∈ rest, j.point = .queued

/-- Lanes only got new jobs, of which those that apply updates were taken up. -/
structure Extends (taken : String → CoordinationActionUpdate → Prop) (engine engine' : Engine) :
    Prop where
  options : engine'.options = engine.options
  lanes : ∀ taskId, ∃ jobs : List Job, engine'.lane taskId = engine.lane taskId ++ jobs ∧
    ∀ j ∈ jobs, j.point = .queued ∧
      ∀ update thread, j.operation = .applyUpdate update thread → taken taskId update

section Lanes

variable {taken : String → CoordinationActionUpdate → Prop} {engine engine' : Engine}

theorem Extends.of_lanes (h : engine'.lanes = engine.lanes)
    (hoptions : engine'.options = engine.options) : Extends taken engine engine' :=
  ⟨hoptions, fun _ => ⟨[], by simp [Engine.lane, h], by simp⟩⟩

theorem Extends.refl (engine : Engine) : Extends taken engine engine := .of_lanes rfl rfl

theorem Extends.trans {engine'' : Engine} (h : Extends taken engine engine')
    (h' : Extends taken engine' engine'') : Extends taken engine engine'' := by
  refine ⟨h'.options.trans h.options, fun taskId => ?_⟩
  obtain ⟨jobs, heq, hq⟩ := h.lanes taskId
  obtain ⟨jobs', heq', hq'⟩ := h'.lanes taskId
  refine ⟨jobs ++ jobs', by rw [heq', heq, List.append_assoc], fun j hj => ?_⟩
  exact (List.mem_append.mp hj).elim (hq j) (hq' j)

theorem dispatchOutbound_extends (engine : Engine) {taskId : String} {operation : Operation}
    (htaken : ∀ update thread, operation = .applyUpdate update thread → taken taskId update) :
    Extends taken engine (engine.dispatchOutbound taskId operation) := by
  refine ⟨rfl, fun task => ?_⟩
  by_cases heq : taskId = task
  · subst heq
    refine ⟨[{ id := engine.nextId, operation }], ?_, by simpa using htaken⟩
    show ((engine.lanes.set taskId _).get? taskId).getD [] = _
    rw [OrderedMap.get?_set_self]
    rfl
  · refine ⟨[], ?_, by simp⟩
    show ((engine.lanes.set taskId _).get? task).getD [] = _
    rw [OrderedMap.get?_set_ne _ _ heq]
    simp [Engine.lane]

theorem dispatchAll_extends {operation : Operation}
    (hother : ∀ update thread, operation ≠ .applyUpdate update thread) (taskIds : List String)
    (engine : Engine) : Extends taken engine (engine.dispatchAll operation taskIds) := by
  induction taskIds generalizing engine with
  | nil => exact .refl engine
  | cons taskId taskIds ih =>
    exact (dispatchOutbound_extends engine fun update thread heq =>
      absurd heq (hother update thread)).trans (ih _)

theorem advanceTask_extends (engine : Engine) (taskId : String) :
    Extends taken engine (engine.advanceTask taskId) := by
  unfold Engine.advanceTask
  split
  · exact .refl engine
  · exact dispatchOutbound_extends _ fun _ _ heq => by cases heq

theorem advanceTasks_extends (taskIds : List String) (engine : Engine) :
    Extends taken engine (taskIds.foldl (fun engine taskId => engine.advanceTask taskId) engine) := by
  induction taskIds generalizing engine with
  | nil => exact .refl engine
  | cons taskId taskIds ih => exact (advanceTask_extends engine taskId).trans (ih _)

theorem leave_lane (engine : Engine) (taskId : String) (rest : List Job) (task : String) :
    (engine.leave taskId rest).lane task = if taskId = task then rest else engine.lane task := by
  unfold Engine.leave Engine.lane
  cases rest with
  | nil =>
    simp only [List.isEmpty_nil, ↓reduceIte, OrderedMap.get?_delete]
    split <;> rfl
  | cons job rest =>
    simp only [List.isEmpty_cons, Bool.false_eq_true, ↓reduceIte, OrderedMap.get?_set]
    split <;> rfl

theorem applied_lane (engine : Engine) (taskId : String) (operation : Operation)
    (newlyReady : Option Bool) (task : String) :
    (engine.applied taskId operation newlyReady).lane task = engine.lane task := by
  unfold Engine.applied
  split
  · split <;> rfl
  · rfl

theorem progress_lane (engine : Engine) (taskId : String) (job : Job) (rest : List Job)
    (outcome : Except Failure Progress) (task : String) :
    (engine.progress taskId job rest outcome).lane task =
      if taskId = task then match outcome with
        | .ok (.awaiting point) => { job with point } :: rest
        | _ => rest
      else engine.lane task := by
  unfold Engine.progress
  split
  · show ((engine.lanes.set taskId _).get? task).getD [] = _
    rw [OrderedMap.get?_set]
    split <;> rfl
  · rw [applied_lane, leave_lane]
  · rw [applied_lane, leave_lane]

end Lanes

/-! ## Programs of an engine -/

/-- The loop of a thread takes up an update that names an Action of the Task. -/
def Engine.Takes (engine : Engine) (d : Durable) (action : Action) (taskId : String)
    (update : CoordinationActionUpdate) : Prop :=
  ∃ thread afterPoll rest awaited ready r, action = .resume thread ∧
    engine.threads.get? thread = some (.applying afterPoll (update :: rest) awaited ready) ∧
    d.store.getWorkflowByActionId update.actionId = some r ∧ r.taskId = taskId

/-- What an action makes of the engine: new jobs behind the others, or the first
job of one lane goes on. -/
inductive EngineStep (engine : Engine) (d : Durable) (action : Action) (engine' : Engine)
    (d' : Durable) : Prop
  | enqueued :
      (∀ taskId job rest, engine.lane taskId = job :: rest → ¬ engine.Runs taskId action) →
      Extends (engine.Takes d action) engine engine' → EngineStep engine d action engine' d'
  | progressed (taskId : String) (job : Job) (rest : List Job) (outcome : Except Failure Progress) :
      engine.lane taskId = job :: rest → (∀ task, engine.Runs task action ↔ task = taskId) →
      engine' = engine.progress taskId job rest outcome →
      (∀ point, outcome = .ok (.awaiting point) → PointOk d'.store taskId point) →
      EngineStep engine d action engine' d'

section Act

variable {ctx : Context} {engine : Engine} {d : Durable} {taskId : String}
variable {taken : String → CoordinationActionUpdate → Prop}

theorem run_moves {job : Job} {rest : List Job} (hk : Keyed d.store)
    (hlane : engine.lane taskId = job :: rest) :
    Moves (Micro ctx (Allowed ctx engine d (.startJob taskId))) (job.operation.run ctx taskId) d
      (ProgressOk taskId) := by
  have hown : Allowed ctx engine d (.startJob taskId) (.own taskId) := rfl
  cases hop : job.operation with
  | propose =>
    exact proposed_moves hk hown fun r hr hstarts => ⟨rfl, r, hr, hstarts, rfl, rfl, rfl, by simp⟩
  | claimable respectSchedule =>
    exact dispatchClaimable_moves hk hown fun r hr hclaimable phase hstarts =>
      ⟨rfl, r, hr, hstarts, rfl, rfl, rfl, fun _ => ⟨job, rest, respectSchedule, hlane, hop,
        hclaimable⟩⟩
  | sweepExpired => exact sweptExpired_moves hown
  | applyUpdate update thread =>
    exact appliedUpdate_moves hown fun r pkg hr hready hpkg =>
      ⟨taskId, job, rest, update, thread, rfl, hr, hlane, hop, hready, hpkg⟩

theorem continue_moves {job : Job} {rest : List Job} {reply : LaneReply}
    {program : EngineM Progress} (hk : Keyed d.store) (hlane : engine.lane taskId = job :: rest)
    (hpoint : PointOk d.store taskId job.point)
    (h : job.point.continue ctx taskId reply = some program) :
    Moves (Micro ctx (Allowed ctx engine d (.reply taskId reply))) program d (ProgressOk taskId) := by
  have hown : Allowed ctx engine d (.reply taskId reply) (.own taskId) := rfl
  unfold Point.continue at h
  split at h
  · rename_i outcome hp
    cases h
    refine afterInitial_moves hk hown fun response r heq hr hopen => ?_
    subst heq
    exact ⟨rfl, ⟨job, rest, hlane, hp⟩, r, hr, hopen⟩
  · rename_i outcome hp
    cases h
    refine afterCompleted_moves hk hown fun response r heq hr hopen => ?_
    subst heq
    exact ⟨rfl, ⟨job, rest, hlane, hp⟩, r, hr, hopen⟩
  · rename_i record fromState requirements outcome randomUUID hp
    cases h
    rw [hp] at hpoint
    refine afterReplacement_moves hk hpoint.1 hpoint.2 hown fun replacement heq => ?_
    subst heq
    exact ⟨replacement, rfl⟩
  · rename_i record outcome hp
    cases h
    rw [hp] at hpoint
    refine afterCreation_moves hpoint.1 hown fun ref r heq hr hcancelled => ?_
    subst heq
    exact ⟨⟨ref, rfl⟩, r, hr, hcancelled⟩
  · cases h
    exact done_moves
  · cases h

theorem onLane_moves {allowed : Occasion → Prop} {action : Action} {job : Job} {rest : List Job}
    {program : EngineM Progress} (hlane : engine.lane taskId = job :: rest)
    (honly : ∀ task, engine.Runs task action ↔ task = taskId)
    (h : Moves (Micro ctx allowed) program d (ProgressOk taskId)) :
    Moves (Micro ctx allowed) (engine.onLane taskId job rest program) d
      (EngineStep engine d action) := by
  refine Moves.tryCatch (Moves.bind h fun progress s' _ hok => Moves.pure ?_)
    fun error s' _ => Moves.pure ?_
  · refine .progressed taskId job rest (.ok progress) hlane honly rfl fun point hpoint => ?_
    cases hpoint
    exact hok
  · exact .progressed taskId job rest (.error error) hlane honly rfl fun point hpoint => by
      cases hpoint

section Enqueueing

variable {allowed : Occasion → Prop} {start : Engine}

theorem sweepExpired_moves (h : Extends taken start engine) :
    Moves (Micro ctx allowed) (sweepExpired ctx engine) d fun engine' _ => Extends taken start engine' :=
  Moves.seq (Moves.read (Moves.pure (h.trans (dispatchAll_extends (by simp) _ _))))

theorem advanceClaimable_moves (h : Extends taken start engine) :
    Moves (Micro ctx allowed) (advanceClaimable ctx engine) d
      fun engine' _ => Extends taken start engine' :=
  Moves.seq (Moves.read (Moves.pure (h.trans (dispatchAll_extends (by simp) _ _))))

theorem pollCoordination_moves {afterPoll : AfterPoll} (h : Extends taken start engine) :
    Moves (Micro ctx allowed) (pollCoordination ctx engine afterPoll) d
      fun polling _ => ∀ engine', polling = some engine' → Extends taken start engine' := by
  unfold pollCoordination
  split
  · exact Moves.pure fun _ h => by cases h
  rename_i hstopped
  refine Moves.seq (Moves.read ?_)
  simp only
  split
  · exact Moves.pure fun _ h => by cases h
  refine Moves.seq (send_moves (by simpa [MayCall] using hstopped) (Moves.pure fun engine' heq => ?_))
  cases heq
  exact h.trans (.of_lanes rfl rfl)

theorem resolveAwaiting_moves {resolution : String × String} (records : List WorkflowRecord) :
    Moves (Micro ctx allowed) (resolveAwaiting ctx resolution records) d fun _ _ => True := by
  induction records generalizing d with
  | nil => exact Moves.pure trivial
  | cons record records ih =>
    unfold resolveAwaiting
    split
    · exact Moves.seq (resolveUnresolvable_moves ih)
    · exact ih

end Enqueueing

/-- Where jobs are, only the first of them runs. -/
theorem Engine.Runs.on_lane {action : Action} {job : Job} {rest : List Job}
    (h : engine.Runs taskId action) (hlane : engine.lane taskId = job :: rest) :
    action = .startJob taskId ∨ ∃ reply, action = .reply taskId reply := by
  cases action with
  | startJob task => exact Or.inl (congrArg _ h)
  | reply task reply => exact Or.inr ⟨reply, congrArg (Action.reply · reply) h⟩
  | expireIfOverdue task =>
    obtain ⟨rfl, hidle⟩ := h
    unfold Engine.lane at hlane
    cases hget : engine.lanes.get? task with
    | none =>
      rw [hget] at hlane
      cases hlane
    | some jobs =>
      rw [(OrderedMap.has_iff _ _).mpr ⟨jobs, hget⟩] at hidle
      cases hidle
  | _ => exact h.elim

/-- An action that runs on no lane enqueues at most. -/
theorem enqueues {action : Action} {program : EngineM Engine}
    (hnone : ∀ taskId job rest, engine.lane taskId = job :: rest → ¬ engine.Runs taskId action)
    (h : Moves (Micro ctx (Allowed ctx engine d action)) program d
      fun engine' _ => Extends (engine.Takes d action) engine engine') :
    Moves (Micro ctx (Allowed ctx engine d action)) program d (EngineStep engine d action) :=
  h.mono fun _ _ hext => .enqueued hnone hext

theorem propose_moves {input : CreateWorkflowInput} :
    Moves (Micro ctx (Allowed ctx engine d (.propose input))) (propose ctx engine input) d
      fun engine' _ => Extends taken engine engine' := by
  unfold propose
  split
  · exact Moves.throw
  split
  · exact Moves.throw
  refine Moves.seq (Moves.write ?_ ?_)
  · split
    · rename_i store hcreated
      obtain ⟨hnone, -, hnew, hother⟩ := MemoryWorkflowStore.createWorkflow_cases hcreated
      refine .single (.created rfl hnone fun task => ?_)
      split
      · rename_i heq
        rw [← heq]
        exact hnew
      · rename_i hne
        exact hother task (Ne.symm hne)
    · exact .refl
  · split
    · exact Moves.throw
    · exact Moves.pure (dispatchOutbound_extends _ fun _ _ heq => by cases heq)

theorem expireIfOverdue_moves :
    Moves (Micro ctx (Allowed ctx engine d (.expireIfOverdue taskId)))
      (expireIfOverdue ctx engine taskId) d fun engine' _ => Extends taken engine engine' := by
  unfold expireIfOverdue
  split
  · exact Moves.pure (.refl engine)
  rename_i hidle
  refine Moves.seq (getWorkflow_moves ?_)
  split
  · exact Moves.pure (.refl engine)
  split
  · exact Moves.pure (.refl engine)
  split
  · exact Moves.pure (.refl engine)
  exact Moves.seq (expire_moves ⟨rfl, by simpa using hidle⟩ fun _ => Moves.pure (.refl engine))

theorem cancel_moves :
    Moves (Micro ctx (Allowed ctx engine d (.cancel taskId))) (cancel ctx engine taskId) d
      fun engine' _ => Extends taken engine engine' := by
  refine Moves.seq (getWorkflow_moves ?_)
  split
  · exact Moves.pure (.refl engine)
  split
  · exact Moves.pure (.refl engine)
  refine Moves.seq (cancelWorkflow_moves (Moves.pure (.refl engine)) fun d' => ?_)
  simp only [Bool.not_true, Bool.false_eq_true, ↓reduceIte]
  split
  · exact Moves.seq (send_moves (Or.inl rfl) (Moves.pure (.refl engine)))
  · exact Moves.pure (.refl engine)

theorem polled_moves {allowed : Occasion → Prop} {thread : Nat} {afterPoll : AfterPoll}
    {outcome : Except Failure (List CoordinationActionUpdate)} :
    Moves (Micro ctx allowed) (polled ctx engine thread afterPoll outcome) d
      fun engine' _ => Extends taken engine engine' := by
  unfold polled
  split
  · exact Moves.pure (.of_lanes rfl rfl)
  split
  · refine Moves.seq (Moves.read ?_)
    exact Moves.bind (resolveAwaiting_moves _) fun _ _ _ _ => Moves.pure (.of_lanes rfl rfl)
  split
  · exact Moves.pure (.of_lanes rfl rfl)
  · exact Moves.pure (.of_lanes rfl rfl)

theorem applyNext_moves {allowed : Occasion → Prop} {thread : Nat} {afterPoll : AfterPoll}
    {ready : List String} (updates : List CoordinationActionUpdate)
    (htaken : ∀ update rest r, updates = update :: rest →
      d.store.getWorkflowByActionId update.actionId = some r → taken r.taskId update) :
    Moves (Micro ctx allowed) (applyNext ctx engine thread afterPoll ready updates) d
      fun engine' _ => Extends taken engine engine' := by
  unfold applyNext
  split
  · refine Moves.seq (Moves.read ?_)
    split
    · exact Moves.pure (.of_lanes rfl rfl)
    split
    · exact Moves.pure (.of_lanes rfl rfl)
    · rename_i update rest _ r hr _
      refine Moves.pure ((dispatchOutbound_extends _ ?_).trans (.of_lanes rfl rfl))
      rintro _ _ ⟨⟩
      exact htaken update rest r rfl hr
  · have hdeleted : Extends taken engine { engine with threads := engine.threads.delete thread } :=
      .of_lanes rfl rfl
    simp only
    split
    · exact Moves.pure hdeleted
    · exact Moves.pure (hdeleted.trans (advanceTasks_extends _ _))
    · exact advanceClaimable_moves hdeleted

theorem pollOnce_moves {allowed : Occasion → Prop} :
    Moves (Micro ctx allowed) (pollOnce ctx engine) d fun engine' _ => Extends taken engine engine' := by
  have hstart : Extends taken engine engine := .refl engine
  refine Moves.bind (sweepExpired_moves hstart) fun swept s' _ hswept => ?_
  refine Moves.bind (pollCoordination_moves hswept) fun polling _ _ hpolling => Moves.pure ?_
  cases polling with
  | none => exact hswept.trans (.of_lanes rfl rfl)
  | some engine' => exact hpolling engine' rfl

theorem refreshCoordination_moves {allowed : Occasion → Prop} {advanceReady : Bool} :
    Moves (Micro ctx allowed) (refreshCoordination ctx engine advanceReady) d
      fun engine' _ => Extends taken engine engine' := by
  have hstart : Extends taken engine engine := .refl engine
  refine Moves.bind (pollCoordination_moves hstart) fun polling _ _ hpolling =>
    Moves.pure ?_
  cases polling with
  | none => exact .refl engine
  | some engine' => exact hpolling engine' rfl

theorem reconcile_moves {allowed : Occasion → Prop} :
    Moves (Micro ctx allowed) (reconcile ctx engine) d fun engine' _ => Extends taken engine engine' := by
  have hstart : Extends taken engine engine := .refl engine
  exact Moves.bind (sweepExpired_moves hstart) fun _ _ _ hswept =>
    Moves.pure (hswept.trans (.of_lanes rfl rfl))

/-- **Every program of the engine** consists of single writes that its action allows. -/
theorem act_moves {action : Action} {program : EngineM Engine} (hk : Keyed d.store)
    (hlanes : LanesOk engine d) (h : engine.act ctx action = some program) :
    Moves (Micro ctx (Allowed ctx engine d action)) program d (EngineStep engine d action) := by
  cases action with
  | propose input =>
    cases h
    exact enqueues (fun _ _ _ _ h => h) propose_moves
  | advanceTask task =>
    cases h
    exact enqueues (fun _ _ _ _ h => h) (Moves.pure (advanceTask_extends engine task))
  | refreshCoordination advanceReady =>
    cases h
    exact enqueues (fun _ _ _ _ h => h) refreshCoordination_moves
  | pollOnce =>
    cases h
    exact enqueues (fun _ _ _ _ h => h) pollOnce_moves
  | reconcile =>
    cases h
    exact enqueues (fun _ _ _ _ h => h) reconcile_moves
  | expireIfOverdue task =>
    cases h
    refine enqueues (fun taskId job rest hlane hruns => ?_) expireIfOverdue_moves
    rcases hruns.on_lane hlane with h | ⟨reply, h⟩ <;> cases h
  | expireOverdue =>
    cases h
    exact enqueues (fun _ _ _ _ h => h) (sweepExpired_moves (.refl engine))
  | cancel task =>
    cases h
    exact enqueues (fun _ _ _ _ h => h) cancel_moves
  | stop =>
    cases h
    exact enqueues (fun _ _ _ _ h => h) (Moves.pure (.of_lanes rfl rfl))
  | markInFlightAborted =>
    cases h
    exact enqueues (fun _ _ _ _ h => h) (Moves.pure (.of_lanes rfl rfl))
  | startJob task =>
    simp only [Engine.act] at h
    split at h
    · rename_i job rest hlane
      split at h
      · cases h
        exact onLane_moves hlane (fun _ => eq_comm) (run_moves hk hlane)
      · cases h
    · cases h
  | reply task reply =>
    simp only [Engine.act] at h
    split at h
    · rename_i job rest hlane
      obtain ⟨program', hprogram, rfl⟩ := Option.map_eq_some_iff.mp h
      exact onLane_moves hlane (fun _ => eq_comm)
        (continue_moves hk hlane (hlanes task job rest hlane).1 hprogram)
    · cases h
  | polled thread outcome =>
    simp only [Engine.act] at h
    split at h
    · cases h
      exact enqueues (fun _ _ _ _ h => h) polled_moves
    · cases h
  | resume thread =>
    simp only [Engine.act] at h
    split at h
    · split at h
      · cases h
      · cases h
        rename_i hthread _
        refine enqueues (fun _ _ _ _ h => h) (applyNext_moves _ fun update rest r heq hr => ?_)
        exact ⟨thread, _, rest, _, _, r, rfl, heq ▸ hthread, hr, rfl⟩
    · split at h
      · cases h
      · cases h
        exact enqueues (fun _ _ _ _ h => h) (advanceClaimable_moves (.of_lanes rfl rfl))
    · cases h

end Act

/-! ## Steps -/

/-- What holds in every reachable state. -/
structure Sound (w : World) : Prop where
  keyed : Keyed w.durable.store
  lanes : ∀ engine, w.engine = some engine → LanesOk engine w.durable

theorem EngineStep.lanesOk {ctx : Context} {engine engine' : Engine} {action : Action}
    {d d' : Durable} (h : EngineStep engine d action engine' d') (hlanes : LanesOk engine d)
    (hm : ReflTransGen (Micro ctx (Allowed ctx engine d action)) d d') : LanesOk engine' d' := by
  intro task job rest hlane
  cases h with
  | enqueued hnone hext =>
    obtain ⟨jobs, heq, hqueued⟩ := hext.lanes task
    rw [heq] at hlane
    cases hold : engine.lane task with
    | nil =>
      rw [hold, List.nil_append] at hlane
      subst hlane
      refine ⟨?_, fun j hj => (hqueued j (by simp [hj])).1⟩
      rw [(hqueued job (by simp)).1]
      trivial
    | cons first others =>
      rw [hold, List.cons_append] at hlane
      cases hlane
      obtain ⟨hpoint, hothers⟩ := hlanes task job others hold
      refine ⟨hpoint.frame hm (hnone task job others hold), fun j hj => ?_⟩
      exact (List.mem_append.mp hj).elim (hothers j) fun hnew => (hqueued j hnew).1
  | progressed taskId first others outcome hold honly heq hpoint =>
    subst heq
    rw [progress_lane] at hlane
    split at hlane
    · rename_i htask
      subst htask
      obtain ⟨-, hothers⟩ := hlanes taskId first others hold
      split at hlane
      · cases hlane
        exact ⟨hpoint _ rfl, hothers⟩
      · subst hlane
        refine ⟨?_, fun j hj => hothers j (by simp [hj])⟩
        rw [hothers job (by simp)]
        trivial
    · rename_i htask
      obtain ⟨hp, hothers⟩ := hlanes task job rest hlane
      exact ⟨hp.frame hm fun hown => htask ((honly task).mp hown).symm, hothers⟩

section OnLane

variable {taskId : String} {job : Job} {rest : List Job} {engine : Engine}
variable {program : EngineM Progress} {d : Durable}

/-- A lane takes what its program returns or throws, and never throws itself. -/
theorem onLane_result :
    (engine.onLane taskId job rest program d).result =
      .ok (engine.progress taskId job rest (program d).result) := by
  show (Program.tryCatch (Program.bind program _) _ d).result = _
  unfold Program.tryCatch Program.bind
  cases (program d).result <;> rfl

theorem onLane_contents :
    (engine.onLane taskId job rest program d).contents = (program d).contents := by
  show (Program.tryCatch (Program.bind program _) _ d).contents = _
  unfold Program.tryCatch Program.bind
  cases (program d).result <;> rfl

theorem onLane_passed : (engine.onLane taskId job rest program d).passed = (program d).passed := by
  show (Program.tryCatch (Program.bind program _) _ d).passed = _
  unfold Program.tryCatch Program.bind
  cases (program d).result <;> exact List.append_nil _

end OnLane

/-- What throws to its caller did not run on a lane. -/
theorem act_throws {ctx : Context} {engine : Engine} {action : Action} {d : Durable}
    {program : EngineM Engine} {error : Failure} (h : engine.act ctx action = some program)
    (herror : (program d).result = .error error) {taskId : String} {job : Job} {rest : List Job}
    (hlane : engine.lane taskId = job :: rest) : ¬ engine.Runs taskId action := by
  intro hruns
  have hreturns : ∃ job rest program', program = engine.onLane taskId job rest program' := by
    rcases hruns.on_lane hlane with rfl | ⟨reply, rfl⟩
    · simp only [Engine.act, hlane] at h
      split at h
      · cases h
        exact ⟨_, _, _, rfl⟩
      · cases h
    · simp only [Engine.act, hlane] at h
      obtain ⟨program', -, rfl⟩ := Option.map_eq_some_iff.mp h
      exact ⟨_, _, _, rfl⟩
  obtain ⟨_, _, _, rfl⟩ := hreturns
  rw [onLane_result] at herror
  cases herror

section Step

variable {platform : Platform} {w w' : World} {engine : Engine} {moment : Moment} {action : Action}

/-- **What a step leaves** is reached by single writes that its action allows,
whether the process ends in it or not. -/
theorem step_cases (hsound : Sound w) (hengine : w.engine = some engine)
    (h : step platform w (.act moment action) = some w') :
    ReflTransGen (Micro (contextAt platform engine moment)
        (Allowed (contextAt platform engine moment) engine w.durable action))
        w.durable w'.durable ∧
      (moment.crashAfter ≠ none ∧ w'.engine = none ∨
        ∃ engine', w'.engine = some engine' ∧
          EngineStep engine w.durable action engine' w'.durable) := by
  simp only [step, hengine, Option.bind_some] at h
  obtain ⟨program, hact, hfinish⟩ := Option.bind_eq_some_iff.mp h
  have hmoves := act_moves hsound.keyed (hsound.lanes engine hengine) hact
  unfold finish at hfinish
  split at hfinish
  · rename_i n hcrash
    obtain ⟨durable, hmem, rfl⟩ := Option.map_eq_some_iff.mp hfinish
    exact ⟨hmoves.passed (List.mem_of_getElem? hmem), Or.inl ⟨by simp [hcrash], rfl⟩⟩
  · split at hfinish
    · rename_i engine' hresult
      cases hfinish
      exact ⟨hmoves.contents, Or.inr ⟨engine', rfl, hmoves.returned hresult⟩⟩
    · rename_i error hresult
      cases hfinish
      exact ⟨hmoves.contents, Or.inr ⟨engine, rfl,
        .enqueued (fun _ _ _ hlane => act_throws hact hresult hlane) (.refl engine)⟩⟩

/-- The first job of a lane runs to its end or to where it waits. -/
theorem step_onLane {taskId : String} {job : Job} {rest : List Job} {program : EngineM Progress}
    {Q : Progress → Durable → Prop} {C : Durable → Prop} (hengine : w.engine = some engine)
    (hact : engine.act (contextAt platform engine moment) action =
      some (engine.onLane taskId job rest program))
    (hwp : wp program Q (fun _ _ => False) C w.durable) (hcrash : moment.crashAfter = none)
    (h : step platform w (.act moment action) = some w') :
    ∃ progress, Q progress w'.durable ∧
      w'.engine = some (engine.progress taskId job rest (.ok progress)) := by
  obtain ⟨progress, hresult, hq⟩ := wp_result hwp
  simp only [step, hengine, hact, Option.bind_some, finish, hcrash, onLane_result,
    onLane_contents, hresult, Option.some.injEq] at h
  subst h
  exact ⟨progress, hq, rfl⟩

/-- What all contents of a program on a lane have in common holds after the
step, also when the process ends in it. -/
theorem step_onLane_always {taskId : String} {job : Job} {rest : List Job}
    {program : EngineM Progress} {I : Durable → Prop} (hengine : w.engine = some engine)
    (hact : engine.act (contextAt platform engine moment) action =
      some (engine.onLane taskId job rest program))
    (hwp : wp program (fun _ => I) (fun _ => I) I w.durable)
    (h : step platform w (.act moment action) = some w') : I w'.durable := by
  have hcontents : I (program w.durable).contents := by
    have := hwp.2
    cases hresult : (program w.durable).result <;> simpa [hresult] using this
  simp only [step, hengine, hact, Option.bind_some] at h
  unfold finish at h
  split at h
  · obtain ⟨durable, hmem, rfl⟩ := Option.map_eq_some_iff.mp h
    rw [onLane_passed] at hmem
    exact hwp.1 durable (List.mem_of_getElem? hmem)
  · rw [onLane_result, onLane_contents] at h
    cases h
    exact hcontents

theorem Sound.step {event : Event} (hsound : Sound w) (h : step platform w event = some w') :
    Sound w' := by
  cases event with
  | start options =>
    cases hengine : w.engine with
    | some engine => simp [WorkflowEngine.step, hengine] at h
    | none =>
      simp only [WorkflowEngine.step, hengine, Option.some.injEq] at h
      subst h
      refine ⟨hsound.keyed, fun engine heq taskId job rest hlane => ?_⟩
      cases heq
      cases hlane
  | crash =>
    obtain ⟨engine, -, rfl⟩ := Option.map_eq_some_iff.mp h
    exact ⟨hsound.keyed, fun _ heq => by cases heq⟩
  | act moment action =>
    obtain ⟨engine, hengine, -⟩ := Option.bind_eq_some_iff.mp h
    obtain ⟨hmoves, hcase⟩ := step_cases hsound hengine h
    refine ⟨keyed_of_moves hmoves hsound.keyed, fun engine₁ heq => ?_⟩
    rcases hcase with ⟨-, hnone⟩ | ⟨engine', heq', hstep⟩
    · rw [hnone] at heq
      cases heq
    · rw [heq'] at heq
      cases heq
      exact hstep.lanesOk (hsound.lanes engine hengine) hmoves

theorem Sound.run {C : World → Event → Prop} {events : List Event}
    (h : Run (WorkflowEngine.step platform) C w events w') (hsound : Sound w) : Sound w' :=
  h.invariant (fun _ _ _ hs _ hstep => Sound.step hs hstep) hsound

theorem Sound.init : Sound {} := ⟨fun _ _ h => (by cases h), fun _ h => (by cases h)⟩

/-- **Invariant rule.** What each single write of a step under the condition keeps,
after the writes of the step before it, holds at the end of every run under the condition. -/
theorem run_invariant_within {C : World → Event → Prop} {I : Durable → Prop}
    (keep : ∀ w engine moment action d d', Sound w → w.engine = some engine →
      C w (.act moment action) →
      ReflTransGen (Micro (contextAt platform engine moment)
        (Allowed (contextAt platform engine moment) engine w.durable action)) w.durable d → I d →
      Micro (contextAt platform engine moment)
        (Allowed (contextAt platform engine moment) engine w.durable action) d d' → I d')
    {events : List Event} (h : Run (WorkflowEngine.step platform) C w events w') (hsound : Sound w)
    (hi : I w.durable) : I w'.durable := by
  refine (h.invariant (I := fun w => Sound w ∧ I w.durable) ?_ ⟨hsound, hi⟩).2
  rintro w event w₁ ⟨hs, hi⟩ hc hstep
  refine ⟨Sound.step hs hstep, ?_⟩
  cases event with
  | start options =>
    simp only [WorkflowEngine.step] at hstep
    split at hstep
    · cases hstep
    · cases hstep
      exact hi
  | crash =>
    obtain ⟨engine, -, rfl⟩ := Option.map_eq_some_iff.mp hstep
    exact hi
  | act moment action =>
    obtain ⟨engine, hengine, -⟩ := Option.bind_eq_some_iff.mp hstep
    have hmoves := (step_cases hs hengine hstep).1
    generalize w₁.durable = d at hmoves
    induction hmoves with
    | refl => exact hi
    | tail hmoves hm ih => exact keep w engine moment action _ _ hs hengine hc hmoves ih hm

/-- What every single write keeps that a step under the condition allows. -/
theorem run_invariant {C : World → Event → Prop} {I : Durable → Prop}
    (keep : ∀ w engine moment action d d', Sound w → w.engine = some engine →
      C w (.act moment action) → I d →
      Micro (contextAt platform engine moment)
        (Allowed (contextAt platform engine moment) engine w.durable action) d d' → I d')
    {events : List Event} (h : Run (WorkflowEngine.step platform) C w events w') (hsound : Sound w)
    (hi : I w.durable) : I w'.durable :=
  run_invariant_within (fun w engine moment action d d' hs hengine hc _ hd hm =>
    keep w engine moment action d d' hs hengine hc hd hm) h hsound hi

end Step

end Mpas.WorkflowEngine
