import Mpas.Library.OrderedMap
import Mpas.Artifacts

/-!
# The workflow store of a proposer bridge

One record for each Task: the current Action, the state of its workflow, and the
log of what was sent. Retired Action IDs keep naming their Task. Instants are
kept in milliseconds; where the store writes one as text, nothing is lost.

* `getWorkflow_modify`, `getWorkflow_createWorkflow`, `getWorkflow_replaceAction`: what each
  operation does to a lookup;
* `compareAndSetState_cases`, `claimWorkflow_cases`: an operation that is
  refused changes nothing.
-/

namespace Mpas.WorkflowStore

inductive BridgeWorkflowState
  | created
  | submittingToCoordination
  | awaitingApprovals
  | readyForSubmission
  | submittingToVerifier
  | awaitingVerifierResult
  | resolved
  | unresolvable
  | cancelled
  deriving DecidableEq, Repr

/-- `TERMINAL_WORKFLOW_STATES.has(state)`. -/
def BridgeWorkflowState.isTerminal : BridgeWorkflowState → Bool
  | .resolved | .unresolvable | .cancelled => true
  | _ => false

def BridgeWorkflowState.text : BridgeWorkflowState → String
  | .created => "created"
  | .submittingToCoordination => "submittingToCoordination"
  | .awaitingApprovals => "awaitingApprovals"
  | .readyForSubmission => "readyForSubmission"
  | .submittingToVerifier => "submittingToVerifier"
  | .awaitingVerifierResult => "awaitingVerifierResult"
  | .resolved => "resolved"
  | .unresolvable => "unresolvable"
  | .cancelled => "cancelled"

inductive WorkflowResolution
  | resolved (actionResponse : ActionResponse) (executionReceipt : Option String)
  | unresolvable (errorCode errorMessage : String)
  | cancelled (cancelledAt : Int)
  deriving DecidableEq

def WorkflowResolution.kind : WorkflowResolution → BridgeWorkflowState
  | .resolved _ _ => .resolved
  | .unresolvable _ _ => .unresolvable
  | .cancelled _ => .cancelled

/-! ## The attempt log -/

/-- Remote call recorded in a workflow's durable attempt log. -/
inductive AttemptStage
  | initial
  | coordination
  | completed
  deriving DecidableEq, Repr

inductive AttemptOutcome
  | responded
  | pending
  | unreachable
  | interrupted
  | rejected
  deriving DecidableEq, Repr

structure AttemptRecord where
  stage : AttemptStage
  outcome : AttemptOutcome
  /-- `at` -/
  time : Int
  message : Option String := none
  retryAfterMs : Option Nat := none
  consecutive : Option Nat := none
  notBefore : Option Int := none
  deriving DecidableEq, Repr

inductive SubmissionPhase
  | initial
  | completed
  deriving DecidableEq, Repr

structure SubmissionIdempotencyBinding where
  stage : SubmissionPhase
  idempotencyKey : String
  requestFingerprint : String
  /-- `at` -/
  time : Int
  deriving DecidableEq, Repr

inductive AdapterAttempt
  | attempt (entry : AttemptRecord)
  | idempotencyBound (binding : SubmissionIdempotencyBinding)
  deriving DecidableEq, Repr

/-! ## Records -/

structure CreateWorkflowInput where
  taskId : String
  actionId : String
  actionIdempotencyKey : String
  actionEnvelopeHash : String
  toolName : String
  actionPackage : Json
  expiresAt : Timestamp
  deriving DecidableEq

structure ReplaceWorkflowActionInput where
  fromState : BridgeWorkflowState
  actionId : String
  actionIdempotencyKey : String
  actionEnvelopeHash : String
  actionPackage : Json
  authorizationRequirements : AuthorizationRequirements
  expiresAt : Timestamp
  deriving DecidableEq

structure WorkflowRecord where
  taskId : String
  actionId : String
  actionIdempotencyKey : String
  actionEnvelopeHash : String
  toolName : String
  state : BridgeWorkflowState
  actionPackage : Json
  authorizationRequirements : Option AuthorizationRequirements := none
  coordinationRef : Option Json := none
  completedPackage : Option Json := none
  adapterAttempts : List AdapterAttempt
  lastActionResponse : Option ActionResponse := none
  expiresAt : Timestamp
  createdAt : Int
  updatedAt : Int
  claimedBy : Option String := none
  claimExpiresAt : Option Int := none
  resolvedAt : Option Int := none
  resolution : Option WorkflowResolution := none
  deriving DecidableEq

structure MemoryWorkflowStore where
  entries : OrderedMap String WorkflowRecord := ∅
  /-- the Task of every current or retired Action ID -/
  actionTasks : OrderedMap String String := ∅
  deriving DecidableEq

namespace MemoryWorkflowStore

variable (store : MemoryWorkflowStore) (now : Int)

/-! ## Operations -/

def getWorkflow (taskId : String) : Option WorkflowRecord := store.entries.get? taskId

def getWorkflowByActionId (actionId : String) : Option WorkflowRecord :=
  (store.actionTasks.get? actionId).bind store.getWorkflow

def createWorkflow (input : CreateWorkflowInput) : Except String MemoryWorkflowStore :=
  if input.taskId = input.actionId then .error "Task ID and Action ID must be distinct."
  else if store.entries.has input.taskId then
    .error ("Workflow already exists for task " ++ input.taskId ++ ".")
  else if store.actionTasks.has input.actionId then
    .error ("Workflow already exists for action " ++ input.actionId ++ ".")
  else
    let record : WorkflowRecord :=
      { input with state := .created, adapterAttempts := [], createdAt := now, updatedAt := now }
    .ok { entries := store.entries.set input.taskId record
          actionTasks := store.actionTasks.set input.actionId input.taskId }

/-- The record of a Task is rewritten; an unknown Task has none. -/
def modify (taskId : String) (apply : WorkflowRecord → WorkflowRecord) : MemoryWorkflowStore :=
  match store.getWorkflow taskId with
  | some record => { store with entries := store.entries.set taskId (apply record) }
  | none => store

def replacedRecord (input : ReplaceWorkflowActionInput) (record : WorkflowRecord) : WorkflowRecord :=
  { record with
    actionId := input.actionId
    actionIdempotencyKey := input.actionIdempotencyKey
    actionEnvelopeHash := input.actionEnvelopeHash
    actionPackage := input.actionPackage
    authorizationRequirements := some input.authorizationRequirements
    expiresAt := input.expiresAt
    state := .submittingToCoordination
    coordinationRef := none
    completedPackage := none
    updatedAt := now }

def replaceAction (taskId : String) (input : ReplaceWorkflowActionInput) :
    Except String MemoryWorkflowStore :=
  if taskId = input.actionId then .error "Task ID and Action ID must be distinct."
  else if (store.getWorkflow taskId).all fun record => record.state ≠ input.fromState then
    .error ("Workflow " ++ taskId ++ " is not in replacement state " ++ input.fromState.text ++ ".")
  else if store.actionTasks.has input.actionId then
    .error ("Workflow already exists for action " ++ input.actionId ++ ".")
  else
    .ok { store.modify taskId (replacedRecord now input) with
      actionTasks := store.actionTasks.set input.actionId taskId }

def compareAndSetState (taskId : String) (source target : BridgeWorkflowState) :
    Bool × MemoryWorkflowStore :=
  if source.isTerminal || target.isTerminal then (false, store)
  else if (store.getWorkflow taskId).all fun record => record.state ≠ source then (false, store)
  else (true, store.modify taskId fun record => { record with state := target, updatedAt := now })

/-- Another worker holds a live lease. -/
def isHeld (workerId : String) (record : WorkflowRecord) : Bool :=
  record.claimedBy.any (· ≠ workerId) && decide (now < record.claimExpiresAt.getD 0)

def claimWorkflow (taskId workerId : String) (leaseMs : Nat) : Bool × MemoryWorkflowStore :=
  if (store.getWorkflow taskId).all fun record =>
      record.state.isTerminal || isHeld now workerId record then (false, store)
  else (true, store.modify taskId fun record =>
    { record with
      claimedBy := some workerId
      claimExpiresAt := some (now + leaseMs)
      updatedAt := now })

def saveCoordinationReference (taskId : String) (ref : Json) : MemoryWorkflowStore :=
  store.modify taskId fun record => { record with coordinationRef := some ref, updatedAt := now }

def saveCompletedPackage (taskId : String) (completedPackage : Json) : MemoryWorkflowStore :=
  store.modify taskId fun record =>
    { record with completedPackage := some completedPackage, updatedAt := now }

def saveLastActionResponse (taskId : String) (response : ActionResponse) : MemoryWorkflowStore :=
  store.modify taskId fun record =>
    { record with lastActionResponse := some response, updatedAt := now }

def saveAdapterAttempt (taskId : String) (attempt : AdapterAttempt) : MemoryWorkflowStore :=
  store.modify taskId fun record =>
    { record with adapterAttempts := record.adapterAttempts ++ [attempt], updatedAt := now }

/-- Terminal and first to win: a record that has a terminal state keeps it. -/
def settledRecord (resolution : WorkflowResolution) (record : WorkflowRecord) : WorkflowRecord :=
  if record.state.isTerminal then record
  else { record with
    state := resolution.kind
    resolution := some resolution
    resolvedAt := some now
    updatedAt := now }

def resolveWorkflow (taskId : String) (resolution : WorkflowResolution) : MemoryWorkflowStore :=
  store.modify taskId (settledRecord now resolution)

def cancelWorkflow (taskId : String) : Bool × MemoryWorkflowStore :=
  if (store.getWorkflow taskId).all fun record => record.state.isTerminal then (false, store)
  else (true, store.modify taskId (settledRecord now (.cancelled now)))

def listRecoverableWorkflows : List WorkflowRecord :=
  (store.entries.values.filter fun record => !record.state.isTerminal).mergeSort
    fun a b => decide (a.createdAt ≤ b.createdAt)

/-! ## Lookups -/

theorem getWorkflow_modify (taskId : String) (apply : WorkflowRecord → WorkflowRecord)
    (task : String) :
    (store.modify taskId apply).getWorkflow task =
      if taskId = task then (store.getWorkflow task).map apply else store.getWorkflow task := by
  unfold modify
  split
  · rename_i record hrecord
    show (store.entries.set taskId (apply record)).get? task = _
    rw [OrderedMap.get?_set]
    split
    · rename_i heq
      subst heq
      rw [hrecord]
      rfl
    · rfl
  · rename_i hnone
    split
    · rename_i heq
      subst heq
      rw [hnone]
      rfl
    · rfl

@[simp] theorem getWorkflow_modify_self (taskId : String)
    (apply : WorkflowRecord → WorkflowRecord) :
    (store.modify taskId apply).getWorkflow taskId = (store.getWorkflow taskId).map apply := by
  rw [getWorkflow_modify, if_pos rfl]

theorem compareAndSetState_cases (taskId : String) (source target : BridgeWorkflowState) :
    store.compareAndSetState now taskId source target = (false, store) ∨
      (∃ record, store.getWorkflow taskId = some record ∧ record.state = source ∧
        source.isTerminal = false ∧ target.isTerminal = false) ∧
      store.compareAndSetState now taskId source target = (true, store.modify taskId
        fun record => { record with state := target, updatedAt := now }) := by
  unfold compareAndSetState
  split
  · exact Or.inl rfl
  split
  · exact Or.inl rfl
  rename_i hterminal hstate
  refine Or.inr ⟨?_, rfl⟩
  cases hr : store.getWorkflow taskId with
  | none => simp [hr] at hstate
  | some record => exact ⟨record, rfl, by simpa [hr] using hstate, by simpa using hterminal⟩

theorem claimWorkflow_cases (taskId workerId : String) (leaseMs : Nat) :
    store.claimWorkflow now taskId workerId leaseMs = (false, store) ∨
      (∃ record, store.getWorkflow taskId = some record ∧ record.state.isTerminal = false ∧
        isHeld now workerId record = false) ∧
      store.claimWorkflow now taskId workerId leaseMs = (true, store.modify taskId fun record =>
        { record with
          claimedBy := some workerId
          claimExpiresAt := some (now + leaseMs)
          updatedAt := now }) := by
  unfold claimWorkflow
  split
  · exact Or.inl rfl
  rename_i hopen
  refine Or.inr ⟨?_, rfl⟩
  cases hr : store.getWorkflow taskId with
  | none => simp [hr] at hopen
  | some record => exact ⟨record, rfl, by simpa [hr] using hopen⟩

theorem cancelWorkflow_cases (taskId : String) :
    store.cancelWorkflow now taskId = (false, store) ∨
      (∃ record, store.getWorkflow taskId = some record ∧ record.state.isTerminal = false) ∧
      store.cancelWorkflow now taskId =
        (true, store.modify taskId (settledRecord now (.cancelled now))) := by
  unfold cancelWorkflow
  split
  · exact Or.inl rfl
  rename_i hopen
  refine Or.inr ⟨?_, rfl⟩
  cases hr : store.getWorkflow taskId with
  | none => simp [hr] at hopen
  | some record => exact ⟨record, rfl, by simpa [hr] using hopen⟩

variable {store} {now}

theorem createWorkflow_cases {input : CreateWorkflowInput} {store' : MemoryWorkflowStore}
    (h : store.createWorkflow now input = .ok store') :
    store.getWorkflow input.taskId = none ∧ input.taskId ≠ input.actionId ∧
      store'.getWorkflow input.taskId = some { input with
        state := .created, adapterAttempts := [], createdAt := now, updatedAt := now } ∧
      ∀ task, task ≠ input.taskId → store'.getWorkflow task = store.getWorkflow task := by
  unfold createWorkflow at h
  split at h
  · cases h
  split at h
  · cases h
  split at h
  · cases h
  rename_i hne hfresh _
  cases h
  refine ⟨?_, hne, OrderedMap.get?_set_self _ _ _, fun task ht =>
    OrderedMap.get?_set_ne _ _ (Ne.symm ht)⟩
  cases hg : store.entries.get? input.taskId with
  | none => exact hg
  | some record => exact absurd ((OrderedMap.has_iff _ _).mpr ⟨record, hg⟩) hfresh

theorem replaceAction_of_state {taskId : String} {input : ReplaceWorkflowActionInput}
    {record : WorkflowRecord} (hr : store.getWorkflow taskId = some record)
    (hstate : record.state = input.fromState) (hid : taskId ≠ input.actionId)
    (hfree : store.actionTasks.has input.actionId = false) :
    store.replaceAction now taskId input = .ok
      { store.modify taskId (replacedRecord now input) with
        actionTasks := store.actionTasks.set input.actionId taskId } := by
  simp [replaceAction, hid, hr, hstate, hfree]

theorem replaceAction_of_state_ne {taskId : String} {input : ReplaceWorkflowActionInput}
    {record : WorkflowRecord} (hr : store.getWorkflow taskId = some record)
    (hstate : record.state ≠ input.fromState) (hid : taskId ≠ input.actionId) :
    store.replaceAction now taskId input = .error
      ("Workflow " ++ taskId ++ " is not in replacement state " ++ input.fromState.text ++ ".") := by
  simp [replaceAction, hid, hr, hstate]

theorem replaceAction_cases {taskId : String} {input : ReplaceWorkflowActionInput}
    {store' : MemoryWorkflowStore} (h : store.replaceAction now taskId input = .ok store') :
    taskId ≠ input.actionId ∧
      (∃ record, store.getWorkflow taskId = some record ∧ record.state = input.fromState) ∧
      store' = { store.modify taskId (replacedRecord now input) with
        actionTasks := store.actionTasks.set input.actionId taskId } := by
  unfold replaceAction at h
  split at h
  · cases h
  split at h
  · cases h
  split at h
  · cases h
  rename_i hne hstate _
  cases h
  refine ⟨hne, ?_, rfl⟩
  cases hr : store.getWorkflow taskId with
  | none => simp [hr] at hstate
  | some record => exact ⟨record, rfl, by simpa [hr] using hstate⟩

end MemoryWorkflowStore

end Mpas.WorkflowStore
