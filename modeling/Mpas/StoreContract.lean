import Mpas.WorkflowStore

/-!
# The store contract and its reference implementation

All operations of the workflow store, over the values of any kind that callers
hand in, in the in-memory implementation. A value is kept as a structured
clone, which not every value has, and an operation can throw half-way, so each
one yields its outcome and the store it leaves. Instants are kept in
milliseconds, as in the store of the engine.

* `MemoryWorkflowStore.perform`: one operation, at its readings of the clock;
* `World`, `step`: a store under calls of any number of workers.
-/

namespace Mpas.StoreContract

open WorkflowStore (BridgeWorkflowState)

/-! ## Records -/

inductive WorkflowResolution (V : Type)
  | resolved (actionResponse : V) (executionReceipt : Option V)
  | unresolvable (errorCode errorMessage : String)
  | cancelled (cancelledAt : Int)
  deriving DecidableEq

def WorkflowResolution.kind {V : Type} : WorkflowResolution V → BridgeWorkflowState
  | .resolved _ _ => .resolved
  | .unresolvable _ _ => .unresolvable
  | .cancelled _ => .cancelled

structure CreateWorkflowInput (V : Type) where
  taskId : String
  actionId : String
  actionIdempotencyKey : String
  actionEnvelopeHash : String
  toolName : String
  actionPackage : V
  expiresAt : Timestamp
  deriving DecidableEq

/-- The states that an Action is replaced in. -/
inductive ReplacementState
  | created
  | submittingToVerifier
  deriving DecidableEq, Repr

def ReplacementState.state : ReplacementState → BridgeWorkflowState
  | .created => .created
  | .submittingToVerifier => .submittingToVerifier

structure ReplaceWorkflowActionInput (V : Type) where
  fromState : ReplacementState
  actionId : String
  actionIdempotencyKey : String
  actionEnvelopeHash : String
  actionPackage : V
  authorizationRequirements : V
  expiresAt : Timestamp
  deriving DecidableEq

structure WorkflowRecord (V : Type) where
  taskId : String
  actionId : String
  actionIdempotencyKey : String
  actionEnvelopeHash : String
  toolName : String
  state : BridgeWorkflowState
  actionPackage : V
  authorizationRequirements : Option V := none
  coordinationRef : Option V := none
  completedPackage : Option V := none
  adapterAttempts : List V
  lastActionResponse : Option V := none
  expiresAt : Timestamp
  createdAt : Int
  updatedAt : Int
  claimedBy : Option String := none
  claimExpiresAt : Option Int := none
  resolvedAt : Option Int := none
  resolution : Option (WorkflowResolution V) := none
  deriving DecidableEq

structure MemoryEntry (V : Type) where
  record : WorkflowRecord V
  claimExpiresMs : Option JsNumber := none
  deriving DecidableEq

structure MemoryWorkflowStore (V : Type) where
  entries : OrderedMap String (MemoryEntry V) := ∅
  actionTasks : OrderedMap String String := ∅
  deriving DecidableEq

/-! ## Outcomes -/

inductive StoreError
  | message (text : String)
  /-- a value has no structured clone -/
  | dataClone
  /-- a date out of range has no text -/
  | invalidTimeValue
  deriving DecidableEq, Repr

inductive Returned (V : Type)
  | record (record : WorkflowRecord V)
  | found (record : Option (WorkflowRecord V))
  | flag (granted : Bool)
  | records (records : List (WorkflowRecord V))
  | count (purged : Nat)
  | nothing
  deriving DecidableEq

abbrev Outcome (V : Type) := Except StoreError (Returned V)

/-- What of the language the store rests on. -/
structure Runtime (V : Type) where
  /-- `none` where it throws -/
  structuredClone : V → Option V
  dateParse : Timestamp → JsNumber

/-- JSON values, which all have a structured clone. -/
def jsonRuntime (dateParse : Timestamp → JsNumber) : Runtime Json where
  structuredClone := some
  dateParse

/-! ## Operations -/

namespace MemoryWorkflowStore

variable {V : Type} (runtime : Runtime V) (store : MemoryWorkflowStore V) (now : Int)

def getWorkflow (taskId : String) : Option (WorkflowRecord V) :=
  (store.entries.get? taskId).map (·.record)

def getWorkflowByActionId (actionId : String) : Option (WorkflowRecord V) :=
  (store.actionTasks.get? actionId).bind store.getWorkflow

def createdRecord (input : CreateWorkflowInput V) (actionPackage : V) : WorkflowRecord V :=
  { input with
    state := .created
    actionPackage
    adapterAttempts := []
    createdAt := now
    updatedAt := now }

def createWorkflow (input : CreateWorkflowInput V) : Outcome V × MemoryWorkflowStore V :=
  if input.taskId = input.actionId then
    (.error (.message "Task ID and Action ID must be distinct."), store)
  else if store.entries.has input.taskId then
    (.error (.message ("Workflow already exists for task " ++ input.taskId ++ ".")), store)
  else if store.actionTasks.has input.actionId then
    (.error (.message ("Workflow already exists for action " ++ input.actionId ++ ".")), store)
  else match runtime.structuredClone input.actionPackage with
    | none => (.error .dataClone, store)
    | some actionPackage =>
      let record := createdRecord now input actionPackage
      (.ok (.record record), {
        entries := store.entries.set input.taskId { record }
        actionTasks := store.actionTasks.set input.actionId input.taskId })

def replacedRecord (input : ReplaceWorkflowActionInput V) (actionPackage requirements : V)
    (record : WorkflowRecord V) : WorkflowRecord V :=
  { record with
    actionId := input.actionId
    actionIdempotencyKey := input.actionIdempotencyKey
    actionEnvelopeHash := input.actionEnvelopeHash
    actionPackage
    authorizationRequirements := some requirements
    expiresAt := input.expiresAt
    state := .submittingToCoordination
    coordinationRef := none
    completedPackage := none
    updatedAt := now }

def notInReplacementState (taskId : String) (fromState : ReplacementState) : StoreError :=
  .message ("Workflow " ++ taskId ++ " is not in replacement state " ++ fromState.state.text ++ ".")

def replaceAction (taskId : String) (input : ReplaceWorkflowActionInput V) :
    Outcome V × MemoryWorkflowStore V :=
  if taskId = input.actionId then
    (.error (.message "Task ID and Action ID must be distinct."), store)
  else match store.entries.get? taskId with
    | none => (.error (notInReplacementState taskId input.fromState), store)
    | some entry =>
      if entry.record.state ≠ input.fromState.state then
        (.error (notInReplacementState taskId input.fromState), store)
      else if store.actionTasks.has input.actionId then
        (.error (.message ("Workflow already exists for action " ++ input.actionId ++ ".")), store)
      else match runtime.structuredClone input.actionPackage,
          runtime.structuredClone input.authorizationRequirements with
        | some actionPackage, some requirements =>
          let record := replacedRecord now input actionPackage requirements entry.record
          (.ok (.record record), {
            entries := store.entries.set taskId { entry with record }
            actionTasks := store.actionTasks.set input.actionId taskId })
        | _, _ => (.error .dataClone, store)

def compareAndSetState (taskId : String) (source target : BridgeWorkflowState) :
    Outcome V × MemoryWorkflowStore V :=
  if source.isTerminal || target.isTerminal then (.ok (.flag false), store)
  else match store.entries.get? taskId with
    | none => (.ok (.flag false), store)
    | some entry =>
      if entry.record.state ≠ source then (.ok (.flag false), store)
      else
        let record := { entry.record with state := target, updatedAt := now }
        (.ok (.flag true), { store with entries := store.entries.set taskId { entry with record } })

/-- Another worker holds a live lease. -/
def isHeld (workerId : String) (entry : MemoryEntry V) : Bool :=
  entry.record.claimedBy.any (· ≠ workerId) &&
    (JsNumber.ofInt now).lt (entry.claimExpiresMs.getD (.finite 0))

/-- The clock is read a second time for `updatedAt`. -/
def claimWorkflow (later : Int) (taskId workerId : String) (leaseMs : JsNumber) :
    Outcome V × MemoryWorkflowStore V :=
  match store.entries.get? taskId with
  | none => (.ok (.flag false), store)
  | some entry =>
    if entry.record.state.isTerminal then (.ok (.flag false), store)
    else if isHeld now workerId entry then (.ok (.flag false), store)
    else
      let expires := (JsNumber.ofInt now).add leaseMs
      let claimed := { entry.record with claimedBy := some workerId }
      match expires.toISOString with
      -- the lease is already written when its text cannot be
      | none => (.error .invalidTimeValue, { store with
          entries := store.entries.set taskId ⟨claimed, some expires⟩ })
      | some claimExpiresAt =>
        let record := { claimed with claimExpiresAt := some claimExpiresAt, updatedAt := later }
        (.ok (.flag true), { store with
          entries := store.entries.set taskId ⟨record, some expires⟩ })

/-- Rewrites the record of a Task with a clone of the value; an unknown Task has none. -/
def mutate (taskId : String) (value : V) (apply : V → WorkflowRecord V → WorkflowRecord V) :
    Outcome V × MemoryWorkflowStore V :=
  match store.entries.get? taskId with
  | none => (.ok .nothing, store)
  | some entry => match runtime.structuredClone value with
    | none => (.error .dataClone, store)
    | some value =>
      let record := { apply value entry.record with updatedAt := now }
      (.ok .nothing, { store with entries := store.entries.set taskId { entry with record } })

def saveCoordinationReference (taskId : String) (ref : V) : Outcome V × MemoryWorkflowStore V :=
  store.mutate runtime now taskId ref fun v record => { record with coordinationRef := some v }

def saveCompletedPackage (taskId : String) (completedPackage : V) :
    Outcome V × MemoryWorkflowStore V :=
  store.mutate runtime now taskId completedPackage fun v record =>
    { record with completedPackage := some v }

def saveAuthorizationRequirements (taskId : String) (requirements : V) :
    Outcome V × MemoryWorkflowStore V :=
  store.mutate runtime now taskId requirements fun v record =>
    { record with authorizationRequirements := some v }

def saveLastActionResponse (taskId : String) (response : V) : Outcome V × MemoryWorkflowStore V :=
  store.mutate runtime now taskId response fun v record =>
    { record with lastActionResponse := some v }

def saveAdapterAttempt (taskId : String) (attempt : V) : Outcome V × MemoryWorkflowStore V :=
  store.mutate runtime now taskId attempt fun v record =>
    { record with adapterAttempts := record.adapterAttempts ++ [v] }

def cloneResolution : WorkflowResolution V → Option (WorkflowResolution V)
  | .resolved actionResponse none =>
    (runtime.structuredClone actionResponse).map fun response => .resolved response none
  | .resolved actionResponse (some executionReceipt) =>
    match runtime.structuredClone actionResponse, runtime.structuredClone executionReceipt with
    | some response, some receipt => some (.resolved response (some receipt))
    | _, _ => none
  | .unresolvable errorCode errorMessage => some (.unresolvable errorCode errorMessage)
  | .cancelled cancelledAt => some (.cancelled cancelledAt)

def settledRecord (kind : BridgeWorkflowState) (resolution : WorkflowResolution V)
    (record : WorkflowRecord V) : WorkflowRecord V :=
  { record with
    state := kind
    resolution := some resolution
    resolvedAt := some now
    updatedAt := now }

def resolveWorkflow (taskId : String) (resolution : WorkflowResolution V) :
    Outcome V × MemoryWorkflowStore V :=
  match store.entries.get? taskId with
  | none => (.ok .nothing, store)
  | some entry =>
    if entry.record.state.isTerminal then (.ok .nothing, store)
    else match cloneResolution runtime resolution with
      -- the state is already written when the resolution cannot be cloned
      | none =>
        let record := { entry.record with state := resolution.kind }
        (.error .dataClone, { store with entries := store.entries.set taskId { entry with record } })
      | some cloned =>
        let record := settledRecord now resolution.kind cloned entry.record
        (.ok .nothing, { store with entries := store.entries.set taskId { entry with record } })

def cancelWorkflow (taskId : String) : Outcome V × MemoryWorkflowStore V :=
  match store.entries.get? taskId with
  | none => (.ok (.flag false), store)
  | some entry =>
    if entry.record.state.isTerminal then (.ok (.flag false), store)
    else
      let record := settledRecord now .cancelled (.cancelled now) entry.record
      (.ok (.flag true), { store with entries := store.entries.set taskId { entry with record } })

def listRecoverableWorkflows : List (WorkflowRecord V) :=
  ((store.entries.values.map (·.record)).filter fun record => !record.state.isTerminal).mergeSort
    fun a b => decide (a.createdAt ≤ b.createdAt)

def DEFAULT_RETENTION_MS : JsNumber := .finite 86400000

/-- Terminal, resolved, and past `max(expiresAt, resolvedAt + retentionMs)`. -/
def isExpired (retentionMs : JsNumber) (record : WorkflowRecord V) : Bool :=
  record.state.isTerminal && record.resolvedAt.any fun resolvedAt =>
    ((runtime.dateParse record.expiresAt).max ((JsNumber.ofInt resolvedAt).add retentionMs)).lt
      (.ofInt now)

/-- A Task and all its Action IDs are forgotten. -/
def forget (taskId : String) : MemoryWorkflowStore V where
  entries := store.entries.delete taskId
  actionTasks := store.actionTasks.filter fun _ task => decide (task ≠ taskId)

/-- The loop over the entries. -/
def purgeEntries (retentionMs : JsNumber) (purged : Nat) (store : MemoryWorkflowStore V) :
    List (String × MemoryEntry V) → Nat × MemoryWorkflowStore V
  | [] => (purged, store)
  | (taskId, entry) :: rest =>
    if isExpired runtime now retentionMs entry.record then
      purgeEntries retentionMs (purged + 1) (store.forget taskId) rest
    else purgeEntries retentionMs purged store rest

def purgeExpiredResults (retentionMs : Option JsNumber) : Outcome V × MemoryWorkflowStore V :=
  let (purged, store') :=
    purgeEntries runtime now (retentionMs.getD DEFAULT_RETENTION_MS) 0 store store.entries.entries
  (.ok (.count purged), store')

end MemoryWorkflowStore

/-! ## Calls -/

inductive Operation (V : Type)
  | createWorkflow (input : CreateWorkflowInput V)
  | getWorkflow (taskId : String)
  | getWorkflowByActionId (actionId : String)
  | replaceAction (taskId : String) (input : ReplaceWorkflowActionInput V)
  | compareAndSetState (taskId : String) (source target : BridgeWorkflowState)
  | claimWorkflow (taskId workerId : String) (leaseMs : JsNumber)
  | saveCoordinationReference (taskId : String) (ref : V)
  | saveCompletedPackage (taskId : String) (completedPackage : V)
  | saveAuthorizationRequirements (taskId : String) (requirements : V)
  | saveLastActionResponse (taskId : String) (response : V)
  | saveAdapterAttempt (taskId : String) (attempt : V)
  | resolveWorkflow (taskId : String) (resolution : WorkflowResolution V)
  | cancelWorkflow (taskId : String)
  | listRecoverableWorkflows
  | purgeExpiredResults (retentionMs : Option JsNumber)

/-- An operation, and what it reads from the clock first and second. -/
structure Call (V : Type) where
  now : Int
  later : Int
  operation : Operation V

variable {V : Type}

def MemoryWorkflowStore.perform (runtime : Runtime V) (call : Call V)
    (store : MemoryWorkflowStore V) : Outcome V × MemoryWorkflowStore V :=
  match call.operation with
  | .createWorkflow input => store.createWorkflow runtime call.now input
  | .getWorkflow taskId => (.ok (.found (store.getWorkflow taskId)), store)
  | .getWorkflowByActionId actionId => (.ok (.found (store.getWorkflowByActionId actionId)), store)
  | .replaceAction taskId input => store.replaceAction runtime call.now taskId input
  | .compareAndSetState taskId source target =>
    store.compareAndSetState call.now taskId source target
  | .claimWorkflow taskId workerId leaseMs =>
    store.claimWorkflow call.now call.later taskId workerId leaseMs
  | .saveCoordinationReference taskId ref =>
    store.saveCoordinationReference runtime call.now taskId ref
  | .saveCompletedPackage taskId completedPackage =>
    store.saveCompletedPackage runtime call.now taskId completedPackage
  | .saveAuthorizationRequirements taskId requirements =>
    store.saveAuthorizationRequirements runtime call.now taskId requirements
  | .saveLastActionResponse taskId response =>
    store.saveLastActionResponse runtime call.now taskId response
  | .saveAdapterAttempt taskId attempt => store.saveAdapterAttempt runtime call.now taskId attempt
  | .resolveWorkflow taskId resolution =>
    store.resolveWorkflow runtime call.now taskId resolution
  | .cancelWorkflow taskId => store.cancelWorkflow call.now taskId
  | .listRecoverableWorkflows => (.ok (.records store.listRecoverableWorkflows), store)
  | .purgeExpiredResults retentionMs => store.purgeExpiredResults runtime call.now retentionMs

/-- A store and the last reading of the clock. -/
structure World (V : Type) where
  store : MemoryWorkflowStore V := {}
  clock : Option Int := none
  deriving DecidableEq

/-- A call of some worker; the clock never goes back. -/
def step (runtime : Runtime V) (world : World V) (call : Call V) : Option (World V) :=
  if world.clock.all (· ≤ call.now) ∧ call.now ≤ call.later then
    some ⟨(world.store.perform runtime call).2, some call.later⟩
  else none

end Mpas.StoreContract
