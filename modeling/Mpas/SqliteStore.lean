import Mpas.StoreContract

/-!
# The workflow store in SQLite

Two tables: `workflows`, under the primary key `action_id` (which holds the Task
ID) with a unique index on `current_action_id`, and `workflow_action_aliases`,
whose `task_id` refers to the first. A statement takes effect as a whole or not
at all. A column of JSON text is kept as the value that the text denotes, an
instant as its milliseconds. Two limits are not in the SQL: SQLite parses JSON
text to a depth, and the driver reads a text up to its first NUL.

* `insertWorkflow`, `insertAlias`, `updateWorkflow`: the statements;
* `SqliteWorkflowStore.perform`: the operations, of which `listRecoverableWorkflows`
  takes the order that the query yields, among rows created at one instant any.
-/

namespace Mpas.SqliteStore

open StoreContract (WorkflowResolution CreateWorkflowInput ReplaceWorkflowActionInput
  ReplacementState WorkflowRecord Returned StoreError Outcome Operation Call)
open WorkflowStore (BridgeWorkflowState)

/-! ## JSON text -/

mutual

/-- What `JSON.parse` makes of `JSON.stringify(value)`: a number without a text is `null`. -/
def stringified : Json → Json
  | .num (.finite q) => .num (.finite q)
  | .num _ => .null
  | .arr items => .arr (stringifiedItems items)
  | .obj members => .obj (stringifiedMembers members)
  | v => v

def stringifiedItems : List Json → List Json
  | [] => []
  | v :: rest => stringified v :: stringifiedItems rest

def stringifiedMembers : List (String × Json) → List (String × Json)
  | [] => []
  | (key, v) :: rest => (key, stringified v) :: stringifiedMembers rest

end

/-- A column of JSON text, as the value of its text. -/
structure JsonText (α : Type) where
  value : α
  deriving DecidableEq

def toJson (value : Json) : JsonText Json := ⟨stringified value⟩

def toJsonResolution : WorkflowResolution Json → JsonText (WorkflowResolution Json)
  | .resolved actionResponse executionReceipt =>
    ⟨.resolved (stringified actionResponse) (executionReceipt.map stringified)⟩
  | .unresolvable errorCode errorMessage => ⟨.unresolvable errorCode errorMessage⟩
  | .cancelled cancelledAt => ⟨.cancelled cancelledAt⟩

mutual

/-- How deep arrays and objects are nested. -/
def nesting : Json → Nat
  | .arr items => nestingOfItems items + 1
  | .obj members => nestingOfMembers members + 1
  | _ => 0

def nestingOfItems : List Json → Nat
  | [] => 0
  | item :: rest => max (nesting item) (nestingOfItems rest)

def nestingOfMembers : List (String × Json) → Nat
  | [] => 0
  | (_, value) :: rest => max (nesting value) (nestingOfMembers rest)

end

/-- `JSON_MAX_DEPTH`: text nested deeper is malformed to the JSON functions of SQLite. -/
def maxJsonDepth : Nat := 1000

inductive SqlError
  | unique
  | foreignKey
  | malformedJson
  deriving DecidableEq, Repr

/-- `json_insert(column, '$[#]', json(value))`: appended to an array. -/
def jsonInsert (column value : JsonText Json) : Except SqlError (JsonText Json) :=
  if maxJsonDepth < nesting value.value ∨ maxJsonDepth < nesting column.value then
    .error .malformedJson
  else
    match column.value with
    | .arr items => .ok ⟨.arr (items ++ [value.value])⟩
    | _ => .ok column

/-- A TEXT column as the driver reads it. In JSON text a NUL is escaped. -/
def readText (text : String) : String := .ofList (text.toList.takeWhile (· ≠ Char.ofNat 0))

/-- A number as it is bound to a statement: `NaN` becomes `NULL`. -/
def bindNumber : JsNumber → Option JsNumber
  | .nan => none
  | n => some n

/-! ## Tables -/

structure Row where
  actionId : String
  currentActionId : String
  actionIdempotencyKey : String
  envelopeHash : String
  toolName : String
  state : BridgeWorkflowState
  actionPackage : JsonText Json
  authorizationRequirements : Option (JsonText Json) := none
  coordinationRef : Option (JsonText Json) := none
  completedPackage : Option (JsonText Json) := none
  adapterAttempts : JsonText Json := ⟨.arr []⟩
  lastActionResponse : Option (JsonText Json) := none
  expiresAt : Timestamp
  createdAt : Int
  updatedAt : Int
  claimedBy : Option String := none
  claimExpiresMs : Option JsNumber := none
  resolvedAt : Option Int := none
  resolution : Option (JsonText (WorkflowResolution Json)) := none
  deriving DecidableEq

structure SqliteWorkflowStore where
  /-- `workflows`, by its primary key -/
  workflows : OrderedMap String Row := ∅
  /-- `workflow_action_aliases`, by its primary key -/
  aliases : OrderedMap String String := ∅
  deriving DecidableEq

namespace SqliteWorkflowStore

variable (store : SqliteWorkflowStore)

/-! ## Statements -/

/-- Some row other than the Task's has the Action ID as its current one. -/
def currentTaken (taskId currentActionId : String) : Bool :=
  store.workflows.entries.any fun e =>
    decide (e.1 ≠ taskId) && decide (e.2.currentActionId = currentActionId)

def insertWorkflow (row : Row) : Except SqlError SqliteWorkflowStore :=
  if store.workflows.has row.actionId then .error .unique
  else if store.currentTaken row.actionId row.currentActionId then .error .unique
  else .ok { store with workflows := store.workflows.set row.actionId row }

def insertAlias (actionId taskId : String) : Except SqlError SqliteWorkflowStore :=
  if store.aliases.has actionId then .error .unique
  else if !store.workflows.has taskId then .error .foreignKey
  else .ok { store with aliases := store.aliases.set actionId taskId }

/-- `UPDATE workflows SET … WHERE action_id = ? AND …`, with the number of changes. -/
def updateWorkflow (taskId : String) (condition : Row → Bool)
    (apply : Row → Except SqlError Row) : Except SqlError (Nat × SqliteWorkflowStore) :=
  match store.workflows.get? taskId with
  | none => .ok (0, store)
  | some row =>
    if !condition row then .ok (0, store)
    else match apply row with
      | .error e => .error e
      | .ok updated =>
        if store.currentTaken taskId updated.currentActionId then .error .unique
        else .ok (1, { store with workflows := store.workflows.set taskId updated })

/-- Both `DELETE` statements of a purged Task, and the changes of the second. -/
def deleteWorkflow (taskId : String) : Nat × SqliteWorkflowStore :=
  (if store.workflows.has taskId then 1 else 0,
    { workflows := store.workflows.delete taskId
      aliases := store.aliases.filter fun _ task => decide (task ≠ taskId) })

/-! ## Records -/

def rowToRecord (row : Row) : Except StoreError (WorkflowRecord Json) := do
  let claimExpiresAt ← match row.claimExpiresMs with
    | none => .ok none
    | some ms => match ms.toISOString with
      | some text => .ok (some text)
      | none => .error .invalidTimeValue
  return {
    taskId := readText row.actionId
    actionId := readText row.currentActionId
    actionIdempotencyKey := readText row.actionIdempotencyKey
    actionEnvelopeHash := readText row.envelopeHash
    toolName := readText row.toolName
    state := row.state
    actionPackage := row.actionPackage.value
    authorizationRequirements := row.authorizationRequirements.map (·.value)
    coordinationRef := row.coordinationRef.map (·.value)
    completedPackage := row.completedPackage.map (·.value)
    adapterAttempts := match row.adapterAttempts.value with
      | .arr items => items
      | _ => []
    lastActionResponse := row.lastActionResponse.map (·.value)
    expiresAt := readText row.expiresAt
    createdAt := row.createdAt
    updatedAt := row.updatedAt
    claimedBy := row.claimedBy.map readText
    claimExpiresAt
    resolvedAt := row.resolvedAt
    resolution := row.resolution.map (·.value) }

def getWorkflow (taskId : String) : Except StoreError (Option (WorkflowRecord Json)) :=
  match store.workflows.get? taskId with
  | none => .ok none
  | some row => (rowToRecord row).map some

/-- The join of the aliases with the workflows. -/
def getWorkflowByActionId (actionId : String) : Except StoreError (Option (WorkflowRecord Json)) :=
  match store.aliases.get? actionId with
  | none => .ok none
  | some taskId => store.getWorkflow taskId

def mustGet (taskId : String) : Outcome Json :=
  match store.getWorkflow taskId with
  | .error e => .error e
  | .ok (some record) => .ok (.record record)
  | .ok none => .error (.message ("Workflow not found for task " ++ taskId ++ "."))

/-! ## Operations -/

variable (now : Int)

def insertedRow (input : CreateWorkflowInput Json) : Row where
  actionId := input.taskId
  currentActionId := input.actionId
  actionIdempotencyKey := input.actionIdempotencyKey
  envelopeHash := input.actionEnvelopeHash
  toolName := input.toolName
  state := .created
  actionPackage := toJson input.actionPackage
  expiresAt := input.expiresAt
  createdAt := now
  updatedAt := now

/-- A failed statement, as it is thrown by the driver. -/
def constraintError : SqlError → StoreError
  | .unique => .message "UNIQUE constraint failed"
  | .foreignKey => .message "FOREIGN KEY constraint failed"
  | .malformedJson => .message "malformed JSON"

def createWorkflow (input : CreateWorkflowInput Json) : Outcome Json × SqliteWorkflowStore :=
  if input.taskId = input.actionId then
    (.error (.message "Task ID and Action ID must be distinct."), store)
  else
    let transaction := do
      let inserted ← store.insertWorkflow (insertedRow now input)
      inserted.insertAlias input.actionId input.taskId
    match transaction with
    | .error .unique => (.error (.message ("Workflow already exists for task " ++ input.taskId ++
        " or action " ++ input.actionId ++ ".")), store)
    | .error e => (.error (constraintError e), store)
    | .ok committed => (committed.mustGet input.taskId, committed)

def replacedRow (input : ReplaceWorkflowActionInput Json) (row : Row) : Row :=
  { row with
    currentActionId := input.actionId
    actionIdempotencyKey := input.actionIdempotencyKey
    envelopeHash := input.actionEnvelopeHash
    actionPackage := toJson input.actionPackage
    authorizationRequirements := some (toJson input.authorizationRequirements)
    coordinationRef := none
    completedPackage := none
    expiresAt := input.expiresAt
    state := .submittingToCoordination
    updatedAt := now }

def replaceAction (taskId : String) (input : ReplaceWorkflowActionInput Json) :
    Outcome Json × SqliteWorkflowStore :=
  if taskId = input.actionId then
    (.error (.message "Task ID and Action ID must be distinct."), store)
  else
    let transaction := do
      let aliased ← store.insertAlias input.actionId taskId
      aliased.updateWorkflow taskId (fun row => decide (row.state = input.fromState.state))
        fun row => .ok (replacedRow now input row)
    match transaction with
    | .error e => (.error (constraintError e), store)
    | .ok (changes, committed) =>
      if changes ≠ 1 then
        (.error (.message ("Workflow " ++ taskId ++ " is not in replacement state " ++
          input.fromState.state.text ++ ".")), store)
      else (committed.mustGet taskId, committed)

/-- A single statement on its own: what it changes, and what is returned of the changes. -/
def runUpdate (taskId : String) (condition : Row → Bool) (apply : Row → Except SqlError Row)
    (returned : Nat → Returned Json) : Outcome Json × SqliteWorkflowStore :=
  match store.updateWorkflow taskId condition apply with
  | .error e => (.error (constraintError e), store)
  | .ok (changes, updated) => (.ok (returned changes), updated)

def isChanged (changes : Nat) : Returned Json := .flag (decide (changes = 1))

def compareAndSetState (taskId : String) (source target : BridgeWorkflowState) :
    Outcome Json × SqliteWorkflowStore :=
  if source.isTerminal || target.isTerminal then (.ok (.flag false), store)
  else store.runUpdate taskId (fun row => decide (row.state = source))
    (fun row => .ok { row with state := target, updatedAt := now }) isChanged

/-- `claimed_by IS NULL OR claimed_by = ? OR claim_expires_ms <= ?`. -/
def isFree (workerId : String) (row : Row) : Bool :=
  row.claimedBy.isNone || decide (row.claimedBy = some workerId) ||
    row.claimExpiresMs.any fun ms => ms.le (.ofInt now)

def claimWorkflow (later : Int) (taskId workerId : String) (leaseMs : JsNumber) :
    Outcome Json × SqliteWorkflowStore :=
  store.runUpdate taskId (fun row => !row.state.isTerminal && isFree now workerId row)
    (fun row => .ok { row with
      claimedBy := some workerId
      claimExpiresMs := bindNumber ((JsNumber.ofInt now).add leaseMs)
      updatedAt := later }) isChanged

/-- `setColumn`, with the column as what it does to the row. -/
def setColumn (taskId : String) (apply : Row → Row) : Outcome Json × SqliteWorkflowStore :=
  store.runUpdate taskId (fun _ => true) (fun row => .ok { apply row with updatedAt := now })
    fun _ => .nothing

def saveCoordinationReference (taskId : String) (ref : Json) : Outcome Json × SqliteWorkflowStore :=
  store.setColumn now taskId fun row => { row with coordinationRef := some (toJson ref) }

def saveCompletedPackage (taskId : String) (completedPackage : Json) :
    Outcome Json × SqliteWorkflowStore :=
  store.setColumn now taskId fun row => { row with completedPackage := some (toJson completedPackage) }

def saveAuthorizationRequirements (taskId : String) (requirements : Json) :
    Outcome Json × SqliteWorkflowStore :=
  store.setColumn now taskId fun row =>
    { row with authorizationRequirements := some (toJson requirements) }

def saveLastActionResponse (taskId : String) (response : Json) :
    Outcome Json × SqliteWorkflowStore :=
  store.setColumn now taskId fun row => { row with lastActionResponse := some (toJson response) }

def saveAdapterAttempt (taskId : String) (attempt : Json) : Outcome Json × SqliteWorkflowStore :=
  store.runUpdate taskId (fun _ => true)
    (fun row => do
      let adapterAttempts ← jsonInsert row.adapterAttempts (toJson attempt)
      return { row with adapterAttempts, updatedAt := now })
    fun _ => .nothing

def settledRow (kind : BridgeWorkflowState) (resolution : WorkflowResolution Json) (row : Row) :
    Row :=
  { row with
    state := kind
    resolution := some (toJsonResolution resolution)
    resolvedAt := some now
    updatedAt := now }

def resolveWorkflow (taskId : String) (resolution : WorkflowResolution Json) :
    Outcome Json × SqliteWorkflowStore :=
  store.runUpdate taskId (fun row => !row.state.isTerminal)
    (fun row => .ok (settledRow now resolution.kind resolution row)) fun _ => .nothing

def cancelWorkflow (taskId : String) : Outcome Json × SqliteWorkflowStore :=
  store.runUpdate taskId (fun row => !row.state.isTerminal)
    (fun row => .ok (settledRow now .cancelled (.cancelled now) row)) isChanged

/-- What the query of `listRecoverableWorkflows` may yield: the rows that are not
terminal, by their `created_at`. -/
def Yields (listing : List Row) : Prop :=
  listing.Perm (store.workflows.values.filter fun row => !row.state.isTerminal) ∧
    listing.Pairwise fun a b => a.createdAt ≤ b.createdAt

instance (listing : List Row) : Decidable (store.Yields listing) :=
  inferInstanceAs (Decidable (_ ∧ _))

def listRecoverableWorkflows (listing : List Row) : Outcome Json :=
  (listing.mapM rowToRecord).map .records

/-- `nowMs > keepUntil`; without a `resolved_at`, `keepUntil` is `NaN`. -/
def isOver (dateParse : Timestamp → JsNumber) (retentionMs : JsNumber) (row : Row) : Bool :=
  row.resolvedAt.any fun resolvedAt =>
    ((dateParse (readText row.expiresAt)).max ((JsNumber.ofInt resolvedAt).add retentionMs)).lt (.ofInt now)

/-- The loop over the rows that were terminal. -/
def purgeRows (dateParse : Timestamp → JsNumber) (retentionMs : JsNumber) (purged : Nat)
    (store : SqliteWorkflowStore) : List (String × Row) → Nat × SqliteWorkflowStore
  | [] => (purged, store)
  | (taskId, row) :: rest =>
    if isOver now dateParse retentionMs row then
      let (changes, deleted) := store.deleteWorkflow (readText taskId)
      purgeRows dateParse retentionMs (purged + changes) deleted rest
    else purgeRows dateParse retentionMs purged store rest

def purgeExpiredResults (dateParse : Timestamp → JsNumber) (retentionMs : Option JsNumber) :
    Outcome Json × SqliteWorkflowStore :=
  let rows := store.workflows.entries.filter fun e => e.2.state.isTerminal
  let (purged, store') := purgeRows now dateParse (retentionMs.getD (.finite (24 * 60 * 60 * 1000)))
    0 store rows
  (.ok (.count purged), store')

end SqliteWorkflowStore

/-- One operation; `listing` is the order that the query of the recoverable workflows yields. -/
def SqliteWorkflowStore.perform (dateParse : Timestamp → JsNumber) (call : Call Json)
    (listing : List Row) (store : SqliteWorkflowStore) : Outcome Json × SqliteWorkflowStore :=
  match call.operation with
  | .createWorkflow input => store.createWorkflow call.now input
  | .getWorkflow taskId => ((store.getWorkflow taskId).map .found, store)
  | .getWorkflowByActionId actionId => ((store.getWorkflowByActionId actionId).map .found, store)
  | .replaceAction taskId input => store.replaceAction call.now taskId input
  | .compareAndSetState taskId source target =>
    store.compareAndSetState call.now taskId source target
  | .claimWorkflow taskId workerId leaseMs =>
    store.claimWorkflow call.now call.later taskId workerId leaseMs
  | .saveCoordinationReference taskId ref => store.saveCoordinationReference call.now taskId ref
  | .saveCompletedPackage taskId completedPackage =>
    store.saveCompletedPackage call.now taskId completedPackage
  | .saveAuthorizationRequirements taskId requirements =>
    store.saveAuthorizationRequirements call.now taskId requirements
  | .saveLastActionResponse taskId response =>
    store.saveLastActionResponse call.now taskId response
  | .saveAdapterAttempt taskId attempt => store.saveAdapterAttempt call.now taskId attempt
  | .resolveWorkflow taskId resolution => store.resolveWorkflow call.now taskId resolution
  | .cancelWorkflow taskId => store.cancelWorkflow call.now taskId
  | .listRecoverableWorkflows => (listRecoverableWorkflows listing, store)
  | .purgeExpiredResults retentionMs =>
    store.purgeExpiredResults call.now dateParse retentionMs

end Mpas.SqliteStore
