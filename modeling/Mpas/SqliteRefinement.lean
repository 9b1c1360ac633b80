import Mpas.SqliteStore
import Mpas.StoreInvariants

/-!
# The SQLite store refines the in-memory one

Each entry of the reference store has a row, and each operation on the rows
returns what the reference returns and leaves the rows of what it leaves.

* `Refines`: the tables are the rows and the aliases of a reference store;
* `perform_agrees`: one operation on both stores;
* `sqlite_refines`: runs of both stores, call by call.
-/

namespace Mpas.SqliteStore

open StoreContract
open WorkflowStore (BridgeWorkflowState)
open MemoryWorkflowStore (isHeld)

/-! ## Rows of entries -/

/-- The row of an entry of the reference store. -/
def rowOf (entry : MemoryEntry Json) : Row where
  actionId := entry.record.taskId
  currentActionId := entry.record.actionId
  actionIdempotencyKey := entry.record.actionIdempotencyKey
  envelopeHash := entry.record.actionEnvelopeHash
  toolName := entry.record.toolName
  state := entry.record.state
  actionPackage := ⟨entry.record.actionPackage⟩
  authorizationRequirements := entry.record.authorizationRequirements.map (⟨·⟩)
  coordinationRef := entry.record.coordinationRef.map (⟨·⟩)
  completedPackage := entry.record.completedPackage.map (⟨·⟩)
  adapterAttempts := ⟨.arr entry.record.adapterAttempts⟩
  lastActionResponse := entry.record.lastActionResponse.map (⟨·⟩)
  expiresAt := entry.record.expiresAt
  createdAt := entry.record.createdAt
  updatedAt := entry.record.updatedAt
  claimedBy := entry.record.claimedBy
  claimExpiresMs := entry.claimExpiresMs
  resolvedAt := entry.record.resolvedAt
  resolution := entry.record.resolution.map (⟨·⟩)

/-- The driver reads the text as it was written. -/
def Whole (text : String) : Prop := readText text = text

instance (text : String) : Decidable (Whole text) := inferInstanceAs (Decidable (_ = _))

/-- A claim of an entry has an expiry, and the expiry has its text. -/
inductive ReadableClaim : Option String → Option JsNumber → Option Int → Prop
  | unclaimed : ReadableClaim none none none
  | claimed {workerId : String} {ms : JsNumber} {text : Int} :
      Whole workerId → ms.toISOString = some text →
      ReadableClaim (some workerId) (some ms) (some text)

/-- The columns of every record that hold texts and no JSON. -/
def textsOf (record : WorkflowRecord Json) : List String :=
  [record.taskId, record.actionId, record.actionIdempotencyKey, record.actionEnvelopeHash,
    record.toolName, record.expiresAt]

/-- The row of the entry is read back as it was written, and takes a further attempt. -/
def Readable (entry : MemoryEntry Json) : Prop :=
  ReadableClaim entry.record.claimedBy entry.claimExpiresMs entry.record.claimExpiresAt ∧
    (∀ text ∈ textsOf entry.record, Whole text) ∧
    ∀ attempt ∈ entry.record.adapterAttempts, nesting attempt < maxJsonDepth

theorem rowToRecord_rowOf {entry : MemoryEntry Json} (h : Readable entry) :
    SqliteWorkflowStore.rowToRecord (rowOf entry) = .ok entry.record := by
  obtain ⟨record, claimExpiresMs⟩ := entry
  obtain ⟨hclaim, htexts, -⟩ := h
  obtain ⟨_, _, _, _, _, _, _, requirements, ref, completed, _, response, _, _, _, claimedBy,
    claimExpiresAt, _, resolution⟩ := record
  dsimp only at hclaim
  simp only [textsOf, List.forall_mem_cons, Whole] at htexts
  have hvalues : ∀ {α : Type} (o : Option α), (o.map (JsonText.mk ·)).map (·.value) = o := by
    intro α o
    cases o <;> rfl
  cases hclaim with
  | unclaimed =>
    simp [SqliteWorkflowStore.rowToRecord, rowOf, bind, Except.bind, pure, Except.pure, hvalues,
      htexts]
  | claimed hworker htext =>
    unfold Whole at hworker
    simp [SqliteWorkflowStore.rowToRecord, rowOf, htext, hworker, bind, Except.bind, pure,
      Except.pure, hvalues, htexts]

/-- The tables hold the rows and the aliases of a reference store. -/
structure Mirrors (memory : MemoryWorkflowStore Json) (sqlite : SqliteWorkflowStore) : Prop where
  workflows : sqlite.workflows = memory.entries.mapValues rowOf
  aliases : sqlite.aliases = memory.actionTasks
  readable : ∀ taskId entry, memory.entries.get? taskId = some entry → Readable entry

structure Refines (memory : MemoryWorkflowStore Json) (sqlite : SqliteWorkflowStore) : Prop
    extends Mirrors memory sqlite where
  consistent : Consistent memory

section

variable {memory : MemoryWorkflowStore Json} {sqlite : SqliteWorkflowStore}

theorem Mirrors.get? (h : Mirrors memory sqlite) (taskId : String) :
    sqlite.workflows.get? taskId = (memory.entries.get? taskId).map rowOf := by
  rw [h.workflows, OrderedMap.get?_mapValues]

theorem Mirrors.has (h : Mirrors memory sqlite) (taskId : String) :
    sqlite.workflows.has taskId = memory.entries.has taskId := by
  rw [h.workflows, OrderedMap.has_mapValues]

theorem Mirrors.getWorkflow (h : Mirrors memory sqlite) (taskId : String) :
    sqlite.getWorkflow taskId = .ok (memory.getWorkflow taskId) := by
  unfold SqliteWorkflowStore.getWorkflow MemoryWorkflowStore.getWorkflow
  rw [h.get?]
  cases hentry : memory.entries.get? taskId with
  | none => rfl
  | some entry => simp [rowToRecord_rowOf (h.readable taskId entry hentry), Except.map]

theorem Mirrors.getWorkflowByActionId (h : Mirrors memory sqlite) (actionId : String) :
    sqlite.getWorkflowByActionId actionId = .ok (memory.getWorkflowByActionId actionId) := by
  unfold SqliteWorkflowStore.getWorkflowByActionId MemoryWorkflowStore.getWorkflowByActionId
  rw [h.aliases]
  cases memory.actionTasks.get? actionId with
  | none => rfl
  | some taskId => exact h.getWorkflow taskId

theorem Mirrors.mustGet (h : Mirrors memory sqlite) {taskId : String} {entry : MemoryEntry Json}
    (hentry : memory.entries.get? taskId = some entry) :
    sqlite.mustGet taskId = .ok (.record entry.record) := by
  unfold SqliteWorkflowStore.mustGet
  rw [h.getWorkflow, MemoryWorkflowStore.getWorkflow, hentry]
  rfl

/-- Only one workflow has an Action ID as its current one. -/
theorem Refines.currentTaken_eq_false (h : Refines memory sqlite) {taskId actionId : String}
    (hown : ∀ task, memory.actionTasks.get? actionId = some task → task = taskId) :
    sqlite.currentTaken taskId actionId = false := by
  unfold SqliteWorkflowStore.currentTaken
  rw [List.any_eq_false]
  rintro ⟨task, row⟩ hmem htaken
  obtain ⟨hother, hcurrent⟩ := Bool.and_eq_true_iff.mp htaken
  have hrow : sqlite.workflows.get? task = some row := (OrderedMap.mem_entries_iff _ _ _).mp hmem
  rw [h.get?] at hrow
  obtain ⟨entry, hentry, rfl⟩ := Option.map_eq_some_iff.mp hrow
  have hmap := h.consistent.current task entry hentry
  have hid : entry.record.actionId = actionId := of_decide_eq_true hcurrent
  rw [hid] at hmap
  exact of_decide_eq_true hother (hown task hmap)

/-! ## Statements on the rows -/

variable {taskId : String} {entry : MemoryEntry Json} {condition : Row → Bool}
  {apply : Row → Except SqlError Row} {returned : Nat → Returned Json}

theorem Refines.runUpdate_none (h : Refines memory sqlite)
    (hentry : memory.entries.get? taskId = none) :
    sqlite.runUpdate taskId condition apply returned = (.ok (returned 0), sqlite) := by
  simp [SqliteWorkflowStore.runUpdate, SqliteWorkflowStore.updateWorkflow, h.get?, hentry]

theorem Refines.runUpdate_refused (h : Refines memory sqlite)
    (hentry : memory.entries.get? taskId = some entry) (hrow : condition (rowOf entry) = false) :
    sqlite.runUpdate taskId condition apply returned = (.ok (returned 0), sqlite) := by
  simp [SqliteWorkflowStore.runUpdate, SqliteWorkflowStore.updateWorkflow, h.get?, hentry, hrow]

theorem Refines.runUpdate_done (h : Refines memory sqlite) (entry' : MemoryEntry Json)
    (hentry : memory.entries.get? taskId = some entry) (hrow : condition (rowOf entry) = true)
    (happly : apply (rowOf entry) = .ok (rowOf entry'))
    (hid : entry'.record.actionId = entry.record.actionId) :
    sqlite.runUpdate taskId condition apply returned =
      (.ok (returned 1), { sqlite with workflows := sqlite.workflows.set taskId (rowOf entry') }) := by
  have hfree : sqlite.currentTaken taskId (rowOf entry').currentActionId = false := by
    apply h.currentTaken_eq_false
    intro task hmap
    have hcurrent := h.consistent.current taskId entry hentry
    rw [← hid] at hcurrent
    exact Option.some.inj (hmap.symm.trans hcurrent)
  simp [SqliteWorkflowStore.runUpdate, SqliteWorkflowStore.updateWorkflow, h.get?, hentry, hrow,
    happly, hfree]

end

/-! ## JSON values -/

mutual

/-- A value with a JSON text: every number in it is finite. -/
def isJsonValue : Json → Bool
  | .num n => n.isFinite
  | .arr items => areJsonValues items
  | .obj members => haveJsonValues members
  | _ => true

def areJsonValues : List Json → Bool
  | [] => true
  | v :: rest => isJsonValue v && areJsonValues rest

def haveJsonValues : List (String × Json) → Bool
  | [] => true
  | (_, v) :: rest => isJsonValue v && haveJsonValues rest

end

mutual

theorem stringified_eq : ∀ v : Json, isJsonValue v = true → stringified v = v
  | .null, _ => rfl
  | .bool _, _ => rfl
  | .num (.finite _), _ => rfl
  | .num (.infinity _), h => by cases h
  | .num .nan, h => by cases h
  | .str _, _ => rfl
  | .arr items, h => by rw [stringified, stringifiedItems_eq items h]
  | .obj members, h => by rw [stringified, stringifiedMembers_eq members h]

theorem stringifiedItems_eq : ∀ items, areJsonValues items = true → stringifiedItems items = items
  | [], _ => rfl
  | v :: rest, h => by
    obtain ⟨hv, hrest⟩ := Bool.and_eq_true_iff.mp h
    rw [stringifiedItems, stringified_eq v hv, stringifiedItems_eq rest hrest]

theorem stringifiedMembers_eq : ∀ members, haveJsonValues members = true →
    stringifiedMembers members = members
  | [], _ => rfl
  | (key, v) :: rest, h => by
    obtain ⟨hv, hrest⟩ := Bool.and_eq_true_iff.mp h
    rw [stringifiedMembers, stringified_eq v hv, stringifiedMembers_eq rest hrest]

end

theorem toJson_eq {v : Json} (h : isJsonValue v = true) : toJson v = ⟨v⟩ := by
  rw [toJson, stringified_eq v h]

def isJsonResolution : WorkflowResolution Json → Bool
  | .resolved actionResponse executionReceipt =>
    isJsonValue actionResponse && executionReceipt.all isJsonValue
  | _ => true

theorem toJsonResolution_eq {resolution : WorkflowResolution Json}
    (h : isJsonResolution resolution = true) : toJsonResolution resolution = ⟨resolution⟩ := by
  cases resolution with
  | resolved actionResponse executionReceipt =>
    obtain ⟨hresponse, hreceipt⟩ := Bool.and_eq_true_iff.mp h
    cases executionReceipt with
    | none => simp [toJsonResolution, stringified_eq _ hresponse]
    | some receipt => simp [toJsonResolution, stringified_eq _ hresponse, stringified_eq _ hreceipt]
  | unresolvable errorCode errorMessage => rfl
  | cancelled cancelledAt => rfl

/-- The arguments of an operation are JSON values. -/
def hasJsonArguments : Operation Json → Bool
  | .createWorkflow input => isJsonValue input.actionPackage
  | .replaceAction _ input =>
    isJsonValue input.actionPackage && isJsonValue input.authorizationRequirements
  | .saveCoordinationReference _ v | .saveCompletedPackage _ v
  | .saveAuthorizationRequirements _ v | .saveLastActionResponse _ v
  | .saveAdapterAttempt _ v => isJsonValue v
  | .resolveWorkflow _ resolution => isJsonResolution resolution
  | _ => true

/-- The texts of the call come back from their columns, and the JSON functions of SQLite
take its attempt, then and in the list of attempts. -/
def fitsColumns : Operation Json → Bool
  | .createWorkflow input => [input.taskId, input.actionId, input.actionIdempotencyKey,
      input.actionEnvelopeHash, input.toolName, input.expiresAt].all fun text => Whole text
  | .replaceAction _ input => [input.actionId, input.actionIdempotencyKey,
      input.actionEnvelopeHash, input.expiresAt].all fun text => Whole text
  | .claimWorkflow _ workerId _ => Whole workerId
  | .saveAdapterAttempt _ attempt => decide (nesting attempt < maxJsonDepth)
  | _ => true

/-! ## Operations on both stores -/

/-- Equal results, or both throw. -/
def SameOutcome : Outcome Json → Outcome Json → Prop
  | .ok result, .ok result' => result = result'
  | .error _, .error _ => True
  | _, _ => False

instance : (o o' : Outcome Json) → Decidable (SameOutcome o o')
  | .ok result, .ok result' => inferInstanceAs (Decidable (result = result'))
  | .error _, .error _ => inferInstanceAs (Decidable True)
  | .ok _, .error _ => inferInstanceAs (Decidable False)
  | .error _, .ok _ => inferInstanceAs (Decidable False)

def Agrees (memory : Outcome Json × MemoryWorkflowStore Json)
    (sqlite : Outcome Json × SqliteWorkflowStore) : Prop :=
  SameOutcome memory.1 sqlite.1 ∧ Mirrors memory.2 sqlite.2

section

variable {memory : MemoryWorkflowStore Json} {sqlite : SqliteWorkflowStore}

theorem Mirrors.set (h : Mirrors memory sqlite) (taskId : String) {entry : MemoryEntry Json}
    (hreadable : Readable entry) :
    Mirrors { memory with entries := memory.entries.set taskId entry }
      { sqlite with workflows := sqlite.workflows.set taskId (rowOf entry) } := by
  refine ⟨?_, h.aliases, fun task e he => ?_⟩
  · rw [OrderedMap.mapValues_set, ← h.workflows]
  · rw [OrderedMap.get?_set] at he
    split at he
    · cases he
      exact hreadable
    · exact h.readable task e he

theorem Mirrors.alias (h : Mirrors memory sqlite) (actionId taskId : String) :
    Mirrors { memory with actionTasks := memory.actionTasks.set actionId taskId }
      { sqlite with aliases := sqlite.aliases.set actionId taskId } :=
  ⟨h.workflows, by rw [h.aliases], h.readable⟩

variable (now : Int) (dateParse : Timestamp → JsNumber)

theorem createWorkflow_agrees (h : Refines memory sqlite) {input : CreateWorkflowInput Json}
    (hjson : isJsonValue input.actionPackage = true)
    (hfits : fitsColumns (.createWorkflow input) = true) :
    Agrees (memory.createWorkflow (jsonRuntime dateParse) now input)
      (sqlite.createWorkflow now input) := by
  unfold MemoryWorkflowStore.createWorkflow SqliteWorkflowStore.createWorkflow
  by_cases hdistinct : input.taskId = input.actionId
  · rw [if_pos hdistinct, if_pos hdistinct]
    exact ⟨trivial, h.toMirrors⟩
  rw [if_neg hdistinct, if_neg hdistinct]
  by_cases htask : memory.entries.has input.taskId = true
  · have hinsert : sqlite.insertWorkflow (SqliteWorkflowStore.insertedRow now input) =
        .error .unique := by
      simp [SqliteWorkflowStore.insertWorkflow, SqliteWorkflowStore.insertedRow, h.has, htask]
    rw [if_pos htask, hinsert]
    exact ⟨trivial, h.toMirrors⟩
  rw [if_neg htask]
  have hrow : SqliteWorkflowStore.insertedRow now input =
      rowOf { record := MemoryWorkflowStore.createdRecord now input input.actionPackage } := by
    simp [SqliteWorkflowStore.insertedRow, rowOf, MemoryWorkflowStore.createdRecord,
      toJson_eq hjson]
  by_cases haction : memory.actionTasks.has input.actionId = true
  · -- the alias exists, whether or not it is some workflow's current Action ID
    rw [if_pos haction]
    have hfail : (do
        let inserted ← sqlite.insertWorkflow (SqliteWorkflowStore.insertedRow now input)
        inserted.insertAlias input.actionId input.taskId) = .error .unique := by
      unfold SqliteWorkflowStore.insertWorkflow
      split
      · rfl
      split
      · rfl
      · simp [bind, Except.bind, SqliteWorkflowStore.insertAlias, h.aliases, haction]
    rw [hfail]
    exact ⟨trivial, h.toMirrors⟩
  rw [if_neg haction]
  have hfree : sqlite.currentTaken input.taskId input.actionId = false := by
    apply h.currentTaken_eq_false
    intro task hmap
    rw [get?_none_of_has haction] at hmap
    cases hmap
  have hdone : (do
      let inserted ← sqlite.insertWorkflow (SqliteWorkflowStore.insertedRow now input)
      inserted.insertAlias input.actionId input.taskId) = .ok
        { workflows := sqlite.workflows.set input.taskId
            (SqliteWorkflowStore.insertedRow now input)
          aliases := sqlite.aliases.set input.actionId input.taskId } := by
    have hrowTask : (SqliteWorkflowStore.insertedRow now input).actionId = input.taskId := rfl
    have hrowAction : (SqliteWorkflowStore.insertedRow now input).currentActionId =
      input.actionId := rfl
    unfold SqliteWorkflowStore.insertWorkflow
    rw [hrowTask, hrowAction, h.has, if_neg htask, if_neg (by simp [hfree])]
    simp [bind, Except.bind, SqliteWorkflowStore.insertAlias, h.aliases, OrderedMap.has,
      get?_none_of_has haction]
  rw [hdone, hrow]
  have hreadable : Readable
      { record := MemoryWorkflowStore.createdRecord now input input.actionPackage } := by
    refine ⟨.unclaimed, fun text hmem => ?_, fun attempt hmem => by cases hmem⟩
    exact of_decide_eq_true (List.all_eq_true.mp hfits text hmem)
  have hmirrors := (h.toMirrors.set input.taskId hreadable).alias input.actionId input.taskId
  refine ⟨?_, hmirrors⟩
  show SameOutcome (.ok _) (SqliteWorkflowStore.mustGet _ input.taskId)
  rw [hmirrors.mustGet (OrderedMap.get?_set_self _ _ _)]
  rfl

theorem insertAlias_unique (h : Refines memory sqlite) {actionId : String} (taskId : String)
    (haction : memory.actionTasks.has actionId = true) :
    sqlite.insertAlias actionId taskId = .error .unique := by
  rw [← h.aliases] at haction
  simp [SqliteWorkflowStore.insertAlias, haction]

theorem insertAlias_foreignKey (h : Refines memory sqlite) {actionId taskId : String}
    (haction : ¬memory.actionTasks.has actionId = true)
    (hentry : memory.entries.get? taskId = none) :
    sqlite.insertAlias actionId taskId = .error .foreignKey := by
  have htask : sqlite.workflows.has taskId = false := by rw [h.has, OrderedMap.has, hentry]; rfl
  rw [← h.aliases] at haction
  simp [SqliteWorkflowStore.insertAlias, haction, htask]

theorem insertAlias_done (h : Refines memory sqlite) {actionId taskId : String}
    {entry : MemoryEntry Json} (haction : ¬memory.actionTasks.has actionId = true)
    (hentry : memory.entries.get? taskId = some entry) :
    sqlite.insertAlias actionId taskId =
      .ok { sqlite with aliases := sqlite.aliases.set actionId taskId } := by
  have htask : sqlite.workflows.has taskId = true := by rw [h.has, OrderedMap.has, hentry]; rfl
  rw [← h.aliases] at haction
  simp [SqliteWorkflowStore.insertAlias, haction, htask]

/-- The entry of the Task after its Action was replaced. -/
def replacedEntry (input : ReplaceWorkflowActionInput Json) (entry : MemoryEntry Json) :
    MemoryEntry Json :=
  ⟨MemoryWorkflowStore.replacedRecord now input input.actionPackage
    input.authorizationRequirements entry.record, entry.claimExpiresMs⟩

theorem replacedRow_rowOf {input : ReplaceWorkflowActionInput Json}
    (hjson : isJsonValue input.actionPackage = true)
    (hjson' : isJsonValue input.authorizationRequirements = true) (entry : MemoryEntry Json) :
    SqliteWorkflowStore.replacedRow now input (rowOf entry) =
      rowOf (replacedEntry now input entry) := by
  simp [SqliteWorkflowStore.replacedRow, rowOf, replacedEntry, MemoryWorkflowStore.replacedRecord,
    toJson_eq hjson, toJson_eq hjson']

/-- The update of a replacement, after the alias was inserted. -/
theorem replaceUpdate (h : Refines memory sqlite) {taskId : String}
    {input : ReplaceWorkflowActionInput Json} {entry : MemoryEntry Json}
    (haction : ¬memory.actionTasks.has input.actionId = true)
    (hentry : memory.entries.get? taskId = some entry) (aliases : OrderedMap String String) :
    SqliteWorkflowStore.updateWorkflow { sqlite with aliases } taskId
      (fun row => decide (row.state = input.fromState.state))
      (fun row => .ok (SqliteWorkflowStore.replacedRow now input row)) =
        if entry.record.state = input.fromState.state then
          .ok (1, {
            workflows := sqlite.workflows.set taskId
              (SqliteWorkflowStore.replacedRow now input (rowOf entry))
            aliases })
        else .ok (0, { sqlite with aliases }) := by
  have hrow : sqlite.workflows.get? taskId = some (rowOf entry) := by rw [h.get?, hentry]; rfl
  have hstate : (rowOf entry).state = entry.record.state := rfl
  have hfree : SqliteWorkflowStore.currentTaken { sqlite with aliases } taskId
      (SqliteWorkflowStore.replacedRow now input (rowOf entry)).currentActionId = false := by
    apply h.currentTaken_eq_false
    intro task hmap
    have hnone : memory.actionTasks.get? input.actionId = none := get?_none_of_has haction
    cases hnone.symm.trans hmap
  by_cases hfrom : entry.record.state = input.fromState.state
  · simp [SqliteWorkflowStore.updateWorkflow, hrow, hstate, hfrom, hfree]
  · simp [SqliteWorkflowStore.updateWorkflow, hrow, hstate, hfrom]

theorem replacedEntry_readable {taskId : String} {input : ReplaceWorkflowActionInput Json}
    {entry : MemoryEntry Json} (hfits : fitsColumns (.replaceAction taskId input) = true)
    (h : Readable entry) : Readable (replacedEntry now input entry) := by
  obtain ⟨hclaim, htexts, hattempts⟩ := h
  refine ⟨hclaim, ?_, hattempts⟩
  simp only [fitsColumns, List.all_cons, List.all_nil, Bool.and_eq_true, decide_eq_true_eq] at hfits
  simp only [textsOf, List.forall_mem_cons] at htexts ⊢
  simp only [replacedEntry, MemoryWorkflowStore.replacedRecord]
  exact ⟨htexts.1, hfits.1, hfits.2.1, hfits.2.2.1, htexts.2.2.2.2.1, hfits.2.2.2.1, by simp⟩

theorem replaceAction_agrees (h : Refines memory sqlite) {taskId : String}
    {input : ReplaceWorkflowActionInput Json} (hjson : isJsonValue input.actionPackage = true)
    (hjson' : isJsonValue input.authorizationRequirements = true)
    (hfits : fitsColumns (.replaceAction taskId input) = true) :
    Agrees (memory.replaceAction (jsonRuntime dateParse) now taskId input)
      (sqlite.replaceAction now taskId input) := by
  unfold MemoryWorkflowStore.replaceAction SqliteWorkflowStore.replaceAction
  by_cases hdistinct : taskId = input.actionId
  · rw [if_pos hdistinct, if_pos hdistinct]
    exact ⟨trivial, h.toMirrors⟩
  rw [if_neg hdistinct, if_neg hdistinct]
  by_cases haction : memory.actionTasks.has input.actionId = true
  · -- the alias is inserted first, so the reference may refuse for the state instead
    rw [insertAlias_unique h taskId haction]
    cases hentry : memory.entries.get? taskId with
    | none => exact ⟨trivial, h.toMirrors⟩
    | some entry =>
      by_cases hstate : entry.record.state = input.fromState.state
      · simp only [ne_eq, hstate, not_true_eq_false, ↓reduceIte, haction]
        exact ⟨trivial, h.toMirrors⟩
      · simp only [ne_eq, hstate, not_false_eq_true, ↓reduceIte]
        exact ⟨trivial, h.toMirrors⟩
  cases hentry : memory.entries.get? taskId with
  | none =>
    rw [insertAlias_foreignKey h haction hentry]
    exact ⟨trivial, h.toMirrors⟩
  | some entry =>
    rw [insertAlias_done h haction hentry]
    simp only [bind, Except.bind, replaceUpdate now h haction hentry]
    by_cases hstate : entry.record.state = input.fromState.state
    · simp only [ne_eq, hstate, not_true_eq_false, ↓reduceIte, haction, Bool.false_eq_true,
        jsonRuntime, replacedRow_rowOf now hjson hjson']
      have hreadable := replacedEntry_readable now hfits (h.readable taskId entry hentry)
      have hmirrors := (h.toMirrors.set taskId hreadable).alias input.actionId taskId
      refine ⟨?_, hmirrors⟩
      show SameOutcome (.ok _) (SqliteWorkflowStore.mustGet _ taskId)
      rw [hmirrors.mustGet (OrderedMap.get?_set_self _ _ _)]
      rfl
    · simp only [ne_eq, hstate, not_false_eq_true, ↓reduceIte]
      exact ⟨trivial, h.toMirrors⟩

theorem compareAndSetState_agrees (h : Refines memory sqlite) {taskId : String}
    {source target : BridgeWorkflowState} :
    Agrees (memory.compareAndSetState now taskId source target)
      (sqlite.compareAndSetState now taskId source target) := by
  unfold MemoryWorkflowStore.compareAndSetState SqliteWorkflowStore.compareAndSetState
  by_cases hterminal : (source.isTerminal || target.isTerminal) = true
  · rw [if_pos hterminal, if_pos hterminal]
    exact ⟨rfl, h.toMirrors⟩
  rw [if_neg hterminal, if_neg hterminal]
  cases hentry : memory.entries.get? taskId with
  | none =>
    rw [h.runUpdate_none hentry]
    exact ⟨rfl, h.toMirrors⟩
  | some entry =>
    by_cases hstate : entry.record.state = source
    · let entry' : MemoryEntry Json :=
        ⟨{ entry.record with state := target, updatedAt := now }, entry.claimExpiresMs⟩
      rw [h.runUpdate_done entry' hentry (decide_eq_true hstate) rfl rfl]
      simp only [ne_eq, hstate, not_true_eq_false, ↓reduceIte]
      exact ⟨rfl, h.toMirrors.set taskId (h.readable taskId entry hentry)⟩
    · rw [h.runUpdate_refused hentry (decide_eq_false hstate)]
      simp only [ne_eq, hstate, not_false_eq_true, ↓reduceIte]
      exact ⟨rfl, h.toMirrors⟩

/-! ## Claims -/

theorem toISOString_finite {ms : JsNumber} {text : Int} (h : ms.toISOString = some text) :
    ∃ q, ms = .finite q := by
  cases ms with
  | finite q => exact ⟨q, rfl⟩
  | infinity negative => cases h
  | nan => cases h

/-- The condition of the claiming statement is that no other worker holds a live lease. -/
theorem isFree_rowOf {entry : MemoryEntry Json} (hreadable : Readable entry) (workerId : String) :
    SqliteWorkflowStore.isFree now workerId (rowOf entry) = !isHeld now workerId entry := by
  obtain ⟨record, claimExpiresMs⟩ := entry
  obtain ⟨hclaim, -, -⟩ := hreadable
  unfold SqliteWorkflowStore.isFree isHeld rowOf
  dsimp only at hclaim ⊢
  revert hclaim
  generalize record.claimedBy = claimedBy
  generalize record.claimExpiresAt = claimExpiresAt
  intro hclaim
  cases hclaim with
  | unclaimed => rfl
  | @claimed holder ms text _ htext =>
    obtain ⟨q, rfl⟩ := toISOString_finite htext
    by_cases hsame : holder = workerId
    · simp [hsame]
    · simp [hsame, JsNumber.le, JsNumber.lt, JsNumber.ofInt, ← not_lt]

theorem bindNumber_date {ms : JsNumber} {text : Int} (h : ms.toISOString = some text) :
    bindNumber ms = some ms := by
  obtain ⟨q, rfl⟩ := toISOString_finite h
  rfl

theorem claimWorkflow_agrees (h : Refines memory sqlite) {later : Int} {taskId workerId : String}
    {leaseMs : JsNumber} (hworker : Whole workerId)
    (hdate : ∀ entry, memory.entries.get? taskId = some entry →
      entry.record.state.isTerminal = false → isHeld now workerId entry = false →
      ((JsNumber.ofInt now).add leaseMs).toISOString.isSome = true) :
    Agrees (memory.claimWorkflow now later taskId workerId leaseMs)
      (sqlite.claimWorkflow now later taskId workerId leaseMs) := by
  unfold MemoryWorkflowStore.claimWorkflow SqliteWorkflowStore.claimWorkflow
  cases hentry : memory.entries.get? taskId with
  | none =>
    rw [h.runUpdate_none hentry]
    exact ⟨rfl, h.toMirrors⟩
  | some entry =>
    have hfree := isFree_rowOf now (h.readable taskId entry hentry) workerId
    have hstate : (rowOf entry).state = entry.record.state := rfl
    cases hterminal : entry.record.state.isTerminal with
    | true =>
      rw [h.runUpdate_refused hentry (by simp [hstate, hterminal])]
      simp only [hterminal, ↓reduceIte]
      exact ⟨rfl, h.toMirrors⟩
    | false =>
      cases hheld : isHeld now workerId entry with
      | true =>
        rw [h.runUpdate_refused hentry (by simp [hfree, hheld])]
        simp only [hterminal, hheld, Bool.false_eq_true, ↓reduceIte]
        exact ⟨rfl, h.toMirrors⟩
      | false =>
        obtain ⟨text, htext⟩ := Option.isSome_iff_exists.mp (hdate entry hentry hterminal hheld)
        let entry' : MemoryEntry Json :=
          ⟨{ entry.record with
              claimedBy := some workerId
              claimExpiresAt := some text
              updatedAt := later }, some ((JsNumber.ofInt now).add leaseMs)⟩
        have hcondition : (!(rowOf entry).state.isTerminal &&
            SqliteWorkflowStore.isFree now workerId (rowOf entry)) = true := by
          simp [hstate, hterminal, hfree, hheld]
        rw [h.runUpdate_done entry' hentry hcondition
          (by simp only [bindNumber_date htext]; rfl) rfl]
        simp only [hterminal, hheld, Bool.false_eq_true, ↓reduceIte, htext]
        have hold := h.readable taskId entry hentry
        exact ⟨rfl, h.toMirrors.set taskId ⟨.claimed hworker htext, hold.2⟩⟩

/-! ## Saved values -/

/-- The entry with a value saved in its record. -/
def savedEntry (value : Json) (apply : Json → WorkflowRecord Json → WorkflowRecord Json)
    (entry : MemoryEntry Json) : MemoryEntry Json :=
  ⟨{ apply value entry.record with updatedAt := now }, entry.claimExpiresMs⟩

/-- A value is saved in the row as it is saved in the record. -/
theorem mutate_agrees (h : Refines memory sqlite) {taskId : String} {value : Json}
    {apply : Json → WorkflowRecord Json → WorkflowRecord Json}
    {applyRow : Row → Except SqlError Row}
    (hrow : ∀ entry, Readable entry →
      applyRow (rowOf entry) = .ok (rowOf (savedEntry now value apply entry)))
    (hid : ∀ record, (apply value record).actionId = record.actionId)
    (hreadable : ∀ entry, Readable entry → Readable (savedEntry now value apply entry)) :
    Agrees (memory.mutate (jsonRuntime dateParse) now taskId value apply)
      (sqlite.runUpdate taskId (fun _ => true) applyRow fun _ => .nothing) := by
  unfold MemoryWorkflowStore.mutate
  cases hentry : memory.entries.get? taskId with
  | none =>
    rw [h.runUpdate_none hentry]
    exact ⟨rfl, h.toMirrors⟩
  | some entry =>
    have hold := h.readable taskId entry hentry
    rw [h.runUpdate_done (savedEntry now value apply entry) hentry rfl (hrow entry hold)
      (hid entry.record)]
    exact ⟨rfl, h.toMirrors.set taskId (hreadable entry hold)⟩

theorem nestingOfItems_lt {items : List Json} {n : Nat} (hn : 0 < n)
    (h : ∀ item ∈ items, nesting item < n) : nestingOfItems items < n := by
  induction items with
  | nil => exact hn
  | cons item rest ih =>
    rw [nestingOfItems]
    exact max_lt (h item List.mem_cons_self) (ih fun other hmem => h other (List.mem_cons_of_mem _ hmem))

/-- The JSON functions take an attempt that leaves room for the list around it. -/
theorem jsonInsert_attempts {attempts : List Json} {attempt : Json}
    (hattempts : ∀ earlier ∈ attempts, nesting earlier < maxJsonDepth)
    (hattempt : nesting attempt < maxJsonDepth) :
    jsonInsert ⟨.arr attempts⟩ ⟨attempt⟩ = .ok ⟨.arr (attempts ++ [attempt])⟩ := by
  have hlist := nestingOfItems_lt (by decide : 0 < maxJsonDepth) hattempts
  have hfits : ¬(maxJsonDepth < nesting attempt ∨ maxJsonDepth < nesting (.arr attempts)) := by
    rw [nesting]
    omega
  rw [jsonInsert, if_neg hfits]

theorem saveAdapterAttempt_agrees (h : Refines memory sqlite) {taskId : String} {attempt : Json}
    (hjson : isJsonValue attempt = true) (hattempt : nesting attempt < maxJsonDepth) :
    Agrees (memory.saveAdapterAttempt (jsonRuntime dateParse) now taskId attempt)
      (sqlite.saveAdapterAttempt now taskId attempt) := by
  refine mutate_agrees now dateParse h (fun entry hentry => ?_) (fun _ => rfl) fun entry hentry => ?_
  · simp only [rowOf, toJson_eq hjson, jsonInsert_attempts hentry.2.2 hattempt]
    rfl
  · refine ⟨hentry.1, hentry.2.1, fun other hmem => ?_⟩
    rcases List.mem_append.mp hmem with hold | hnew
    · exact hentry.2.2 other hold
    · rwa [List.mem_singleton.mp hnew]

/-! ## Resolutions -/

theorem cloneResolution_json (resolution : WorkflowResolution Json) :
    MemoryWorkflowStore.cloneResolution (jsonRuntime dateParse) resolution = some resolution := by
  cases resolution with
  | resolved actionResponse executionReceipt => cases executionReceipt <;> rfl
  | unresolvable errorCode errorMessage => rfl
  | cancelled cancelledAt => rfl

/-- Only a workflow that is not terminal is settled. -/
theorem settled_agrees (h : Refines memory sqlite) {taskId : String} {entry : MemoryEntry Json}
    (hentry : memory.entries.get? taskId = some entry)
    (hactive : entry.record.state.isTerminal = false) {kind : BridgeWorkflowState}
    {resolution : WorkflowResolution Json} (hjson : isJsonResolution resolution = true)
    (returned : Nat → Returned Json) :
    Agrees (.ok (returned 1), { memory with
        entries := memory.entries.set taskId { entry with
          record := MemoryWorkflowStore.settledRecord now kind resolution entry.record } })
      (sqlite.runUpdate taskId (fun row => !row.state.isTerminal)
        (fun row => .ok (SqliteWorkflowStore.settledRow now kind resolution row)) returned) := by
  let entry' : MemoryEntry Json :=
    ⟨MemoryWorkflowStore.settledRecord now kind resolution entry.record, entry.claimExpiresMs⟩
  have hstate : (rowOf entry).state = entry.record.state := rfl
  have hrow : SqliteWorkflowStore.settledRow now kind resolution (rowOf entry) = rowOf entry' := by
    simp [SqliteWorkflowStore.settledRow, toJsonResolution_eq hjson, rowOf, entry',
      MemoryWorkflowStore.settledRecord]
  rw [h.runUpdate_done entry' hentry (by simp [hstate, hactive]) (by rw [hrow]) rfl]
  exact ⟨rfl, h.toMirrors.set taskId (h.readable taskId entry hentry)⟩

theorem resolveWorkflow_agrees (h : Refines memory sqlite) {taskId : String}
    {resolution : WorkflowResolution Json} (hjson : isJsonResolution resolution = true) :
    Agrees (memory.resolveWorkflow (jsonRuntime dateParse) now taskId resolution)
      (sqlite.resolveWorkflow now taskId resolution) := by
  unfold MemoryWorkflowStore.resolveWorkflow SqliteWorkflowStore.resolveWorkflow
  cases hentry : memory.entries.get? taskId with
  | none =>
    rw [h.runUpdate_none hentry]
    exact ⟨rfl, h.toMirrors⟩
  | some entry =>
    cases hterminal : entry.record.state.isTerminal with
    | true =>
      have hstate : (rowOf entry).state = entry.record.state := rfl
      rw [h.runUpdate_refused hentry (by simp [hstate, hterminal])]
      simp only [hterminal, ↓reduceIte]
      exact ⟨rfl, h.toMirrors⟩
    | false =>
      simp only [hterminal, Bool.false_eq_true, ↓reduceIte, cloneResolution_json]
      exact settled_agrees now h hentry hterminal hjson fun _ => .nothing

theorem cancelWorkflow_agrees (h : Refines memory sqlite) {taskId : String} :
    Agrees (memory.cancelWorkflow now taskId) (sqlite.cancelWorkflow now taskId) := by
  unfold MemoryWorkflowStore.cancelWorkflow SqliteWorkflowStore.cancelWorkflow
  cases hentry : memory.entries.get? taskId with
  | none =>
    rw [h.runUpdate_none hentry]
    exact ⟨rfl, h.toMirrors⟩
  | some entry =>
    cases hterminal : entry.record.state.isTerminal with
    | true =>
      have hstate : (rowOf entry).state = entry.record.state := rfl
      rw [h.runUpdate_refused hentry (by simp [hstate, hterminal])]
      simp only [hterminal, ↓reduceIte]
      exact ⟨rfl, h.toMirrors⟩
    | false =>
      simp only [hterminal, Bool.false_eq_true, ↓reduceIte]
      exact settled_agrees now h hentry hterminal rfl SqliteWorkflowStore.isChanged

/-! ## The recoverable workflows -/

/-- No two workflows that are not terminal were created at one instant. -/
def DistinctCreation (memory : MemoryWorkflowStore Json) : Prop :=
  ((((memory.entries.values.map (·.record)).filter fun record => !record.state.isTerminal).map
    (·.createdAt))).Nodup

instance : Decidable (DistinctCreation memory) := inferInstanceAs (Decidable (List.Nodup _))

theorem mapM_rowToRecord {entries : List (MemoryEntry Json)}
    (hreadable : ∀ entry ∈ entries, Readable entry) :
    (entries.map rowOf).mapM SqliteWorkflowStore.rowToRecord = .ok (entries.map (·.record)) := by
  induction entries with
  | nil => rfl
  | cons entry rest ih =>
    obtain ⟨hentry, hrest⟩ := List.forall_mem_cons.mp hreadable
    rw [List.map_cons, List.mapM_cons, rowToRecord_rowOf hentry, ih hrest]
    rfl

/-- Two lists of the same members in the order of a key without repetition are equal. -/
theorem eq_of_perm_of_sorted {α : Type*} (key : α → Int) {as bs : List α} (hperm : as.Perm bs)
    (hnodup : (as.map key).Nodup) (has : as.Pairwise fun a b => key a ≤ key b)
    (hbs : bs.Pairwise fun a b => key a ≤ key b) : as = bs := by
  refine hperm.eq_of_pairwise (fun a b ha hb hab hba => ?_) has hbs
  have hkey : key a = key b := le_antisymm hab hba
  exact List.inj_on_of_nodup_map hnodup ha (hperm.mem_iff.mpr hb) hkey

theorem listRecoverable_agrees (h : Refines memory sqlite) (hdistinct : DistinctCreation memory)
    {listing : List Row} (hyields : sqlite.Yields listing) :
    SqliteWorkflowStore.listRecoverableWorkflows listing =
      .ok (.records memory.listRecoverableWorkflows) := by
  obtain ⟨hperm, hsorted⟩ := hyields
  let active := memory.entries.values.filter fun entry => !entry.record.state.isTerminal
  have hrows : (sqlite.workflows.values.filter fun row => !row.state.isTerminal) =
      active.map rowOf := by
    rw [h.workflows]
    simp only [OrderedMap.values, OrderedMap.mapValues, List.map_map, active, List.filter_map]
    rfl
  rw [hrows] at hperm
  -- the listing is the rows of the active entries in some order
  have hforall : List.Forall₂ (fun row entry => row = rowOf entry) (active.map rowOf) active := by
    rw [List.forall₂_map_left_iff]
    exact List.forall₂_same.mpr fun _ _ => rfl
  obtain ⟨order, hlisting, horder⟩ := List.perm_comp_forall₂ hperm hforall
  have hmap : listing = order.map rowOf := by
    clear hperm hsorted hrows horder hforall
    induction hlisting with
    | nil => rfl
    | cons hrow _ ih => rw [hrow, ih, List.map_cons]
  have hreadable : ∀ entry ∈ order, Readable entry := by
    intro entry hentry
    obtain ⟨hvalue, -⟩ := List.mem_filter.mp (horder.mem_iff.mp hentry)
    obtain ⟨⟨taskId, entry'⟩, hmem, rfl⟩ := List.mem_map.mp hvalue
    exact h.readable taskId entry' ((OrderedMap.mem_entries_iff _ _ _).mp hmem)
  have hrecords : active.map (·.record) =
      (memory.entries.values.map (·.record)).filter fun record => !record.state.isTerminal := by
    simp only [active, List.filter_map]
    rfl
  have hsame : order.map (·.record) = memory.listRecoverableWorkflows := by
    have hperm' : (order.map (·.record)).Perm memory.listRecoverableWorkflows := by
      refine (horder.map _).trans ?_
      rw [hrecords]
      exact (List.mergeSort_perm _ _).symm
    refine eq_of_perm_of_sorted (fun record => record.createdAt) hperm' ?_ ?_ ?_
    · rw [(hperm'.map _).nodup_iff]
      exact ((List.mergeSort_perm _ _).map _).nodup_iff.mpr hdistinct
    · rw [hmap, List.pairwise_map] at hsorted
      rw [List.pairwise_map]
      exact hsorted
    · have hmerge : memory.listRecoverableWorkflows.Pairwise fun a b =>
          decide (a.createdAt ≤ b.createdAt) = true :=
        List.pairwise_mergeSort (fun a b c => by simp; omega) (fun a b => by simp; omega) _
      exact hmerge.imp of_decide_eq_true
  unfold SqliteWorkflowStore.listRecoverableWorkflows
  rw [hmap, mapM_rowToRecord hreadable, hsame]
  rfl

/-! ## The purge -/

theorem Mirrors.forget (h : Mirrors memory sqlite) (taskId : String) :
    Mirrors (memory.forget taskId) (sqlite.deleteWorkflow taskId).2 := by
  refine ⟨?_, ?_, fun task entry hentry => ?_⟩
  · show sqlite.workflows.delete taskId = (memory.entries.delete taskId).mapValues rowOf
    unfold OrderedMap.delete
    rw [OrderedMap.mapValues_filter memory.entries rowOf fun k => decide (k ≠ taskId),
      ← h.workflows]
  · simp only [SqliteWorkflowStore.deleteWorkflow, MemoryWorkflowStore.forget, h.aliases]
  · have hold : (memory.entries.delete taskId).get? task = some entry := hentry
    rw [OrderedMap.get?_delete] at hold
    split at hold
    · cases hold
    · exact h.readable task entry hold

/-- The two loops remove the same Tasks, one by one. -/
theorem purgeRows_agrees (retentionMs : JsNumber) (entries : List (String × MemoryEntry Json)) :
    ∀ (purged : Nat) {memory : MemoryWorkflowStore Json} {sqlite : SqliteWorkflowStore},
      Mirrors memory sqlite → (entries.map Prod.fst).Nodup →
      (∀ e ∈ entries, memory.entries.has e.1 = true) →
      (∀ e ∈ entries, Readable e.2 ∧ e.2.record.taskId = e.1) →
      (MemoryWorkflowStore.purgeEntries (jsonRuntime dateParse) now retentionMs purged memory
          entries).1 =
        (SqliteWorkflowStore.purgeRows now dateParse retentionMs purged sqlite
          ((entries.map fun e => (e.1, rowOf e.2)).filter fun e => e.2.state.isTerminal)).1 ∧
      Mirrors (MemoryWorkflowStore.purgeEntries (jsonRuntime dateParse) now retentionMs purged
          memory entries).2
        (SqliteWorkflowStore.purgeRows now dateParse retentionMs purged sqlite
          ((entries.map fun e => (e.1, rowOf e.2)).filter fun e => e.2.state.isTerminal)).2 := by
  induction entries with
  | nil =>
    intro purged memory sqlite h _ _ _
    exact ⟨rfl, h⟩
  | cons e rest ih =>
    intro purged memory sqlite h hnodup hhas hread
    obtain ⟨taskId, entry⟩ := e
    obtain ⟨⟨hentry, htask⟩, hreads⟩ := List.forall_mem_cons.mp hread
    dsimp only at hentry htask
    obtain ⟨hwhole, hexpires⟩ : readText taskId = taskId ∧
        readText entry.record.expiresAt = entry.record.expiresAt := by
      have htexts := hentry.2.1
      simp only [textsOf, List.forall_mem_cons, Whole] at htexts
      rw [htask] at htexts
      exact ⟨htexts.1, htexts.2.2.2.2.2.1⟩
    obtain ⟨hfresh, hrest⟩ := List.nodup_cons.mp hnodup
    obtain ⟨hthere, hothers⟩ := List.forall_mem_cons.mp hhas
    have hstate : (rowOf entry).state = entry.record.state := rfl
    have hover : MemoryWorkflowStore.isExpired (jsonRuntime dateParse) now retentionMs
        entry.record = (entry.record.state.isTerminal &&
          SqliteWorkflowStore.isOver now dateParse retentionMs (rowOf entry)) := by
      unfold MemoryWorkflowStore.isExpired SqliteWorkflowStore.isOver
      rw [show (rowOf entry).expiresAt = entry.record.expiresAt from rfl, hexpires]
      rfl
    rw [List.map_cons, List.filter_cons]
    simp only [MemoryWorkflowStore.purgeEntries, hover, hstate]
    cases hterminal : entry.record.state.isTerminal with
    | false =>
      simp only [Bool.false_and, Bool.false_eq_true, ↓reduceIte]
      exact ih purged h hrest hothers hreads
    | true =>
      simp only [Bool.true_and, ↓reduceIte, SqliteWorkflowStore.purgeRows]
      cases hisover : SqliteWorkflowStore.isOver now dateParse retentionMs (rowOf entry) with
      | false =>
        simp only [Bool.false_eq_true, ↓reduceIte]
        exact ih purged h hrest hothers hreads
      | true =>
        have hchanges : (sqlite.deleteWorkflow taskId).1 = 1 := by
          simp [SqliteWorkflowStore.deleteWorkflow, h.has, hthere]
        simp only [↓reduceIte, hwhole, hchanges]
        refine ih (purged + 1) (h.forget taskId) hrest (fun e he => ?_) hreads
        have hne : taskId ≠ e.1 := by
          intro heq
          rw [heq] at hfresh
          exact hfresh (List.mem_map.mpr ⟨e, he, rfl⟩)
        show (memory.entries.delete taskId).has e.1 = true
        rw [OrderedMap.has, OrderedMap.get?_delete, if_neg hne]
        exact hothers e he

theorem purgeExpiredResults_agrees (h : Refines memory sqlite) (retentionMs : Option JsNumber) :
    Agrees (memory.purgeExpiredResults (jsonRuntime dateParse) now retentionMs)
      (sqlite.purgeExpiredResults now dateParse retentionMs) := by
  have hretention : retentionMs.getD (.finite (24 * 60 * 60 * 1000)) =
      retentionMs.getD MemoryWorkflowStore.DEFAULT_RETENTION_MS := by
    congr 1
    norm_num [MemoryWorkflowStore.DEFAULT_RETENTION_MS]
  have hhas : ∀ e ∈ memory.entries.entries, memory.entries.has e.1 = true := by
    rintro ⟨task, entry⟩ hmem
    exact (OrderedMap.has_iff _ _).mpr ⟨entry, (OrderedMap.mem_entries_iff _ _ _).mp hmem⟩
  have hread : ∀ e ∈ memory.entries.entries, Readable e.2 ∧ e.2.record.taskId = e.1 := by
    rintro ⟨task, entry⟩ hmem
    have hentry := (OrderedMap.mem_entries_iff _ _ _).mp hmem
    exact ⟨h.readable task entry hentry, h.consistent.task task entry hentry⟩
  have hrows : sqlite.workflows.entries = memory.entries.entries.map fun e => (e.1, rowOf e.2) := by
    rw [h.workflows]
    rfl
  obtain ⟨hcount, hmirrors⟩ := purgeRows_agrees now dateParse
    (retentionMs.getD MemoryWorkflowStore.DEFAULT_RETENTION_MS) memory.entries.entries 0
    h.toMirrors memory.entries.nodup hhas hread
  unfold MemoryWorkflowStore.purgeExpiredResults SqliteWorkflowStore.purgeExpiredResults
  rw [hretention, hrows]
  refine ⟨?_, hmirrors⟩
  show Returned.count _ = Returned.count _
  rw [hcount]

end

/-! ## Runs of both stores -/

/-- Both stores, the last reading of the clock, and what the calls so far came to. -/
structure Both where
  memory : MemoryWorkflowStore Json := {}
  sqlite : SqliteWorkflowStore := {}
  clock : Option Int := none
  outcomes : List (Outcome Json × Outcome Json) := []

/-- A call on both stores; `listing` is what the query of the recoverable workflows yields. -/
structure BothCall where
  call : Call Json
  listing : List Row := []

def stepBoth (dateParse : Timestamp → JsNumber) (both : Both) (e : BothCall) : Option Both :=
  if both.clock.all (· ≤ e.call.now) ∧ e.call.now ≤ e.call.later ∧
      (e.call.operation matches .listRecoverableWorkflows → both.sqlite.Yields e.listing) then
    let memory := both.memory.perform (jsonRuntime dateParse) e.call
    let sqlite := both.sqlite.perform dateParse e.call e.listing
    some ⟨memory.2, sqlite.2, some e.call.later, both.outcomes ++ [(memory.1, sqlite.1)]⟩
  else none

/-- A claim that is granted expires at a date. -/
def claimHasDate (memory : MemoryWorkflowStore Json) (call : Call Json) : Bool :=
  match call.operation with
  | .claimWorkflow taskId workerId leaseMs => (memory.entries.get? taskId).all fun entry =>
      entry.record.state.isTerminal || isHeld call.now workerId entry ||
        ((JsNumber.ofInt call.now).add leaseMs).toISOString.isSome
  | _ => true

/-- JSON values that fit the columns, dates that exist, and an order that the query
determines. -/
def Settled (both : Both) (e : BothCall) : Prop :=
  hasJsonArguments e.call.operation = true ∧ fitsColumns e.call.operation = true ∧
    claimHasDate both.memory e.call = true ∧
    (e.call.operation matches .listRecoverableWorkflows → DistinctCreation both.memory)

instance (both : Both) (e : BothCall) : Decidable (Settled both e) :=
  inferInstanceAs (Decidable (_ ∧ _ ∧ _ ∧ (_ → _)))

section

variable {memory : MemoryWorkflowStore Json} {sqlite : SqliteWorkflowStore}

/-- **One call.** -/
theorem perform_agrees (dateParse : Timestamp → JsNumber) {call : Call Json} {listing : List Row}
    (h : Refines memory sqlite) (hjson : hasJsonArguments call.operation = true)
    (hfits : fitsColumns call.operation = true)
    (hdate : claimHasDate memory call = true)
    (hlisting : call.operation matches .listRecoverableWorkflows →
      sqlite.Yields listing ∧ DistinctCreation memory) :
    Agrees (memory.perform (jsonRuntime dateParse) call)
      (sqlite.perform dateParse call listing) := by
  obtain ⟨now, later, operation⟩ := call
  unfold MemoryWorkflowStore.perform SqliteWorkflowStore.perform
  cases operation with
  | createWorkflow input => exact createWorkflow_agrees now dateParse h hjson hfits
  | getWorkflow taskId =>
    refine ⟨?_, h.toMirrors⟩
    simp only [h.getWorkflow, Except.map]
    rfl
  | getWorkflowByActionId actionId =>
    refine ⟨?_, h.toMirrors⟩
    simp only [h.getWorkflowByActionId, Except.map]
    rfl
  | replaceAction taskId input =>
    obtain ⟨hpackage, hrequirements⟩ := Bool.and_eq_true_iff.mp hjson
    exact replaceAction_agrees now dateParse h hpackage hrequirements hfits
  | compareAndSetState taskId source target => exact compareAndSetState_agrees now h
  | claimWorkflow taskId workerId leaseMs =>
    refine claimWorkflow_agrees now h (of_decide_eq_true hfits) fun entry hentry hactive hfree => ?_
    simpa [claimHasDate, hentry, hactive, hfree] using hdate
  | saveCoordinationReference taskId value =>
    exact mutate_agrees now dateParse h (fun entry _ => by rw [toJson_eq hjson]; rfl)
      (fun _ => rfl) fun _ hentry => hentry
  | saveCompletedPackage taskId value =>
    exact mutate_agrees now dateParse h (fun entry _ => by rw [toJson_eq hjson]; rfl)
      (fun _ => rfl) fun _ hentry => hentry
  | saveAuthorizationRequirements taskId value =>
    exact mutate_agrees now dateParse h (fun entry _ => by rw [toJson_eq hjson]; rfl)
      (fun _ => rfl) fun _ hentry => hentry
  | saveLastActionResponse taskId value =>
    exact mutate_agrees now dateParse h (fun entry _ => by rw [toJson_eq hjson]; rfl)
      (fun _ => rfl) fun _ hentry => hentry
  | saveAdapterAttempt taskId value =>
    exact saveAdapterAttempt_agrees now dateParse h hjson (of_decide_eq_true hfits)
  | resolveWorkflow taskId resolution => exact resolveWorkflow_agrees now dateParse h hjson
  | cancelWorkflow taskId => exact cancelWorkflow_agrees now h
  | listRecoverableWorkflows =>
    obtain ⟨hyields, hdistinct⟩ := hlisting rfl
    refine ⟨?_, h.toMirrors⟩
    simp only [listRecoverable_agrees h hdistinct hyields]
    rfl
  | purgeExpiredResults retentionMs => exact purgeExpiredResults_agrees now dateParse h retentionMs

end

/-- The stores mirror each other, and so did all outcomes. -/
structure InStep (both : Both) : Prop where
  refines : Refines both.memory both.sqlite
  outcomes : ∀ o ∈ both.outcomes, SameOutcome o.1 o.2

theorem step_inStep {dateParse : Timestamp → JsNumber} {both both' : Both} {e : BothCall}
    (h : InStep both) (hsettled : Settled both e) (hstep : stepBoth dateParse both e = some both') :
    InStep both' := by
  obtain ⟨hjson, hfits, hdate, hdistinct⟩ := hsettled
  simp only [stepBoth, Option.ite_none_right_eq_some, Option.some.injEq] at hstep
  obtain ⟨⟨-, -, hyields⟩, rfl⟩ := hstep
  obtain ⟨hsame, hmirrors⟩ := perform_agrees dateParse h.refines hjson hfits hdate fun hlist =>
    ⟨hyields hlist, hdistinct hlist⟩
  have hconsistent :=
    (perform_effect (jsonRuntime dateParse) both.memory e.call).consistent h.refines.consistent
  refine ⟨⟨hmirrors, hconsistent⟩, fun o ho => ?_⟩
  rcases List.mem_append.mp ho with hold | hnew
  · exact h.outcomes o hold
  · rw [List.mem_singleton.mp hnew]
    exact hsame

theorem inStep_empty : InStep {} := by
  refine ⟨⟨⟨rfl, rfl, ?_⟩, consistent_empty⟩, ?_⟩
  · intro taskId entry hentry
    cases hentry
  · intro o ho
    cases ho

/-- **The SQLite store refines the reference.** -/
theorem sqlite_refines (dateParse : Timestamp → JsNumber) (calls : List BothCall) (both : Both)
    (h : Machine.Run (stepBoth dateParse) Settled {} calls both) :
    (∀ o ∈ both.outcomes, SameOutcome o.1 o.2) ∧
      (∀ taskId, both.sqlite.getWorkflow taskId = .ok (both.memory.getWorkflow taskId)) ∧
      ∀ actionId, both.sqlite.aliases.get? actionId = both.memory.actionTasks.get? actionId := by
  have hin : InStep both :=
    h.invariant (fun _ _ _ hs hc hstep => step_inStep hs hc hstep) inStep_empty
  exact ⟨hin.outcomes, hin.refines.getWorkflow, fun actionId => by rw [hin.refines.aliases]⟩

/-! ## Two workflows -/

section

def releaseTask : CreateWorkflowInput Json :=
  { mergeTask with
    taskId := "urn:uuid:bbbbbbbb-bbbb-4bbb-8bbb-bbbbbbbbbbbb"
    actionId := "urn:uuid:22222222-2222-4222-8222-222222222222" }

/-- The rows that are not terminal after the calls, in the order of the table. -/
def rowsAfter (calls : List BothCall) : List Row :=
  match Machine.exec (stepBoth parseExpiry) {} calls with
  | some both => both.sqlite.workflows.values.filter fun row => !row.state.isTerminal
  | none => []

def createCalls : List BothCall :=
  [⟨callAt 1785088800000 (.createWorkflow mergeTask), []⟩,
    ⟨callAt 1785088800001 (.createWorkflow releaseTask), []⟩,
    ⟨callAt 1785088800001 (.claimWorkflow mergeTask.taskId "worker-a" (.finite 3600000)), []⟩,
    ⟨callAt 1785088800002 (.claimWorkflow mergeTask.taskId "worker-b" (.finite 3600000)), []⟩,
    ⟨callAt 1785088800003 (.createWorkflow { releaseTask with taskId := "urn:uuid:cc" }), []⟩,
    ⟨callAt 1785088800004 (.saveAdapterAttempt mergeTask.taskId (.str "networkError")), []⟩]

/-- The stores list, settle and purge what they created. -/
def settleCalls : List BothCall :=
  [⟨callAt 1785088800005 .listRecoverableWorkflows, rowsAfter createCalls⟩,
    ⟨callAt 1785088800006 (.cancelWorkflow mergeTask.taskId), []⟩,
    ⟨callAt 1893456000001 (.purgeExpiredResults none), []⟩]

theorem sqlite_refines_two : ∃ both,
    Machine.Run (stepBoth parseExpiry) Settled {} (createCalls ++ settleCalls) both ∧
      both.outcomes.length = 9 ∧ (both.sqlite.aliases.keys = [releaseTask.actionId]) ∧
      (∀ o ∈ both.outcomes, SameOutcome o.1 o.2) ∧
      (∀ taskId, both.sqlite.getWorkflow taskId = .ok (both.memory.getWorkflow taskId)) ∧
      ∀ actionId, both.sqlite.aliases.get? actionId = both.memory.actionTasks.get? actionId := by
  obtain ⟨both, hrun, hlength, hkeys⟩ : ∃ both,
      Machine.Run (stepBoth parseExpiry) (fun both e => decide (Settled both e) = true) {}
        (createCalls ++ settleCalls) both ∧ both.outcomes.length = 9 ∧
        both.sqlite.aliases.keys = [releaseTask.actionId] :=
    Machine.run_of_checked_any (by decide +kernel)
  have hsettled := hrun.weaken fun _ _ => of_decide_eq_true
  exact ⟨both, hsettled, hlength, hkeys, sqlite_refines parseExpiry _ both hsettled⟩

/-- The reference throws where SQLite grants a claim, and SQLite cannot read it back. -/
theorem endless_claim_differs : ∃ both,
    Machine.Run (stepBoth parseExpiry) Machine.Free {}
      [⟨callAt 1785088800000 (.createWorkflow mergeTask), []⟩, ⟨endlessClaim, []⟩] both ∧
      ¬(∀ o ∈ both.outcomes, SameOutcome o.1 o.2) ∧
      both.sqlite.getWorkflow mergeTask.taskId = .error .invalidTimeValue ∧
      (both.memory.getWorkflow mergeTask.taskId).isSome = true :=
  Machine.run_of_exec_any (by decide +kernel)

end

end Mpas.SqliteStore
