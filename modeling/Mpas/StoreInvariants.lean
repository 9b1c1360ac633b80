import Mpas.Library.Machine
import Mpas.StoreContract

/-!
# The invariants of the workflow store

What one operation does to the store is one of five effects, and every law of
the store over a whole run comes from what the effects keep.

* `perform_effect`: the effect of an operation, also of one that throws;
* `Consistent`: Task IDs and Action IDs name each other;
* `store_contract`: what holds in every state of every run, and what an
  operation that throws leaves.
-/

namespace Mpas.StoreContract

open WorkflowStore (BridgeWorkflowState)
open MemoryWorkflowStore (isHeld)

variable {V : Type} {runtime : Runtime V}

/-! ## Effects -/

/-- The claim of an entry: it stays, or the call takes it from a worker whose lease is over. -/
inductive ClaimMove (call : Call V) (taskId : String) (entry entry' : MemoryEntry V) : Prop
  | stays : entry'.record.claimedBy = entry.record.claimedBy →
      entry'.claimExpiresMs = entry.claimExpiresMs → ClaimMove call taskId entry entry'
  | taken (workerId : String) (leaseMs : JsNumber) :
      call.operation = .claimWorkflow taskId workerId leaseMs →
      isHeld call.now workerId entry = false →
      entry'.record.claimedBy = some workerId →
      entry'.claimExpiresMs = some ((JsNumber.ofInt call.now).add leaseMs) →
      ClaimMove call taskId entry entry'

/-- How a call may rewrite the entry of a Task. -/
structure Rewrites (call : Call V) (taskId : String) (entry entry' : MemoryEntry V) : Prop where
  sameTask : entry'.record.taskId = entry.record.taskId
  terminal : entry.record.state.isTerminal = true →
    entry'.record.state = entry.record.state ∧
      entry'.record.resolution = entry.record.resolution ∧
      entry'.record.resolvedAt = entry.record.resolvedAt
  claim : ClaimMove call taskId entry entry'

/-- What a call may do to a store. -/
inductive Effect (call : Call V) (store : MemoryWorkflowStore V) : MemoryWorkflowStore V → Prop
  | unchanged : Effect call store store
  | created (record : WorkflowRecord V) :
      store.entries.get? record.taskId = none → store.actionTasks.get? record.actionId = none →
      record.actionId ≠ record.taskId →
      Effect call store {
        entries := store.entries.set record.taskId { record }
        actionTasks := store.actionTasks.set record.actionId record.taskId }
  | rewritten {taskId : String} {entry : MemoryEntry V} (entry' : MemoryEntry V) :
      store.entries.get? taskId = some entry → Rewrites call taskId entry entry' →
      entry'.record.actionId = entry.record.actionId →
      Effect call store { store with entries := store.entries.set taskId entry' }
  | replaced {taskId : String} {entry : MemoryEntry V} (entry' : MemoryEntry V) :
      store.entries.get? taskId = some entry → Rewrites call taskId entry entry' →
      store.actionTasks.get? entry'.record.actionId = none →
      entry'.record.actionId ≠ taskId →
      Effect call store {
        entries := store.entries.set taskId entry'
        actionTasks := store.actionTasks.set entry'.record.actionId taskId }
  | purged (gone : String → Bool) :
      (∀ taskId entry, store.entries.get? taskId = some entry → gone taskId = true →
        entry.record.state.isTerminal = true) →
      Effect call store {
        entries := store.entries.filter fun taskId _ => !gone taskId
        actionTasks := store.actionTasks.filter fun _ taskId => !gone taskId }

section

variable (store : MemoryWorkflowStore V) (call : Call V)

theorem get?_none_of_has {κ ν : Type*} [DecidableEq κ] {m : OrderedMap κ ν} {k : κ}
    (h : ¬m.has k = true) : m.get? k = none := by
  simpa [OrderedMap.has] using h

theorem createWorkflow_effect (input : CreateWorkflowInput V) :
    Effect call store (store.createWorkflow runtime call.now input).2 := by
  unfold MemoryWorkflowStore.createWorkflow
  split
  · exact .unchanged
  split
  · exact .unchanged
  split
  · exact .unchanged
  rename_i hdistinct htask haction
  split
  · exact .unchanged
  · refine .created (MemoryWorkflowStore.createdRecord call.now input _) ?_ ?_ ?_
    · exact get?_none_of_has htask
    · exact get?_none_of_has haction
    · exact Ne.symm hdistinct

theorem replaceAction_effect (taskId : String) (input : ReplaceWorkflowActionInput V) :
    Effect call store (store.replaceAction runtime call.now taskId input).2 := by
  unfold MemoryWorkflowStore.replaceAction
  split
  · exact .unchanged
  split
  · exact .unchanged
  rename_i hdistinct _ entry hentry
  split
  · exact .unchanged
  split
  · exact .unchanged
  rename_i hstate haction
  split
  · refine .replaced _ hentry ⟨rfl, fun hterminal => ?_, .stays rfl rfl⟩
      (get?_none_of_has haction) (Ne.symm hdistinct)
    -- an Action is replaced in two states, and neither is terminal
    rw [not_not.mp hstate] at hterminal
    cases hfrom : input.fromState <;> rw [hfrom] at hterminal <;> cases hterminal
  · exact .unchanged

theorem compareAndSetState_effect (taskId : String) (source target : BridgeWorkflowState) :
    Effect call store (store.compareAndSetState call.now taskId source target).2 := by
  unfold MemoryWorkflowStore.compareAndSetState
  split
  · exact .unchanged
  split
  · exact .unchanged
  rename_i hactive _ entry hentry
  split
  · exact .unchanged
  rename_i hstate
  refine .rewritten _ hentry ⟨rfl, fun hterminal => ?_, .stays rfl rfl⟩ rfl
  rw [not_not.mp hstate] at hterminal
  simp [hterminal] at hactive

theorem claimWorkflow_effect {taskId workerId : String} {leaseMs : JsNumber}
    (hcall : call.operation = .claimWorkflow taskId workerId leaseMs) :
    Effect call store (store.claimWorkflow call.now call.later taskId workerId leaseMs).2 := by
  unfold MemoryWorkflowStore.claimWorkflow
  split
  · exact .unchanged
  rename_i entry hentry
  split
  · exact .unchanged
  split
  · exact .unchanged
  rename_i hactive hheld
  have hfree : isHeld call.now workerId entry = false := by simpa using hheld
  dsimp only
  split
  · exact .rewritten _ hentry ⟨rfl, fun _ => ⟨rfl, rfl, rfl⟩, .taken _ _ hcall hfree rfl rfl⟩ rfl
  · exact .rewritten _ hentry ⟨rfl, fun _ => ⟨rfl, rfl, rfl⟩, .taken _ _ hcall hfree rfl rfl⟩ rfl

/-- A rewriting that is none of identifiers, claims or outcomes. -/
structure Touches (record record' : WorkflowRecord V) : Prop where
  taskId : record'.taskId = record.taskId
  actionId : record'.actionId = record.actionId
  state : record'.state = record.state
  resolution : record'.resolution = record.resolution
  resolvedAt : record'.resolvedAt = record.resolvedAt
  claimedBy : record'.claimedBy = record.claimedBy

theorem mutate_effect (taskId : String) (value : V)
    {apply : V → WorkflowRecord V → WorkflowRecord V}
    (happly : ∀ v record, Touches record (apply v record)) :
    Effect call store (store.mutate runtime call.now taskId value apply).2 := by
  unfold MemoryWorkflowStore.mutate
  split
  · exact .unchanged
  rename_i entry hentry
  split
  · exact .unchanged
  · rename_i v _
    obtain ⟨htask, haction, hstate, hresolution, hresolved, hclaimed⟩ := happly v entry.record
    exact .rewritten _ hentry
      ⟨htask, fun _ => ⟨hstate, hresolution, hresolved⟩, .stays hclaimed rfl⟩ haction

theorem resolveWorkflow_effect (taskId : String) (resolution : WorkflowResolution V) :
    Effect call store (store.resolveWorkflow runtime call.now taskId resolution).2 := by
  unfold MemoryWorkflowStore.resolveWorkflow
  split
  · exact .unchanged
  rename_i entry hentry
  split
  · exact .unchanged
  rename_i hactive
  split
  · exact .rewritten _ hentry ⟨rfl, fun h => absurd h hactive, .stays rfl rfl⟩ rfl
  · exact .rewritten _ hentry ⟨rfl, fun h => absurd h hactive, .stays rfl rfl⟩ rfl

theorem cancelWorkflow_effect (taskId : String) :
    Effect call store (store.cancelWorkflow call.now taskId).2 := by
  unfold MemoryWorkflowStore.cancelWorkflow
  split
  · exact .unchanged
  rename_i entry hentry
  split
  · exact .unchanged
  rename_i hactive
  exact .rewritten _ hentry ⟨rfl, fun h => absurd h hactive, .stays rfl rfl⟩ rfl

end

/-! ## The purge -/

/-- The Tasks among the entries that a purge removes. -/
def expiredTasks (runtime : Runtime V) (now : Int) (retentionMs : JsNumber)
    (entries : List (String × MemoryEntry V)) : List String :=
  (entries.filter fun e => MemoryWorkflowStore.isExpired runtime now retentionMs e.2.record).map
    Prod.fst

theorem purgeEntries_eq (now : Int) (retentionMs : JsNumber)
    (entries : List (String × MemoryEntry V)) : ∀ (purged : Nat) (store : MemoryWorkflowStore V),
      MemoryWorkflowStore.purgeEntries runtime now retentionMs purged store entries =
        (purged + (expiredTasks runtime now retentionMs entries).length,
          { entries := store.entries.filter fun taskId _ =>
              !decide (taskId ∈ expiredTasks runtime now retentionMs entries)
            actionTasks := store.actionTasks.filter fun _ taskId =>
              !decide (taskId ∈ expiredTasks runtime now retentionMs entries) }) := by
  induction entries with
  | nil =>
    intro purged store
    simp [MemoryWorkflowStore.purgeEntries, expiredTasks, OrderedMap.filter_true]
  | cons e rest ih =>
    intro purged store
    obtain ⟨taskId, entry⟩ := e
    unfold MemoryWorkflowStore.purgeEntries
    by_cases hexpired :
        MemoryWorkflowStore.isExpired runtime now retentionMs entry.record = true
    · have htasks : expiredTasks runtime now retentionMs ((taskId, entry) :: rest) =
          taskId :: expiredTasks runtime now retentionMs rest := by
        simp [expiredTasks, hexpired]
      rw [if_pos hexpired, ih, htasks]
      have hlength : purged + 1 + (expiredTasks runtime now retentionMs rest).length =
          purged + (taskId :: expiredTasks runtime now retentionMs rest).length := by
        simp only [List.length_cons]
        omega
      simp only [MemoryWorkflowStore.forget, OrderedMap.delete, OrderedMap.filter_filter, hlength]
      simp [List.mem_cons]
    · have htasks : expiredTasks runtime now retentionMs ((taskId, entry) :: rest) =
          expiredTasks runtime now retentionMs rest := by
        simp [expiredTasks, hexpired]
      rw [if_neg hexpired, ih, htasks]

theorem purge_effect (store : MemoryWorkflowStore V) (call : Call V)
    (retentionMs : Option JsNumber) :
    Effect call store (store.purgeExpiredResults runtime call.now retentionMs).2 := by
  unfold MemoryWorkflowStore.purgeExpiredResults
  rw [purgeEntries_eq]
  refine .purged _ fun taskId entry hentry hgone => ?_
  have hmem := of_decide_eq_true hgone
  obtain ⟨⟨taskId', entry'⟩, hfiltered, heq⟩ := List.mem_map.mp hmem
  obtain ⟨hin, hexpired⟩ := List.mem_filter.mp hfiltered
  have hsame : store.entries.get? taskId = some entry' := by
    rw [← heq]
    exact (OrderedMap.mem_entries_iff _ _ _).mp hin
  rw [hentry] at hsame
  cases hsame
  exact (Bool.and_eq_true_iff.mp hexpired).1

/-- **Effects.** -/
theorem perform_effect (runtime : Runtime V) (store : MemoryWorkflowStore V) (call : Call V) :
    Effect call store (store.perform runtime call).2 := by
  unfold MemoryWorkflowStore.perform
  split
  · exact createWorkflow_effect store call _
  · exact .unchanged
  · exact .unchanged
  · exact replaceAction_effect store call _ _
  · exact compareAndSetState_effect store call _ _ _
  · rename_i hcall
    exact claimWorkflow_effect store call hcall
  · exact mutate_effect store call _ _ fun _ _ => ⟨rfl, rfl, rfl, rfl, rfl, rfl⟩
  · exact mutate_effect store call _ _ fun _ _ => ⟨rfl, rfl, rfl, rfl, rfl, rfl⟩
  · exact mutate_effect store call _ _ fun _ _ => ⟨rfl, rfl, rfl, rfl, rfl, rfl⟩
  · exact mutate_effect store call _ _ fun _ _ => ⟨rfl, rfl, rfl, rfl, rfl, rfl⟩
  · exact mutate_effect store call _ _ fun _ _ => ⟨rfl, rfl, rfl, rfl, rfl, rfl⟩
  · exact resolveWorkflow_effect store call _ _
  · exact cancelWorkflow_effect store call _
  · exact .unchanged
  · exact purge_effect store call _

/-! ## Identifiers -/

/-- Task IDs and Action IDs, current or retired, name each other. -/
structure Consistent (store : MemoryWorkflowStore V) : Prop where
  task : ∀ taskId entry, store.entries.get? taskId = some entry → entry.record.taskId = taskId
  current : ∀ taskId entry, store.entries.get? taskId = some entry →
    store.actionTasks.get? entry.record.actionId = some taskId
  existing : ∀ actionId taskId, store.actionTasks.get? actionId = some taskId →
    ∃ entry, store.entries.get? taskId = some entry
  distinct : ∀ actionId taskId, store.actionTasks.get? actionId = some taskId → actionId ≠ taskId

variable {call : Call V} {store store' : MemoryWorkflowStore V}

theorem consistent_empty : Consistent ({} : MemoryWorkflowStore V) := by
  constructor <;> intros <;> simp_all

/-- A Task gets an entry, and the Action ID of the entry names the Task. -/
theorem Consistent.write {taskId : String} {entry : MemoryEntry V} (h : Consistent store)
    (hentries : ∀ task, store'.entries.get? task =
      if taskId = task then some entry else store.entries.get? task)
    (htasks : ∀ actionId, store'.actionTasks.get? actionId =
      if entry.record.actionId = actionId then some taskId else store.actionTasks.get? actionId)
    (htask : entry.record.taskId = taskId) (hne : entry.record.actionId ≠ taskId)
    (hfree : ∀ task, store.actionTasks.get? entry.record.actionId = some task → task = taskId) :
    Consistent store' := by
  constructor
  · intro task e he
    rw [hentries] at he
    split at he
    · rename_i heq
      cases he
      rw [htask, heq]
    · exact h.task task e he
  · intro task e he
    rw [hentries] at he
    rw [htasks]
    split at he
    · rename_i heq
      cases he
      rw [if_pos rfl, heq]
    · rename_i hother
      have hcurrent := h.current task e he
      split
      · rename_i hids
        rw [← hids] at hcurrent
        exact absurd (hfree task hcurrent).symm hother
      · exact hcurrent
  · intro action task hmap
    rw [htasks] at hmap
    rw [hentries]
    split
    · exact ⟨entry, rfl⟩
    · rename_i hother
      split at hmap
      · cases hmap
        exact absurd rfl hother
      · exact h.existing action task hmap
  · intro action task hmap
    rw [htasks] at hmap
    split at hmap
    · rename_i heq
      cases hmap
      rw [← heq]
      exact hne
    · exact h.distinct action task hmap

theorem Effect.consistent (heffect : Effect call store store') (h : Consistent store) :
    Consistent store' := by
  cases heffect with
  | unchanged => exact h
  | created record htask haction hne =>
    refine h.write (OrderedMap.get?_set _ _ · _) (OrderedMap.get?_set _ _ · _) rfl hne ?_
    intro task hmap
    rw [haction] at hmap
    cases hmap
  | @rewritten taskId entry entry' hentry hrewrites hid =>
    have hcurrent := h.current taskId entry hentry
    rw [← hid] at hcurrent
    have htask : entry'.record.taskId = taskId := by
      rw [hrewrites.sameTask]
      exact h.task taskId entry hentry
    refine h.write (OrderedMap.get?_set _ _ · _) ?_ htask (h.distinct _ _ hcurrent) ?_
    · intro actionId
      split
      · rename_i heq
        rw [← heq]
        exact hcurrent
      · rfl
    · intro task hmap
      rw [hcurrent] at hmap
      cases hmap
      rfl
  | @replaced taskId entry entry' hentry hrewrites haction hne =>
    have htask : entry'.record.taskId = taskId := by
      rw [hrewrites.sameTask]
      exact h.task taskId entry hentry
    refine h.write (OrderedMap.get?_set _ _ · _) (OrderedMap.get?_set _ _ · _) htask hne ?_
    intro task hmap
    rw [haction] at hmap
    cases hmap
  | purged gone hgone =>
    have hentries : ∀ task entry, (store.entries.filter fun t _ => !gone t).get? task = some entry →
        store.entries.get? task = some entry ∧ gone task = false := by
      intro task entry he
      simpa [Option.filter_eq_some_iff] using he
    have htasks : ∀ action task, (store.actionTasks.filter fun _ t => !gone t).get? action =
        some task ↔ store.actionTasks.get? action = some task ∧ gone task = false := by
      intro action task
      simp [Option.filter_eq_some_iff]
    constructor
    · intro task entry he
      exact h.task task entry (hentries task entry he).1
    · intro task entry he
      obtain ⟨hold, hkept⟩ := hentries task entry he
      exact (htasks _ _).mpr ⟨h.current task entry hold, hkept⟩
    · intro action task hmap
      obtain ⟨hold, hkept⟩ := (htasks _ _).mp hmap
      obtain ⟨entry, hentry⟩ := h.existing action task hold
      exact ⟨entry, by simp [hentry, hkept, Option.filter]⟩
    · intro action task hmap
      exact h.distinct action task ((htasks _ _).mp hmap).1

/-! ## What a call leaves of a workflow -/

theorem Rewrites.refl (taskId : String) (entry : MemoryEntry V) :
    Rewrites call taskId entry entry :=
  ⟨rfl, fun _ => ⟨rfl, rfl, rfl⟩, .stays rfl rfl⟩

/-- A workflow is rewritten or purged, and it is purged only once it is terminal. -/
theorem Effect.entry (heffect : Effect call store store') {taskId : String}
    {entry : MemoryEntry V} (hentry : store.entries.get? taskId = some entry) :
    (∃ entry', store'.entries.get? taskId = some entry' ∧ Rewrites call taskId entry entry') ∨
      store'.entries.get? taskId = none ∧ entry.record.state.isTerminal = true := by
  cases heffect with
  | unchanged => exact Or.inl ⟨entry, hentry, .refl _ _⟩
  | created record htask _ _ =>
    have hne : record.taskId ≠ taskId := by
      rintro rfl
      rw [htask] at hentry
      cases hentry
    exact Or.inl ⟨entry, by rw [OrderedMap.get?_set_ne _ _ hne, hentry], .refl _ _⟩
  | @rewritten task old entry' hold hrewrites _ =>
    by_cases hsame : task = taskId
    · subst hsame
      rw [hold] at hentry
      cases hentry
      exact Or.inl ⟨entry', OrderedMap.get?_set_self _ _ _, hrewrites⟩
    · exact Or.inl ⟨entry, by rw [OrderedMap.get?_set_ne _ _ hsame, hentry], .refl _ _⟩
  | @replaced task old entry' hold hrewrites _ _ =>
    by_cases hsame : task = taskId
    · subst hsame
      rw [hold] at hentry
      cases hentry
      exact Or.inl ⟨entry', OrderedMap.get?_set_self _ _ _, hrewrites⟩
    · exact Or.inl ⟨entry, by rw [OrderedMap.get?_set_ne _ _ hsame, hentry], .refl _ _⟩
  | purged gone hgone =>
    by_cases hg : gone taskId = true
    · exact Or.inr ⟨by simp [hentry, hg, Option.filter], hgone taskId entry hentry hg⟩
    · exact Or.inl ⟨entry, by simp [hentry, hg, Option.filter], .refl _ _⟩

/-- While a workflow is kept, its Action IDs keep naming it. -/
theorem Effect.alias (heffect : Effect call store store') {actionId taskId : String}
    (hmap : store.actionTasks.get? actionId = some taskId)
    (hkept : store'.entries.has taskId = true) :
    store'.actionTasks.get? actionId = some taskId := by
  cases heffect with
  | unchanged => exact hmap
  | created record _ haction _ =>
    have hne : record.actionId ≠ actionId := by
      rintro rfl
      rw [haction] at hmap
      cases hmap
    exact (OrderedMap.get?_set_ne _ _ hne).trans hmap
  | rewritten entry' _ _ _ => exact hmap
  | replaced entry' _ _ haction _ =>
    have hne : entry'.record.actionId ≠ actionId := by
      rintro rfl
      rw [haction] at hmap
      cases hmap
    exact (OrderedMap.get?_set_ne _ _ hne).trans hmap
  | purged gone _ =>
    have hstays : gone taskId = false := by
      by_contra hg
      simp [OrderedMap.has, Option.filter] at hkept
      cases hget : store.entries.get? taskId <;> simp_all
    simp [hmap, hstays, Option.filter]

/-! ## Claims -/

/-- The worker holds a claim on the workflow that has not expired at `moment`. -/
def HoldsClaim (moment : Int) (store : MemoryWorkflowStore V) (taskId workerId : String) : Prop :=
  ∃ entry, store.entries.get? taskId = some entry ∧ entry.record.claimedBy = some workerId ∧
    (JsNumber.ofInt moment).lt (entry.claimExpiresMs.getD (.finite 0)) = true

theorem HoldsClaim.unique {moment : Int} {taskId workerId workerId' : String}
    (h : HoldsClaim moment store taskId workerId) (h' : HoldsClaim moment store taskId workerId') :
    workerId = workerId' := by
  obtain ⟨entry, hentry, hclaimed, -⟩ := h
  obtain ⟨entry', hentry', hclaimed', -⟩ := h'
  rw [hentry] at hentry'
  cases hentry'
  rw [hclaimed] at hclaimed'
  exact Option.some.inj hclaimed'

theorem ofInt_lt_of_le {a b : Int} (hab : a ≤ b) {x : JsNumber}
    (h : (JsNumber.ofInt b).lt x = true) : (JsNumber.ofInt a).lt x = true := by
  cases x with
  | finite q =>
    simp only [JsNumber.ofInt, JsNumber.lt, decide_eq_true_eq] at h ⊢
    have : (a : ℚ) ≤ b := by exact_mod_cast hab
    exact this.trans_lt h
  | infinity negative => exact h
  | nan => cases h

/-- A claim is not taken from its holder before it expires. -/
theorem HoldsClaim.kept {moment : Int} {taskId workerId : String} {entry entry' : MemoryEntry V}
    (hnow : call.now ≤ moment) (hclaimed : entry.record.claimedBy = some workerId)
    (hlive : (JsNumber.ofInt moment).lt (entry.claimExpiresMs.getD (.finite 0)) = true)
    (hquiet : ∀ leaseMs, call.operation ≠ .claimWorkflow taskId workerId leaseMs)
    (hmove : ClaimMove call taskId entry entry') :
    entry'.record.claimedBy = some workerId ∧
      (JsNumber.ofInt moment).lt (entry'.claimExpiresMs.getD (.finite 0)) = true := by
  cases hmove with
  | stays hby hexpires =>
    rw [hby, hexpires]
    exact ⟨hclaimed, hlive⟩
  | taken other leaseMs hcall hfree _ _ =>
    have hother : other ≠ workerId := by
      rintro rfl
      exact hquiet leaseMs hcall
    have hheld : isHeld call.now other entry = true := by
      simp [isHeld, hclaimed, Ne.symm hother, ofInt_lt_of_le hnow hlive]
    rw [hheld] at hfree
    cases hfree

/-- While a claim is live, another worker is refused, and nothing changes. -/
theorem HoldsClaim.refuses {now later : Int} {taskId workerId other : String}
    (h : HoldsClaim now store taskId workerId) (hother : other ≠ workerId) (leaseMs : JsNumber) :
    store.claimWorkflow now later taskId other leaseMs = (.ok (.flag false), store) := by
  obtain ⟨entry, hentry, hclaimed, hlive⟩ := h
  have hheld : isHeld now other entry = true := by
    simp [isHeld, hclaimed, Ne.symm hother, hlive]
  simp [MemoryWorkflowStore.claimWorkflow, hentry, hheld]

/-- A granted claim belongs to the worker until the lease is over. -/
theorem claimWorkflow_granted {now later : Int} {taskId workerId : String} {leaseMs : JsNumber}
    (h : (store.claimWorkflow now later taskId workerId leaseMs).1 = .ok (.flag true)) :
    ∃ entry, (store.claimWorkflow now later taskId workerId leaseMs).2.entries.get? taskId =
        some entry ∧ entry.record.claimedBy = some workerId ∧
      entry.claimExpiresMs = some ((JsNumber.ofInt now).add leaseMs) := by
  unfold MemoryWorkflowStore.claimWorkflow at h ⊢
  split at h
  · cases h
  rename_i entry hentry
  split at h
  · cases h
  rename_i hactive
  split at h
  · cases h
  rename_i hheld
  rw [if_neg hactive, if_neg hheld]
  dsimp only at h ⊢
  split at h
  · cases h
  · exact ⟨_, OrderedMap.get?_set_self _ _ _, rfl, rfl⟩

/-! ## Operations that throw -/

/-- A granted claim has an expiry that a date can hold, and a resolution that
settles a workflow has a structured clone. -/
def Intact (runtime : Runtime V) (store : MemoryWorkflowStore V) (call : Call V) : Bool :=
  match call.operation with
  | .claimWorkflow taskId workerId leaseMs => (store.entries.get? taskId).all fun entry =>
      entry.record.state.isTerminal || isHeld call.now workerId entry ||
        ((JsNumber.ofInt call.now).add leaseMs).toISOString.isSome
  | .resolveWorkflow taskId resolution => (store.entries.get? taskId).all fun entry =>
      entry.record.state.isTerminal ||
        (MemoryWorkflowStore.cloneResolution runtime resolution).isSome
  | _ => true

section

variable {error : StoreError}

theorem createWorkflow_throws {input : CreateWorkflowInput V}
    (h : (store.createWorkflow runtime call.now input).1 = .error error) :
    (store.createWorkflow runtime call.now input).2 = store := by
  unfold MemoryWorkflowStore.createWorkflow at h ⊢
  split at h
  · simp_all
  split at h
  · simp_all
  split at h
  · simp_all
  split at h
  · simp_all
  · cases h

theorem replaceAction_throws {taskId : String} {input : ReplaceWorkflowActionInput V}
    (h : (store.replaceAction runtime call.now taskId input).1 = .error error) :
    (store.replaceAction runtime call.now taskId input).2 = store := by
  unfold MemoryWorkflowStore.replaceAction at h ⊢
  split at h
  · simp_all
  rename_i hdistinct
  rw [if_neg hdistinct]
  split at h
  · simp_all
  rename_i entry hentry
  split at h
  · simp_all
  split at h
  · simp_all
  split at h
  · cases h
  · simp_all

theorem mutate_throws {taskId : String} {value : V}
    {apply : V → WorkflowRecord V → WorkflowRecord V}
    (h : (store.mutate runtime call.now taskId value apply).1 = .error error) :
    (store.mutate runtime call.now taskId value apply).2 = store := by
  unfold MemoryWorkflowStore.mutate at h ⊢
  split at h
  · cases h
  · split at h
    · rfl
    · cases h

theorem compareAndSetState_ok {taskId : String} {source target : BridgeWorkflowState} :
    (store.compareAndSetState call.now taskId source target).1 ≠ .error error := by
  unfold MemoryWorkflowStore.compareAndSetState
  split
  · simp
  split
  · simp
  split <;> simp

theorem cancelWorkflow_ok {taskId : String} :
    (store.cancelWorkflow call.now taskId).1 ≠ .error error := by
  unfold MemoryWorkflowStore.cancelWorkflow
  split
  · simp
  split <;> simp

theorem claimWorkflow_ok {taskId workerId : String} {leaseMs : JsNumber}
    (hcall : call.operation = .claimWorkflow taskId workerId leaseMs)
    (hintact : Intact runtime store call = true) :
    (store.claimWorkflow call.now call.later taskId workerId leaseMs).1 ≠ .error error := by
  simp only [Intact, hcall] at hintact
  unfold MemoryWorkflowStore.claimWorkflow
  split
  · simp
  rename_i entry hentry
  split
  · simp
  split
  · simp
  rename_i hactive hheld
  rw [hentry] at hintact
  have hdate : ((JsNumber.ofInt call.now).add leaseMs).toISOString.isSome = true := by
    simpa [hactive, hheld] using hintact
  obtain ⟨text, htext⟩ := Option.isSome_iff_exists.mp hdate
  simp [htext]

theorem resolveWorkflow_ok {taskId : String} {resolution : WorkflowResolution V}
    (hcall : call.operation = .resolveWorkflow taskId resolution)
    (hintact : Intact runtime store call = true) :
    (store.resolveWorkflow runtime call.now taskId resolution).1 ≠ .error error := by
  simp only [Intact, hcall] at hintact
  unfold MemoryWorkflowStore.resolveWorkflow
  split
  · simp
  rename_i entry hentry
  split
  · simp
  rename_i hactive
  rw [hentry] at hintact
  have hclone : (MemoryWorkflowStore.cloneResolution runtime resolution).isSome = true := by
    simpa [hactive] using hintact
  obtain ⟨cloned, hcloned⟩ := Option.isSome_iff_exists.mp hclone
  simp [hcloned]

/-- An intact operation that throws changes nothing. -/
theorem perform_throws (hintact : Intact runtime store call = true)
    (h : (store.perform runtime call).1 = .error error) :
    (store.perform runtime call).2 = store := by
  unfold MemoryWorkflowStore.perform at h ⊢
  cases hcall : call.operation with
  | createWorkflow input =>
    rw [hcall] at h
    exact createWorkflow_throws h
  | replaceAction taskId input =>
    rw [hcall] at h
    exact replaceAction_throws h
  | compareAndSetState taskId source target =>
    rw [hcall] at h
    exact absurd h compareAndSetState_ok
  | claimWorkflow taskId workerId leaseMs =>
    rw [hcall] at h
    exact absurd h (claimWorkflow_ok hcall hintact)
  | resolveWorkflow taskId resolution =>
    rw [hcall] at h
    exact absurd h (resolveWorkflow_ok hcall hintact)
  | cancelWorkflow taskId =>
    rw [hcall] at h
    exact absurd h cancelWorkflow_ok
  | saveCoordinationReference taskId ref | saveCompletedPackage taskId ref
  | saveAuthorizationRequirements taskId ref | saveLastActionResponse taskId ref
  | saveAdapterAttempt taskId ref =>
    rw [hcall] at h
    exact mutate_throws h
  | getWorkflow taskId | getWorkflowByActionId actionId | listRecoverableWorkflows => rfl
  | purgeExpiredResults retentionMs =>
    rw [hcall] at h
    cases h

end

/-! ## Runs -/

/-- The step taken, as a call on the store. -/
theorem step_eq_some {world world' : World V} (h : step runtime world call = some world') :
    world'.store = (world.store.perform runtime call).2 ∧ world'.clock = some call.later ∧
      call.now ≤ call.later ∧ ∀ clock, world.clock = some clock → clock ≤ call.now := by
  unfold step at h
  split at h
  · rename_i hclock
    cases h
    refine ⟨rfl, rfl, hclock.2, fun clock hc => ?_⟩
    simpa [hc] using hclock.1
  · cases h

/-- The workflow is there; it is not purged as long as this lasts. -/
def Exists (taskId : String) (world : World V) : Prop := world.store.entries.has taskId = true

/-- Until `moment` the workflow is there and the worker does not claim it anew. -/
def Undisturbed (taskId workerId : String) (moment : Int) (world : World V) (call : Call V) : Prop :=
  Exists taskId world ∧ call.later ≤ moment ∧
    ∀ leaseMs, call.operation ≠ .claimWorkflow taskId workerId leaseMs

/-- What every workflow keeps while it is not purged. -/
def Keeps (taskId : String) (world world' : World V) : Prop :=
  (∀ actionId, world.store.actionTasks.get? actionId = some taskId →
    world'.store.actionTasks.get? actionId = some taskId) ∧
  ∀ entry, world.store.entries.get? taskId = some entry →
    entry.record.state.isTerminal = true →
    ∃ entry', world'.store.entries.get? taskId = some entry' ∧
      entry'.record.state = entry.record.state ∧
      entry'.record.resolution = entry.record.resolution ∧
      entry'.record.resolvedAt = entry.record.resolvedAt

/-- The laws of the store, in one state of it. -/
structure Lawful (runtime : Runtime V) (world : World V) : Prop where
  identifiers : Consistent world.store
  kept : ∀ taskId calls world',
    Machine.Run (step runtime) (fun w _ => Exists taskId w) world calls world' →
    Exists taskId world' → Keeps taskId world world'
  purged : ∀ call world', step runtime world call = some world' →
    ∀ taskId entry, world.store.entries.get? taskId = some entry →
      world'.store.entries.get? taskId = none → entry.record.state.isTerminal = true
  exclusive : ∀ moment taskId workerId workerId', HoldsClaim moment world.store taskId workerId →
    HoldsClaim moment world.store taskId workerId' → workerId = workerId'
  granted : ∀ now later taskId workerId leaseMs,
    (world.store.claimWorkflow now later taskId workerId leaseMs).1 = .ok (.flag true) →
    ∃ entry, (world.store.claimWorkflow now later taskId workerId leaseMs).2.entries.get? taskId =
        some entry ∧ entry.record.claimedBy = some workerId ∧
      entry.claimExpiresMs = some ((JsNumber.ofInt now).add leaseMs)
  claimed : ∀ moment taskId workerId calls world',
    HoldsClaim moment world.store taskId workerId →
    Machine.Run (step runtime) (Undisturbed taskId workerId moment) world calls world' →
    Exists taskId world' → HoldsClaim moment world'.store taskId workerId
  refused : ∀ now later taskId workerId other leaseMs, HoldsClaim now world.store taskId workerId →
    other ≠ workerId →
    world.store.claimWorkflow now later taskId other leaseMs = (.ok (.flag false), world.store)
  thrown : ∀ call error, Intact runtime world.store call = true →
    (world.store.perform runtime call).1 = .error error →
    (world.store.perform runtime call).2 = world.store

theorem Keeps.refl (taskId : String) (world : World V) : Keeps taskId world world :=
  ⟨fun _ h => h, fun entry hentry _ => ⟨entry, hentry, rfl, rfl, rfl⟩⟩

theorem Keeps.trans {taskId : String} {a b c : World V} (h : Keeps taskId a b)
    (h' : Keeps taskId b c) : Keeps taskId a c := by
  refine ⟨fun actionId hmap => h'.1 actionId (h.1 actionId hmap), fun entry hentry hterminal => ?_⟩
  obtain ⟨entry', hentry', hstate, hresolution, hresolved⟩ := h.2 entry hentry hterminal
  obtain ⟨entry'', hentry'', hstate', hresolution', hresolved'⟩ :=
    h'.2 entry' hentry' (by rw [hstate]; exact hterminal)
  exact ⟨entry'', hentry'', hstate'.trans hstate, hresolution'.trans hresolution,
    hresolved'.trans hresolved⟩

theorem step_keeps {taskId : String} {world world' : World V}
    (h : step runtime world call = some world') (hkept : Exists taskId world') :
    Keeps taskId world world' := by
  obtain ⟨hstore, -⟩ := step_eq_some h
  have heffect := perform_effect runtime world.store call
  rw [← hstore] at heffect
  refine ⟨fun actionId hmap => heffect.alias hmap hkept, fun entry hentry hterminal => ?_⟩
  rcases heffect.entry hentry with ⟨entry', hentry', hrewrites⟩ | ⟨hgone, -⟩
  · exact ⟨entry', hentry', hrewrites.terminal hterminal⟩
  · simp [Exists, OrderedMap.has, hgone] at hkept

theorem step_claimed {taskId workerId : String} {moment : Int} {world world' : World V}
    (hquiet : Undisturbed taskId workerId moment world call)
    (h : step runtime world call = some world') (hkept : Exists taskId world')
    (hholds : HoldsClaim moment world.store taskId workerId) :
    HoldsClaim moment world'.store taskId workerId := by
  obtain ⟨-, hlater, hother⟩ := hquiet
  obtain ⟨hstore, -, hnow, -⟩ := step_eq_some h
  have heffect := perform_effect runtime world.store call
  rw [← hstore] at heffect
  obtain ⟨entry, hentry, hclaimed, hlive⟩ := hholds
  rcases heffect.entry hentry with ⟨entry', hentry', hrewrites⟩ | ⟨hgone, -⟩
  · exact ⟨entry', hentry', HoldsClaim.kept (hnow.trans hlater) hclaimed hlive hother
      hrewrites.claim⟩
  · simp [Exists, OrderedMap.has, hgone] at hkept

theorem run_consistent {calls : List (Call V)} {world : World V}
    (h : Machine.Run (step runtime) Machine.Free {} calls world) : Consistent world.store := by
  refine h.invariant (I := fun w => Consistent w.store) (fun s call t hs _ hstep => ?_)
    consistent_empty
  rw [(step_eq_some hstep).1]
  exact (perform_effect _ s.store call).consistent hs

/-- **The store contract.** -/
theorem store_contract (runtime : Runtime V) (calls : List (Call V)) (world : World V)
    (h : Machine.Run (step runtime) Machine.Free {} calls world) : Lawful runtime world where
  identifiers := run_consistent h
  kept := fun taskId _ _ hrun hkept =>
    hrun.relates_within (I := Exists taskId) (Keeps.refl taskId) (fun _ _ _ => Keeps.trans)
      (fun _ _ hexists => hexists) (fun _ _ _ _ hnext _ hstep => step_keeps hstep hnext) hkept
  purged := by
    intro call world' hstep taskId entry hentry hgone
    have heffect := perform_effect runtime world.store call
    rw [← (step_eq_some hstep).1] at heffect
    rcases heffect.entry hentry with ⟨entry', hentry', -⟩ | ⟨-, hterminal⟩
    · rw [hgone] at hentry'
      cases hentry'
    · exact hterminal
  exclusive := fun _ _ _ _ hholds hholds' => hholds.unique hholds'
  granted := fun _ _ _ _ _ hgranted => claimWorkflow_granted hgranted
  claimed := by
    intro moment taskId workerId calls world' hholds hrun hkept
    exact hrun.relates_within (I := Exists taskId)
      (R := fun w w' => HoldsClaim moment w.store taskId workerId →
        HoldsClaim moment w'.store taskId workerId)
      (fun _ hw => hw) (fun _ _ _ hab hbc hw => hbc (hab hw)) (fun _ _ hquiet => hquiet.1)
      (fun _ _ _ _ hnext hquiet hstep => step_claimed hquiet hstep hnext) hkept hholds
  refused := fun _ _ _ _ _ leaseMs hholds hother => hholds.refuses hother leaseMs
  thrown := fun _ _ hintact hthrown => perform_throws hintact hthrown

/-! ## A lease without an end -/

section

/-- The instant of the one expiry that is parsed here. -/
def parseExpiry (text : Timestamp) : JsNumber :=
  if text = "2030-01-01T00:00:00.000Z" then .finite 1893456000000 else .nan

def mergeTask : CreateWorkflowInput Json where
  taskId := "urn:uuid:aaaaaaaa-aaaa-4aaa-8aaa-aaaaaaaaaaaa"
  actionId := "urn:uuid:11111111-1111-4111-8111-111111111111"
  actionIdempotencyKey := "initial-action-attempt"
  actionEnvelopeHash := "b64url-envelope-digest"
  toolName := "merge_pull_request"
  actionPackage := .obj [("fake", .str "initial-action-package")]
  expiresAt := "2030-01-01T00:00:00.000Z"

def callAt (now : Int) (operation : Operation Json) : Call Json := ⟨now, now, operation⟩

/-- Created, claimed for an hour, taken over and resolved. -/
def mergeCalls : List (Call Json) :=
  [callAt 1785088800000 (.createWorkflow mergeTask),
    callAt 1785088800000 (.claimWorkflow mergeTask.taskId "worker-a" (.finite 3600000)),
    callAt 1785092400000 (.claimWorkflow mergeTask.taskId "worker-b" (.finite 3600000)),
    callAt 1785092400500 (.resolveWorkflow mergeTask.taskId (.resolved (.str "executed") none))]

theorem store_contract_merge :
    ∃ world, Machine.Run (step (jsonRuntime parseExpiry)) Machine.Free {} mergeCalls world ∧
      (world.store.getWorkflow mergeTask.taskId).any (fun record =>
        decide (record.state = .resolved) && decide (record.claimedBy = some "worker-b")) = true ∧
      Lawful (jsonRuntime parseExpiry) world := by
  obtain ⟨world, hrun, hstate⟩ : ∃ world,
      Machine.Run (step (jsonRuntime parseExpiry)) Machine.Free {} mergeCalls world ∧
        (world.store.getWorkflow mergeTask.taskId).any (fun record =>
          decide (record.state = .resolved) && decide (record.claimedBy = some "worker-b")) = true :=
    Machine.run_of_exec_any (by decide +kernel)
  exact ⟨world, hrun, hstate, store_contract (jsonRuntime parseExpiry) mergeCalls world hrun⟩

/-- A lease of `Number.MAX_SAFE_INTEGER` milliseconds. -/
def endlessClaim : Call Json :=
  callAt 1785088800000 (.claimWorkflow mergeTask.taskId "worker-a" (.finite 9007199254740991))

/-- The call throws, but its worker holds the workflow from then on. -/
theorem endless_claim_changes :
    ∃ world, Machine.Run (step (jsonRuntime parseExpiry)) Machine.Free {} [callAt 1785088800000
        (.createWorkflow mergeTask)] world ∧
      (world.store.perform (jsonRuntime parseExpiry) endlessClaim).1 = .error .invalidTimeValue ∧
      (world.store.perform (jsonRuntime parseExpiry) endlessClaim).2 ≠ world.store ∧
      ((world.store.perform (jsonRuntime parseExpiry) endlessClaim).2.claimWorkflow 1893456000000 1893456000000
        mergeTask.taskId "worker-b" (.finite 3600000)).1 = .ok (.flag false) :=
  Machine.run_of_exec_any (by decide +kernel)

end

end Mpas.StoreContract
