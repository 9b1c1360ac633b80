import Mpas.WorkflowReplacement

/-!
# Cancelled workflows and Coordination

`cancel` tells Coordination when the workflow has a saved reference, and the
program that waits for `createApprovalWorkflow` does when the answer comes after
the cancellation. Neither knows of a creation whose answer was lost.

* `Watched`: a run with the creations that were refused and the calls of `cancel`;
* `WatchedOk.step`: every creation of a cancelled workflow stays accounted for;
* `cancellation_reaches_coordination`: when Coordination hears of a cancellation.
-/

namespace Mpas.WorkflowEngine

open Routing WorkflowStore Program Machine
open Relation (ReflTransGen)

/-! ## Places in the log -/

/-- Where in the log the calls with a property are. -/
def placesOf (p : RemoteCall → Bool) (calls : List LoggedCall) : List Nat :=
  (List.range calls.length).filter fun i => calls[i]?.any fun logged => p logged.call

def isCreation (taskId : String) : RemoteCall → Bool
  | .createApprovalWorkflow task _ _ _ => decide (task = taskId)
  | _ => false

def isCreationOf (taskId actionId : String) : RemoteCall → Bool
  | .createApprovalWorkflow task action _ _ => decide (task = taskId ∧ action = actionId)
  | _ => false

def isCancellationOf (actionId : String) : RemoteCall → Bool
  | .cancelAction action _ => decide (action = actionId)
  | _ => false

section Places

variable {p : RemoteCall → Bool} {calls added : List LoggedCall} {i : Nat}

theorem mem_placesOf : i ∈ placesOf p calls ↔ ∃ logged, calls[i]? = some logged ∧ p logged.call := by
  unfold placesOf
  rw [List.mem_filter, List.mem_range, Option.any_eq_true]
  constructor
  · exact And.right
  · rintro ⟨logged, hget, hp⟩
    exact ⟨(List.getElem?_eq_some_iff.mp hget).1, logged, hget, hp⟩

theorem lt_of_mem_placesOf (h : i ∈ placesOf p calls) : i < calls.length := by
  obtain ⟨logged, hget, -⟩ := mem_placesOf.mp h
  exact (List.getElem?_eq_some_iff.mp hget).1

theorem placesOf_grows (h : i ∈ placesOf p calls) : i ∈ placesOf p (calls ++ added) := by
  obtain ⟨logged, hget, hp⟩ := mem_placesOf.mp h
  refine mem_placesOf.mpr ⟨logged, ?_, hp⟩
  rw [List.getElem?_append_left (lt_of_mem_placesOf h), hget]

theorem placesOf_append_single (logged : LoggedCall) :
    placesOf p (calls ++ [logged]) =
      placesOf p calls ++ if p logged.call then [calls.length] else [] := by
  unfold placesOf
  rw [List.length_append, List.length_singleton, List.range_succ, List.filter_append]
  congr 1
  · refine List.filter_congr fun i hi => ?_
    rw [List.getElem?_append_left (List.mem_range.mp hi)]
  · cases h : p logged.call <;> simp [h]

/-- Other calls leave the places as they are. -/
theorem placesOf_append (h : ∀ logged ∈ added, p logged.call = false) :
    placesOf p (calls ++ added) = placesOf p calls := by
  induction added generalizing calls with
  | nil => rw [List.append_nil]
  | cons logged added ih =>
    have hfirst : p logged.call = false := h logged (by simp)
    have hsingle : placesOf p (calls ++ [logged]) = placesOf p calls := by
      rw [placesOf_append_single, hfirst]
      simp
    have hrest : placesOf p (calls ++ [logged] ++ added) = placesOf p (calls ++ [logged]) :=
      ih fun other hother => h other (by simp [hother])
    rw [List.append_assoc, List.singleton_append] at hrest
    rw [hrest, hsingle]

theorem creation_of_creationOf {taskId actionId : String} {call : RemoteCall}
    (h : isCreationOf taskId actionId call = true) : isCreation taskId call = true := by
  cases call with
  | createApprovalWorkflow task action _ _ =>
    simp only [isCreationOf, decide_eq_true_eq] at h
    simp [isCreation, h.1]
  | _ => cases h

end Places

/-! ## Runs that are watched -/

def Point.isCreating : Point → Bool
  | .creating _ => true
  | _ => false

/-- The lane of the Task waits for `createApprovalWorkflow`. -/
def inFlight (w : World) (taskId : String) : Bool :=
  w.engine.any fun engine => (engine.lane taskId).head?.any fun job => job.point.isCreating

/-- A world, and what its log does not say. -/
structure Watched where
  world : World := {}
  /-- where in the log the creations are that Coordination definitely refused -/
  refused : List Nat := []
  /-- the Tasks that a call of `cancel` made `cancelled` -/
  cancelled : List String := []
  deriving DecidableEq

section Watching

variable (platform : Platform) (refuses : Failure → Bool)

/-- The creation that the answer is about is the last one on the lane. -/
def newlyRefused (w : World) : Event → List Nat
  | .act _ (.reply taskId (.coordination (.error error))) =>
    if refuses error then (placesOf (isCreation taskId) w.durable.calls).getLast?.toList else []
  | _ => []

/-- A call of `cancel` that has not ended with its process. -/
def newlyCancelled (w w' : World) : Event → List String
  | .act moment (.cancel taskId) =>
    if moment.crashAfter = none ∧
        (w.durable.store.getWorkflow taskId).any (fun r => !r.state.isTerminal) ∧
        (w'.durable.store.getWorkflow taskId).any (fun r => decide (r.state = .cancelled))
    then [taskId] else []
  | _ => []

def watchedStep (s : Watched) (event : Event) : Option Watched :=
  (step platform s.world event).map fun w' =>
    { world := w'
      refused := s.refused ++ newlyRefused refuses s.world event
      cancelled := s.cancelled ++ newlyCancelled s.world w' event }

/-- No process ends while it waits for the creation of a cancelled workflow. -/
def settles (s : Watched) : Event → Bool
  | .start _ => true
  | .crash => s.cancelled.all fun taskId => !inFlight s.world taskId
  | .act moment _ =>
    moment.crashAfter.isNone || s.cancelled.all fun taskId => !inFlight s.world taskId

/-- A creation of the current Action was not refused, and no reference of it is saved. -/
def unheard (s : Watched) (refused : List Nat) (taskId : String) (r : WorkflowRecord) : Bool :=
  r.coordinationRef.isNone &&
    (placesOf (isCreationOf taskId r.actionId) s.world.durable.calls).any fun i =>
      !refused.contains i

/-- A creation is lost: `cancel` finds one that is unheard of, and none in flight; or the one in
flight fails after the cancellation, and one is unheard of then. -/
def loses (s : Watched) (event : Event) : Bool :=
  match event with
  | .act _ (.cancel taskId) => (s.world.durable.store.getWorkflow taskId).any fun r =>
    !r.state.isTerminal &&
      (s.world.engine.any fun engine => decide (proposerDidOf r = some engine.options.proposerDid)) &&
      !inFlight s.world taskId && unheard s s.refused taskId r
  | .act _ (.reply taskId (.coordination (.error _))) =>
    s.cancelled.contains taskId && (s.world.durable.store.getWorkflow taskId).any fun r =>
      unheard s (s.refused ++ newlyRefused refuses s.world event) taskId r
  | _ => false

end Watching

/-- Every creation of the Action that was not refused is followed by a cancellation. -/
def Informed (s : Watched) (taskId actionId : String) : Prop :=
  ∀ i ∈ placesOf (isCreationOf taskId actionId) s.world.durable.calls, i ∉ s.refused →
    ∃ j ∈ placesOf (isCancellationOf actionId) s.world.durable.calls, i < j

instance (s : Watched) (taskId actionId : String) : Decidable (Informed s taskId actionId) :=
  inferInstanceAs (Decidable (∀ i ∈ placesOf (isCreationOf taskId actionId) s.world.durable.calls,
    i ∉ s.refused → ∃ j ∈ placesOf (isCancellationOf actionId) s.world.durable.calls, i < j))

/-! ## What has ended stays as it is -/

section Ended

variable {ctx : Context} {allowed : Occasion → Prop} {d d' : Durable} {taskId : String}

theorem Edge.open {source target : BridgeWorkflowState} (h : Edge source target) :
    source.isTerminal = false := by
  cases h <;> rfl

theorem Change.ended {r r' : WorkflowRecord} (h : Change ctx allowed taskId r r')
    (hr : r.state.isTerminal = true) : r'.state = r.state ∧ r'.actionId = r.actionId := by
  have hfalse : ∀ {P : Prop}, r.state.isTerminal = false → P := by
    intro P hopen
    rw [hr] at hopen
    cases hopen
  cases h with
  | moved source target _ hstate hedge => exact hfalse (hstate ▸ hedge.open)
  | settled _ _ _ _ hopen => exact hfalse hopen
  | unresolvable _ _ hopen => exact hfalse hopen
  | cancelled hopen => exact hfalse hopen
  | replaced _ _ _ _ hstate hfrom => exact hfalse (hstate ▸ hfrom)
  | _ => exact ⟨rfl, rfl⟩

theorem Change.untouched {r r' : WorkflowRecord} (h : Change ctx allowed taskId r r')
    (hown : ¬ allowed (.own taskId)) (hr : r.state.isTerminal = true) : r' = r := by
  have hfalse : r.state.isTerminal = false → r' = r := by
    intro hopen
    rw [hr] at hopen
    cases hopen
  cases h with
  | kept => rfl
  | settled _ _ _ _ hopen => exact hfalse hopen
  | unresolvable _ _ hopen => exact hfalse hopen
  | cancelled hopen => exact hfalse hopen
  | claimed h => exact absurd h hown
  | attempted _ h => exact absurd h hown
  | bound _ _ _ h => exact absurd h hown
  | answered _ h => exact absurd h hown
  | referred _ h => exact absurd h hown
  | moved _ _ h => exact absurd h hown
  | accepted _ _ h => exact absurd h hown
  | replaced _ _ _ h => exact absurd h hown

/-- What the writes of a step leave of a workflow that has ended. -/
structure KeepsEnded (taskId : String) (r : WorkflowRecord) (d d' : Durable) : Prop where
  record : ∃ r', d'.store.getWorkflow taskId = some r' ∧ r'.state = r.state ∧
    r'.actionId = r.actionId
  calls : ∃ added, d'.calls = d.calls ++ added ∧
    ∀ logged ∈ added, isCreation taskId logged.call = false

theorem KeepsEnded.refl {r : WorkflowRecord} (hr : d.store.getWorkflow taskId = some r) :
    KeepsEnded taskId r d d :=
  ⟨⟨r, hr, rfl, rfl⟩, [], by simp, by simp⟩

theorem Micro.keepsEnded (h : Micro ctx allowed d d') {r : WorkflowRecord}
    (hr : d.store.getWorkflow taskId = some r) (hended : r.state.isTerminal = true) :
    KeepsEnded taskId r d d' := by
  cases h with
  | called call hmay =>
    refine ⟨⟨r, hr, rfl, rfl⟩, [⟨call, ctx.stopped⟩], rfl, ?_⟩
    intro logged hlogged
    rw [List.mem_singleton.mp hlogged]
    cases call with
    | createApprovalWorkflow task action _ _ =>
      obtain ⟨-, r', hr', -, hopen⟩ := hmay
      simp only [isCreation, decide_eq_false_iff_not]
      rintro rfl
      rw [hr] at hr'
      cases hr'
      rw [hended] at hopen
      cases hopen
    | _ => rfl
  | @created input store _ hnone hlookup =>
    refine ⟨⟨r, ?_, rfl, rfl⟩, [], by simp, by simp⟩
    rw [hlookup, if_neg, hr]
    rintro rfl
    rw [hnone] at hr
    cases hr
  | @change task r₁ r₁' store hget hchange hlookup =>
    refine ⟨?_, [], by simp, by simp⟩
    by_cases heq : task = taskId
    · subst heq
      rw [hget] at hr
      cases hr
      exact ⟨r₁', by rw [hlookup, if_pos rfl], hchange.ended hended⟩
    · exact ⟨r, by rw [hlookup, if_neg heq, hr], rfl, rfl⟩

theorem moves_keepsEnded (h : ReflTransGen (Micro ctx allowed) d d') {r : WorkflowRecord}
    (hr : d.store.getWorkflow taskId = some r) (hended : r.state.isTerminal = true) :
    KeepsEnded taskId r d d' := by
  induction h with
  | refl => exact .refl hr
  | tail _ hm ih =>
    obtain ⟨⟨r₁, hr₁, hstate₁, haction₁⟩, added₁, hcalls₁, hnone₁⟩ := ih
    obtain ⟨⟨r₂, hr₂, hstate₂, haction₂⟩, added₂, hcalls₂, hnone₂⟩ :=
      hm.keepsEnded hr₁ (hstate₁ ▸ hended)
    refine ⟨⟨r₂, hr₂, hstate₂.trans hstate₁, haction₂.trans haction₁⟩, added₁ ++ added₂, ?_, ?_⟩
    · rw [hcalls₂, hcalls₁, List.append_assoc]
    · intro logged hlogged
      exact (List.mem_append.mp hlogged).elim (hnone₁ logged) (hnone₂ logged)

/-- Off its lane, a workflow that has ended is not touched. -/
theorem moves_untouched (h : ReflTransGen (Micro ctx allowed) d d')
    (hown : ¬ allowed (.own taskId)) {r : WorkflowRecord}
    (hr : d.store.getWorkflow taskId = some r) (hended : r.state.isTerminal = true) :
    d'.store.getWorkflow taskId = some r := by
  induction h with
  | refl => exact hr
  | tail _ hm ih =>
    cases hm with
    | called call _ => exact ih
    | @created input store _ hnone hlookup =>
      rw [hlookup, if_neg, ih]
      rintro rfl
      rw [hnone] at ih
      cases ih
    | @change task r₁ r₁' store hget hchange hlookup =>
      by_cases heq : task = taskId
      · subst heq
        rw [hget] at ih
        cases ih
        rw [hlookup, if_pos rfl, hchange.untouched hown hended]
      · rw [hlookup, if_neg heq, ih]

end Ended

/-! ## What `cancel` and a late answer do -/

section Programs

variable {ctx : Context} {engine : Engine} {taskId : String} {d : Durable}

theorem cancelled_record {now : Int} {r : WorkflowRecord} (hopen : r.state.isTerminal = false) :
    (MemoryWorkflowStore.settledRecord now (.cancelled now) r).coordinationRef =
      r.coordinationRef := by
  simp [MemoryWorkflowStore.settledRecord, hopen]

/-- `cancel` on an open workflow: it tells Coordination if a reference is saved. -/
theorem cancel_open {r : WorkflowRecord} (hr : d.store.getWorkflow taskId = some r)
    (hopen : r.state.isTerminal = false) (hown : isOwn ctx r = true) :
    wp (cancel ctx engine taskId)
      (fun engine' d' => engine' = engine ∧
        (∃ r', d'.store.getWorkflow taskId = some r' ∧ r'.actionId = r.actionId ∧
          r'.coordinationRef = r.coordinationRef) ∧
        d'.calls = d.calls ++ if r.coordinationRef.isSome then
          [⟨.cancelAction r.actionId true, ctx.stopped⟩] else [])
      (fun _ _ => False) (fun _ => True) d := by
  have hrecord : (d.store.modify taskId (MemoryWorkflowStore.settledRecord ctx.now
      (.cancelled ctx.now))).getWorkflow taskId =
      some (MemoryWorkflowStore.settledRecord ctx.now (.cancelled ctx.now) r) := by
    rw [MemoryWorkflowStore.getWorkflow_modify_self, hr, Option.map_some]
  have hcancel : d.store.cancelWorkflow ctx.now taskId =
      (true, d.store.modify taskId (MemoryWorkflowStore.settledRecord ctx.now
        (.cancelled ctx.now))) := by
    simp [MemoryWorkflowStore.cancelWorkflow, hr, hopen]
  unfold cancel
  rw [wp_bind, wp_getWorkflow, hr]
  simp only [hopen, hown, Bool.true_eq_false, Bool.false_eq_true, or_self, ↓reduceIte]
  rw [wp_bind, wp_tryStore, hcancel]
  refine ⟨trivial, ?_⟩
  simp only [Bool.not_true, Bool.false_eq_true, ↓reduceIte]
  have hkept : ∃ r', (d.store.modify taskId (MemoryWorkflowStore.settledRecord ctx.now
      (.cancelled ctx.now))).getWorkflow taskId = some r' ∧ r'.actionId = r.actionId ∧
      r'.coordinationRef = r.coordinationRef :=
    ⟨_, hrecord, settledRecord_actionId _ _ _, cancelled_record hopen⟩
  cases hsaved : r.coordinationRef.isSome with
  | true =>
    simp only [↓reduceIte]
    rw [wp_bind, wp_send, wp_pure]
    exact ⟨trivial, rfl, hkept, rfl⟩
  | false =>
    simp only [Bool.false_eq_true, ↓reduceIte]
    rw [wp_pure]
    exact ⟨rfl, hkept, (List.append_nil _).symm⟩

/-- The creation of a cancelled workflow succeeds, and Coordination is told. -/
theorem afterCreation_cancelled {record r : WorkflowRecord} {ref : Json}
    (hid : record.taskId = taskId) (hr : d.store.getWorkflow taskId = some r)
    (hcancelled : r.state = .cancelled) :
    wp (afterCreation ctx record (.ok ref))
      (fun _ d' => d'.calls = d.calls ++ [⟨.cancelAction record.actionId false, ctx.stopped⟩])
      (fun _ _ => False) (fun _ => True) d := by
  have hsaved : (d.store.saveCoordinationReference ctx.now taskId ref).getWorkflow taskId =
      some { r with coordinationRef := some ref, updatedAt := ctx.now } := by
    rw [MemoryWorkflowStore.saveCoordinationReference, MemoryWorkflowStore.getWorkflow_modify_self,
      hr, Option.map_some]
  unfold afterCreation
  rw [wp_tryCatch, wp_bind, wp_updateStore, hid, wp_bind, wp_mustGet hsaved]
  simp only [hcancelled, ↓reduceIte]
  rw [wp_bind, wp_send, wp_pure]
  exact ⟨trivial, trivial, rfl⟩

end Programs

section Steps

variable {platform : Platform} {w w' : World} {engine : Engine} {moment : Moment}
variable {taskId : String}

theorem step_cancel {r : WorkflowRecord} (hengine : w.engine = some engine)
    (hr : w.durable.store.getWorkflow taskId = some r) (hopen : r.state.isTerminal = false)
    (hcrash : moment.crashAfter = none)
    (h : step platform w (.act moment (.cancel taskId)) = some w') :
    (isOwn (contextAt platform engine moment) r = false ∧
      w'.durable.store.getWorkflow taskId = some r) ∨
    isOwn (contextAt platform engine moment) r = true ∧ w'.engine = some engine ∧
      (∃ r', w'.durable.store.getWorkflow taskId = some r' ∧ r'.actionId = r.actionId ∧
        r'.coordinationRef = r.coordinationRef) ∧
      w'.durable.calls = w.durable.calls ++ if r.coordinationRef.isSome then
        [⟨.cancelAction r.actionId true, engine.stopped⟩] else [] := by
  have hact : engine.act (contextAt platform engine moment) (.cancel taskId) =
      some (cancel (contextAt platform engine moment) engine taskId) := rfl
  simp only [step, hengine, hact, Option.bind_some, hcrash, finish] at h
  cases hown : isOwn (contextAt platform engine moment) r with
  | true =>
    obtain ⟨engine', hresult, rfl, hkept, hcalls⟩ :=
      wp_result (@cancel_open _ engine _ _ _ hr hopen hown)
    rw [hresult] at h
    cases h
    exact Or.inr ⟨rfl, rfl, hkept, hcalls⟩
  | false =>
    have hrefused : wp (cancel (contextAt platform engine moment) engine taskId)
        (fun _ d' => d' = w.durable) (fun _ _ => False) (fun _ => True) w.durable := by
      unfold cancel
      rw [wp_bind, wp_getWorkflow, hr]
      simp [hown]
    obtain ⟨engine', hresult, hsame⟩ := wp_result hrefused
    rw [hresult] at h
    cases h
    exact Or.inl ⟨rfl, by rw [hsame, hr]⟩

end Steps

/-! ## Every creation is accounted for -/

/-- A creation of the current Action was refused or is followed by a cancellation, or one is in
flight before any reference is saved. -/
def Accounted (s : Watched) (taskId : String) (r : WorkflowRecord) : Prop :=
  ∀ i ∈ placesOf (isCreationOf taskId r.actionId) s.world.durable.calls,
    i ∈ s.refused ∨
    (∃ j ∈ placesOf (isCancellationOf r.actionId) s.world.durable.calls, i < j) ∨
    r.coordinationRef = none ∧ inFlight s.world taskId = true

structure WatchedOk (s : Watched) : Prop where
  sound : Sound s.world
  cancelled : ∀ taskId ∈ s.cancelled, ∃ r, s.world.durable.store.getWorkflow taskId = some r ∧
    r.state = .cancelled ∧ Accounted s taskId r

theorem refused_of_heard {s : Watched} {refused : List Nat} {taskId : String} {r : WorkflowRecord}
    (hnone : r.coordinationRef = none) (hheard : unheard s refused taskId r = false) {i : Nat}
    (hi : i ∈ placesOf (isCreationOf taskId r.actionId) s.world.durable.calls) : i ∈ refused := by
  simp only [unheard, hnone, Option.isNone_none, Bool.true_and, List.any_eq_false,
    Bool.not_eq_true, Bool.not_eq_false', List.contains_iff_mem] at hheard
  exact hheard i hi

theorem inFlight_iff {w : World} {taskId : String} : inFlight w taskId = true ↔
    ∃ engine job rest record, w.engine = some engine ∧ engine.lane taskId = job :: rest ∧
      job.point = .creating record := by
  unfold inFlight
  constructor
  · intro h
    rw [Option.any_eq_true] at h
    obtain ⟨engine, hengine, hlane⟩ := h
    cases hjobs : engine.lane taskId with
    | nil => simp [hjobs] at hlane
    | cons job rest =>
      cases hpoint : job.point with
      | creating record => exact ⟨engine, job, rest, record, hengine, hjobs, hpoint⟩
      | _ => simp [hjobs, hpoint, Point.isCreating] at hlane
  · rintro ⟨engine, job, rest, record, hengine, hlane, hpoint⟩
    simp [hengine, hlane, hpoint, Point.isCreating]

section Preservation

variable {platform : Platform} {refuses : Failure → Bool} {s s' : Watched} {w' : World}
variable {taskId : String} {r r' : WorkflowRecord}

/-- What was refused or followed by a cancellation stays so. -/
theorem Accounted.later (h : Accounted s taskId r) (hrefused : ∀ i ∈ s.refused, i ∈ s'.refused)
    (haction : r'.actionId = r.actionId) {added : List LoggedCall}
    (hcalls : s'.world.durable.calls = s.world.durable.calls ++ added)
    (hnone : ∀ logged ∈ added, isCreation taskId logged.call = false)
    (hflight : ∀ i ∈ placesOf (isCreationOf taskId r.actionId) s.world.durable.calls,
      r.coordinationRef = none → inFlight s.world taskId = true →
      i ∈ s'.refused ∨
      (∃ j ∈ placesOf (isCancellationOf r.actionId) s'.world.durable.calls, i < j) ∨
      r'.coordinationRef = none ∧ inFlight s'.world taskId = true) : Accounted s' taskId r' := by
  intro i hi
  have hcreations : placesOf (isCreationOf taskId r'.actionId) s'.world.durable.calls =
      placesOf (isCreationOf taskId r.actionId) s.world.durable.calls := by
    rw [haction, hcalls]
    refine placesOf_append fun logged hlogged => ?_
    cases hcreation : isCreationOf taskId r.actionId logged.call with
    | false => rfl
    | true =>
      have hnot := hnone logged hlogged
      rw [creation_of_creationOf hcreation] at hnot
      cases hnot
  rw [hcreations] at hi
  rw [haction]
  rcases h i hi with hr | ⟨j, hj, hlt⟩ | ⟨href, hin⟩
  · exact Or.inl (hrefused i hr)
  · refine Or.inr (Or.inl ⟨j, ?_, hlt⟩)
    rw [hcalls]
    exact placesOf_grows hj
  · exact hflight i hi href hin

/-- An answer that the lane of a creation takes. -/
theorem reply_of_creating {engine : Engine} {ctx : Context} {action : Action} {job : Job}
    {rest : List Job} {record : WorkflowRecord} {program : EngineM Engine}
    (hruns : engine.Runs taskId action) (hlane : engine.lane taskId = job :: rest)
    (hpoint : job.point = .creating record) (hact : engine.act ctx action = some program) :
    ∃ outcome, action = .reply taskId (.coordination outcome) := by
  rcases hruns.on_lane hlane with rfl | ⟨reply, rfl⟩
  · simp [Engine.act, hlane, hpoint] at hact
  · cases reply with
    | coordination outcome => exact ⟨outcome, rfl⟩
    | _ => simp [Engine.act, hlane, hpoint, Point.continue] at hact

/-- One step on the world, for a workflow that `cancel` has ended before. -/
theorem accounted_step {event : Event} (hok : WatchedOk s)
    (hr : s.world.durable.store.getWorkflow taskId = some r) (hstate : r.state = .cancelled)
    (hmem : taskId ∈ s.cancelled) (h : Accounted s taskId r) (hsettles : settles s event = true)
    (hloses : loses refuses s event = false) (hstep : step platform s.world event = some w')
    (hworld : s'.world = w') (hrefused : s'.refused = s.refused ++ newlyRefused refuses s.world event) :
    ∃ r', w'.durable.store.getWorkflow taskId = some r' ∧ r'.state = .cancelled ∧
      Accounted s' taskId r' := by
  have hgrows : ∀ i ∈ s.refused, i ∈ s'.refused := by
    intro i hi
    rw [hrefused]
    exact List.mem_append_left _ hi
  have hended : r.state.isTerminal = true := by rw [hstate]; rfl
  cases event with
  | start options =>
    cases hengine : s.world.engine with
    | some engine => simp [step, hengine] at hstep
    | none =>
      simp only [step, hengine, Option.some.injEq] at hstep
      subst hstep
      refine ⟨r, hr, hstate, h.later hgrows rfl
        (show _ = s.world.durable.calls ++ [] by rw [hworld]; simp) (by simp) ?_⟩
      intro i _ _ hin
      simp [inFlight, hengine] at hin
  | crash =>
    obtain ⟨engine, hengine, rfl⟩ := Option.map_eq_some_iff.mp hstep
    refine ⟨r, hr, hstate, h.later hgrows rfl
        (show _ = s.world.durable.calls ++ [] by rw [hworld]; simp) (by simp) ?_⟩
    intro i _ _ hin
    have hnot := List.all_eq_true.mp hsettles taskId hmem
    rw [hin] at hnot
    cases hnot
  | act moment action =>
    obtain ⟨engine, hengine, hact⟩ := Option.bind_eq_some_iff.mp hstep
    obtain ⟨program, hprogram, -⟩ := Option.bind_eq_some_iff.mp hact
    obtain ⟨hmoves, hcase⟩ := step_cases hok.sound hengine hstep
    obtain ⟨⟨r', hr', hstate', haction⟩, added, hcalls, hnone⟩ :=
      moves_keepsEnded hmoves hr hended
    refine ⟨r', hr', hstate'.trans hstate, h.later hgrows haction (by rw [hworld]; exact hcalls)
      hnone ?_⟩
    intro i hi href hin
    obtain ⟨engine₀, job, rest, record, hengine₀, hlane, hpoint⟩ := inFlight_iff.mp hin
    rw [hengine] at hengine₀
    cases hengine₀
    have hcrash : moment.crashAfter = none := by
      cases hc : moment.crashAfter with
      | none => rfl
      | some n =>
        have hall : (s.cancelled.all fun taskId => !inFlight s.world taskId) = true := by
          simpa [settles, hc] using hsettles
        have hnot := List.all_eq_true.mp hall taskId hmem
        rw [hin] at hnot
        cases hnot
    rcases hcase with ⟨hcrashed, -⟩ | ⟨engine', hengine', hes⟩
    · exact absurd hcrash hcrashed
    · by_cases hruns : engine.Runs taskId action
      · obtain ⟨outcome, rfl⟩ := reply_of_creating hruns hlane hpoint hprogram
        cases outcome with
        | ok ref =>
          -- the program that waited tells Coordination
          obtain ⟨hid, r₀, hr₀, haction₀⟩ : PointOk s.world.durable.store taskId (.creating record) :=
            hpoint ▸ (hok.sound.lanes engine hengine taskId job rest hlane).1
          rw [hr] at hr₀
          cases hr₀
          have hlaneAct : engine.act (contextAt platform engine moment)
              (.reply taskId (.coordination (.ok ref))) =
              some (engine.onLane taskId job rest
                (afterCreation (contextAt platform engine moment) record (.ok ref))) := by
            simp [Engine.act, hlane, hpoint, Point.continue]
          obtain ⟨-, htold, -⟩ := step_onLane hengine hlaneAct
            (afterCreation_cancelled hid hr hstate) hcrash hstep
          refine Or.inr (Or.inl ⟨s.world.durable.calls.length, ?_, lt_of_mem_placesOf hi⟩)
          rw [hworld, htold, placesOf_append_single, haction₀]
          simp [isCancellationOf]
        | error error =>
          -- every creation was refused by then
          have hheard : unheard s s'.refused taskId r = false := by
            simpa [loses, hmem, hr, hrefused] using hloses
          exact Or.inl (refused_of_heard href hheard hi)
      · -- the creation stays in flight
        obtain ⟨rest', hlane'⟩ := hes.waits hruns hlane
        have hsame := moves_untouched hmoves hruns hr hended
        rw [hr'] at hsame
        cases hsame
        refine Or.inr (Or.inr ⟨href, inFlight_iff.mpr ⟨engine', job, rest', record, ?_, hlane',
          hpoint⟩⟩)
        rw [hworld, hengine']

/-- `cancel` leaves no creation of the workflow behind that it does not account for. -/
theorem accounted_cancelled {event : Event} (hloses : loses refuses s event = false)
    (hstep : step platform s.world event = some w') (hworld : s'.world = w')
    (hrefused : s'.refused = s.refused ++ newlyRefused refuses s.world event)
    (hnew : taskId ∈ newlyCancelled s.world w' event) :
    ∃ r', w'.durable.store.getWorkflow taskId = some r' ∧ r'.state = .cancelled ∧
      Accounted s' taskId r' := by
  obtain ⟨moment, hevent, hcrash, hopen, hcancelled⟩ : ∃ moment, event = .act moment (.cancel taskId) ∧
      moment.crashAfter = none ∧
      (s.world.durable.store.getWorkflow taskId).any (fun r => !r.state.isTerminal) = true ∧
      (w'.durable.store.getWorkflow taskId).any (fun r => decide (r.state = .cancelled)) = true := by
    unfold newlyCancelled at hnew
    split at hnew
    · split at hnew
      · rename_i moment task h
        rw [List.mem_singleton.mp hnew]
        exact ⟨moment, rfl, h⟩
      · cases hnew
    · cases hnew
  subst hevent
  rw [Option.any_eq_true] at hopen hcancelled
  obtain ⟨r, hr, hopen⟩ := hopen
  obtain ⟨r', hr', hstate⟩ := hcancelled
  have hopen : r.state.isTerminal = false := by simpa using hopen
  have hstate : r'.state = .cancelled := by simpa using hstate
  obtain ⟨engine, hengine, -⟩ := Option.bind_eq_some_iff.mp hstep
  refine ⟨r', hr', hstate, ?_⟩
  rcases step_cancel hengine hr hopen hcrash hstep with ⟨-, hsame⟩ |
    ⟨hown, hengine', ⟨r₁, hr₁, haction, href⟩, hcalls⟩
  · rw [hr'] at hsame
    cases hsame
    rw [hstate] at hopen
    cases hopen
  · rw [hr'] at hr₁
    cases hr₁
    intro i hi
    cases hsaved : r.coordinationRef.isSome with
    | true =>
      rw [hsaved, if_pos rfl] at hcalls
      rw [hworld, hcalls] at hi ⊢
      rw [placesOf_append_single, if_neg (by simp [isCreationOf]), List.append_nil] at hi
      refine Or.inr (Or.inl ⟨s.world.durable.calls.length, ?_, lt_of_mem_placesOf hi⟩)
      rw [placesOf_append_single, haction]
      simp [isCancellationOf]
    | false =>
      rw [hsaved, if_neg (by simp), List.append_nil] at hcalls
      have hnone : r.coordinationRef = none := by simpa using hsaved
      have hflight : inFlight s'.world taskId = inFlight s.world taskId := by
        rw [hworld]
        unfold inFlight
        rw [hengine', hengine]
      rw [hworld, hcalls, haction] at hi
      cases hin : inFlight s.world taskId with
      | true => exact Or.inr (Or.inr ⟨by rw [href, hnone], by rw [hflight, hin]⟩)
      | false =>
        have howner : proposerDidOf r = some engine.options.proposerDid := by
          simpa [isOwn, contextAt] using of_decide_eq_true hown
        have hheard : unheard s s.refused taskId r = false := by
          simpa [loses, hr, hopen, hengine, howner, hin] using hloses
        refine Or.inl ?_
        rw [hrefused]
        exact List.mem_append_left _ (refused_of_heard hnone hheard hi)

theorem WatchedOk.step {event : Event} (hok : WatchedOk s) (hsettles : settles s event = true)
    (hloses : loses refuses s event = false) (h : watchedStep platform refuses s event = some s') :
    WatchedOk s' := by
  obtain ⟨w', hstep, rfl⟩ := Option.map_eq_some_iff.mp h
  refine ⟨hok.sound.step hstep, fun taskId hmem => ?_⟩
  rcases List.mem_append.mp hmem with hold | hnew
  · obtain ⟨r, hr, hstate, haccounted⟩ := hok.cancelled taskId hold
    exact accounted_step hok hr hstate hold haccounted hsettles hloses hstep rfl rfl
  · exact accounted_cancelled hloses hstep rfl rfl hnew

end Preservation

/-- **Coordination hears of every cancellation** of a workflow that it may know: once the creation
in flight has settled, every creation of the current Action that was not definitely refused is
followed by a cancellation, whatever counts as a definite refusal, if `cancel` loses none. -/
theorem cancellation_reaches_coordination (platform : Platform) (refuses : Failure → Bool)
    {events : List Event} {s : Watched}
    (hrun : Run (watchedStep platform refuses)
      (fun s event => settles s event = true ∧ loses refuses s event = false) {} events s) :
    ∀ taskId ∈ s.cancelled, ∃ r, s.world.durable.store.getWorkflow taskId = some r ∧
      r.state = .cancelled ∧
      (inFlight s.world taskId = false → Informed s taskId r.actionId) := by
  have hinit : WatchedOk {} := ⟨.init, fun _ h => by cases h⟩
  have hok : WatchedOk s := hrun.invariant (I := WatchedOk)
    (fun _ _ _ hok hc hstep => hok.step hc.1 hc.2 hstep) hinit
  intro taskId hmem
  obtain ⟨r, hr, hstate, haccounted⟩ := hok.cancelled taskId hmem
  refine ⟨r, hr, hstate, fun hsettled i hi hnot => ?_⟩
  rcases haccounted i hi with hin | hj | ⟨-, hin⟩
  · exact absurd hin hnot
  · exact hj
  · rw [hsettled] at hin
    cases hin

section

open Bridge

/-- The first answer of Coordination is lost and the creation is tried again. -/
def triedAgain : List Event :=
  handedOver ++ [act (.reply taskId (.coordination (.error (plainError "socket hang up")))),
    act (.advanceTask taskId), .act { now := 1735689960000 } (.startJob taskId)]

/-- The second answer comes after the cancellation, and is the first to be heard of. -/
theorem cancellation_reaches_coordination_late : ∃ s,
    Run (watchedStep platform permanentCoordinationFailure) (fun s event => settles s event = true ∧
      loses permanentCoordinationFailure s event = false) {}
      (triedAgain ++ [act (.cancel taskId), created]) s ∧
    s.cancelled = [taskId] ∧ inFlight s.world taskId = false ∧
    (placesOf (isCreationOf taskId replacementId) s.world.durable.calls).length = 2 ∧
    Informed s taskId replacementId := by
  have hexec : ∃ s, Run (watchedStep platform permanentCoordinationFailure)
      (fun s event => (settles s event && !loses permanentCoordinationFailure s event) = true) {}
      (triedAgain ++ [act (.cancel taskId), created]) s ∧
      (s.cancelled = [taskId] ∧ inFlight s.world taskId = false ∧
        (placesOf (isCreationOf taskId replacementId) s.world.durable.calls).length = 2 ∧
        (s.world.durable.store.getWorkflow taskId).map (·.actionId) = some replacementId) :=
    run_of_checked_any (by decide +kernel)
  obtain ⟨s, hrun, hcancelled, hsettled, htwice, haction⟩ := hexec
  have hrun := hrun.weaken (D := fun s event => settles s event = true ∧
    loses permanentCoordinationFailure s event = false) fun s event h => by simpa using h
  obtain ⟨r, hr, -, hinformed⟩ :=
    cancellation_reaches_coordination platform permanentCoordinationFailure hrun taskId
      (by simp [hcancelled])
  rw [hr, Option.map_some, Option.some.injEq] at haction
  exact ⟨s, hrun, hcancelled, hsettled, htwice, haction ▸ hinformed hsettled⟩

/-- The answer of Coordination is lost, the caller cancels, and nobody tells Coordination. -/
theorem lost_creation_not_cancelled : ∃ s,
    Run (watchedStep platform permanentCoordinationFailure) Free {}
      (handedOver ++ [act (.reply taskId (.coordination (.error (plainError "socket hang up")))),
        act (.cancel taskId)]) s ∧
    s.cancelled = [taskId] ∧ inFlight s.world taskId = false ∧
    ¬ Informed s taskId replacementId :=
  run_of_exec_any (by decide +kernel)

end

end Mpas.WorkflowEngine
