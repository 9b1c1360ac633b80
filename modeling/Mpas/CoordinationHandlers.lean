import Mpas.CoordinationServer

/-!
# The handlers of the Coordination server

What one move of a handler can do, whichever endpoint it serves, and what every step of the
server keeps: a handler that has begun its operation has done so for good, and an operation
waits for the handler that started it.

* `Moved`, `proceed_moved`: the moves;
* `Ordered`: operations, jobs and the handlers that wait for them.
-/

namespace Mpas.CoordinationServer

open Coordination (CoordinationStore CoordinationError Response Operation Call Consistent)

variable {μ : Type}

/-! ## What a move of a handler does -/

section Moves

variable {platform : Platform μ} {w w' : World μ} {i : Nat} {handler : Handler μ} {ticket : String}

/-- The nonce is claimed, or the server enforces no authentication. -/
inductive Ready (platform : Platform μ) (w : World μ) (handler : Handler μ) : Task → Prop
  | granted {task : Task} : handler.phase = .claiming true task → Ready platform w handler task
  | unenforced {task : Task} : handler.phase = .authenticating → platform.enforcement = false →
      admitRequest platform w.store w.readings none handler.request = .ok (.task task) →
      Ready platform w handler task

/-- The claim that a handler makes at the clock of the server. -/
def World.claimOf (w : World μ) (success : MpasAuthSuccess) : NonceStore.Claim :=
  ⟨success.did, success.nonce, success.expires, w.clock⟩

/-- The handler once its claim is answered. -/
def Handler.claimed (handler : Handler μ) (claim : NonceStore.Claim) (granted : Bool) (task : Task) :
    Handler μ :=
  { handler with
    grant := if granted then some claim else none
    phase := .claiming granted task }

/-- A handler gives up only on an error of its operation. -/
def GivesUp (w : World μ) (handler : Handler μ) : Prop :=
  ∀ p order, handler.phase = .awaiting p order →
    ∃ job error, w.jobs[p]? = some job ∧ job.result = some (.error error)

inductive Moved (platform : Platform μ) (w : World μ) (i : Nat) (handler : Handler μ) : World μ → Prop
  | replied {calls : Idempotency.State} {reply : Reply} : GivesUp w handler →
      calls.clock = w.calls.clock → calls.operations.length = w.calls.operations.length →
      Moved platform w i handler ({ w with calls := calls }.setHandler i (handler.reply reply))
  | polled {did : Did} {reply : Reply} : handler.phase = .authenticating →
      Moved platform w i handler
        ({ w with store := (w.store.poll platform.runtime w.readings did).2 }.setHandler i
          (handler.reply reply))
  | claimed {success : MpasAuthSuccess} {task : Task} : handler.phase = .authenticating →
      platform.verifyMpasRfc9421 handler.request.message handler.startedAt = .ok success →
      admitRequest platform w.store w.readings (some success) handler.request = .ok (.task task) →
      Moved platform w i handler
        ({ w with nonces := (NonceStore.claimNonce w.nonces (w.claimOf success)).2 }.setHandler i
          (handler.claimed (w.claimOf success)
            (NonceStore.claimNonce w.nonces (w.claimOf success)).1 task))
  | issued {did : Did} {ticket : String} {reply : Reply} : Ready platform w handler (.session did) →
      Moved platform w i handler
        ({ w with hub := (w.hub.issue platform.hashTicket w.clock i did ticket).1 }.setHandler i
          (handler.reply reply))
  | joined {did : Did} {key : Option String} {body : Json} {order : Order}
      {calls : Idempotency.State} {p : Nat} : Ready platform w handler (.call did key body order) →
      calls.clock = w.calls.clock → calls.operations.length = w.calls.operations.length →
      Moved platform w i handler
        ({ w with calls := calls }.setHandler i { handler with phase := .awaiting p order })
  | started {did : Did} {key : Option String} {body : Json} {order : Order}
      {calls : Idempotency.State} : Ready platform w handler (.call did key body order) →
      calls.clock = w.calls.clock → calls.operations.length = w.calls.operations.length + 1 →
      Moved platform w i handler
        ({ w with
          calls := calls
          jobs := w.jobs ++ [Job.mk order.operation i none] }.setHandler i
          { handler with phase := .awaiting w.calls.operations.length order })
  | finished {p : Nat} {order : Order} {job : Job} {response : Response} :
      handler.phase = .awaiting p order → w.jobs[p]? = some job →
      job.result = some (.ok response) →
      Moved platform w i handler
        ({ w with
            hub := w.hub.notify w.store.records.length (recipients w response order) }.setHandler i
          (handler.reply (.response (statusCode response) response)))

theorem runIdempotent_outcome (routing : Mpas.Platform) (state : Idempotency.State)
    (service : Idempotency.Service) (did : Did) (key : Option String) (request : Json) :
    (Idempotency.runIdempotent routing state service did key request).2.clock = state.clock ∧
      ((Idempotency.runIdempotent routing state service did key request).2.operations.length =
          state.operations.length ∨
        (Idempotency.runIdempotent routing state service did key request).2.operations.length =
            state.operations.length + 1 ∧
          (Idempotency.runIdempotent routing state service did key request).1 =
            .ok state.operations.length) := by
  unfold Idempotency.runIdempotent
  dsimp only
  split
  · exact ⟨rfl, .inr ⟨by simp [Idempotency.State.start], rfl⟩⟩
  split
  · exact ⟨rfl, .inl rfl⟩
  split
  · split <;> exact ⟨rfl, .inl rfl⟩
  · refine ⟨rfl, .inr ⟨?_, rfl⟩⟩
    simp [Idempotency.State.start, Idempotency.State.sweep]

theorem Moved.reply (reply : Reply) (h : GivesUp w handler) :
    Moved platform w i handler (w.setHandler i (handler.reply reply)) :=
  .replied h rfl rfl

theorem Ready.givesUp {task : Task} (h : Ready platform w handler task) : GivesUp w handler := by
  intro p order hphase
  cases h with
  | granted hready => rw [hready] at hphase; cases hphase
  | unenforced hready => rw [hready] at hphase; cases hphase

theorem start_moved {did : Did} {key : Option String} {body : Json} {order : Order}
    (hready : Ready platform w handler (.call did key body order)) :
    Moved platform w i handler (start platform w i handler did key body order) := by
  obtain ⟨hclock, hlength | ⟨hlength, hplace⟩⟩ :=
    runIdempotent_outcome platform.routing w.calls .coordination did key body
  · unfold start
    dsimp only
    rw [if_neg (by omega)]
    split
    · exact .replied hready.givesUp hclock hlength
    · exact .joined hready hclock hlength
  · unfold start
    dsimp only
    rw [if_pos (by omega), hplace]
    exact .started hready hclock hlength

theorem begin_moved {task : Task} (hready : Ready platform w handler task) :
    Moved platform w i handler (begin platform w i handler ticket task) := by
  cases task with
  | session did =>
    unfold begin
    dsimp only
    split
    · exact .reply _ hready.givesUp
    · exact .issued hready
  | call did key body order => exact start_moved hready

/-- **One move.** -/
theorem proceed_moved (h : proceed platform w i handler ticket = some w') :
    Moved platform w i handler w' := by
  unfold proceed at h
  split at h
  · rename_i hphase
    have hgives : GivesUp w handler := by
      intro p order hawaiting
      rw [hphase] at hawaiting
      cases hawaiting
    cases h
    unfold afterAuthentication
    split
    · exact .reply _ hgives
    rename_i authenticated hauthenticated
    split
    · exact .reply _ hgives
    · exact .polled hphase
    rename_i task hadmitted
    unfold authenticateRequest at hauthenticated
    split at hauthenticated
    · split at hauthenticated
      · rename_i success hverified
        cases hauthenticated
        exact .claimed hphase hverified hadmitted
      · cases hauthenticated
    · rename_i henforcement
      cases hauthenticated
      exact begin_moved (.unenforced hphase (by simpa using henforcement) hadmitted)
  · rename_i task hphase
    cases h
    exact begin_moved (.granted hphase)
  · rename_i task hphase
    cases h
    refine .reply _ ?_
    intro p order hawaiting
    rw [hphase] at hawaiting
    cases hawaiting
  · rename_i p order hphase
    obtain ⟨result, hresult, rfl⟩ := Option.map_eq_some_iff.mp h
    obtain ⟨job, hjob, hresult⟩ := Option.bind_eq_some_iff.mp hresult
    cases result with
    | error error =>
      refine .reply _ ?_
      intro p' order' hawaiting
      rw [hphase] at hawaiting
      cases hawaiting
      exact ⟨job, error, hjob, hresult⟩
    | ok response => exact .finished hphase hjob hresult
  · cases h

end Moves

/-! ## What a step keeps -/

section Steps

variable {platform : Platform μ} {w w' : World μ} {event : Event μ}

/-- The handler has started its operation, or has none. -/
def Handler.Begun (handler : Handler μ) : Prop :=
  (∃ p order, handler.phase = .awaiting p order) ∨ ∃ reply, handler.phase = .replied reply

/-- A handler is for one request; its claim, and that it has begun, are for good. -/
structure Keeps (handler handler' : Handler μ) : Prop where
  request : handler'.request = handler.request
  startedAt : handler'.startedAt = handler.startedAt
  grant : handler.phase ≠ .authenticating → handler'.grant = handler.grant
  phase : handler.phase ≠ .authenticating → handler'.phase ≠ .authenticating
  begun : handler.Begun → handler'.Begun

theorem Keeps.refl (handler : Handler μ) : Keeps handler handler :=
  ⟨rfl, rfl, fun _ => rfl, id, id⟩

theorem Handler.Begun.not_authenticating {handler : Handler μ} (h : handler.Begun) :
    handler.phase ≠ .authenticating := by
  rintro hphase
  rcases h with ⟨p, order, h⟩ | ⟨reply, h⟩ <;> rw [hphase] at h <;> cases h

theorem Ready.not_begun {handler : Handler μ} {task : Task} (h : Ready platform w handler task) :
    ¬handler.Begun := by
  intro hbegun
  cases h with
  | granted hphase =>
    rcases hbegun with ⟨p, order, h⟩ | ⟨reply, h⟩ <;> rw [hphase] at h <;> cases h
  | unenforced hphase => exact hbegun.not_authenticating hphase

theorem keeps_reply (handler : Handler μ) (reply : Reply) : Keeps handler (handler.reply reply) :=
  ⟨rfl, rfl, fun _ => rfl, fun _ h => (by cases h), fun _ => .inr ⟨reply, rfl⟩⟩

theorem keeps_awaiting (handler : Handler μ) (p : Nat) (order : Order) :
    Keeps handler { handler with phase := .awaiting p order } :=
  ⟨rfl, rfl, fun _ => rfl, fun _ h => (by cases h), fun _ => .inl ⟨p, order, rfl⟩⟩

/-- A move rewrites the handler that moves. -/
theorem Moved.handlers {i : Nat} {handler : Handler μ} (h : Moved platform w i handler w') :
    ∃ handler', w'.handlers = w.handlers.set i handler' ∧ Keeps handler handler' := by
  cases h with
  | replied => exact ⟨_, rfl, keeps_reply ..⟩
  | polled => exact ⟨_, rfl, keeps_reply ..⟩
  | claimed hphase =>
    exact ⟨_, rfl, rfl, rfl, fun h => absurd hphase h, fun h => absurd hphase h,
      fun hbegun => absurd hphase hbegun.not_authenticating⟩
  | issued => exact ⟨_, rfl, keeps_reply ..⟩
  | joined => exact ⟨_, rfl, keeps_awaiting ..⟩
  | started => exact ⟨_, rfl, keeps_awaiting ..⟩
  | finished => exact ⟨_, rfl, keeps_reply ..⟩

theorem run_eq_some {p : Nat} {job : Job} (h : run platform w p job = some w') :
    job.result = none ∧ ∃ calls, calls.clock = w.calls.clock ∧
      calls.operations.length = w.calls.operations.length ∧
      w' = { w with
        calls
        store := (w.store.perform platform.runtime ⟨w.readings, job.operation⟩).2
        jobs := w.jobs.set p { job with
          result := some (w.store.perform platform.runtime ⟨w.readings, job.operation⟩).1 } } := by
  unfold run at h
  split at h
  · cases h
  rename_i hnone
  obtain ⟨calls, hcalls, rfl⟩ := Option.map_eq_some_iff.mp h
  obtain ⟨operation, settlement, -, -, rfl⟩ := Idempotency.step_settle hcalls
  refine ⟨by simpa using hnone, _, ?_, ?_, rfl⟩
  · rfl
  · exact List.length_set

theorem upgrade_same (platform : Platform μ) (w : World μ) (authorization : Option String)
    (handshake : Bool) :
    (upgrade platform w authorization handshake).handlers = w.handlers ∧
      (upgrade platform w authorization handshake).jobs = w.jobs ∧
      (upgrade platform w authorization handshake).calls = w.calls ∧
      (upgrade platform w authorization handshake).nonces = w.nonces := by
  unfold upgrade
  split
  · exact ⟨rfl, rfl, rfl, rfl⟩
  · dsimp only
    split <;> exact ⟨rfl, rfl, rfl, rfl⟩

theorem handle_eq_some {p : Nat} (h : step platform w (.handle p) = some w') :
    ∃ calls, calls.clock = w.calls.clock ∧
      calls.operations.length = w.calls.operations.length ∧ w' = { w with calls } := by
  obtain ⟨calls, hcalls, rfl⟩ := Option.map_eq_some_iff.mp h
  obtain ⟨operation, claim, -, -, -, rfl⟩ := Idempotency.step_handle hcalls
  refine ⟨_, ?_, ?_, rfl⟩
  · rfl
  · exact List.length_set

theorem remove_eq_some {i : Nat} (h : step platform w (.remove i) = some w') :
    ∃ socket, w.hub.sockets[i]? = some socket ∧ socket.isOpen = false ∧
      w' = { w with hub := w.hub.remove i socket } := by
  obtain ⟨socket, hsocket, h⟩ := Option.bind_eq_some_iff.mp h
  split at h
  · cases h
  · rename_i hclosed
    exact ⟨socket, hsocket, by simpa using hclosed, (Option.some.inj h).symm⟩

theorem step_handlers (h : step platform w event = some w') :
    Heap.Evolves Keeps w.handlers w'.handlers := by
  cases event with
  | tick ms =>
    cases h
    exact Heap.Evolves.refl Keeps.refl _
  | receive request =>
    cases h
    exact Heap.evolves_append Keeps.refl _ _
  | proceed i ticket =>
    obtain ⟨handler, hhandler, h⟩ := Option.bind_eq_some_iff.mp h
    obtain ⟨handler', hset, hkeeps⟩ := (proceed_moved h).handlers
    rw [hset]
    exact Heap.evolves_of_forall₂ (Heap.forall₂_set Keeps.refl hhandler hkeeps)
  | run p =>
    obtain ⟨job, -, h⟩ := Option.bind_eq_some_iff.mp h
    obtain ⟨-, calls, -, -, rfl⟩ := run_eq_some h
    exact Heap.Evolves.refl Keeps.refl _
  | handle p =>
    obtain ⟨calls, -, -, rfl⟩ := handle_eq_some h
    exact Heap.Evolves.refl Keeps.refl _
  | upgrade authorization handshake =>
    cases h
    rw [(upgrade_same platform w authorization handshake).1]
    exact Heap.Evolves.refl Keeps.refl _
  | shut i =>
    cases h
    exact Heap.Evolves.refl Keeps.refl _
  | remove i =>
    obtain ⟨socket, -, -, rfl⟩ := remove_eq_some h
    exact Heap.Evolves.refl Keeps.refl _

/-! ### The store -/

/-- An operation that changes no more than that records expire. -/
def Quiet : Operation → Prop
  | .poll _ => True
  | .hasOutstandingCoordinationWork _ => True
  | _ => False

theorem Moved.store {i : Nat} {handler : Handler μ} (h : Moved platform w i handler w') :
    w'.store = w.store ∨ ∃ call : Call, Quiet call.operation ∧
      w'.store = (w.store.perform platform.runtime call).2 := by
  cases h with
  | polled => exact .inr ⟨⟨w.readings, .poll _⟩, trivial, rfl⟩
  | replied => exact .inl rfl
  | claimed => exact .inl rfl
  | issued => exact .inl rfl
  | joined => exact .inl rfl
  | started => exact .inl rfl
  | finished => exact .inl rfl

theorem upgrade_store {authorization : Option String} {handshake : Bool} :
    (upgrade platform w authorization handshake).store = w.store ∨
      ∃ call : Call, Quiet call.operation ∧
        (upgrade platform w authorization handshake).store =
          (w.store.perform platform.runtime call).2 := by
  unfold upgrade
  split
  · exact .inl rfl
  · rename_i record _
    dsimp only
    split
    · exact .inr ⟨⟨w.readings, .hasOutstandingCoordinationWork record.did⟩, trivial, rfl⟩
    · exact .inl rfl

theorem step_store (h : step platform w event = some w') :
    w'.store = w.store ∨ ∃ call : Call,
      (Quiet call.operation ∨ ∃ job ∈ w.jobs, job.operation = call.operation) ∧
        w'.store = (w.store.perform platform.runtime call).2 := by
  cases event with
  | proceed i ticket =>
    obtain ⟨handler, -, h⟩ := Option.bind_eq_some_iff.mp h
    rcases (proceed_moved h).store with hsame | ⟨call, hquiet, hstore⟩
    · exact .inl hsame
    · exact .inr ⟨call, .inl hquiet, hstore⟩
  | run p =>
    obtain ⟨job, hjob, h⟩ := Option.bind_eq_some_iff.mp h
    obtain ⟨-, calls, -, -, rfl⟩ := run_eq_some h
    exact .inr ⟨_, .inr ⟨job, List.mem_of_getElem? hjob, rfl⟩, rfl⟩
  | upgrade authorization handshake =>
    cases h
    rcases upgrade_store with hsame | ⟨call, hquiet, hstore⟩
    · exact .inl hsame
    · exact .inr ⟨call, .inl hquiet, hstore⟩
  | tick ms =>
    cases h
    exact .inl rfl
  | receive request =>
    cases h
    exact .inl rfl
  | handle p =>
    obtain ⟨calls, -, -, rfl⟩ := handle_eq_some h
    exact .inl rfl
  | shut i =>
    cases h
    exact .inl rfl
  | remove i =>
    obtain ⟨socket, -, -, rfl⟩ := remove_eq_some h
    exact .inl rfl

theorem step_effect (hconsistent : Consistent w.store) (h : step platform w event = some w') :
    ∃ readings, Coordination.Effect platform.runtime readings w.store w'.store := by
  rcases step_store h with hsame | ⟨call, -, hstore⟩
  · refine ⟨w.readings, ?_⟩
    rw [hsame]
    exact Coordination.effect_self w.store
  · refine ⟨call.readings, ?_⟩
    rw [hstore]
    exact (Coordination.perform_effect hconsistent call).1

theorem step_consistent (hconsistent : Consistent w.store)
    (h : step platform w event = some w') : Consistent w'.store := by
  obtain ⟨readings, heffect⟩ := step_effect hconsistent h
  exact heffect.consistent hconsistent

/-! ### The jobs -/

theorem Moved.jobs {i : Nat} {handler : Handler μ} (h : Moved platform w i handler w') :
    w'.jobs = w.jobs ∨ ∃ did key body order, Ready platform w handler (.call did key body order) ∧
      w'.jobs = w.jobs ++ [⟨order.operation, i, none⟩] := by
  cases h with
  | started hready => exact .inr ⟨_, _, _, _, hready, rfl⟩
  | replied => exact .inl rfl
  | polled => exact .inl rfl
  | claimed => exact .inl rfl
  | issued => exact .inl rfl
  | joined => exact .inl rfl
  | finished => exact .inl rfl

/-- A job was there, or a handler that was ready has started it. -/
theorem step_jobs (h : step platform w event = some w') {job' : Job} (hjob' : job' ∈ w'.jobs) :
    (∃ job ∈ w.jobs, job'.operation = job.operation ∧ job'.origin = job.origin) ∨
      ∃ handler did key body order, w.handlers[job'.origin]? = some handler ∧
        Ready platform w handler (.call did key body order) ∧
        job'.operation = order.operation := by
  have hold : w'.jobs = w.jobs →
      ∃ job ∈ w.jobs, job'.operation = job.operation ∧ job'.origin = job.origin := by
    intro hsame
    exact ⟨job', hsame ▸ hjob', rfl, rfl⟩
  cases event with
  | proceed i ticket =>
    obtain ⟨handler, hhandler, h⟩ := Option.bind_eq_some_iff.mp h
    rcases (proceed_moved h).jobs with hsame | ⟨did, key, body, order, hready, hnew⟩
    · exact .inl (hold hsame)
    · rw [hnew] at hjob'
      rcases List.mem_append.mp hjob' with hmem | hmem
      · exact .inl ⟨job', hmem, rfl, rfl⟩
      · obtain rfl := List.mem_singleton.mp hmem
        exact .inr ⟨handler, did, key, body, order, hhandler, hready, rfl⟩
  | run p =>
    obtain ⟨job, hjob, h⟩ := Option.bind_eq_some_iff.mp h
    obtain ⟨-, calls, -, -, rfl⟩ := run_eq_some h
    rcases List.mem_or_eq_of_mem_set hjob' with hmem | rfl
    · exact .inl ⟨job', hmem, rfl, rfl⟩
    · exact .inl ⟨job, List.mem_of_getElem? hjob, rfl, rfl⟩
  | tick ms =>
    cases h
    exact .inl (hold rfl)
  | receive request =>
    cases h
    exact .inl (hold rfl)
  | handle p =>
    obtain ⟨calls, -, -, rfl⟩ := handle_eq_some h
    exact .inl (hold rfl)
  | upgrade authorization handshake =>
    cases h
    exact .inl (hold (upgrade_same platform w authorization handshake).2.1)
  | shut i =>
    cases h
    exact .inl (hold rfl)
  | remove i =>
    obtain ⟨socket, -, -, rfl⟩ := remove_eq_some h
    exact .inl (hold rfl)

/-- The same job, later. -/
def SameJob (job job' : Job) : Prop :=
  job'.operation = job.operation ∧ job'.origin = job.origin

theorem step_jobs_kept (h : step platform w event = some w') :
    Heap.Evolves SameJob w.jobs w'.jobs := by
  have hrefl : ∀ job, SameJob job job := fun job => ⟨rfl, rfl⟩
  cases event with
  | proceed i ticket =>
    obtain ⟨handler, -, h⟩ := Option.bind_eq_some_iff.mp h
    rcases (proceed_moved h).jobs with hsame | ⟨_, _, _, _, -, hnew⟩
    · rw [hsame]
      exact Heap.Evolves.refl hrefl _
    · rw [hnew]
      exact Heap.evolves_append hrefl _ _
  | run p =>
    obtain ⟨job, hjob, h⟩ := Option.bind_eq_some_iff.mp h
    obtain ⟨-, calls, -, -, rfl⟩ := run_eq_some h
    exact Heap.evolves_of_forall₂ (Heap.forall₂_set hrefl hjob ⟨rfl, rfl⟩)
  | tick ms =>
    cases h
    exact Heap.Evolves.refl hrefl _
  | receive request =>
    cases h
    exact Heap.Evolves.refl hrefl _
  | handle p =>
    obtain ⟨calls, -, -, rfl⟩ := handle_eq_some h
    exact Heap.Evolves.refl hrefl _
  | upgrade authorization handshake =>
    cases h
    rw [(upgrade_same platform w authorization handshake).2.1]
    exact Heap.Evolves.refl hrefl _
  | shut i =>
    cases h
    exact Heap.Evolves.refl hrefl _
  | remove i =>
    obtain ⟨socket, -, -, rfl⟩ := remove_eq_some h
    exact Heap.Evolves.refl hrefl _

theorem map_set_same {α β : Type*} {f : α → β} {xs : List α} {p : Nat} {x y : α}
    (hx : xs[p]? = some x) (hf : f y = f x) : (xs.set p y).map f = xs.map f := by
  apply List.ext_getElem?
  intro q
  rw [List.getElem?_map, List.getElem?_map]
  by_cases hp : p = q
  · subst hp
    rw [List.getElem?_set_self (List.getElem?_eq_some_iff.mp hx).1, hx, Option.map_some,
      Option.map_some, hf]
  · rw [List.getElem?_set_ne hp]

/-- A job waits for its result together with the handler that started it. -/
def Job.Waits (p : Nat) (job : Job) (handler : Handler μ) : Prop :=
  (∃ order, handler.phase = .awaiting p order ∧ job.operation = order.operation) ∨
    job.result ≠ none ∧ ∃ reply, handler.phase = .replied reply

theorem Job.Waits.begun {p : Nat} {job : Job} {handler : Handler μ} (h : job.Waits p handler) :
    handler.Begun := by
  rcases h with ⟨order, h, -⟩ | ⟨-, reply, h⟩
  · exact .inl ⟨p, order, h⟩
  · exact .inr ⟨reply, h⟩

/-- Each operation is one job, and no handler has started two. -/
structure Ordered (w : World μ) : Prop where
  length : w.jobs.length = w.calls.operations.length
  origins : (w.jobs.map (·.origin)).Nodup
  waits : ∀ (p : Nat) (job : Job), w.jobs[p]? = some job →
    ∃ handler, w.handlers[job.origin]? = some handler ∧ job.Waits p handler

theorem ordered_empty : Ordered ({} : World μ) where
  length := rfl
  origins := List.nodup_nil
  waits p job h := by simp at h

theorem Ordered.of_same (h : Ordered w) (hjobs : w'.jobs = w.jobs)
    (hhandlers : w'.handlers = w.handlers)
    (hlength : w'.calls.operations.length = w.calls.operations.length) : Ordered w' where
  length := by
    rw [hjobs, hlength]
    exact h.length
  origins := by
    rw [hjobs]
    exact h.origins
  waits := by
    rw [hjobs, hhandlers]
    exact h.waits

/-- A move that starts no job leaves each job's handler waiting, or the job has its result. -/
theorem Ordered.set (h : Ordered w) {i : Nat} {handler handler' : Handler μ}
    (hhandler : w.handlers[i]? = some handler) (hjobs : w'.jobs = w.jobs)
    (hlength : w'.calls.operations.length = w.calls.operations.length)
    (hhandlers : w'.handlers = w.handlers.set i handler')
    (hwaits : ∀ (p : Nat) (job : Job), w.jobs[p]? = some job → job.Waits p handler →
      job.Waits p handler') :
    Ordered w' where
  length := by
    rw [hjobs, hlength]
    exact h.length
  origins := by
    rw [hjobs]
    exact h.origins
  waits := by
    intro p job hjob
    rw [hjobs] at hjob
    obtain ⟨found, hfound, hwait⟩ := h.waits p job hjob
    rw [hhandlers]
    by_cases horigin : i = job.origin
    · subst horigin
      rw [hhandler] at hfound
      obtain rfl := Option.some.inj hfound
      exact ⟨handler', List.getElem?_set_self (List.getElem?_eq_some_iff.mp hhandler).1,
        hwaits p job hjob hwait⟩
    · exact ⟨found, by rw [List.getElem?_set_ne horigin, hfound], hwait⟩

/-- The handler of a job is not about to begin one. -/
theorem Ordered.not_ready (h : Ordered w) {i : Nat} {handler : Handler μ} {task : Task}
    (hhandler : w.handlers[i]? = some handler) (hready : Ready platform w handler task) :
    i ∉ w.jobs.map (·.origin) := by
  intro hmem
  obtain ⟨job, hjob, rfl⟩ := List.mem_map.mp hmem
  obtain ⟨p, hp⟩ := List.getElem?_of_mem hjob
  obtain ⟨found, hfound, hwaits⟩ := h.waits p job hp
  rw [hhandler] at hfound
  obtain rfl := Option.some.inj hfound
  exact hready.not_begun hwaits.begun

theorem Ordered.moved (h : Ordered w) {i : Nat} {handler : Handler μ}
    (hhandler : w.handlers[i]? = some handler) (hmoved : Moved platform w i handler w') :
    Ordered w' := by
  cases hmoved with
  | replied hgives _ hlength =>
    refine h.set hhandler rfl hlength rfl ?_
    rintro p job hjob (⟨order, hphase, -⟩ | ⟨hresult, -⟩)
    · obtain ⟨found, error, hfound, hresult⟩ := hgives p order hphase
      rw [hjob] at hfound
      rw [← Option.some.inj hfound] at hresult
      exact .inr ⟨by simp [hresult], _, rfl⟩
    · exact .inr ⟨hresult, _, rfl⟩
  | polled hphase =>
    exact h.set hhandler rfl rfl rfl fun p job _ hwaits =>
      absurd hphase hwaits.begun.not_authenticating
  | claimed hphase =>
    exact h.set hhandler rfl rfl rfl fun p job _ hwaits =>
      absurd hphase hwaits.begun.not_authenticating
  | issued hready =>
    exact h.set hhandler rfl rfl rfl fun p job _ hwaits =>
      absurd hwaits.begun hready.not_begun
  | joined hready _ hlength =>
    exact h.set hhandler rfl hlength rfl fun p job _ hwaits =>
      absurd hwaits.begun hready.not_begun
  | finished hphase hjob hresult =>
    refine h.set hhandler rfl rfl rfl ?_
    rintro p job hlook (⟨order, hawaiting, -⟩ | ⟨hresult', -⟩)
    · rw [hphase] at hawaiting
      cases hawaiting
      rw [hjob] at hlook
      rw [← Option.some.inj hlook]
      exact .inr ⟨by simp [hresult], _, rfl⟩
    · exact .inr ⟨hresult', _, rfl⟩
  | @started did key body order calls hready _ hlength =>
    have hfresh := h.not_ready hhandler hready
    have hset : ∀ handler' : Handler μ, (w.handlers.set i handler')[i]? = some handler' :=
      fun _ => List.getElem?_set_self (List.getElem?_eq_some_iff.mp hhandler).1
    refine ⟨?_, ?_, ?_⟩
    · change (w.jobs ++ [_]).length = calls.operations.length
      rw [List.length_append, List.length_singleton, h.length, hlength]
    · change ((w.jobs ++ [Job.mk order.operation i none]).map (·.origin)).Nodup
      rw [List.map_append]
      refine List.nodup_append.mpr ⟨h.origins, List.nodup_singleton _, ?_⟩
      intro origin hmem last hlast hsame
      obtain rfl : last = i := List.mem_singleton.mp hlast
      rw [hsame] at hmem
      exact hfresh hmem
    · intro p job hjob
      change (w.jobs ++ [Job.mk order.operation i none])[p]? = some job at hjob
      rcases Nat.lt_or_ge p w.jobs.length with hlt | hge
      · rw [List.getElem?_append_left hlt] at hjob
        obtain ⟨found, hfound, hwaits⟩ := h.waits p job hjob
        have hne : i ≠ job.origin := by
          rintro rfl
          exact hfresh (List.mem_map_of_mem (List.mem_of_getElem? hjob))
        refine ⟨found, ?_, hwaits⟩
        change (w.handlers.set i _)[job.origin]? = some found
        rw [List.getElem?_set_ne hne, hfound]
      · rw [List.getElem?_append_right hge] at hjob
        obtain ⟨hlt, hsame⟩ := List.getElem?_eq_some_iff.mp hjob
        rw [List.length_singleton] at hlt
        have hp : p = w.jobs.length := by omega
        subst hp
        simp only [Nat.sub_self, List.getElem_cons_zero] at hsame
        subst hsame
        refine ⟨_, hset _, .inl ⟨order, ?_, rfl⟩⟩
        rw [h.length]

theorem Ordered.step (h : Ordered w) (hs : step platform w event = some w') : Ordered w' := by
  cases event with
  | tick ms =>
    cases hs
    exact h.of_same rfl rfl rfl
  | receive request =>
    cases hs
    refine ⟨h.length, h.origins, ?_⟩
    intro p job hjob
    obtain ⟨handler, hhandler, hwaits⟩ := h.waits p job hjob
    refine ⟨handler, ?_, hwaits⟩
    rw [List.getElem?_append_left (List.getElem?_eq_some_iff.mp hhandler).1, hhandler]
  | proceed i ticket =>
    obtain ⟨handler, hhandler, hs⟩ := Option.bind_eq_some_iff.mp hs
    exact h.moved hhandler (proceed_moved hs)
  | run p =>
    obtain ⟨job, hjob, hs⟩ := Option.bind_eq_some_iff.mp hs
    obtain ⟨-, calls, -, hlength, rfl⟩ := run_eq_some hs
    refine ⟨?_, ?_, ?_⟩
    · change (w.jobs.set p _).length = calls.operations.length
      rw [List.length_set, h.length, hlength]
    · have horigins : (w.jobs.set p { job with
          result := some (w.store.perform platform.runtime ⟨w.readings, job.operation⟩).1 }).map
            (·.origin) = w.jobs.map (·.origin) := map_set_same hjob rfl
      rw [horigins]
      exact h.origins
    · intro q job' hjob'
      change (w.jobs.set p _)[q]? = some job' at hjob'
      by_cases hp : p = q
      · subst hp
        rw [List.getElem?_set_self (List.getElem?_eq_some_iff.mp hjob).1] at hjob'
        obtain rfl := Option.some.inj hjob'
        obtain ⟨handler, hhandler, hwaits⟩ := h.waits p job hjob
        refine ⟨handler, hhandler, ?_⟩
        rcases hwaits with hawaiting | ⟨-, hreplied⟩
        · exact .inl hawaiting
        · exact .inr ⟨Option.some_ne_none _, hreplied⟩
      · rw [List.getElem?_set_ne hp] at hjob'
        exact h.waits q job' hjob'
  | handle p =>
    obtain ⟨calls, -, hlength, rfl⟩ := handle_eq_some hs
    exact h.of_same rfl rfl hlength
  | upgrade authorization handshake =>
    cases hs
    obtain ⟨hhandlers, hjobs, hcalls, -⟩ := upgrade_same platform w authorization handshake
    exact h.of_same hjobs hhandlers (by rw [hcalls])
  | shut i =>
    cases hs
    exact h.of_same rfl rfl rfl
  | remove i =>
    obtain ⟨socket, -, -, rfl⟩ := remove_eq_some hs
    exact h.of_same rfl rfl rfl

/-! ### Runs -/

/-- What holds of the server in every run, whatever it enforces. -/
structure Stable (w : World μ) : Prop where
  consistent : Consistent w.store
  ordered : Ordered w

theorem stable_empty : Stable ({} : World μ) := ⟨Coordination.consistent_empty, ordered_empty⟩

theorem Stable.step (h : Stable w) (hs : step platform w event = some w') : Stable w' :=
  ⟨step_consistent h.consistent hs, h.ordered.step hs⟩

end Steps

end Mpas.CoordinationServer
