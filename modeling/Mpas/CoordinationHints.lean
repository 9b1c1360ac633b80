import Mpas.CoordinationGrants

/-!
# Hints

What a DID hears on its sockets. A socket's end takes it out of the set it was added to, and takes
the DID's set away when that leaves nobody. The second end of one socket, its `close` after its
`error`, can come when its DID has another set.

* `hints_reach_sockets`: the answer to an operation is told on the open sockets of its recipients;
* `hint_missed`: a late end takes the set of an open socket away.
-/

namespace Mpas.CoordinationServer

open NotificationHub (Registered isCurrent)

variable {μ : Type} {platform : Platform μ} {w w' : World μ} {event : Event μ}
  {handler : Handler μ}

/-- A socket that ends was added to the set that its DID has now. -/
def endsCurrent (w : World μ) : Event μ → Bool
  | .remove i => (w.hub.sockets[i]?).all (isCurrent w.hub)
  | _ => true

theorem connect_registered (h : Registered w.hub) (did : Did) (origin : Nat) :
    Registered (connect platform w did origin).hub := by
  unfold connect
  dsimp only
  split
  · exact (h.bind did origin).notify _ _
  · exact h.bind did origin

theorem upgrade_registered (h : Registered w.hub) (authorization : Option String)
    (handshake : Bool) : Registered (upgrade platform w authorization handshake).hub := by
  unfold upgrade
  split
  · exact h
  rename_i key record _
  have hconsumed : Registered (w.hub.consume key) := h.tickets _
  dsimp only
  split
  · exact connect_registered (w := { w with hub := w.hub.consume key }) hconsumed _ _
  · exact hconsumed

theorem moved_registered (h : Registered w.hub) {i : Nat} (hmoved : Moved platform w i handler w') :
    Registered w'.hub := by
  cases hmoved with
  | issued => exact h.tickets _
  | finished => exact h.notify _ _
  | replied | polled | claimed | joined | started => exact h

theorem step_registered (h : Registered w.hub) (hcurrent : endsCurrent w event = true)
    (hs : step platform w event = some w') : Registered w'.hub := by
  cases event with
  | proceed i ticket =>
    obtain ⟨moving, -, hs⟩ := Option.bind_eq_some_iff.mp hs
    exact moved_registered h (proceed_moved hs)
  | upgrade authorization handshake =>
    cases hs
    exact upgrade_registered h authorization handshake
  | tick ms =>
    cases hs
    exact h
  | receive request =>
    cases hs
    exact h
  | run p =>
    obtain ⟨job, -, hs⟩ := Option.bind_eq_some_iff.mp hs
    obtain ⟨-, calls, -, -, rfl⟩ := run_eq_some hs
    exact h
  | handle p =>
    obtain ⟨calls, -, -, rfl⟩ := handle_eq_some hs
    exact h
  | shut i =>
    cases hs
    exact h.shut i
  | remove i =>
    obtain ⟨socket, hsocket, hclosed, rfl⟩ := remove_eq_some hs
    rw [endsCurrent, hsocket] at hcurrent
    exact h.remove hsocket hclosed hcurrent

/-- The answer that a handler is about to give, with what it was asked. -/
def World.answer (w : World μ) (i : Nat) : Option (Coordination.Response × Order) := do
  let handler ← w.handlers[i]?
  match handler.phase with
  | .awaiting p order =>
    match ← (← w.jobs[p]?).result with
    | .ok response => some (response, order)
    | .error _ => none
  | _ => none

theorem step_answer {i : Nat} {response : Coordination.Response} {order : Order}
    (h : w.answer i = some (response, order)) (ticket : String) :
    ∃ w', step platform w (.proceed i ticket) = some w' ∧
      w'.hub = w.hub.notify w.store.records.length (recipients w response order) := by
  obtain ⟨handler, hhandler, h⟩ := Option.bind_eq_some_iff.mp h
  split at h
  · rename_i p asked hphase
    obtain ⟨job, hjob, h⟩ := Option.bind_eq_some_iff.mp h
    obtain ⟨result, hresult, h⟩ := Option.bind_eq_some_iff.mp h
    split at h
    · cases h
      refine ⟨finish w i handler order (.ok response), ?_, rfl⟩
      simp only [step, hhandler, Option.bind_some, proceed, hphase, hjob, hresult, Option.map_some]
    · cases h
  · cases h

/-- **Hints.** As long as a socket that ends was in the set that its DID still has, the answer to
an operation is told once on every open socket of its recipients, and on no other. -/
theorem hints_reach_sockets (platform : Platform μ) (events : List (Event μ)) (w : World μ)
    (h : Machine.Run (step platform) (fun w event => endsCurrent w event = true) {} events w)
    {i : Nat} {response : Coordination.Response} {order : Order}
    (hanswer : w.answer i = some (response, order)) (ticket : String) :
    ∃ w', step platform w (.proceed i ticket) = some w' ∧ ∀ k : Nat,
      w'.hub.sockets[k]? = (w.hub.sockets[k]?).map fun socket =>
        if socket.isOpen = true ∧ socket.did ∈ recipients w response order then
          { socket with frames := socket.frames ++ [w.store.records.length] }
        else socket := by
  have hregistered : Registered w.hub :=
    h.invariant (I := fun w => Registered w.hub)
      (fun _ _ _ hregistered hcurrent hs => step_registered hregistered hcurrent hs)
      NotificationHub.registered_empty
  obtain ⟨w', hs, hhub⟩ := step_answer hanswer ticket
  refine ⟨w', hs, fun k => ?_⟩
  rw [hhub]
  exact hregistered.notify_sockets _ _ k

section Example

/-- Alice has two tickets. -/
def hintPlatform : Platform SignedMessage :=
  { signedPlatform with
    hashTicket := fun ticket =>
      if ticket = "QWxpY2UgaXMgYmFjayB3aXRoIGEgbmV3IHNlc3Npb24" then
        "iTPI9D-_-AsvDWxhm6CCalqKxfKnCsEQVhRyetEKqHE"
      else signedPlatform.hashTicket ticket }

/-- Her first socket ends with an error before her Approval is answered, and she opens another. -/
def reconnectedEvents : List (Event SignedMessage) :=
  approvedEvents.dropLast ++ [.shut 0, .remove 0,
    .receive (signedBy "did:web:alice" "n3" 1735689840 .session sessionBody),
    .proceed 3 "", .proceed 3 "QWxpY2UgaXMgYmFjayB3aXRoIGEgbmV3IHNlc3Npb24",
    .upgrade (some "Bearer QWxpY2UgaXMgYmFjayB3aXRoIGEgbmV3IHNlc3Npb24") true]

theorem hints_reach_sockets_reconnected : ∃ w w',
    Machine.Run (step hintPlatform) (fun w event => endsCurrent w event = true) {}
      reconnectedEvents w ∧
    step hintPlatform w (.proceed 1 "") = some w' ∧
    w'.hub.sockets[0]? = some ⟨"did:web:alice", 0, 2, false, []⟩ ∧
    w'.hub.sockets[1]? = some ⟨"did:web:alice", 1, 3, true, [1]⟩ := by
  obtain ⟨w, hrun, hsockets, hasked, hcount⟩ : ∃ w,
      Machine.Run (step hintPlatform) (fun w event => endsCurrent w event = true) {}
        reconnectedEvents w ∧
      w.hub.sockets = [⟨"did:web:alice", 0, 2, false, []⟩, ⟨"did:web:alice", 1, 3, true, []⟩] ∧
      ((w.answer 1).any fun answer =>
        decide ("did:web:alice" ∈ recipients w answer.1 answer.2)) = true ∧
      w.store.records.length = 1 :=
    Machine.run_of_checked_any (by decide +kernel)
  obtain ⟨⟨response, order⟩, hanswer, htold⟩ := (Option.any_eq_true _ _).mp hasked
  obtain ⟨w', hs, hafter⟩ := hints_reach_sockets hintPlatform reconnectedEvents w hrun hanswer ""
  refine ⟨w, w', hrun, hs, ?_, ?_⟩
  · rw [hafter, hsockets]
    rfl
  · rw [hafter, hsockets, hcount]
    simp [of_decide_eq_true htold]

/-- The first socket's `close` comes when the second one is open. -/
theorem hint_missed : ∃ w,
    Machine.Run (step hintPlatform) Machine.Free {}
      (reconnectedEvents ++ [.remove 0, .proceed 1 ""]) w ∧
    (w.hub.sockets.map fun socket => (socket.did, socket.isOpen, socket.frames)) =
      [("did:web:alice", false, []), ("did:web:alice", true, [])] :=
  Machine.run_of_exec_any (by decide +kernel)

end Example

end Mpas.CoordinationServer
