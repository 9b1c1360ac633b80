import Mpas.AdapterServer

/-!
# Dispatch at most once, and none left hanging

* `dispatch_at_most_once`: over any run, crashes and restarts included, an
  Action ID is transmitted at most once, after its journal entry was written,
  and never if the first journal already lists it;
* `none_hanging`: in a run in which nothing fails between the authorization of
  a dispatch and its record, whatever the ledger has as executing can be joined.
-/

namespace Mpas.AdapterServer

open DispatchLedger Machine

/-! ## What a step does -/

@[simp] theorem setPhase_entries (server : Server) (h : Nat) (handler : Handler) (phase : Phase) :
    (server.setPhase h handler phase).entries = server.entries := rfl

@[simp] theorem setPhase_inFlight (server : Server) (h : Nat) (handler : Handler) (phase : Phase) :
    (server.setPhase h handler phase).inFlight = server.inFlight := rfl

theorem joinDispatch_phase (server : Server) (h : Nat) (handler : Handler) (ownsSession : Bool) :
    (∃ entry sameRequest, joinDispatch server h handler ownsSession =
      server.setPhase h handler (.joining entry sameRequest ownsSession)) ∨
    joinDispatch server h handler ownsSession =
      server.setPhase h handler (.finished .exception) := by
  unfold joinDispatch
  split
  · exact Or.inl ⟨_, _, rfl⟩
  · split
    · exact Or.inr rfl
    · exact Or.inl ⟨_, _, rfl⟩

@[simp] theorem joinDispatch_entries (server : Server) (h : Nat) (handler : Handler)
    (ownsSession : Bool) : (joinDispatch server h handler ownsSession).entries = server.entries := by
  rcases joinDispatch_phase server h handler ownsSession with ⟨_, _, heq⟩ | heq <;> rw [heq] <;> rfl

theorem submit_phase (server : Server) (h : Nat) (submission : Submission)
    (wellFormed timely : Bool) :
    ∃ phase, submit server h submission wellFormed timely =
        server.setPhase h { submission, phase := .verifying } phase ∧
      (phase = .verifying ∨ (∃ entry sameRequest ownsSession,
        phase = .joining entry sameRequest ownsSession) ∨ ∃ answer, phase = .finished answer) := by
  unfold submit
  split
  · exact ⟨_, rfl, Or.inr (Or.inr ⟨_, rfl⟩)⟩
  · split
    · rcases joinDispatch_phase server h { submission, phase := .verifying } false with
        ⟨_, _, heq⟩ | heq
      · exact ⟨_, heq, Or.inr (Or.inl ⟨_, _, _, rfl⟩)⟩
      · exact ⟨_, heq, Or.inr (Or.inr ⟨_, rfl⟩)⟩
    · exact ⟨_, rfl, Or.inr (Or.inr ⟨_, rfl⟩)⟩
    · split
      · exact ⟨_, rfl, Or.inl rfl⟩
      · exact ⟨_, rfl, Or.inr (Or.inr ⟨_, rfl⟩)⟩

section Steps

variable (w : World) {w' : World} (server : Server) (h : Nat) (handler : Handler) {reply : Reply}

/-- A reply moves its handler on, authorizes a dispatch, or records one. -/
theorem resume_cases {w server h handler} (hr : resume w server h handler reply = some w') :
    (∃ server', w' = { w with server := some server' } ∧ server'.entries = server.entries) ∨
    (∃ now append, handler.phase = .preparing ∧ reply = .prepared true now append ∧
      w' = authorize w server h handler now append) ∨
    ∃ classified receipt now append, handler.phase = .signing classified ∧
      reply = .receipt (some receipt) now append ∧
      w' = record w server h handler classified receipt now append := by
  unfold resume at hr
  simp only at hr
  split at hr
  case h_5 ok now append hphase =>
    cases ok
    · cases hr
      exact Or.inl ⟨_, rfl, rfl⟩
    · cases hr
      exact Or.inr (Or.inl ⟨now, append, hphase, rfl, rfl⟩)
  case h_6 =>
    split at hr
    · split at hr
      · cases hr
        exact Or.inl ⟨_, rfl, rfl⟩
      · cases hr
    · split at hr <;> cases hr <;> exact Or.inl ⟨_, rfl, rfl⟩
  case h_8 =>
    obtain ⟨response, -, hr⟩ := Option.bind_eq_some_iff.mp hr
    cases hr
    exact Or.inl ⟨_, rfl, rfl⟩
  case h_14 classified receipt now append hphase =>
    cases hr
    exact Or.inr (Or.inr ⟨classified, receipt, now, append, hphase, rfl, rfl⟩)
  case h_16 => cases hr
  all_goals
    cases hr
    exact Or.inl ⟨_, rfl, rfl⟩

/-- The gate: it dispatches only what the ledger did not know, with the journal
written; otherwise no entry changes. -/
theorem authorize_cases (now : Timestamp) (append : AppendOutcome) :
    (check server.entries handler.submission.actionId handler.submission.envelopeHash = .absent ∧
      append = .returned ∧
      authorize w server h handler now append = startDispatch
        { w with journal := w.journal.append (executingEvent handler.submission.actionId
            handler.submission.envelopeHash handler.submission.expiresAt now) .line }
        { server with
          entries := server.entries.set (key (.pair handler.submission.actionId))
            (executingEntry handler.submission.actionId handler.submission.envelopeHash
              handler.submission.expiresAt) } h handler) ∨
    ∃ journal server', authorize w server h handler now append =
        { w with journal, server := server' } ∧
      (journal = w.journal ∨ ∃ event written, journal = w.journal.append event written) ∧
      (server' = none ∨ server' = some (server.setPhase h handler (.finished .exception)) ∨
        (∃ entry sameRequest, server' = some (server.setPhase h handler
          (.joining entry sameRequest true))) ∨
        ∃ code, server' = some (server.setPhase h handler (.closingUnused code))) := by
  cases ha : authorizeDispatch w.journal server.entries handler.submission.actionId
      handler.submission.envelopeHash handler.submission.expiresAt now append with
  | mk journal completion =>
    unfold authorize
    simp only [ha]
    rcases authorizeDispatch_cases ha with ⟨decision, hne, -, rfl, rfl⟩ | ⟨hcheck, rfl, rfl⟩
    · right
      cases decision with
      | absent => exact absurd rfl hne
      | reject code => exact ⟨_, _, rfl, Or.inl rfl, Or.inr (Or.inr (Or.inr ⟨code, rfl⟩))⟩
      | executing =>
        refine ⟨_, _, rfl, Or.inl rfl, Or.inr ?_⟩
        rcases joinDispatch_phase server h handler true with ⟨entry, sameRequest, heq⟩ | heq
        · exact Or.inr (Or.inl ⟨entry, sameRequest, by rw [heq]⟩)
        · exact Or.inl (by rw [heq])
    · cases append with
      | returned => exact Or.inl ⟨hcheck, rfl, rfl⟩
      | threw written => exact Or.inr ⟨_, _, rfl, Or.inr ⟨_, _, rfl⟩, Or.inr (Or.inl rfl)⟩
      | crashed written => exact Or.inr ⟨_, _, rfl, Or.inr ⟨_, _, rfl⟩, Or.inl rfl⟩

/-- Recording a dispatch drops no entry and starts nothing. -/
theorem record_cases (classified : Classified) (receipt : String) (now : Timestamp)
    (append : AppendOutcome) :
    ∃ journal server', record w server h handler classified receipt now append =
        { w with journal, server := server' } ∧
      (journal = w.journal ∨ ∃ event written, journal = w.journal.append event written) ∧
      ∀ s, server' = some s → ∀ k, server.entries.has k = true → s.entries.has k = true := by
  cases hres : resolve w.journal server.entries handler.submission.actionId classified.result
      (some (terminalResponse handler.submission classified receipt)) now append with
  | mk journal completion =>
    have hjournal := resolve_journal hres
    unfold record
    simp only [hres]
    cases completion with
    | returned entries =>
      refine ⟨_, _, rfl, hjournal, fun s hs k hk => ?_⟩
      cases hs
      exact resolve_has hres hk
    | threw =>
      refine ⟨_, _, rfl, hjournal, fun s hs k hk => ?_⟩
      cases hs
      exact hk
    | crashed => exact ⟨_, _, rfl, hjournal, fun s hs => by cases hs⟩

end Steps

/-! ## What stays blocked -/

/-- The journal holds the Action ID as executing, and a running ledger has its entry. -/
def Blocked (w : World) (actionId : JournalId) : Prop :=
  (∃ envelopeHash expiresAt time,
    w.journal.Holds (.executing actionId envelopeHash expiresAt time)) ∧
  ∀ server, w.server = some server → server.entries.has (key actionId) = true

theorem Blocked.of_journal {w : World} {actionId : JournalId} (h : Blocked w actionId)
    {journal : DispatchJournal} (hj : journal = w.journal ∨
      ∃ event written, journal = w.journal.append event written)
    {server' : Option Server} {log : List Effect}
    (hs : ∀ server, server' = some server → server.entries.has (key actionId) = true) :
    Blocked { journal, server := server', log } actionId := by
  obtain ⟨⟨envelopeHash, expiresAt, time, hholds⟩, -⟩ := h
  refine ⟨⟨envelopeHash, expiresAt, time, ?_⟩, hs⟩
  rcases hj with rfl | ⟨event, written, rfl⟩
  · exact hholds
  · exact hholds.append event written

theorem startDispatch_cases (w : World) (server : Server) (h : Nat) (handler : Handler) :
    ∃ server', server'.entries = server.entries ∧
      (startDispatch w server h handler = { w with
        server := some server'
        log := w.log ++ [.executingAppended handler.submission.actionId] } ∨
      startDispatch w server h handler = { w with
        server := some server'
        log := w.log ++ [.executingAppended handler.submission.actionId] ++
          [.transmit handler.submission.actionId] }) := by
  cases hf : handler.submission.fingerprint with
  | none =>
    refine ⟨server.setPhase h { handler with authorized := true } (.finished .exception), rfl,
      Or.inl ?_⟩
    simp [startDispatch, hf]
  | some fingerprint =>
    let inFlight := server.inFlight.set handler.submission.dispatchKey ⟨fingerprint, h⟩
    refine ⟨Server.setPhase { server with inFlight } h { handler with authorized := true }
      .transmitting, rfl, Or.inr ?_⟩
    simp [startDispatch, hf, inFlight]

/-- **Blocked Action IDs stay blocked**, through every step, crash and restart. -/
theorem Blocked.step {w w' : World} {event : Event} {actionId : JournalId}
    (hb : Blocked w actionId) (hs : step w event = some w') : Blocked w' actionId := by
  cases event with
  | submit h submission wellFormed timely =>
    obtain ⟨server, hserver, hs⟩ := Option.bind_eq_some_iff.mp hs
    split at hs
    · cases hs
    · cases hs
      refine hb.of_journal (Or.inl rfl) fun s hs => ?_
      cases hs
      obtain ⟨phase, heq, -⟩ := submit_phase server h submission wellFormed timely
      rw [heq]
      exact hb.2 server hserver
  | resume h reply =>
    obtain ⟨server, hserver, hs⟩ := Option.bind_eq_some_iff.mp hs
    obtain ⟨handler, -, hs⟩ := Option.bind_eq_some_iff.mp hs
    have hhas := hb.2 server hserver
    rcases resume_cases hs with ⟨server', rfl, hentries⟩ | ⟨now, append, -, -, rfl⟩ |
      ⟨classified, receipt, now, append, -, -, rfl⟩
    · refine hb.of_journal (Or.inl rfl) fun s hs => ?_
      cases hs
      rwa [hentries]
    · rcases authorize_cases w server h handler now append
        with ⟨-, -, heq⟩ | ⟨journal, server', heq, hj, hcases⟩
      · obtain ⟨server', hentries, hstart⟩ := startDispatch_cases _ _ h handler
        rw [heq]
        rcases hstart with hstart | hstart <;> rw [hstart] <;>
          refine hb.of_journal (Or.inr ⟨_, _, rfl⟩) fun s hs => ?_ <;> cases hs <;>
          rw [hentries] <;> exact has_set hhas _ _
      · rw [heq]
        refine hb.of_journal hj fun s hs => ?_
        rcases hcases with h | h | ⟨_, _, h⟩ | ⟨_, h⟩ <;> rw [h] at hs <;> cases hs <;> exact hhas
    · obtain ⟨journal, server', heq, hj, hkeep⟩ :=
        record_cases w server h handler classified receipt now append
      rw [heq]
      exact hb.of_journal hj fun s hs => hkeep s hs _ hhas
  | crash =>
    obtain ⟨server, -, rfl⟩ := Option.map_eq_some_iff.mp hs
    exact hb.of_journal (Or.inl rfl) fun s hs => by cases hs
  | restart now outcomes =>
    obtain ⟨⟨envelopeHash, expiresAt, time, hholds⟩, -⟩ := hb
    simp only [AdapterServer.step] at hs
    cases hserver : w.server with
    | some server => simp [hserver] at hs
    | none =>
      cases hopen : openLedger now outcomes w.journal with
      | mk journal completion =>
        have hholds' := openLedger_holds now outcomes hholds
        rw [hopen] at hholds'
        simp only [hserver, hopen] at hs
        cases completion with
        | returned entries =>
          cases hs
          refine ⟨⟨envelopeHash, expiresAt, time, hholds'⟩, fun s hs => ?_⟩
          cases hs
          exact (openLedger_returned hopen).1 _ _ _ _ hholds
        | threw =>
          cases hs
          exact ⟨⟨envelopeHash, expiresAt, time, hholds'⟩, fun s hs => by cases hs⟩
        | crashed =>
          cases hs
          exact ⟨⟨envelopeHash, expiresAt, time, hholds'⟩, fun s hs => by cases hs⟩

/-! ## At most once -/

/-- The journal id names the Action ID, directly or as a legacy journal flattened it. -/
def Denotes : JournalId → ActionId → Prop
  | .flat id, actionId => id = legacyId actionId
  | .pair id, actionId => id = actionId

def transmits (log : List Effect) : List ActionId :=
  log.filterMap fun effect => match effect with
    | .transmit actionId => some actionId
    | .executingAppended _ => none

theorem not_blocked_of_absent {w : World} {server : Server} {actionId : ActionId}
    {envelopeHash : String} (hserver : w.server = some server)
    (hcheck : check server.entries actionId envelopeHash = .absent) {id : JournalId}
    (hid : Denotes id actionId) : ¬ Blocked w id := by
  obtain ⟨hpair, hflat⟩ := (check_eq_absent_iff _ _ _).mp hcheck
  rintro ⟨-, hhas⟩
  have := hhas server hserver
  cases id with
  | flat id =>
    rw [show id = legacyId actionId from hid, hflat] at this
    cases this
  | pair id =>
    rw [show id = actionId from hid, hpair] at this
    cases this

/-- What a step adds to the log: nothing, a write, or a write and the
transmission of an Action ID that was not blocked and now is. -/
theorem step_log {w w' : World} {event : Event} (hs : step w event = some w') :
    w'.log = w.log ∨ ∃ actionId, w'.log = w.log ++ [.executingAppended actionId] ∨
      (w'.log = w.log ++ [.executingAppended actionId, .transmit actionId] ∧
        Blocked w' (.pair actionId) ∧ ∀ id, Denotes id actionId → ¬ Blocked w id) := by
  cases event with
  | submit h submission wellFormed timely =>
    obtain ⟨server, -, hs⟩ := Option.bind_eq_some_iff.mp hs
    split at hs <;> cases hs
    exact Or.inl rfl
  | resume h reply =>
    obtain ⟨server, hserver, hs⟩ := Option.bind_eq_some_iff.mp hs
    obtain ⟨handler, -, hs⟩ := Option.bind_eq_some_iff.mp hs
    rcases resume_cases hs with ⟨server', rfl, -⟩ | ⟨now, append, -, -, rfl⟩ |
      ⟨classified, receipt, now, append, -, -, rfl⟩
    · exact Or.inl rfl
    · rcases authorize_cases w server h handler now append
        with ⟨hcheck, -, heq⟩ | ⟨journal, server', heq, -⟩
      · obtain ⟨server', hentries, hstart | hstart⟩ := startDispatch_cases _ _ h handler
        · rw [heq, hstart]
          exact Or.inr ⟨_, Or.inl rfl⟩
        · rw [heq, hstart]
          refine Or.inr ⟨_, Or.inr ⟨by simp, ⟨⟨_, _, _, w.journal.holds_line _⟩, ?_⟩,
            fun id hid => not_blocked_of_absent hserver hcheck hid⟩⟩
          intro s hs
          cases hs
          rw [hentries]
          exact has_of_get? (OrderedMap.get?_set_self _ _ _)
      · rw [heq]
        exact Or.inl rfl
    · obtain ⟨journal, server', heq, -⟩ := record_cases w server h handler classified receipt now append
      rw [heq]
      exact Or.inl rfl
  | crash =>
    obtain ⟨server, -, rfl⟩ := Option.map_eq_some_iff.mp hs
    exact Or.inl rfl
  | restart now outcomes =>
    simp only [AdapterServer.step] at hs
    split at hs
    · cases hs
    · split at hs <;> cases hs <;> exact Or.inl rfl

/-- Every transmission of the log is preceded by the write of its Action ID. -/
def WrittenAhead (log : List Effect) : Prop :=
  ∀ before actionId after, log = before ++ .transmit actionId :: after →
    .executingAppended actionId ∈ before

theorem WrittenAhead.append_written {log : List Effect} (h : WrittenAhead log)
    (actionId : ActionId) : WrittenAhead (log ++ [.executingAppended actionId]) := by
  intro before a after heq
  rcases List.eq_nil_or_concat after with rfl | ⟨after, last, rfl⟩
  · have := congrArg List.getLast? heq
    simp at this
  · rw [List.concat_eq_append, ← List.cons_append, ← List.append_assoc] at heq
    exact h before a after (List.append_inj' heq rfl).1

theorem WrittenAhead.append_transmit {log : List Effect} (h : WrittenAhead log)
    {actionId : ActionId} (hmem : .executingAppended actionId ∈ log) :
    WrittenAhead (log ++ [.transmit actionId]) := by
  intro before a after heq
  rcases List.eq_nil_or_concat after with rfl | ⟨after, last, rfl⟩
  · obtain ⟨rfl, hlast⟩ := List.append_inj' heq rfl
    cases hlast
    exact hmem
  · rw [List.concat_eq_append, ← List.cons_append, ← List.append_assoc] at heq
    exact h before a after (List.append_inj' heq rfl).1

structure Safe (first : DispatchJournal) (w : World) : Prop where
  listed : ∀ id envelopeHash expiresAt time,
    first.Holds (.executing id envelopeHash expiresAt time) → Blocked w id
  blocked : ∀ actionId ∈ transmits w.log, Blocked w (.pair actionId)
  nodup : (transmits w.log).Nodup
  ahead : WrittenAhead w.log
  fresh : ∀ actionId ∈ transmits w.log, ∀ id envelopeHash expiresAt time, Denotes id actionId →
    ¬ first.Holds (.executing id envelopeHash expiresAt time)

theorem Safe.init (first : DispatchJournal) : Safe first { journal := first } where
  listed id envelopeHash expiresAt time h :=
    ⟨⟨envelopeHash, expiresAt, time, h⟩, fun server hs => by cases hs⟩
  blocked actionId h := by cases h
  nodup := List.nodup_nil
  ahead before actionId after h := by simp at h
  fresh actionId h := by cases h

theorem Safe.step {first : DispatchJournal} {w w' : World} {event : Event} (hw : Safe first w)
    (hs : step w event = some w') : Safe first w' := by
  have hlisted : ∀ id envelopeHash expiresAt time,
      first.Holds (.executing id envelopeHash expiresAt time) → Blocked w' id :=
    fun id envelopeHash expiresAt time h => (hw.listed _ _ _ _ h).step hs
  have hblocked : ∀ actionId ∈ transmits w.log, Blocked w' (.pair actionId) :=
    fun actionId h => (hw.blocked actionId h).step hs
  rcases step_log hs with hlog | ⟨actionId, hlog | ⟨hlog, hnow, hfree⟩⟩
  · exact ⟨hlisted, by rwa [hlog], by rw [hlog]; exact hw.nodup, by rw [hlog]; exact hw.ahead,
      by rw [hlog]; exact hw.fresh⟩
  · have htransmits : transmits w'.log = transmits w.log := by simp [transmits, hlog]
    refine ⟨hlisted, by rwa [htransmits], by rw [htransmits]; exact hw.nodup, ?_,
      by rw [htransmits]; exact hw.fresh⟩
    rw [hlog]
    exact hw.ahead.append_written actionId
  · have htransmits : transmits w'.log = transmits w.log ++ [actionId] := by
      simp [transmits, hlog]
    rw [show w.log ++ [Effect.executingAppended actionId, .transmit actionId] =
      (w.log ++ [.executingAppended actionId]) ++ [.transmit actionId] by simp] at hlog
    refine ⟨hlisted, ?_, ?_, ?_, ?_⟩
    · rw [htransmits]
      intro a ha
      rcases List.mem_append.mp ha with ha | ha
      · exact hblocked a ha
      · rw [List.mem_singleton.mp ha]
        exact hnow
    · rw [htransmits, List.nodup_append]
      refine ⟨hw.nodup, List.nodup_singleton _, fun a ha b hb heq => ?_⟩
      rw [List.mem_singleton.mp hb] at heq
      exact hfree (.pair actionId) rfl (heq ▸ hw.blocked a ha)
    · rw [hlog]
      exact (hw.ahead.append_written actionId).append_transmit (by simp)
    · rw [htransmits]
      intro a ha id envelopeHash expiresAt time hid hholds
      rcases List.mem_append.mp ha with ha | ha
      · exact hw.fresh a ha id envelopeHash expiresAt time hid hholds
      · rw [List.mem_singleton.mp ha] at hid
        exact hfree id hid (hw.listed _ _ _ _ hholds)

/-- **At most once.** From any journal, in any run of concurrent submissions,
crashes and restarts: no Action ID is transmitted twice, each transmission comes
after its `executing` event was appended and that event is in the journal from
then on, and an Action ID that the first journal lists as executing, as a pair or
flattened, is never transmitted. -/
theorem dispatch_at_most_once (first : DispatchJournal) (events : List Event) (w : World)
    (hrun : Run step Free { journal := first } events w) :
    (transmits w.log).Nodup ∧ WrittenAhead w.log ∧
      (∀ actionId ∈ transmits w.log, ∃ envelopeHash expiresAt time,
        w.journal.Holds (.executing (.pair actionId) envelopeHash expiresAt time)) ∧
      ∀ listed, first.readAll = some listed → ∀ id envelopeHash expiresAt time,
        .executing id envelopeHash expiresAt time ∈ listed →
        ∀ actionId, Denotes id actionId → actionId ∉ transmits w.log := by
  have hsafe : Safe first w := hrun.invariant (fun _ _ _ hi _ hs => hi.step hs) (Safe.init first)
  refine ⟨hsafe.nodup, hsafe.ahead, fun a ha => (hsafe.blocked a ha).1, ?_⟩
  intro listed hread id envelopeHash expiresAt time hmem actionId hid ha
  refine hsafe.fresh actionId ha id envelopeHash expiresAt time hid fun events hevents => ?_
  rw [hread] at hevents
  cases hevents
  exact hmem

/-- A submission dispatched and recorded, then presented again after a crash. -/
def replayedRun : List Event :=
  let submission : Submission := ⟨{ value := "urn:uuid:1" }, "hash", "2025-01-01T00:30:00.000Z",
    some "fingerprint"⟩
  [.restart "2025-01-01T00:00:00.000Z" [], .submit 0 submission true true,
    .resume 0 (.verified .credential), .resume 0 (.credential true),
    .resume 0 (.prepared true "2025-01-01T00:00:01.000Z" .returned), .crash,
    .restart "2025-01-01T00:00:02.000Z" [.returned], .submit 0 submission true true]

/-- The first run transmits, and the run after the crash is refused. -/
theorem dispatch_at_most_once_replayed : ∃ w,
    Run step Free { journal := ⟨[], .clean⟩ } replayedRun w ∧
      transmits w.log = [{ value := "urn:uuid:1" }] ∧ (transmits w.log).Nodup := by
  have hexec : ∃ w, exec step { journal := ⟨[], .clean⟩ } replayedRun = some w ∧
      transmits w.log = [{ value := "urn:uuid:1" }] := ⟨_, rfl, by decide⟩
  obtain ⟨w, hw, ht⟩ := hexec
  exact ⟨w, run_of_exec hw, ht, (dispatch_at_most_once _ _ _ (run_of_exec hw)).1⟩

/-! ## Nothing left hanging -/

/-- Every executing entry can be joined, and a handler that was told `absent`
has its entry resolved when it finishes. -/
def NoneHanging (server : Server) : Prop :=
  (∀ k entry, server.entries.get? k = some entry → entry.status = .executing →
    ∃ actionId, k = key (.pair actionId) ∧
      server.inFlight.has (dispatchKey actionId entry.envelopeHash) = true) ∧
  ∀ h handler answer, server.handlers.get? h = some handler → handler.authorized = true →
    handler.phase = .finished answer →
    ∃ entry, server.entries.get? (key (.pair handler.submission.actionId)) = some entry ∧
      entry.status = .resolved

/-- Nothing fails between the authorization of a dispatch and its record. -/
def DispatchSucceeds (w : World) : Event → Prop
  | .resume h reply => ∀ server handler, w.server = some server →
    server.handlers.get? h = some handler →
    match reply with
    | .prepared true _ .returned =>
      check server.entries handler.submission.actionId handler.submission.envelopeHash = .absent →
        handler.submission.fingerprint ≠ none
    | .transmitted result => result ≠ none
    | .closed ok => handler.authorized = true → ok = true
    | .receipt receipt _ append => receipt ≠ none ∧ ∀ written, append ≠ .threw written
    | _ => True
  | _ => True

def Phase.isActive : Phase → Bool
  | .transmitting => true
  | .closing (some _) => true
  | .signing _ => true
  | _ => false

def Phase.isEarly : Phase → Bool
  | .transmitting | .closing _ | .signing _ | .settling _ => false
  | _ => true

def Registered (server : Server) (h : Nat) (handler : Handler) : Prop :=
  ∃ fingerprint, server.inFlight.get? handler.submission.dispatchKey = some ⟨fingerprint, h⟩

/-- The entry of the handler's Action and its status. -/
def HasEntry (server : Server) (handler : Handler) (status : LedgerStatus) : Prop :=
  ∃ entry, server.entries.get? (key (.pair handler.submission.actionId)) = some entry ∧
    entry.envelopeHash = handler.submission.envelopeHash ∧ entry.status = status

def HandlerInv (server : Server) (h : Nat) (handler : Handler) : Prop :=
  if handler.authorized then
    handler.phase.isActive = true ∧ HasEntry server handler .executing ∧
        Registered server h handler ∨
    (∃ response, handler.phase = .settling (some response)) ∧ HasEntry server handler .resolved ∧
        Registered server h handler ∨
    (∃ answer, handler.phase = .finished answer) ∧ HasEntry server handler .resolved
  else handler.phase.isEarly = true

structure ServerInv (server : Server) : Prop where
  handlers : ∀ h handler, server.handlers.get? h = some handler → HandlerInv server h handler
  unique : ∀ h h' handler handler', server.handlers.get? h = some handler →
    server.handlers.get? h' = some handler' → handler.authorized = true →
    handler'.authorized = true →
    handler.submission.actionId = handler'.submission.actionId → h = h'
  executing : ∀ k entry, server.entries.get? k = some entry → entry.status = .executing →
    ∃ h handler, server.handlers.get? h = some handler ∧ handler.authorized = true ∧
      handler.phase.isActive = true ∧ k = key (.pair handler.submission.actionId)

theorem ServerInv.restarted {entries : Entries}
    (h : ∀ k entry, entries.get? k = some entry → entry.status = .resolved) :
    ServerInv { entries } where
  handlers h handler hget := by cases hget
  unique h h' handler handler' hget := by cases hget
  executing k entry hget hs := by
    rw [h k entry hget] at hs
    cases hs

section Invariant

variable {server : Server} {h : Nat} {handler : Handler}

theorem HandlerInv.hasEntry (hi : HandlerInv server h handler) (ha : handler.authorized = true) :
    ∃ status, HasEntry server handler status := by
  rw [HandlerInv, if_pos ha] at hi
  rcases hi with ⟨-, he, -⟩ | ⟨-, he, -⟩ | ⟨-, he⟩ <;> exact ⟨_, he⟩

/-- **None hanging.** The invariant gives what duplicates and operators rely on. -/
theorem ServerInv.noneHanging (hi : ServerInv server) : NoneHanging server := by
  constructor
  · intro k entry hget hs
    obtain ⟨h, handler, hh, ha, hactive, rfl⟩ := hi.executing k entry hget hs
    have hinv := hi.handlers h handler hh
    rw [HandlerInv, if_pos ha] at hinv
    rcases hinv with ⟨-, ⟨entry', he, hhash, -⟩, fingerprint, hreg⟩ | ⟨⟨_, hp⟩, -⟩ | ⟨⟨_, hp⟩, -⟩
    · rw [he] at hget
      cases hget
      refine ⟨_, rfl, (OrderedMap.has_iff _ _).mpr ⟨⟨fingerprint, h⟩, ?_⟩⟩
      rw [hhash]
      exact hreg
    · rw [hp] at hactive
      cases hactive
    · rw [hp] at hactive
      cases hactive
  · intro h handler answer hh ha hp
    have hinv := hi.handlers h handler hh
    rw [HandlerInv, if_pos ha] at hinv
    rcases hinv with ⟨hactive, -⟩ | ⟨⟨_, hp'⟩, -⟩ | ⟨-, entry, he, -, hs⟩
    · rw [hp] at hactive
      cases hactive
    · rw [hp] at hp'
      cases hp'
    · exact ⟨entry, he, hs⟩

/-- Another handler keeps what it has if its entry and its registration are kept. -/
theorem HandlerInv.frame {server' : Server} (hi : HandlerInv server h handler)
    (hentries : handler.authorized = true →
      server'.entries.get? (key (.pair handler.submission.actionId)) =
        server.entries.get? (key (.pair handler.submission.actionId)))
    (hinFlight : handler.authorized = true → Registered server h handler →
      Registered server' h handler) :
    HandlerInv server' h handler := by
  by_cases ha : handler.authorized = true
  · have hentry : ∀ status, HasEntry server handler status → HasEntry server' handler status := by
      intro status he
      rwa [HasEntry, hentries ha]
    rw [HandlerInv, if_pos ha] at hi ⊢
    rcases hi with ⟨hp, he, hr⟩ | ⟨hp, he, hr⟩ | ⟨hp, he⟩
    · exact Or.inl ⟨hp, hentry _ he, hinFlight ha hr⟩
    · exact Or.inr (Or.inl ⟨hp, hentry _ he, hinFlight ha hr⟩)
    · exact Or.inr (Or.inr ⟨hp, hentry _ he⟩)
  · rw [HandlerInv, if_neg ha] at hi ⊢
    exact hi

/-- **Update rule.** One handler moves on, its own entry and registration may
change, and those of the other authorized handlers do not. -/
theorem ServerInv.update (hi : ServerInv server) {server' : Server} {handler' : Handler}
    (hhandlers : server'.handlers = server.handlers.set h handler')
    (hnew : HandlerInv server' h handler')
    (hother : ∀ h₂ handler₂, h₂ ≠ h → server.handlers.get? h₂ = some handler₂ →
      handler₂.authorized = true → handler'.authorized = true →
      handler₂.submission.actionId ≠ handler'.submission.actionId)
    (hframe : ∀ h₂ handler₂, h₂ ≠ h → server.handlers.get? h₂ = some handler₂ →
      HandlerInv server h₂ handler₂ → HandlerInv server' h₂ handler₂)
    (hexecuting : ∀ k entry, server'.entries.get? k = some entry → entry.status = .executing →
      (k = key (.pair handler'.submission.actionId) ∧ handler'.authorized = true ∧
        handler'.phase.isActive = true) ∨
      ∃ h₂ handler₂, h₂ ≠ h ∧ server.handlers.get? h₂ = some handler₂ ∧
        handler₂.authorized = true ∧ handler₂.phase.isActive = true ∧
        k = key (.pair handler₂.submission.actionId)) :
    ServerInv server' := by
  have hget : ∀ h₂, server'.handlers.get? h₂ =
      if h = h₂ then some handler' else server.handlers.get? h₂ := by
    intro h₂
    rw [hhandlers, OrderedMap.get?_set]
  constructor
  · intro h₂ handler₂ hh
    rw [hget] at hh
    split at hh
    · rename_i heq
      cases hh
      exact heq ▸ hnew
    · rename_i hne
      exact hframe h₂ handler₂ (Ne.symm hne) hh (hi.handlers h₂ handler₂ hh)
  · intro h₁ h₂ handler₁ handler₂ hh₁ hh₂ ha₁ ha₂ hsame
    rw [hget] at hh₁ hh₂
    split at hh₁ <;> split at hh₂
    · rename_i heq₁ heq₂
      rw [← heq₁, ← heq₂]
    · rename_i hne
      cases hh₁
      exact absurd hsame.symm (hother h₂ handler₂ (Ne.symm hne) hh₂ ha₂ ha₁)
    · rename_i hne _
      cases hh₂
      exact absurd hsame (hother h₁ handler₁ (Ne.symm hne) hh₁ ha₁ ha₂)
    · exact hi.unique h₁ h₂ handler₁ handler₂ hh₁ hh₂ ha₁ ha₂ hsame
  · intro k entry he hs
    rcases hexecuting k entry he hs with ⟨hk, ha, hp⟩ | ⟨h₂, handler₂, hne, hh, ha, hp, hk⟩
    · exact ⟨h, handler', by rw [hget, if_pos rfl], ha, hp, hk⟩
    · exact ⟨h₂, handler₂, by rw [hget, if_neg (Ne.symm hne), hh], ha, hp, hk⟩

/-- An executing entry belongs to another handler, unless it is this one's. -/
theorem ServerInv.executing_other (hi : ServerInv server)
    (hh : server.handlers.get? h = some handler) {k : Json} {entry : LedgerEntry}
    (he : server.entries.get? k = some entry) (hs : entry.status = .executing)
    (hk : handler.authorized = true → k ≠ key (.pair handler.submission.actionId)) :
    ∃ h₂ handler₂, h₂ ≠ h ∧ server.handlers.get? h₂ = some handler₂ ∧
      handler₂.authorized = true ∧ handler₂.phase.isActive = true ∧
      k = key (.pair handler₂.submission.actionId) := by
  obtain ⟨h₂, handler₂, hh₂, ha, hp, hk₂⟩ := hi.executing k entry he hs
  refine ⟨h₂, handler₂, ?_, hh₂, ha, hp, hk₂⟩
  rintro rfl
  rw [hh] at hh₂
  cases hh₂
  exact hk ha hk₂

theorem ServerInv.early (hi : ServerInv server) (ha : handler.authorized = false)
    (hold : ∀ old, server.handlers.get? h = some old → old.authorized = false) {phase : Phase}
    (hphase : phase.isEarly = true) : ServerInv (server.setPhase h handler phase) := by
  apply hi.update rfl
  · simpa [HandlerInv, ha] using hphase
  · intro h₂ handler₂ _ _ _ ha'
    simp [ha] at ha'
  · exact fun h₂ handler₂ _ _ hinv => hinv.frame (fun _ => rfl) fun _ hr => hr
  · intro k entry he hs
    right
    obtain ⟨h₂, handler₂, hh₂, ha₂, hp, hk⟩ := hi.executing k entry he hs
    refine ⟨h₂, handler₂, ?_, hh₂, ha₂, hp, hk⟩
    rintro rfl
    rw [hold handler₂ hh₂] at ha₂
    cases ha₂

theorem ServerInv.active (hi : ServerInv server) (hh : server.handlers.get? h = some handler)
    (hold : handler.phase.isActive = true) (ha : handler.authorized = true) {phase : Phase}
    (hphase : phase.isActive = true) : ServerInv (server.setPhase h handler phase) := by
  have hinv := hi.handlers h handler hh
  apply hi.update rfl
  · rw [HandlerInv, if_pos ha] at hinv
    rw [HandlerInv, if_pos (by simpa using ha)]
    rcases hinv with ⟨-, he, hr⟩ | ⟨⟨_, hp⟩, -⟩ | ⟨⟨_, hp⟩, -⟩
    · exact Or.inl ⟨hphase, he, hr⟩
    · rw [hp] at hold
      cases hold
    · rw [hp] at hold
      cases hold
  · intro h₂ handler₂ hne hh₂ ha₂ _ hsame
    exact hne (hi.unique h₂ h handler₂ handler hh₂ hh ha₂ ha hsame)
  · exact fun h₂ handler₂ _ _ hinv => hinv.frame (fun _ => rfl) fun _ hr => hr
  · intro k entry he hs
    by_cases hk : k = key (.pair handler.submission.actionId)
    · exact Or.inl ⟨hk, by simpa using ha, hphase⟩
    · exact Or.inr (hi.executing_other hh he hs fun _ => hk)

theorem dispatchKey_injective {a b : ActionId} {x y : String}
    (heq : dispatchKey a x = dispatchKey b y) : a = b := by
  obtain ⟨value, scope⟩ := a
  obtain ⟨value', scope'⟩ := b
  cases scope <;> cases scope' <;> simp [dispatchKey] at heq
  · simp [heq.1]
  · simp [heq.1, heq.2.1]

/-- A dispatch starts: its entry is executing and it can be joined. -/
theorem ServerInv.start (hi : ServerInv server) (hh : server.handlers.get? h = some handler)
    {envelopeHash : String}
    (hcheck : check server.entries handler.submission.actionId envelopeHash = .absent)
    (fingerprint : String) :
    ServerInv (Server.setPhase { server with
      entries := server.entries.set (key (.pair handler.submission.actionId))
        (executingEntry handler.submission.actionId handler.submission.envelopeHash
          handler.submission.expiresAt)
      inFlight := server.inFlight.set handler.submission.dispatchKey ⟨fingerprint, h⟩ }
      h { handler with authorized := true } .transmitting) := by
  have hfree : ∀ h₂ handler₂, server.handlers.get? h₂ = some handler₂ →
      handler₂.authorized = true →
      handler₂.submission.actionId ≠ handler.submission.actionId := by
    intro h₂ handler₂ hh₂ ha₂ hsame
    obtain ⟨status, entry, he, -⟩ := (hi.handlers h₂ handler₂ hh₂).hasEntry ha₂
    rw [hsame] at he
    have := has_of_get? he
    rw [((check_eq_absent_iff _ _ _).mp hcheck).1] at this
    cases this
  apply hi.update rfl
  · rw [HandlerInv, if_pos rfl]
    exact Or.inl ⟨rfl, ⟨_, OrderedMap.get?_set_self _ _ _, rfl, rfl⟩, fingerprint,
      OrderedMap.get?_set_self _ _ _⟩
  · exact fun h₂ handler₂ _ hh₂ ha₂ _ => hfree h₂ handler₂ hh₂ ha₂
  · intro h₂ handler₂ _ hh₂ hinv
    refine hinv.frame (fun ha₂ => ?_) fun ha₂ hr => ?_
    · exact OrderedMap.get?_set_ne _ _ fun heq =>
        hfree h₂ handler₂ hh₂ ha₂ (key_pair_injective heq).symm
    · obtain ⟨fp, hr⟩ := hr
      refine ⟨fp, ?_⟩
      rw [← hr]
      exact OrderedMap.get?_set_ne _ _ fun heq =>
        hfree h₂ handler₂ hh₂ ha₂ (dispatchKey_injective heq).symm
  · intro k entry he hs
    by_cases hk : k = key (.pair handler.submission.actionId)
    · exact Or.inl ⟨hk, rfl, rfl⟩
    · right
      refine hi.executing_other hh ((OrderedMap.get?_set_ne _ _ (Ne.symm hk)).symm.trans he) hs
        fun _ => hk

/-- A dispatch is recorded: its entry is resolved. -/
theorem ServerInv.recorded (hi : ServerInv server) (hh : server.handlers.get? h = some handler)
    (hold : handler.phase.isActive = true) (ha : handler.authorized = true) {entry : LedgerEntry}
    (hentry : entry.status = .resolved)
    (hhash : entry.envelopeHash = handler.submission.envelopeHash) (response : ActionResponse) :
    ServerInv (Server.setPhase { server with
      entries := server.entries.set (key (.pair handler.submission.actionId)) entry }
      h handler (.settling (some response))) := by
  have hinv := hi.handlers h handler hh
  have hfree : ∀ h₂ handler₂, h₂ ≠ h → server.handlers.get? h₂ = some handler₂ →
      handler₂.authorized = true →
      handler₂.submission.actionId ≠ handler.submission.actionId :=
    fun h₂ handler₂ hne hh₂ ha₂ hsame =>
      hne (hi.unique h₂ h handler₂ handler hh₂ hh ha₂ ha hsame)
  apply hi.update rfl
  · rw [HandlerInv, if_pos ha] at hinv
    rw [HandlerInv, if_pos (by simpa using ha)]
    rcases hinv with ⟨-, -, hr⟩ | ⟨⟨_, hp⟩, -⟩ | ⟨⟨_, hp⟩, -⟩
    · exact Or.inr (Or.inl ⟨⟨response, rfl⟩,
        ⟨entry, OrderedMap.get?_set_self _ _ _, hhash, hentry⟩, hr⟩)
    · rw [hp] at hold
      cases hold
    · rw [hp] at hold
      cases hold
  · exact fun h₂ handler₂ hne hh₂ ha₂ _ => hfree h₂ handler₂ hne hh₂ ha₂
  · intro h₂ handler₂ hne hh₂ hinv₂
    refine hinv₂.frame (fun ha₂ => ?_) fun _ hr => hr
    exact OrderedMap.get?_set_ne _ _ fun heq =>
      hfree h₂ handler₂ hne hh₂ ha₂ (key_pair_injective heq).symm
  · intro k e he hs
    by_cases hk : k = key (.pair handler.submission.actionId)
    · subst hk
      have := (OrderedMap.get?_set_self _ _ _).symm.trans he
      cases this
      rw [hentry] at hs
      cases hs
    · right
      refine hi.executing_other hh ((OrderedMap.get?_set_ne _ _ (Ne.symm hk)).symm.trans he) hs
        fun _ => hk

/-- A recorded dispatch leaves the map of those in flight. -/
theorem ServerInv.settled (hi : ServerInv server) (hh : server.handlers.get? h = some handler)
    {response : ActionResponse} (hold : handler.phase = .settling (some response))
    (ha : handler.authorized = true) :
    ServerInv (Server.setPhase { server with
      inFlight := server.inFlight.delete handler.submission.dispatchKey }
      h handler (.finished (.outcome response))) := by
  have hinv := hi.handlers h handler hh
  rw [HandlerInv, if_pos ha] at hinv
  have hresolved : HasEntry server handler .resolved := by
    rcases hinv with ⟨hp, -⟩ | ⟨-, he, -⟩ | ⟨⟨_, hp⟩, -⟩
    · rw [hold] at hp
      cases hp
    · exact he
    · rw [hold] at hp
      cases hp
  have hfree : ∀ h₂ handler₂, h₂ ≠ h → server.handlers.get? h₂ = some handler₂ →
      handler₂.authorized = true →
      handler₂.submission.actionId ≠ handler.submission.actionId :=
    fun h₂ handler₂ hne hh₂ ha₂ hsame =>
      hne (hi.unique h₂ h handler₂ handler hh₂ hh ha₂ ha hsame)
  apply hi.update rfl
  · rw [HandlerInv, if_pos (by simpa using ha)]
    exact Or.inr (Or.inr ⟨⟨_, rfl⟩, hresolved⟩)
  · exact fun h₂ handler₂ hne hh₂ ha₂ _ => hfree h₂ handler₂ hne hh₂ ha₂
  · intro h₂ handler₂ hne hh₂ hinv₂
    refine hinv₂.frame (fun _ => rfl) fun ha₂ hr => ?_
    obtain ⟨fp, hr⟩ := hr
    refine ⟨fp, ?_⟩
    rw [← hr]
    refine (OrderedMap.get?_delete _ _ _).trans (if_neg fun heq => ?_)
    exact hfree h₂ handler₂ hne hh₂ ha₂ (dispatchKey_injective heq).symm
  · intro k e he hs
    right
    refine hi.executing_other hh he hs fun _ hk => ?_
    subst hk
    obtain ⟨entry, hentry, -, hstatus⟩ := hresolved
    have := hentry.symm.trans he
    cases this
    rw [hstatus] at hs
    cases hs

theorem HandlerInv.not_authorized (hi : HandlerInv server h handler)
    (hearly : handler.phase.isEarly = true) (hopen : ∀ answer, handler.phase ≠ .finished answer) :
    handler.authorized = false := by
  cases ha : handler.authorized with
  | false => rfl
  | true =>
    rw [HandlerInv, if_pos ha] at hi
    rcases hi with ⟨hp, -⟩ | ⟨⟨_, hp⟩, -⟩ | ⟨⟨answer, hp⟩, -⟩
    · cases hphase : handler.phase <;> simp [hphase, Phase.isActive, Phase.isEarly] at hp hearly
    · rw [hp] at hearly
      cases hearly
    · exact absurd hp (hopen answer)

theorem HandlerInv.is_authorized (hi : HandlerInv server h handler)
    (hlate : handler.phase.isEarly = false) : handler.authorized = true := by
  cases ha : handler.authorized with
  | true => rfl
  | false =>
    rw [HandlerInv, if_neg (by simp [ha]), hlate] at hi
    cases hi

/-- An authorized handler that is not active has settled its entry. -/
theorem HandlerInv.settled_some (hi : HandlerInv server h handler) {response : Option ActionResponse}
    (hphase : handler.phase = .settling response) : ∃ r, response = some r := by
  have ha := hi.is_authorized (by rw [hphase]; rfl)
  rw [HandlerInv, if_pos ha, hphase] at hi
  rcases hi with ⟨hp, -⟩ | ⟨⟨r, hp⟩, -⟩ | ⟨⟨_, hp⟩, -⟩
  · cases hp
  · cases hp
    exact ⟨r, rfl⟩
  · cases hp

theorem HandlerInv.closing_some (hi : HandlerInv server h handler)
    {result : Option McpDispatchResult} (hphase : handler.phase = .closing result) :
    ∃ r, result = some r := by
  have ha := hi.is_authorized (by rw [hphase]; rfl)
  rw [HandlerInv, if_pos ha, hphase] at hi
  rcases hi with ⟨hp, -⟩ | ⟨⟨_, hp⟩, -⟩ | ⟨⟨_, hp⟩, -⟩
  · cases result with
    | none => cases hp
    | some r => exact ⟨r, rfl⟩
  · cases hp
  · cases hp

end Invariant

/-! ## Runs in which dispatches succeed -/

def WorldInv (w : World) : Prop := ∀ server, w.server = some server → ServerInv server

section Steps

variable {w w' : World} {server : Server} {h : Nat} {handler : Handler}

theorem authorize_keeps (hserver : w.server = some server) (hi : ServerInv server)
    (hh : server.handlers.get? h = some handler) (hphase : handler.phase = .preparing)
    {now : Timestamp} {append : AppendOutcome}
    (hc : DispatchSucceeds w (.resume h (.prepared true now append))) :
    WorldInv (authorize w server h handler now append) := by
  have ha : handler.authorized = false :=
    (hi.handlers h handler hh).not_authorized (by rw [hphase]; rfl) (by simp [hphase])
  have hold : ∀ old, server.handlers.get? h = some old → old.authorized = false := by
    intro old hold
    rw [hh] at hold
    cases hold
    exact ha
  rcases authorize_cases w server h handler now append
    with ⟨hcheck, rfl, heq⟩ | ⟨journal, server', heq, -, hcases⟩
  · have hfp := hc server handler hserver hh hcheck
    obtain ⟨fingerprint, hfp⟩ := Option.ne_none_iff_exists'.mp hfp
    intro s hs
    rw [heq] at hs
    simp only [startDispatch, hfp] at hs
    cases hs
    exact hi.start hh hcheck fingerprint
  · intro s hs
    rw [heq] at hs
    rcases hcases with h' | h' | ⟨_, _, h'⟩ | ⟨_, h'⟩ <;> rw [h'] at hs <;> cases hs <;>
      exact hi.early ha hold rfl

theorem record_keeps (hserver : w.server = some server) (hi : ServerInv server)
    (hh : server.handlers.get? h = some handler) {classified : Classified}
    (hphase : handler.phase = .signing classified) {receipt : String} {now : Timestamp}
    {append : AppendOutcome}
    (hc : DispatchSucceeds w (.resume h (.receipt (some receipt) now append))) :
    WorldInv (record w server h handler classified receipt now append) := by
  have hinv := hi.handlers h handler hh
  have ha : handler.authorized = true := hinv.is_authorized (by rw [hphase]; rfl)
  have hactive : handler.phase.isActive = true := by rw [hphase]; rfl
  have hentry : HasEntry server handler .executing := by
    rw [HandlerInv, if_pos ha, hphase] at hinv
    rcases hinv with ⟨-, he, -⟩ | ⟨⟨_, hp⟩, -⟩ | ⟨⟨_, hp⟩, -⟩
    · exact he
    · cases hp
    · cases hp
  obtain ⟨entry, he, hhash, hstatus⟩ := hentry
  have hresolve : resolve w.journal server.entries handler.submission.actionId classified.result
      (some (terminalResponse handler.submission classified receipt)) now append = _ :=
    resolve_executing he hstatus fun r hr => by
      cases hr
      simp [matchesEntry, terminalResponse, hhash]
  intro s hs
  simp only [record, hresolve] at hs
  cases append with
  | returned =>
    cases hs
    refine hi.recorded hh hactive ha ?_ ?_ _
    · rfl
    · exact hhash
  | threw written => exact absurd rfl ((hc server handler hserver hh).2 written)
  | crashed written => cases hs

theorem resume_keeps {reply : Reply} (hserver : w.server = some server) (hi : ServerInv server)
    (hh : server.handlers.get? h = some handler) (hc : DispatchSucceeds w (.resume h reply))
    (hr : resume w server h handler reply = some w') : WorldInv w' := by
  have hinv := hi.handlers h handler hh
  have hearly : handler.phase.isEarly = true → (∀ answer, handler.phase ≠ .finished answer) →
      ∀ phase : Phase, phase.isEarly = true →
        WorldInv { w with server := some (server.setPhase h handler phase) } := by
    intro he hopen phase hphase s hs
    have ha := hinv.not_authorized he hopen
    cases hs
    refine hi.early ha (fun old hold => ?_) hphase
    rw [hh] at hold
    cases hold
    exact ha
  have hactive : handler.phase.isActive = true → handler.phase.isEarly = false →
      ∀ phase : Phase, phase.isActive = true →
        WorldInv { w with server := some (server.setPhase h handler phase) } := by
    intro hp hlate phase hphase s hs
    cases hs
    exact hi.active hh hp (hinv.is_authorized hlate) hphase
  unfold resume at hr
  simp only at hr
  split at hr
  case h_1 hphase =>
    cases hr
    exact hearly (by rw [hphase]; rfl) (by simp [hphase]) _ rfl
  case h_2 hphase =>
    cases hr
    exact hearly (by rw [hphase]; rfl) (by simp [hphase]) _ rfl
  case h_3 hphase =>
    cases hr
    exact hearly (by rw [hphase]; rfl) (by simp [hphase]) _ rfl
  case h_4 ok hphase =>
    cases hr
    refine hearly (by rw [hphase]; rfl) (by simp [hphase]) _ ?_
    cases ok <;> rfl
  case h_5 ok now append hphase =>
    cases ok
    · cases hr
      exact hearly (by rw [hphase]; rfl) (by simp [hphase]) _ rfl
    · cases hr
      exact authorize_keeps hserver hi hh hphase hc
  case h_6 entry sameRequest ownsSession ok hphase =>
    have hgoto := hearly (by rw [hphase]; rfl) (by simp [hphase])
    split at hr
    · split at hr
      · cases hr
        exact hgoto _ rfl
      · cases hr
    · split at hr
      · cases hr
        exact hgoto _ rfl
      · cases hr
        refine hgoto _ ?_
        cases sameRequest <;> rfl
  case h_7 hphase =>
    cases hr
    exact hearly (by rw [hphase]; rfl) (by simp [hphase]) _ rfl
  case h_8 dispatch hphase =>
    obtain ⟨response, -, hr⟩ := Option.bind_eq_some_iff.mp hr
    cases hr
    exact hearly (by rw [hphase]; rfl) (by simp [hphase]) _ rfl
  case h_9 code ok hphase =>
    cases hr
    refine hearly (by rw [hphase]; rfl) (by simp [hphase]) _ ?_
    cases ok <;> rfl
  case h_10 result hphase =>
    obtain ⟨r, rfl⟩ := Option.ne_none_iff_exists'.mp (hc server handler hserver hh)
    cases hr
    exact hactive (by rw [hphase]; rfl) (by rw [hphase]; rfl) _ rfl
  case h_11 result hphase =>
    cases hr
    exact hactive (by rw [hphase]; rfl) (by rw [hphase]; rfl) _ rfl
  case h_12 result ok hne hphase =>
    obtain ⟨r, rfl⟩ := hinv.closing_some hphase
    have hok : ok = true := hc server handler hserver hh (hinv.is_authorized (by rw [hphase]; rfl))
    exact absurd hok (hne r rfl)
  case h_13 hphase => exact absurd rfl (hc server handler hserver hh).1
  case h_14 classified receipt now append hphase =>
    cases hr
    exact record_keeps hserver hi hh hphase hc
  case h_15 response hphase =>
    obtain ⟨r, rfl⟩ := hinv.settled_some hphase
    cases hr
    intro s hs
    cases hs
    exact hi.settled hh hphase (hinv.is_authorized (by rw [hphase]; rfl))
  case h_16 => cases hr

theorem WorldInv.step {event : Event} (hi : WorldInv w) (hc : DispatchSucceeds w event)
    (hs : step w event = some w') : WorldInv w' := by
  cases event with
  | submit h submission wellFormed timely =>
    obtain ⟨server, hserver, hs⟩ := Option.bind_eq_some_iff.mp hs
    split at hs
    · cases hs
    · rename_i hfresh
      cases hs
      intro s hs
      cases hs
      obtain ⟨phase, heq, hphase⟩ := submit_phase server h submission wellFormed timely
      rw [heq]
      refine (hi server hserver).early rfl (fun old hold => ?_) ?_
      · exact absurd ((OrderedMap.has_iff _ _).mpr ⟨old, hold⟩) hfresh
      · rcases hphase with rfl | ⟨_, _, _, rfl⟩ | ⟨_, rfl⟩ <;> rfl
  | resume h reply =>
    obtain ⟨server, hserver, hs⟩ := Option.bind_eq_some_iff.mp hs
    obtain ⟨handler, hh, hs⟩ := Option.bind_eq_some_iff.mp hs
    exact resume_keeps hserver (hi server hserver) hh hc hs
  | crash =>
    obtain ⟨server, -, rfl⟩ := Option.map_eq_some_iff.mp hs
    exact fun s hs => by cases hs
  | restart now outcomes =>
    simp only [AdapterServer.step] at hs
    split at hs
    · cases hs
    · rename_i hserver
      cases hopen : openLedger now outcomes w.journal with
      | mk journal completion =>
        rw [hopen] at hs
        intro s hs'
        cases completion with
        | returned entries =>
          cases hs
          cases hs'
          exact ServerInv.restarted (openLedger_returned hopen).2
        | threw =>
          cases hs
          rw [show w.server = none from hserver] at hs'
          cases hs'
        | crashed =>
          cases hs
          rw [show w.server = none from hserver] at hs'
          cases hs'

end Steps

/-- **None left hanging.** From any journal, in any run of concurrent
submissions, crashes and restarts whose dispatches all succeed: every executing
entry of the running ledger can be joined, and the entry of a finished handler
that had been authorized is resolved. -/
theorem none_hanging (first : DispatchJournal) (events : List Event) (w : World)
    (hrun : Run step DispatchSucceeds { journal := first } events w) :
    ∀ server, w.server = some server → NoneHanging server := by
  have hinv : WorldInv w :=
    hrun.invariant (fun _ _ _ hi hc hs => hi.step hc hs) fun server hs => by cases hs
  exact fun server hserver => (hinv server hserver).noneHanging

/-- A submission dispatched, and what its target makes of it. -/
def dispatchRun (replies : List Reply) : List Event :=
  let submission : Submission := ⟨{ value := "urn:uuid:1" }, "hash", "2025-01-01T00:30:00.000Z",
    some "fingerprint"⟩
  [.restart "2025-01-01T00:00:00.000Z" [], .submit 0 submission true true,
    .resume 0 (.verified .credential), .resume 0 (.credential true),
    .resume 0 (.prepared true "2025-01-01T00:00:01.000Z" .returned)] ++ replies.map (.resume 0)

/-- A dispatch in progress can be joined. -/
theorem none_hanging_dispatching : ∃ w, Run step DispatchSucceeds { journal := ⟨[], .clean⟩ }
      (dispatchRun []) w ∧ ∃ server, w.server = some server ∧ NoneHanging server ∧
        server.entries.has (key (.pair { value := "urn:uuid:1" })) = true := by
  have hrun : ∃ w, Run step DispatchSucceeds { journal := ⟨[], .clean⟩ } (dispatchRun []) w ∧
      ∃ server, w.server = some server ∧
        server.entries.has (key (.pair { value := "urn:uuid:1" })) = true := by
    refine ⟨_, .cons trivial rfl (.cons trivial rfl (.cons ?_ rfl (.cons ?_ rfl
      (.cons ?_ rfl (.nil _))))), _, rfl, by decide⟩
    · exact fun _ _ _ _ => trivial
    · exact fun _ _ _ _ => trivial
    · intro server handler hserver hhandler _
      cases hserver
      cases hhandler
      simp
  obtain ⟨w, hw, server, hserver, hhas⟩ := hrun
  exact ⟨w, hw, server, hserver, none_hanging _ _ _ hw server hserver, hhas⟩

/-- What the handler gets from its session, its signer and, at the end, from a journal that cannot
be written. -/
def appendFails (written : Written) : List Reply :=
  [.transmitted (some (.ok none)), .closed true,
    .receipt (some "receipt") "2025-01-01T00:00:02.000Z" (.threw written), .settled]

/-- When the append of the `resolved` event throws, the handler finishes and its entry stays
executing, with nothing to join. -/
theorem hanging_after_append_fails : ∃ w, Run step Free { journal := ⟨[], .clean⟩ }
      (dispatchRun (appendFails .nothing)) w ∧
        ∃ server, w.server = some server ∧ ¬ NoneHanging server ∧
          check server.entries { value := "urn:uuid:1" } "hash" = .executing ∧
          server.inFlight = ∅ := by
  have hexec : ∃ w, exec step { journal := ⟨[], .clean⟩ } (dispatchRun (appendFails .nothing)) =
      some w ∧ ∃ server, w.server = some server ∧
        check server.entries { value := "urn:uuid:1" } "hash" = .executing ∧
        server.inFlight = ∅ := ⟨_, rfl, _, rfl, by decide, by decide⟩
  obtain ⟨w, hw, server, hserver, hcheck, hempty⟩ := hexec
  refine ⟨w, run_of_exec hw, server, hserver, ?_, hcheck, hempty⟩
  rintro ⟨hjoin, -⟩
  obtain ⟨k, entry, he, hs⟩ := exists_of_check_executing hcheck
  obtain ⟨actionId, -, hhas⟩ := hjoin k entry he hs
  rw [hempty] at hhas
  cases hhas

end Mpas.AdapterServer
