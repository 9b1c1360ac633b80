import Mpas.Library.OrderedMap
import Mpas.Artifacts

/-!
# The dispatch ledger

The Verifier's only protocol state: which Action IDs have been authorized for
dispatch, kept in memory and written ahead to an append-only journal that a
restart reads back. An append can return, throw or end with the process, and
what it leaves in the file is part of its outcome.

* `check_eq_absent_iff`: an Action ID is free if neither its own key nor the
  flattened key of a legacy journal has an entry;
* `authorizeDispatch_cases`: who is told `absent` has been written down, in the
  journal first;
* `resolve_executing`: when a dispatch is resolved;
* `openLedger_returned`: a restart blocks everything the journal holds as
  executing, and leaves nothing executing.
-/

namespace Mpas.DispatchLedger

inductive DispatchResolution
  | executed
  | failed
  | indeterminate
  deriving DecidableEq, Repr

def DispatchResolution.toResult : DispatchResolution → ActionResult
  | .executed => .executed
  | .failed => .failed
  | .indeterminate => .indeterminate

/-- An Action ID in a journal: a pair, or the string that legacy journals made of it. -/
inductive JournalId
  | flat (legacyId : String)
  | pair (actionId : ActionId)
  deriving DecidableEq, Repr

inductive LedgerEvent
  | executing (actionId : JournalId) (envelopeHash : String) (expiresAt : Timestamp)
      (time : Timestamp)
  | resolved (actionId : JournalId) (resolution : DispatchResolution)
      (response : Option ActionResponse) (time : Timestamp)
  deriving DecidableEq

inductive LedgerStatus
  | executing
  | resolved
  deriving DecidableEq, Repr

structure LedgerEntry where
  actionId : JournalId
  envelopeHash : String
  status : LedgerStatus
  resolution : Option DispatchResolution := none
  response : Option ActionResponse := none
  expiresAt : Timestamp
  deriving DecidableEq

inductive ReplayCode
  | ACTION_ID_HASH_MISMATCH
  | REPLAY_DETECTED
  deriving DecidableEq, Repr

def ReplayCode.message : ReplayCode → String
  | .ACTION_ID_HASH_MISMATCH => "Action ID is already dispatching a different Action Envelope."
  | .REPLAY_DETECTED => "Action has already been dispatched."

inductive LedgerCheck
  | absent
  | executing
  | reject (code : ReplayCode)
  deriving DecidableEq, Repr

/-! ## The journal file -/

/-- What follows the last complete line of the file. -/
inductive JournalTail
  | clean
  /-- a whole event without its line end -/
  | unterminated (event : LedgerEvent)
  /-- some line that does not parse -/
  | corrupt
  deriving DecidableEq

structure DispatchJournal where
  events : List LedgerEvent
  tail : JournalTail := .clean
  deriving DecidableEq

/-- What a write that did not come to its end leaves in the file. -/
inductive Written
  | nothing
  | line
  | unterminated
  | torn
  deriving DecidableEq, Repr

inductive AppendOutcome
  | returned
  | threw (written : Written)
  /-- the process ends before anything else happens -/
  | crashed (written : Written)
  deriving DecidableEq, Repr

def AppendOutcome.written : AppendOutcome → Written
  | .returned => .line
  | .threw written => written
  | .crashed written => written

/-- What comes after a tail without line end continues its line. -/
def DispatchJournal.append (journal : DispatchJournal) (event : LedgerEvent) (written : Written) :
    DispatchJournal :=
  match journal.tail, written with
  | _, .nothing => journal
  | .clean, .line => { journal with events := journal.events ++ [event] }
  | .clean, .unterminated => { journal with tail := .unterminated event }
  | _, _ => { journal with tail := .corrupt }

/-- `none` when a line does not parse. -/
def DispatchJournal.readAll (journal : DispatchJournal) : Option (List LedgerEvent) :=
  match journal.tail with
  | .clean => some journal.events
  | .unterminated event => some (journal.events ++ [event])
  | .corrupt => none

/-! ## Keys -/

/-- The value whose JSON text is the key: one element for a legacy id, two for a pair. -/
def key : JournalId → Json
  | .flat legacyId => .arr [.str legacyId]
  | .pair actionId => .arr [match actionId.scope with
      | some scope => .str scope
      | none => .null, .str actionId.value]

def legacyId (actionId : ActionId) : String :=
  match actionId.scope with
  | some scope => if scope = "" then actionId.value else scope ++ ":" ++ actionId.value
  | none => actionId.value

/-! ## The ledger -/

abbrev Entries := OrderedMap Json LedgerEntry

/-- The entry for an Action ID, with the key it was found under. -/
def entryFor (entries : Entries) (actionId : ActionId) : Option (Json × LedgerEntry) :=
  match entries.get? (key (.pair actionId)) with
  | some entry => some (key (.pair actionId), entry)
  | none => (entries.get? (key (.flat (legacyId actionId)))).map
      fun entry => (key (.flat (legacyId actionId)), entry)

def check (entries : Entries) (actionId : ActionId) (envelopeHash : String) : LedgerCheck :=
  match entryFor entries actionId with
  | none => .absent
  | some (_, entry) =>
    if entry.status = .resolved then .reject .REPLAY_DETECTED
    else if entry.envelopeHash = envelopeHash then .executing
    else .reject .ACTION_ID_HASH_MISMATCH

/-- How a call ends: with a value, with an exception, or with the process. -/
inductive Completion (α : Type)
  | returned (value : α)
  | threw
  | crashed
  deriving DecidableEq

def AppendOutcome.completion {α : Type} (outcome : AppendOutcome) (value : α) : Completion α :=
  match outcome with
  | .returned => .returned value
  | .threw _ => .threw
  | .crashed _ => .crashed

def executingEvent (actionId : ActionId) (envelopeHash : String) (expiresAt now : Timestamp) :
    LedgerEvent :=
  .executing (.pair actionId) envelopeHash expiresAt now

def executingEntry (actionId : ActionId) (envelopeHash : String) (expiresAt : Timestamp) :
    LedgerEntry :=
  { actionId := .pair actionId, envelopeHash, status := .executing, expiresAt }

/-- The journal is written before the entry is; without an entry, nothing is dispatched. -/
def authorizeDispatch (journal : DispatchJournal) (entries : Entries) (actionId : ActionId)
    (envelopeHash : String) (expiresAt now : Timestamp) (append : AppendOutcome) :
    DispatchJournal × Completion (LedgerCheck × Entries) :=
  match check entries actionId envelopeHash with
  | .absent =>
    let journal := journal.append (executingEvent actionId envelopeHash expiresAt now)
      append.written
    (journal, append.completion (.absent, entries.set (key (.pair actionId))
      (executingEntry actionId envelopeHash expiresAt)))
  | decision => (journal, .returned (decision, entries))

/-- The terminal response must be that of the entry's envelope and resolution. -/
def matchesEntry (entry : LedgerEntry) (resolution : DispatchResolution)
    (response : ActionResponse) : Bool :=
  decide (response.result = resolution.toResult) &&
    decide (response.actionEnvelopeHash.map (·.value) = some entry.envelopeHash)

def resolve (journal : DispatchJournal) (entries : Entries) (actionId : ActionId)
    (resolution : DispatchResolution) (response : Option ActionResponse) (now : Timestamp)
    (append : AppendOutcome) : DispatchJournal × Completion Entries :=
  match entryFor entries actionId with
  | none => (journal, .returned entries)
  | some (entryKey, entry) =>
    if response.any fun r => !matchesEntry entry resolution r then (journal, .threw)
    else
      let journal' := journal.append (.resolved entry.actionId resolution response now)
        append.written
      match entry.status with
      | .resolved =>
        if entry.resolution ≠ some resolution ∨ entry.response.isSome ∨ response.isNone then
          (journal, .returned entries)
        else (journal', append.completion (entries.set entryKey { entry with response }))
      | .executing =>
        (journal', append.completion (entries.set entryKey
          { entry with status := .resolved, resolution := some resolution, response }))

def replayEvent (entries : Entries) : LedgerEvent → Entries
  | .executing actionId envelopeHash expiresAt _ =>
    entries.set (key actionId) { actionId, envelopeHash, status := .executing, expiresAt }
  | .resolved actionId resolution response _ =>
    match entries.get? (key actionId) with
    | some entry => entries.set (key actionId)
        { entry with status := .resolved, resolution := some resolution, response }
    | none => entries

def replay (events : List LedgerEvent) : Entries := events.foldl replayEvent ∅

/-- Resolves what is left executing, one append after another; an outcome that
is missing is a crash before the append. -/
def recover (now : Timestamp) : List (Json × LedgerEntry) → List AppendOutcome →
    DispatchJournal → Entries → DispatchJournal × Completion Entries
  | [], _, journal, entries => (journal, .returned entries)
  | (entryKey, entry) :: rest, outcomes, journal, entries =>
    match entry.status with
    | .resolved => recover now rest outcomes journal entries
    | .executing =>
      match outcomes with
      | [] => (journal, .crashed)
      | append :: outcomes =>
        let journal := journal.append (.resolved entry.actionId .indeterminate none now)
          append.written
        match append with
        | .returned => recover now rest outcomes journal (entries.set entryKey
            { entry with status := .resolved, resolution := some .indeterminate })
        | .threw _ => (journal, .threw)
        | .crashed _ => (journal, .crashed)

/-- The constructor: read the journal back, then resolve what was left executing. -/
def openLedger (now : Timestamp) (outcomes : List AppendOutcome) (journal : DispatchJournal) :
    DispatchJournal × Completion Entries :=
  match journal.readAll with
  | none => (journal, .threw)
  | some events =>
    let entries := replay events
    recover now entries.entries outcomes journal entries

/-! ## What the journal holds -/

/-- The event is read back, if anything can be. -/
def DispatchJournal.Holds (journal : DispatchJournal) (event : LedgerEvent) : Prop :=
  ∀ events, journal.readAll = some events → event ∈ events

theorem DispatchJournal.Holds.append {journal : DispatchJournal} {event : LedgerEvent}
    (h : journal.Holds event) (event' : LedgerEvent) (written : Written) :
    (journal.append event' written).Holds event := by
  obtain ⟨events, tail⟩ := journal
  intro read hread
  cases tail with
  | clean =>
    have hmem : event ∈ events := h events rfl
    cases written <;> cases hread <;>
      first | exact hmem | exact List.mem_append_left _ hmem
  | unterminated last =>
    cases written
    case nothing => exact h read hread
    all_goals cases hread
  | corrupt => cases written <;> cases hread

theorem DispatchJournal.holds_line (journal : DispatchJournal) (event : LedgerEvent) :
    (journal.append event .line).Holds event := by
  obtain ⟨events, tail⟩ := journal
  intro read hread
  cases tail <;> cases hread
  exact List.mem_append_right _ (List.mem_singleton.mpr rfl)

/-! ## Checks -/

theorem has_of_get? {entries : Entries} {k : Json} {entry : LedgerEntry}
    (h : entries.get? k = some entry) : entries.has k = true :=
  (OrderedMap.has_iff _ _).mpr ⟨entry, h⟩

theorem has_set {entries : Entries} {k : Json} (h : entries.has k = true) (k' : Json)
    (entry : LedgerEntry) : (entries.set k' entry).has k = true := by
  obtain ⟨e, he⟩ := (OrderedMap.has_iff _ _).mp h
  rw [OrderedMap.has_iff, OrderedMap.get?_set]
  by_cases hk : k' = k <;> simp [hk, he]

theorem entryFor_eq_none_iff (entries : Entries) (actionId : ActionId) :
    entryFor entries actionId = none ↔ entries.has (key (.pair actionId)) = false ∧
      entries.has (key (.flat (legacyId actionId))) = false := by
  unfold entryFor OrderedMap.has
  cases entries.get? (key (.pair actionId)) <;> simp

theorem check_eq_absent_iff (entries : Entries) (actionId : ActionId) (envelopeHash : String) :
    check entries actionId envelopeHash = .absent ↔
      entries.has (key (.pair actionId)) = false ∧
        entries.has (key (.flat (legacyId actionId))) = false := by
  rw [← entryFor_eq_none_iff]
  unfold check
  cases entryFor entries actionId with
  | none => simp
  | some found =>
    obtain ⟨k, entry⟩ := found
    simp only [reduceCtorEq, iff_false]
    split
    · simp
    · split <;> simp

theorem entryFor_of_get? {entries : Entries} {actionId : ActionId} {entry : LedgerEntry}
    (h : entries.get? (key (.pair actionId)) = some entry) :
    entryFor entries actionId = some (key (.pair actionId), entry) := by
  simp [entryFor, h]

theorem get?_of_entryFor {entries : Entries} {actionId : ActionId} {k : Json}
    {entry : LedgerEntry} (h : entryFor entries actionId = some (k, entry)) :
    entries.get? k = some entry := by
  unfold entryFor at h
  split at h
  · cases h
    assumption
  · obtain ⟨e, he, heq⟩ := Option.map_eq_some_iff.mp h
    cases heq
    exact he

theorem exists_of_check_executing {entries : Entries} {actionId : ActionId} {envelopeHash : String}
    (h : check entries actionId envelopeHash = .executing) :
    ∃ k entry, entries.get? k = some entry ∧ entry.status = .executing := by
  unfold check at h
  split at h
  · cases h
  · rename_i k entry hentry
    refine ⟨k, entry, get?_of_entryFor hentry, ?_⟩
    cases hs : entry.status with
    | executing => rfl
    | resolved => simp [hs] at h

theorem key_pair_injective {a b : ActionId} (h : key (.pair a) = key (.pair b)) : a = b := by
  obtain ⟨value, scope⟩ := a
  obtain ⟨value', scope'⟩ := b
  cases scope <;> cases scope' <;> simp [key] at h
  · simp [h]
  · simp [h.1, h.2]

/-! ## Authorization -/

section Authorize

variable {journal journal' : DispatchJournal} {entries : Entries} {actionId : ActionId}
  {envelopeHash : String} {expiresAt now : Timestamp} {append : AppendOutcome}

/-- The gate either repeats the check, or writes the journal and then the entry. -/
theorem authorizeDispatch_cases {completion : Completion (LedgerCheck × Entries)}
    (h : authorizeDispatch journal entries actionId envelopeHash expiresAt now append =
      (journal', completion)) :
    (∃ decision, decision ≠ .absent ∧ check entries actionId envelopeHash = decision ∧
      journal' = journal ∧ completion = .returned (decision, entries)) ∨
    check entries actionId envelopeHash = .absent ∧
      journal' = journal.append (executingEvent actionId envelopeHash expiresAt now)
        append.written ∧
      completion = append.completion (.absent, entries.set (key (.pair actionId))
        (executingEntry actionId envelopeHash expiresAt)) := by
  unfold authorizeDispatch at h
  cases hc : check entries actionId envelopeHash with
  | absent =>
    simp only [hc, Prod.mk.injEq] at h
    exact Or.inr ⟨rfl, h.1.symm, h.2.symm⟩
  | executing =>
    simp only [hc, Prod.mk.injEq] at h
    exact Or.inl ⟨.executing, by simp, rfl, h.1.symm, h.2.symm⟩
  | reject code =>
    simp only [hc, Prod.mk.injEq] at h
    exact Or.inl ⟨.reject code, by simp, rfl, h.1.symm, h.2.symm⟩

theorem completion_eq_returned {α : Type} {outcome : AppendOutcome} {value value' : α}
    (h : outcome.completion value = .returned value') : outcome = .returned ∧ value = value' := by
  cases outcome with
  | returned => exact ⟨rfl, Completion.returned.inj h⟩
  | threw written => cases h
  | crashed written => cases h

end Authorize

/-! ## Resolution -/

section Resolve

variable {journal journal' : DispatchJournal} {entries entries' : Entries} {actionId : ActionId}
  {resolution : DispatchResolution} {response : Option ActionResponse} {now : Timestamp}
  {append : AppendOutcome}

/-- A resolution writes at most one event. -/
theorem resolve_journal {completion : Completion Entries}
    (h : resolve journal entries actionId resolution response now append =
      (journal', completion)) :
    journal' = journal ∨ ∃ event written, journal' = journal.append event written := by
  unfold resolve at h
  split at h
  · cases h
    exact Or.inl rfl
  · split at h
    · cases h
      exact Or.inl rfl
    · simp only at h
      split at h
      · split at h <;> cases h
        · exact Or.inl rfl
        · exact Or.inr ⟨_, _, rfl⟩
      · cases h
        exact Or.inr ⟨_, _, rfl⟩

/-- A resolution changes at most the Action's own entry, to a resolved one. -/
theorem resolve_returned
    (h : resolve journal entries actionId resolution response now append =
      (journal', .returned entries')) :
    entries' = entries ∨ ∃ k entry, entries.get? k = some entry ∧
      entryFor entries actionId = some (k, entry) ∧
      ∃ entry', entry'.status = .resolved ∧ entries' = entries.set k entry' := by
  unfold resolve at h
  split at h
  · cases h
    exact Or.inl rfl
  · rename_i k entry hentry
    have hget := get?_of_entryFor hentry
    split at h
    · cases h
    · simp only at h
      split at h
      · rename_i hstatus
        split at h
        · cases h
          exact Or.inl rfl
        · simp only [Prod.mk.injEq] at h
          obtain ⟨-, rfl⟩ := completion_eq_returned h.2
          exact Or.inr ⟨k, entry, hget, hentry, { entry with response }, hstatus, rfl⟩
      · simp only [Prod.mk.injEq] at h
        obtain ⟨-, rfl⟩ := completion_eq_returned h.2
        exact Or.inr ⟨k, entry, hget, hentry, _, rfl, rfl⟩

theorem resolve_has (h : resolve journal entries actionId resolution response now append =
      (journal', .returned entries')) {k : Json} (hk : entries.has k = true) :
    entries'.has k = true := by
  rcases resolve_returned h with rfl | ⟨k', _, _, _, entry', _, rfl⟩
  · exact hk
  · exact has_set hk k' entry'

/-- **Resolution.** With the response of its own envelope, an executing entry is
resolved unless the append fails. -/
theorem resolve_executing {entry : LedgerEntry}
    (hentry : entries.get? (key (.pair actionId)) = some entry)
    (hstatus : entry.status = .executing)
    (hresponse : ∀ r, response = some r → matchesEntry entry resolution r = true) :
    resolve journal entries actionId resolution response now append =
      (journal.append (.resolved entry.actionId resolution response now) append.written,
        append.completion (entries.set (key (.pair actionId))
          { entry with status := .resolved, resolution := some resolution, response })) := by
  have hmatch : (response.any fun r => !matchesEntry entry resolution r) = false := by
    cases response with
    | none => rfl
    | some r => simp [hresponse r rfl]
  simp [resolve, entryFor_of_get? hentry, hmatch, hstatus]

end Resolve

/-! ## Restart -/

theorem replayEvent_has {entries : Entries} {k : Json} (h : entries.has k = true)
    (event : LedgerEvent) : (replayEvent entries event).has k = true := by
  cases event with
  | executing actionId envelopeHash expiresAt time => exact has_set h _ _
  | resolved actionId resolution response time =>
    rw [replayEvent]
    cases entries.get? (key actionId) with
    | none => exact h
    | some entry => exact has_set h _ _

theorem foldl_replayEvent_has {k : Json} (events : List LedgerEvent) {entries : Entries}
    (h : entries.has k = true) : (events.foldl replayEvent entries).has k = true := by
  induction events generalizing entries with
  | nil => exact h
  | cons event events ih => exact ih (replayEvent_has h event)

/-- Whatever the journal lists as executing has an entry after a replay. -/
theorem replay_has {events : List LedgerEvent} {actionId : JournalId} {envelopeHash : String}
    {expiresAt time : Timestamp}
    (h : .executing actionId envelopeHash expiresAt time ∈ events) :
    (replay events).has (key actionId) = true := by
  obtain ⟨before, after, rfl⟩ := List.append_of_mem h
  unfold replay
  rw [List.foldl_append, List.foldl_cons]
  apply foldl_replayEvent_has
  rw [replayEvent, OrderedMap.has_iff]
  exact ⟨_, OrderedMap.get?_set_self _ _ _⟩

section Recover

variable {now : Timestamp}

theorem recover_holds {event : LedgerEvent} (todo : List (Json × LedgerEntry)) :
    ∀ (outcomes : List AppendOutcome) (journal : DispatchJournal) (entries : Entries),
      journal.Holds event → (recover now todo outcomes journal entries).1.Holds event := by
  induction todo with
  | nil => exact fun _ _ _ h => h
  | cons head rest ih =>
    obtain ⟨k, entry⟩ := head
    intro outcomes journal entries h
    unfold recover
    split
    · exact ih _ _ _ h
    · cases outcomes with
      | nil => exact h
      | cons append outcomes =>
        cases append with
        | returned => exact ih _ _ _ (h.append _ _)
        | threw written => exact h.append _ _
        | crashed written => exact h.append _ _

/-- A recovery that comes to its end keeps every entry and leaves none executing. -/
theorem recover_returned (todo : List (Json × LedgerEntry)) :
    ∀ (outcomes : List AppendOutcome) (journal journal' : DispatchJournal)
      (entries entries' : Entries),
      recover now todo outcomes journal entries = (journal', .returned entries') →
      (∀ k entry, entries.get? k = some entry → entry.status = .executing → (k, entry) ∈ todo) →
      (∀ k, entries.has k = true → entries'.has k = true) ∧
        ∀ k entry, entries'.get? k = some entry → entry.status = .resolved := by
  induction todo with
  | nil =>
    intro outcomes journal journal' entries entries' h hexecuting
    cases h
    refine ⟨fun _ hk => hk, fun k entry hget => ?_⟩
    cases hs : entry.status with
    | resolved => rfl
    | executing => cases hexecuting k entry hget hs
  | cons head rest ih =>
    obtain ⟨k₀, entry₀⟩ := head
    intro outcomes journal journal' entries entries' h hexecuting
    unfold recover at h
    split at h
    · rename_i hstatus
      refine ih _ _ _ _ _ h fun k entry hget hs => ?_
      rcases List.mem_cons.mp (hexecuting k entry hget hs) with heq | hmem
      · cases heq
        rw [hstatus] at hs
        cases hs
      · exact hmem
    · cases outcomes with
      | nil => cases h
      | cons append outcomes =>
        cases append with
        | threw written => cases h
        | crashed written => cases h
        | returned =>
          obtain ⟨hkeep, hresolved⟩ := ih _ _ _ _ _ h fun k entry hget hs => by
            rw [OrderedMap.get?_set] at hget
            split at hget
            · cases hget
              cases hs
            · rename_i hne
              rcases List.mem_cons.mp (hexecuting k entry hget hs) with heq | hmem
              · cases heq
                exact absurd rfl hne
              · exact hmem
          exact ⟨fun k hk => hkeep k (has_set hk _ _), hresolved⟩

end Recover

variable {now : Timestamp} {outcomes : List AppendOutcome} {journal journal' : DispatchJournal}
  {entries : Entries}

theorem openLedger_holds (now : Timestamp) (outcomes : List AppendOutcome) {event : LedgerEvent}
    (h : journal.Holds event) :
    (openLedger now outcomes journal).1.Holds event := by
  unfold openLedger
  cases journal.readAll with
  | none => exact h
  | some events => exact recover_holds _ _ _ _ h

/-- **Restart.** An opened ledger blocks whatever the journal holds as executing,
and nothing in it is executing. -/
theorem openLedger_returned (h : openLedger now outcomes journal = (journal', .returned entries)) :
    (∀ actionId envelopeHash expiresAt time,
      journal.Holds (.executing actionId envelopeHash expiresAt time) →
        entries.has (key actionId) = true) ∧
      ∀ k entry, entries.get? k = some entry → entry.status = .resolved := by
  unfold openLedger at h
  cases hread : journal.readAll with
  | none => simp [hread] at h
  | some events =>
    simp only [hread] at h
    obtain ⟨hkeep, hresolved⟩ := recover_returned _ _ _ _ _ _ h fun k entry hget _ =>
      (OrderedMap.mem_entries_iff _ _ _).mpr hget
    exact ⟨fun actionId envelopeHash expiresAt time hholds =>
      hkeep _ (replay_has (hholds events hread)), hresolved⟩

end Mpas.DispatchLedger
