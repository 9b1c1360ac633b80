import Mpas.DispatchLedger

/-!
# The journal determines the ledger

The dispatch ledger keeps its state twice: in memory, updated by each call, and
in the journal, from which the constructor replays it. Both are the same state,
whatever is called and whatever journal the ledger was opened on.

* `call_cases`: a call changes nothing, or appends one event and changes the
  entries as the replay of that event does;
* `construct_extends`: opening does no more than to resolve what is executing,
  an append at a time;
* `journal_determines`: after any calls the journal has the live entries, with
  the executing ones resolved as indeterminate, and opening it again changes
  nothing.
-/

namespace Mpas.DispatchLedger

/-- A ledger with the journal it writes to. -/
structure Ledger where
  journal : DispatchJournal
  entries : Entries

inductive Call
  | authorizeDispatch (actionId : ActionId) (envelopeHash : String) (expiresAt now : Timestamp)
  | resolve (actionId : ActionId) (resolution : DispatchResolution)
      (response : Option ActionResponse) (now : Timestamp)

/-- One call, on a journal that takes what is appended. A call that throws
leaves the entries as they were. -/
def Ledger.call (ledger : Ledger) : Call → Ledger
  | .authorizeDispatch actionId envelopeHash expiresAt now =>
    match authorizeDispatch ledger.journal ledger.entries actionId envelopeHash expiresAt now
        .returned with
    | (journal, .returned (_, entries)) => ⟨journal, entries⟩
    | (journal, _) => { ledger with journal }
  | .resolve actionId resolution response now =>
    match resolve ledger.journal ledger.entries actionId resolution response now .returned with
    | (journal, .returned entries) => ⟨journal, entries⟩
    | (journal, _) => { ledger with journal }

/-- The appends of a constructor all return. -/
def appends (journal : DispatchJournal) : List AppendOutcome :=
  match journal.readAll with
  | none => []
  | some events => (replay events).entries.map fun _ => .returned

/-- A new ledger on a journal, if its constructor returns. -/
def construct (now : Timestamp) (journal : DispatchJournal) : Option Ledger :=
  match openLedger now (appends journal) journal with
  | (journal, .returned entries) => some ⟨journal, entries⟩
  | _ => none

/-- Opened again at each of the times, on what the time before left. -/
def constructAgain : List Timestamp → Ledger → Option Ledger
  | [], ledger => some ledger
  | now :: times, ledger => (construct now ledger.journal).bind (constructAgain times)

/-- What is still executing when the journal is opened is indeterminate. -/
def settle (entry : LedgerEntry) : LedgerEntry :=
  match entry.status with
  | .executing => { entry with status := .resolved, resolution := some .indeterminate }
  | .resolved => entry

/-! ## Entries that a replay leaves -/

/-- Entries stand under the keys of their Action IDs, and have an outcome only
once they are resolved. -/
structure WellFormed (entries : Entries) : Prop where
  keyed : ∀ k entry, entries.get? k = some entry → key entry.actionId = k
  unresolved : ∀ k entry, entries.get? k = some entry → entry.status = .executing →
    entry.resolution = none ∧ entry.response = none

theorem WellFormed.set {entries : Entries} (h : WellFormed entries) {k : Json}
    {entry : LedgerEntry} (hkey : key entry.actionId = k)
    (hopen : entry.status = .executing → entry.resolution = none ∧ entry.response = none) :
    WellFormed (entries.set k entry) where
  keyed k' entry' hget := by
    rw [OrderedMap.get?_set] at hget
    split at hget
    · rename_i heq
      cases hget
      rw [hkey, heq]
    · exact h.keyed k' entry' hget
  unresolved k' entry' hget := by
    rw [OrderedMap.get?_set] at hget
    split at hget
    · cases hget
      exact hopen
    · exact h.unresolved k' entry' hget

theorem wellFormed_empty : WellFormed ∅ where
  keyed _ _ hget := by rw [OrderedMap.get?_empty] at hget; cases hget
  unresolved _ _ hget := by rw [OrderedMap.get?_empty] at hget; cases hget

theorem WellFormed.replayEvent {entries : Entries} (h : WellFormed entries) (event : LedgerEvent) :
    WellFormed (replayEvent entries event) := by
  cases event with
  | executing actionId envelopeHash expiresAt time => exact h.set rfl fun _ => ⟨rfl, rfl⟩
  | resolved actionId resolution response time =>
    rw [DispatchLedger.replayEvent]
    cases hget : entries.get? (key actionId) with
    | none => exact h
    | some entry =>
      have hkey : key entry.actionId = key actionId := h.keyed _ _ hget
      exact h.set hkey fun hs => (by cases hs)

theorem replay_wellFormed (events : List LedgerEvent) : WellFormed (replay events) := by
  unfold replay
  generalize hentries : (∅ : Entries) = entries
  have h : WellFormed entries := hentries ▸ wellFormed_empty
  clear hentries
  induction events generalizing entries with
  | nil => exact h
  | cons event events ih => exact ih _ (h.replayEvent event)

theorem replay_append (events : List LedgerEvent) (event : LedgerEvent) :
    replay (events ++ [event]) = replayEvent (replay events) event := by
  simp [replay]

/-! ## Live updates are replays -/

def LedgerEvent.actionId : LedgerEvent → JournalId
  | .executing actionId _ _ _ => actionId
  | .resolved actionId _ _ _ => actionId

def LedgerEvent.isExecuting : LedgerEvent → Bool
  | .executing .. => true
  | .resolved .. => false

/-- The event starts an entry, or is about one that is there. -/
def LedgerEvent.Follows (event : LedgerEvent) (entries : Entries) : Prop :=
  event.isExecuting = true ∨ entries.has (key event.actionId) = true

/-- The journal is complete, and replays to the entries. -/
structure Ledger.Faithful (ledger : Ledger) : Prop where
  clean : ledger.journal.tail = .clean
  replayed : replay ledger.journal.events = ledger.entries

/-- Append an event, and change the entries as its replay does. -/
def Ledger.record (ledger : Ledger) (event : LedgerEvent) : Ledger :=
  ⟨ledger.journal.append event .line, replayEvent ledger.entries event⟩

section Faithful

variable {ledger : Ledger}

theorem Ledger.Faithful.wellFormed (h : ledger.Faithful) : WellFormed ledger.entries :=
  h.replayed ▸ replay_wellFormed _

theorem append_clean {journal : DispatchJournal} (h : journal.tail = .clean) (event : LedgerEvent) :
    journal.append event .line = { journal with events := journal.events ++ [event] } := by
  obtain ⟨events, tail⟩ := journal
  cases h
  rfl

theorem Ledger.Faithful.record (h : ledger.Faithful) (event : LedgerEvent) :
    (ledger.record event).Faithful := by
  have happend := append_clean h.clean event
  constructor
  · simp [Ledger.record, happend, h.clean]
  · simp [Ledger.record, happend, replay_append, h.replayed]

/-- The replay of a resolution finds the entry that the live call changed. -/
theorem replayEvent_resolved {entries : Entries} (hwell : WellFormed entries) {k : Json}
    {entry : LedgerEntry} (hget : entries.get? k = some entry) (resolution : DispatchResolution)
    (response : Option ActionResponse) (time : Timestamp) :
    replayEvent entries (.resolved entry.actionId resolution response time) =
      entries.set k
        { entry with status := .resolved, resolution := some resolution, response } := by
  rw [replayEvent, hwell.keyed k entry hget, hget]

theorem resolved_follows {entries : Entries} (hwell : WellFormed entries) {k : Json}
    {entry : LedgerEntry} (hget : entries.get? k = some entry) (resolution : DispatchResolution)
    (response : Option ActionResponse) (time : Timestamp) :
    (LedgerEvent.resolved entry.actionId resolution response time).Follows entries :=
  Or.inr ((hwell.keyed k entry hget).symm ▸ has_of_get? hget)

/-- **One call.** It changes nothing, or it appends one event and changes the
entries as the replay of that event does. -/
theorem call_cases (hwell : WellFormed ledger.entries) (call : Call) :
    ledger.call call = ledger ∨
      ∃ event, event.Follows ledger.entries ∧ ledger.call call = ledger.record event := by
  obtain ⟨journal, entries⟩ := ledger
  cases call with
  | authorizeDispatch actionId envelopeHash expiresAt now =>
    unfold Ledger.call authorizeDispatch
    cases hcheck : check entries actionId envelopeHash with
    | absent =>
      refine Or.inr ⟨executingEvent actionId envelopeHash expiresAt now, Or.inl rfl, ?_⟩
      simp only [hcheck]
      rfl
    | executing => exact Or.inl (by simp only [hcheck])
    | reject code => exact Or.inl (by simp only [hcheck])
  | resolve actionId resolution response now =>
    unfold Ledger.call resolve
    cases hentry : entryFor entries actionId with
    | none => exact Or.inl (by simp only [hentry])
    | some found =>
      obtain ⟨k, entry⟩ := found
      have hget := get?_of_entryFor hentry
      have hreplay := fun response =>
        replayEvent_resolved hwell hget resolution response now
      have hfollows := fun response => resolved_follows hwell hget resolution response now
      simp only [hentry]
      by_cases hmatch : (response.any fun r => !matchesEntry entry resolution r) = true
      · exact Or.inl (by rw [if_pos hmatch])
      · rw [if_neg hmatch]
        cases hstatus : entry.status with
        | executing =>
          refine Or.inr ⟨.resolved entry.actionId resolution response now, hfollows _, ?_⟩
          simp only [Ledger.record, hreplay]
          rfl
        | resolved =>
          dsimp only
          by_cases hkeep : entry.resolution ≠ some resolution ∨ entry.response.isSome ∨
            response.isNone
          · exact Or.inl (by rw [if_pos hkeep])
          · -- only the response is new, the resolution stays what it was
            rw [if_neg hkeep]
            simp only [not_or, not_not] at hkeep
            refine Or.inr ⟨.resolved entry.actionId resolution response now, hfollows _, ?_⟩
            simp only [Ledger.record, hreplay, ← hstatus, ← hkeep.1]
            rfl

/-! ## What a ledger becomes -/

/-- Event after event is appended, each with what its replay does. -/
inductive Extends (ledger : Ledger) : Ledger → Prop
  | refl : Extends ledger ledger
  | record {later : Ledger} {event : LedgerEvent} (h : Extends ledger later)
      (hfollows : event.Follows later.entries) : Extends ledger (later.record event)

theorem Extends.trans {later last : Ledger} (h : Extends ledger later) (h' : Extends later last) :
    Extends ledger last := by
  induction h' with
  | refl => exact h
  | record _ hfollows ih => exact .record ih hfollows

theorem Extends.faithful {later : Ledger} (h : Extends ledger later) (hfaithful : ledger.Faithful) :
    later.Faithful := by
  induction h with
  | refl => exact hfaithful
  | record _ _ ih => exact ih.record _

theorem call_extends (hwell : WellFormed ledger.entries) (call : Call) :
    Extends ledger (ledger.call call) := by
  rcases call_cases hwell call with heq | ⟨event, hfollows, heq⟩
  · rw [heq]
    exact .refl
  · rw [heq]
    exact .record .refl hfollows

theorem calls_extends (h : ledger.Faithful) (calls : List Call) :
    Extends ledger (calls.foldl Ledger.call ledger) := by
  induction calls generalizing ledger with
  | nil => exact .refl
  | cons call calls ih =>
    have hcall := call_extends h.wellFormed call
    exact hcall.trans (ih (hcall.faithful h))

end Faithful

/-! ## Opening -/

section Open

variable {now : Timestamp}

/-- What is resolved already needs no append. -/
theorem recover_resolved {todo : List (Json × LedgerEntry)}
    (h : ∀ k entry, (k, entry) ∈ todo → entry.status = .resolved)
    (outcomes : List AppendOutcome) (journal : DispatchJournal) (entries : Entries) :
    recover now todo outcomes journal entries = (journal, .returned entries) := by
  induction todo with
  | nil => rfl
  | cons head rest ih =>
    obtain ⟨k, entry⟩ := head
    unfold recover
    rw [h k entry List.mem_cons_self]
    exact ih fun k entry hmem => h k entry (List.mem_cons_of_mem _ hmem)

/-- What recovery appends and sets for one executing entry. -/
theorem record_settle (now : Timestamp) {ledger : Ledger} (h : ledger.Faithful) {k : Json}
    {entry : LedgerEntry} (hget : ledger.entries.get? k = some entry) (hstatus : entry.status = .executing) :
    ledger.record (.resolved entry.actionId .indeterminate none now) =
      ⟨ledger.journal.append (.resolved entry.actionId .indeterminate none now) .line,
        ledger.entries.set k
          { entry with status := .resolved, resolution := some .indeterminate }⟩ := by
  have hnone : entry.response = none := (h.wellFormed.unresolved k entry hget hstatus).2
  simp only [Ledger.record, replayEvent_resolved h.wellFormed hget, ← hnone]

theorem settle_executing {entry : LedgerEntry} (h : entry.status = .executing) :
    settle entry = { entry with status := .resolved, resolution := some .indeterminate } := by
  simp [settle, h]

theorem settle_resolved {entry : LedgerEntry} (h : entry.status = .resolved) :
    settle entry = entry := by
  simp [settle, h]

/-- Each append of a recovery is the replay of its event, and settles one entry. -/
theorem recover_extends (now : Timestamp) (todo : List (Json × LedgerEntry))
    (hkeys : (todo.map Prod.fst).Nodup) (outcomes : List AppendOutcome)
    (hreturned : ∀ outcome ∈ outcomes, outcome = .returned)
    (hlength : todo.length ≤ outcomes.length) {ledger : Ledger} (h : ledger.Faithful)
    (htodo : ∀ k entry, (k, entry) ∈ todo → ledger.entries.get? k = some entry) :
    ∃ opened : Ledger, recover now todo outcomes ledger.journal ledger.entries =
        (opened.journal, .returned opened.entries) ∧ Extends ledger opened ∧
      opened.entries = ledger.entries.map fun k entry =>
        if k ∈ todo.map Prod.fst then settle entry else entry := by
  induction todo generalizing outcomes ledger with
  | nil => exact ⟨ledger, rfl, .refl, by simp [OrderedMap.map_self]⟩
  | cons head rest ih =>
    obtain ⟨k, entry⟩ := head
    obtain ⟨hk, hrest⟩ := List.nodup_cons.mp hkeys
    have hget := htodo k entry List.mem_cons_self
    unfold recover
    cases hstatus : entry.status with
    | resolved =>
      obtain ⟨opened, hrun, hopened, hentries⟩ := ih hrest outcomes hreturned
        (Nat.le_of_succ_le hlength) h fun k' entry' hmem =>
          htodo k' entry' (List.mem_cons_of_mem _ hmem)
      refine ⟨opened, by simpa only [hstatus] using hrun, hopened, hentries.trans ?_⟩
      refine OrderedMap.map_congr fun k' entry' hget' => ?_
      by_cases hk' : k' = k
      · subst hk'
        cases hget.symm.trans hget'
        simp [settle_resolved hstatus]
      · simp only [List.map_cons, List.mem_cons, hk', false_or]
    | executing =>
      cases outcomes with
      | nil => simp at hlength
      | cons outcome outcomes =>
        obtain rfl := hreturned outcome List.mem_cons_self
        have hrecord := record_settle now h hget hstatus
        have hfirst : Extends ledger
            (ledger.record (.resolved entry.actionId .indeterminate none now)) :=
          .record .refl (resolved_follows h.wellFormed hget _ _ _)
        rw [hrecord] at hfirst
        obtain ⟨opened, hrun, hopened, hentries⟩ := ih hrest outcomes
          (fun outcome hmem => hreturned outcome (List.mem_cons_of_mem _ hmem))
          (Nat.le_of_succ_le_succ hlength) (hfirst.faithful h) fun k' entry' hmem => by
            have hne : k ≠ k' := fun heq =>
              hk (List.mem_map.mpr ⟨(k', entry'), hmem, heq.symm⟩)
            rw [OrderedMap.get?_set_ne _ _ hne]
            exact htodo k' entry' (List.mem_cons_of_mem _ hmem)
        refine ⟨opened, hrun, hfirst.trans hopened, hentries.trans ?_⟩
        rw [OrderedMap.set_eq_map _ (has_of_get? hget), OrderedMap.map_map]
        refine OrderedMap.map_congr fun k' entry' hget' => ?_
        by_cases hk' : k' = k
        · subst hk'
          cases hget.symm.trans hget'
          simp only [hk, ↓reduceIte, List.map_cons, List.mem_cons, true_or]
          exact (settle_executing hstatus).symm
        · simp only [List.map_cons, List.mem_cons, hk', false_or, ↓reduceIte]

/-- What a journal of these events replays to. -/
def replayed (events : List LedgerEvent) : Ledger := ⟨⟨events, .clean⟩, replay events⟩

theorem replayed_faithful (events : List LedgerEvent) : (replayed events).Faithful := ⟨rfl, rfl⟩

theorem construct_replayed (now : Timestamp) (events : List LedgerEvent) :
    construct now (replayed events).journal =
      match recover now (replay events).entries ((replay events).entries.map fun _ => .returned)
        (replayed events).journal (replayed events).entries with
      | (journal, .returned entries) => some ⟨journal, entries⟩
      | _ => none := rfl

/-- **Opening.** On a complete journal the constructor returns, with every entry
that the journal replays to, settled. -/
theorem construct_extends (now : Timestamp) (events : List LedgerEvent) :
    ∃ opened, construct now ⟨events, .clean⟩ = some opened ∧ Extends (replayed events) opened ∧
      opened.entries = (replay events).map fun _ entry => settle entry := by
  obtain ⟨opened, hrun, hopened, hentries⟩ := recover_extends now
    (replay events).entries (replay events).nodup
    ((replay events).entries.map fun _ => .returned)
    (fun outcome hmem => by obtain ⟨_, _, heq⟩ := List.mem_map.mp hmem; exact heq.symm)
    (by simp) (replayed_faithful events) fun k entry => ((replay events).mem_entries_iff k entry).mp
  have hopens : construct now ⟨events, .clean⟩ = some opened :=
    (construct_replayed now events).trans (by rw [hrun])
  refine ⟨opened, hopens, hopened, hentries.trans ?_⟩
  refine OrderedMap.map_congr fun k entry hget => ?_
  have hmem : k ∈ (replay events).entries.map Prod.fst :=
    List.mem_map.mpr ⟨(k, entry), ((replay events).mem_entries_iff k entry).mpr hget, rfl⟩
  simp [hmem]

/-- A ledger with nothing executing is what its journal opens to. -/
theorem construct_settled {ledger : Ledger} (h : ledger.Faithful)
    (hsettled : ∀ k entry, ledger.entries.get? k = some entry → entry.status = .resolved) :
    construct now ledger.journal = some ledger := by
  obtain ⟨⟨events, tail⟩, entries⟩ := ledger
  obtain ⟨hclean, hreplayed⟩ := h
  dsimp only at hclean hreplayed hsettled
  subst hclean hreplayed
  refine (construct_replayed now events).trans ?_
  rw [recover_resolved fun k entry hmem =>
    hsettled k entry (((replay events).mem_entries_iff k entry).mp hmem)]
  rfl

theorem constructAgain_settled {ledger : Ledger} (h : ledger.Faithful)
    (hsettled : ∀ k entry, ledger.entries.get? k = some entry → entry.status = .resolved)
    (times : List Timestamp) : constructAgain times ledger = some ledger := by
  induction times with
  | nil => rfl
  | cons now times ih => rw [constructAgain, construct_settled h hsettled, Option.bind_some, ih]

end Open

/-! ## The journal and the ledger -/

theorem settle_status (entry : LedgerEntry) : (settle entry).status = .resolved := by
  cases hs : entry.status with
  | executing => rw [settle_executing hs]
  | resolved => rw [settle_resolved hs, hs]

/-- **The journal determines the ledger.** A ledger opened on any events, and
called any number of times, has a journal from which a new ledger has the same
entries, the executing ones resolved as indeterminate; and opening it again,
any number of times, appends nothing and changes nothing. -/
theorem journal_determines (events : List LedgerEvent) (now : Timestamp) (calls : List Call)
    (now' : Timestamp) (times : List Timestamp) :
    ∃ opened rebuilt, construct now ⟨events, .clean⟩ = some opened ∧
      construct now' (calls.foldl Ledger.call opened).journal = some rebuilt ∧
      rebuilt.entries =
        (calls.foldl Ledger.call opened).entries.map (fun _ entry => settle entry) ∧
      constructAgain times rebuilt = some rebuilt := by
  obtain ⟨opened, hopen, hextends, -⟩ := construct_extends now events
  have hfaithful := hextends.faithful (replayed_faithful events)
  have hlive := (calls_extends hfaithful calls).faithful hfaithful
  generalize hledger : calls.foldl Ledger.call opened = live at hlive
  obtain ⟨⟨events', tail⟩, entries⟩ := live
  obtain ⟨hclean, hreplayed⟩ := hlive
  dsimp only at hclean hreplayed
  subst hclean hreplayed
  obtain ⟨rebuilt, hrebuild, hrebuilt, hentries⟩ := construct_extends now' events'
  refine ⟨opened, rebuilt, hopen, by rw [hledger, hrebuild], by rw [hledger, hentries], ?_⟩
  refine constructAgain_settled (hrebuilt.faithful (replayed_faithful events'))
    (fun k entry hget => ?_) times
  rw [hentries, OrderedMap.get?_map] at hget
  obtain ⟨entry', -, rfl⟩ := Option.map_eq_some_iff.mp hget
  exact settle_status entry'

end Mpas.DispatchLedger
