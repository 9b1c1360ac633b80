import Mpas.DispatchReplay
import Mpas.Library.JsonWriting
import Mpas.RequestEquivalence
import Mpas.StrictJsonParsing
import Mathlib.Algebra.Order.BigOperators.Group.List
import Mathlib.Algebra.Order.Ring.Nat

/-!
# The journal file after a crash

The journal is a file of lines, one JSON text for each event. A crash during an
append leaves a part of its line behind the complete ones, and the next append
continues that line.

* `readsAll_linesOf`: complete lines are read back;
* `torn_cases`: a part of a line is the text without its line end, or no document;
* `fused_not_read`: a line that is continued by another is not read;
* `opened_refuses_iff`: what an opened ledger refuses, by the lines of the file;
* `survives_iff`: when the ledger works on after a torn write.
-/

namespace Mpas.DispatchLedger

open JsonText

/-! ## Events as JSON -/

/-- The text of a string, in UTF-16 code units. -/
def units (s : String) : Text := (Routing.utf16 s).map UInt16.ofNat

/-- How what the ledger does not look into is written: numbers, responses, and
the members of an Action ID, in the order of the caller's object. -/
structure Texts (ν : Type) where
  number : Text → ν
  written : ν → Text
  written_number : ∀ n, written n ∈ numberText
  number_written : ∀ n, number (written n) = n
  response : ActionResponse → Value ν
  response_unique : ∀ r, ((response r).tree written).unique = true
  scopeFirst : LedgerEvent → Bool

def DispatchResolution.text : DispatchResolution → String
  | .executed => "executed"
  | .failed => "failed"
  | .indeterminate => "indeterminate"

section Events

variable {ν : Type}

def stringValue (s : String) : Value ν := .string (units s)

def idValue (scopeFirst : Bool) : JournalId → Value ν
  | .flat legacyId => stringValue legacyId
  | .pair actionId =>
    let value := (codes "value", stringValue actionId.value)
    match actionId.scope with
    | none => .object [value]
    | some scope =>
      let scope := (codes "scope", stringValue scope)
      .object (if scopeFirst then [scope, value] else [value, scope])

variable (texts : Texts ν)

/-- The members of the event's object, in the order of the object literals. -/
def eventMembers (event : LedgerEvent) : List (Text × Value ν) :=
  match event with
  | .executing actionId envelopeHash expiresAt time =>
    [(codes "event", stringValue "executing"),
      (codes "actionId", idValue (texts.scopeFirst event) actionId),
      (codes "envelopeHash", stringValue envelopeHash),
      (codes "expiresAt", stringValue expiresAt),
      (codes "at", stringValue time)]
  | .resolved actionId resolution response time =>
    [(codes "event", stringValue "resolved"),
      (codes "actionId", idValue (texts.scopeFirst event) actionId),
      (codes "resolution", stringValue resolution.text)] ++
    (response.map fun r => (codes "response", texts.response r)).toList ++
    [(codes "at", stringValue time)]

def eventValue (event : LedgerEvent) : Value ν := .object (eventMembers texts event)

/-- `JSON.stringify(event)`. -/
def eventText (event : LedgerEvent) : Text := (eventValue texts event).stringify texts.written

/-! ## The file -/

def lineEnd : UInt16 := 10

/-- What an append writes. -/
def line (event : LedgerEvent) : Text := eventText texts event ++ [lineEnd]

def linesOf (events : List LedgerEvent) : Text := events.flatMap (line texts)

/-- `line.trim() === ""`. -/
def isBlank (line : Text) : Bool := line.all fun c => JsNumber.isStrWhiteSpace (Char.ofNat c.toNat)

/-- The lines that are parsed. -/
def lines (contents : Text) : List Text :=
  (contents.splitOn lineEnd).filter fun line => !isBlank line

/-- `readAll` returns these events. It throws on a line that is no JSON text. -/
def ReadsAll (contents : Text) (events : List LedgerEvent) : Prop :=
  List.Forall₂ (fun line event => Parses texts.number line (eventValue texts event))
    (lines contents) events

/-- What is read for a character whose last bytes are missing. -/
def replacement : UInt16 := 0xFFFD

/-- What is read of a line that was not written to its end: a part of it, and
the replacement character where the cut goes through a character of several bytes. -/
inductive Torn (line : Text) : Text → Prop
  | cut {before after : Text} (h : line = before ++ after) (hafter : after ≠ []) : Torn line before
  | split {before after : Text} {c : UInt16} (h : line = before ++ c :: after) (hc : 0x80 ≤ c) :
    Torn line (before ++ [replacement])

end Events

/-! ## Texts of objects -/

section Objects

open StrictJson (Segment Outcome parseObject)

variable {ν : Type} {tree tree' : Tree} {word word' rest rest' tail tail' : Text}

theorem segment_front (word rest : Text) : Segment (word ++ rest) 0 word word.length :=
  ⟨by rw [List.drop_zero, List.drop_left], (Nat.zero_add _).symm⟩

/-- A text that begins with a brace is that of an object. -/
theorem object_cases (h : TreeText tree (openBrace :: tail)) :
    (∃ ws, ws ∈ whitespace ∧ tree = .object [] ∧ tail = ws ++ [closeBrace]) ∨
      ∃ members inner, MembersText members inner ∧ tree = .object members ∧
        tail = inner ++ [closeBrace] := by
  generalize hword : openBrace :: tail = word at h
  have hfirst : ∀ {c : UInt16} {w : Text}, openBrace :: tail = c :: w → openBrace = c :=
    fun heq => (List.cons.inj heq).1
  cases h with
  | null => exact absurd (hfirst hword) (by decide)
  | true => exact absurd (hfirst hword) (by decide)
  | false => exact absurd (hfirst hword) (by decide)
  | number hnumber =>
    obtain ⟨c, w, hstarts, hc⟩ := StrictJson.numberText_starts hnumber
    rw [hstarts] at hword
    obtain rfl := hfirst hword
    exact absurd hc (by decide)
  | string hstring =>
    obtain ⟨body, -, hstarts⟩ := hstring
    rw [hstarts] at hword
    exact absurd (hfirst hword) (by decide)
  | emptyArray => exact absurd (hfirst hword) (by decide)
  | array => exact absurd (hfirst hword) (by decide)
  | @emptyObject ws hspace => exact Or.inl ⟨ws, hspace, rfl, (List.cons.inj hword).2⟩
  | @object members inner hmembers =>
    exact Or.inr ⟨members, inner, hmembers, rfl, (List.cons.inj hword).2⟩

/-- The strict parser reads the text of an object, whatever follows it. -/
theorem object_outcome (number : Text → ν) (h : TreeText tree (openBrace :: tail)) (rest : Text)
    (fuel : Nat) (hfuel : 2 * tail.length + 3 ≤ fuel + 1) :
    Outcome tree.unique (parseObject number (openBrace :: tail ++ rest) (fuel + 1) [] 0)
      (tree.evaluate number, (openBrace :: tail).length) := by
  have hsegment := segment_front (openBrace :: tail) rest
  rcases object_cases h with ⟨ws, hspace, rfl, rfl⟩ | ⟨members, inner, hmembers, rfl, rfl⟩
  · exact StrictJson.parseObject_empty hspace hsegment
  · have hlength : (inner ++ [closeBrace]).length = inner.length + 1 := List.length_append
    exact (StrictJson.complete (fuel + 1)).object [] 0 _ members inner hmembers hsegment (by omega)

/-- Of two texts of objects that begin one text, one with distinct names, both are the same. -/
theorem object_unique (rest rest' : Text) (h : TreeText tree (openBrace :: tail))
    (h' : TreeText tree' (openBrace :: tail')) (hunique : tree.unique = true)
    (heq : openBrace :: tail ++ rest = openBrace :: tail' ++ rest') : tail = tail' := by
  have hparse := object_outcome (fun _ => ()) h rest (2 * tail.length + 2 * tail'.length + 2)
    (by omega)
  have hparse' := object_outcome (fun _ => ()) h' rest' (2 * tail.length + 2 * tail'.length + 2)
    (by omega)
  rw [← heq] at hparse'
  rw [hunique] at hparse
  have hlength : tail.length = tail'.length := by
    cases hunique' : tree'.unique with
    | true =>
      rw [hunique'] at hparse'
      have hpair := Except.ok.inj (hparse.symm.trans hparse')
      exact Nat.succ.inj (congrArg Prod.snd hpair)
    | false =>
      rw [hunique'] at hparse'
      obtain ⟨key, path, herror⟩ := hparse'
      cases hparse.symm.trans herror
  exact (List.append_inj (List.cons.inj heq).2 hlength).1

/-- A document that begins as an object does is the text of one, with white space behind it. -/
theorem document_object (h : DocumentText tree (openBrace :: rest)) :
    ∃ tail after, TreeText tree (openBrace :: tail) ∧ after ∈ whitespace ∧
      rest = tail ++ after := by
  obtain ⟨before, word, after, hbefore, hword, hafter, heq⟩ := h
  cases before with
  | cons c before =>
    rw [List.cons_append, List.cons_append] at heq
    obtain rfl := (List.cons.inj heq).1
    exact absurd (hbefore _ List.mem_cons_self) (by decide)
  | nil =>
    obtain ⟨c, tail, rfl, -⟩ := StrictJson.tree_starts hword
    rw [List.nil_append, List.cons_append] at heq
    obtain ⟨rfl, rfl⟩ := List.cons.inj heq
    exact ⟨tail, after, hword, hafter, rfl⟩

/-- Two objects behind each other are no document. -/
theorem fused_no_document (h : TreeText tree (openBrace :: tail)) (hunique : tree.unique = true)
    (rest : Text) : ¬ DocumentText tree' (openBrace :: tail ++ openBrace :: rest) := by
  intro hdocument
  obtain ⟨tail', after, hword, hafter, heq⟩ := document_object hdocument
  obtain rfl := object_unique (openBrace :: rest) after h hword hunique
    (congrArg (openBrace :: ·) heq)
  have hspace : openBrace :: rest = after := List.append_cancel_left heq
  exact absurd (hafter openBrace (hspace ▸ List.mem_cons_self)) (by decide)

/-- The beginning of an object is no document. -/
theorem cut_no_document (h : TreeText tree (openBrace :: tail)) (hunique : tree.unique = true)
    {before after : Text} (hcut : tail = before ++ after) (hafter : after ≠ []) :
    ¬ DocumentText tree' (openBrace :: before) := by
  intro hdocument
  obtain ⟨tail', ws, hword, -, rfl⟩ := document_object hdocument
  obtain rfl := object_unique [] (ws ++ after) h hword hunique (by
    rw [hcut, List.append_nil, List.cons_append, List.append_assoc])
  have hlength := congrArg List.length hcut
  rw [List.length_append, List.length_append] at hlength
  exact hafter (List.length_eq_zero_iff.mp (by omega))

theorem replacement_no_document (before : Text) :
    ¬ DocumentText tree (openBrace :: (before ++ [replacement])) := by
  intro hdocument
  obtain ⟨tail, ws, hword, hspace, heq⟩ := document_object hdocument
  rcases List.eq_nil_or_concat ws with rfl | ⟨ws', c, rfl⟩
  · have hclosed : ∃ inner, tail = inner ++ [closeBrace] := by
      rcases object_cases hword with ⟨ws, -, -, hclose⟩ | ⟨-, inner, -, -, hclose⟩
      · exact ⟨ws, hclose⟩
      · exact ⟨inner, hclose⟩
    obtain ⟨inner, rfl⟩ := hclosed
    rw [List.append_nil] at heq
    have hlast := (List.append_inj' heq rfl).2
    exact absurd (List.cons.inj hlast).1 (by decide)
  · rw [List.concat_eq_append, ← List.append_assoc] at heq
    have hlast := (List.append_inj' heq rfl).2
    have hc : c = replacement := (List.cons.inj hlast).1.symm
    exact absurd (hspace c (by simp)) (by rw [hc]; decide)

end Objects

/-! ## Texts of events -/

section EventTexts

variable {ν : Type} (texts : Texts ν) (event : LedgerEvent)

theorem idValue_unique (scopeFirst : Bool) (actionId : JournalId) :
    ((idValue scopeFirst actionId : Value ν).tree texts.written).unique = true := by
  cases actionId with
  | flat legacyId => rfl
  | pair actionId =>
    obtain ⟨value, scope⟩ := actionId
    cases scope with
    | none => rfl
    | some scope => cases scopeFirst <;> rfl

theorem eventValue_unique :
    ((eventValue texts event).tree texts.written).unique = true := by
  cases event with
  | executing actionId envelopeHash expiresAt time =>
    simp only [eventValue, eventMembers, stringValue, Value.tree, treeMembers, Tree.unique,
      uniqueMembers, idValue_unique, List.map_cons, List.map_nil, Bool.and_true,
      decide_eq_true_eq]
    decide
  | resolved actionId resolution response time =>
    cases response with
    | none =>
      simp only [eventValue, eventMembers, stringValue, Option.map_none, Option.toList_none,
        List.append_nil, List.cons_append, List.nil_append, Value.tree, treeMembers, Tree.unique,
        uniqueMembers, idValue_unique, List.map_cons, List.map_nil, Bool.and_true,
        decide_eq_true_eq]
      decide
    | some r =>
      simp only [eventValue, eventMembers, stringValue, Option.map_some, Option.toList_some,
        List.cons_append, List.nil_append, Value.tree, treeMembers, Tree.unique,
        uniqueMembers, idValue_unique, texts.response_unique, List.map_cons, List.map_nil,
        Bool.and_true, decide_eq_true_eq]
      decide

theorem eventText_text :
    TreeText ((eventValue texts event).tree texts.written) (eventText texts event) :=
  stringify_text texts.written_number _

theorem eventText_starts : ∃ tail, eventText texts event = openBrace :: tail := ⟨_, rfl⟩

theorem eventText_parses : Parses texts.number (eventText texts event) (eventValue texts event) :=
  ⟨_, ⟨[], _, [], none_whitespace, eventText_text texts event, none_whitespace, by simp⟩,
    tree_evaluate texts.number_written _ (eventValue_unique texts event)⟩

theorem lineEnd_not_mem_eventText : lineEnd ∉ eventText texts event := fun hmem =>
  absurd (stringify_printable texts.written_number _ lineEnd hmem) (by decide)

/-- `JSON.parse` of an event's text has no other value. -/
theorem eventText_value {value : Value ν} (h : Parses texts.number (eventText texts event) value) :
    value = eventValue texts event := by
  obtain ⟨hiff, hvalue, -⟩ :=
    StrictJson.strictJsonParse_correct texts.number (eventText texts event)
  have hdocument : DocumentText ((eventValue texts event).tree texts.written)
      (eventText texts event) :=
    ⟨[], _, [], none_whitespace, eventText_text texts event, none_whitespace, by simp⟩
  obtain ⟨parsed, hparse⟩ := hiff.mpr ⟨_, hdocument, eventValue_unique texts event⟩
  rw [(hvalue parsed hparse value).mp h,
    (hvalue parsed hparse _).mp (eventText_parses texts event)]

end EventTexts

/-! ## Lines -/

section Lines

variable {ν : Type} {texts : Texts ν}

theorem isBlank_object (tail : Text) : isBlank (openBrace :: tail) = false := rfl

theorem lines_nil : lines [] = [] := rfl

theorem lines_object {tail : Text} (h : lineEnd ∉ openBrace :: tail) :
    lines (openBrace :: tail) = [openBrace :: tail] := by
  rw [lines, List.splitOn_eq_singleton h]
  simp [isBlank_object]

theorem lines_object_append {tail : Text} (h : lineEnd ∉ openBrace :: tail) (rest : Text) :
    lines (openBrace :: tail ++ lineEnd :: rest) = (openBrace :: tail) :: lines rest := by
  rw [lines, List.splitOn_append_cons_self_of_not_mem h]
  simp [isBlank_object, lines]

theorem lines_linesOf (events : List LedgerEvent) (rest : Text) :
    lines (linesOf texts events ++ rest) = events.map (eventText texts) ++ lines rest := by
  induction events with
  | nil => rfl
  | cons event events ih =>
    have hnone := lineEnd_not_mem_eventText texts event
    obtain ⟨tail, hstarts⟩ := eventText_starts texts event
    have hsplit : linesOf texts (event :: events) ++ rest =
        eventText texts event ++ lineEnd :: (linesOf texts events ++ rest) := by
      simp [linesOf, line]
    rw [hstarts] at hnone
    rw [hsplit, hstarts, lines_object_append hnone, ih, List.map_cons, hstarts, List.cons_append]

theorem lines_complete (events : List LedgerEvent) :
    lines (linesOf texts events) = events.map (eventText texts) := by
  have hlines : lines (linesOf texts events ++ []) = _ := lines_linesOf events []
  rwa [List.append_nil, lines_nil, List.append_nil] at hlines

theorem readsAll_linesOf (events : List LedgerEvent) :
    ReadsAll texts (linesOf texts events) events := by
  rw [ReadsAll, lines_complete, List.forall₂_map_left_iff]
  exact List.forall₂_same.mpr fun event _ => eventText_parses texts event

/-- The values of the complete lines are those of their events. -/
theorem readsAll_values {events read : List LedgerEvent}
    (h : ReadsAll texts (linesOf texts events) read) :
    read.map (eventValue texts) = events.map (eventValue texts) := by
  rw [ReadsAll, lines_complete, List.forall₂_map_left_iff] at h
  induction h with
  | nil => rfl
  | cons hparse _ ih => rw [List.map_cons, List.map_cons, eventText_value texts _ hparse, ih]

end Lines

/-! ## Action IDs in the journal -/

/-- The Action IDs that an ID of the journal stands for: a legacy ID may be of several. -/
def JournalId.Names (id : JournalId) (actionId : ActionId) : Prop :=
  id = .pair actionId ∨ id = .flat (legacyId actionId)

/-- Every Action ID of the journal is one of an executing line. -/
def Paired (events : List LedgerEvent) : Prop :=
  ∀ event ∈ events, ∀ actionId, event.actionId.Names actionId →
    ∃ first ∈ events, first.isExecuting = true ∧ first.actionId.Names actionId

theorem key_injective {a b : JournalId} (h : key a = key b) : a = b := by
  cases a with
  | flat s =>
    cases b with
    | flat t => simpa [key] using h
    | pair b => simp [key] at h
  | pair a =>
    cases b with
    | flat t => simp [key] at h
    | pair b => rw [key_pair_injective h]

theorem has_set_iff {entries : Entries} (k k' : Json) (entry : LedgerEntry) :
    (entries.set k entry).has k' = true ↔ k = k' ∨ entries.has k' = true := by
  rw [OrderedMap.has_iff, OrderedMap.has_iff, OrderedMap.get?_set]
  by_cases hk : k = k' <;> simp [hk]

theorem replayEvent_has_iff (entries : Entries) (event : LedgerEvent) (k : Json) :
    (replayEvent entries event).has k = true ↔
      entries.has k = true ∨ event.isExecuting = true ∧ key event.actionId = k := by
  cases event with
  | executing actionId envelopeHash expiresAt time =>
    rw [replayEvent, has_set_iff]
    simp [LedgerEvent.isExecuting, LedgerEvent.actionId, or_comm]
  | resolved actionId resolution response time =>
    rw [replayEvent]
    cases hget : entries.get? (key actionId) with
    | none => simp [LedgerEvent.isExecuting]
    | some entry =>
      have hhas := has_of_get? hget
      simp only [has_set_iff, LedgerEvent.isExecuting]
      constructor
      · rintro (rfl | h)
        · exact Or.inl hhas
        · exact Or.inl h
      · rintro (h | ⟨h, -⟩)
        · exact Or.inr h
        · cases h

theorem replay_has_iff (events : List LedgerEvent) (k : Json) :
    (replay events).has k = true ↔
      ∃ event ∈ events, event.isExecuting = true ∧ key event.actionId = k := by
  induction events using List.reverseRecOn with
  | nil => simp [replay, OrderedMap.has]
  | append_singleton events event ih =>
    rw [replay_append, replayEvent_has_iff, ih]
    constructor
    · rintro (⟨first, hmem, hfirst⟩ | hlast)
      · exact ⟨first, List.mem_append_left _ hmem, hfirst⟩
      · exact ⟨event, by simp, hlast⟩
    · rintro ⟨first, hmem, hfirst⟩
      rcases List.mem_append.mp hmem with hleft | hright
      · exact Or.inl ⟨first, hleft, hfirst⟩
      · rw [List.mem_singleton.mp hright] at hfirst
        exact Or.inr hfirst

theorem check_absent_iff_not_has (entries : Entries) (actionId : ActionId)
    (envelopeHash : String) :
    check entries actionId envelopeHash ≠ .absent ↔
      ∃ id : JournalId, id.Names actionId ∧ entries.has (key id) = true := by
  rw [Ne, check_eq_absent_iff, Classical.not_and_iff_not_or_not, Bool.not_eq_false,
    Bool.not_eq_false]
  constructor
  · rintro (h | h)
    · exact ⟨.pair actionId, Or.inl rfl, h⟩
    · exact ⟨.flat (legacyId actionId), Or.inr rfl, h⟩
  · rintro ⟨id, rfl | rfl, h⟩
    · exact Or.inl h
    · exact Or.inr h

/-- An Action ID is refused after a replay if an executing line is about it. -/
theorem replay_refuses_iff (events : List LedgerEvent) (actionId : ActionId)
    (envelopeHash : String) :
    check (replay events) actionId envelopeHash ≠ .absent ↔
      ∃ event ∈ events, event.isExecuting = true ∧ event.actionId.Names actionId := by
  rw [check_absent_iff_not_has]
  constructor
  · rintro ⟨id, hnames, hhas⟩
    obtain ⟨event, hmem, hexecuting, hkey⟩ := (replay_has_iff events _).mp hhas
    exact ⟨event, hmem, hexecuting, key_injective hkey ▸ hnames⟩
  · rintro ⟨event, hmem, hexecuting, hnames⟩
    exact ⟨event.actionId, hnames, (replay_has_iff events _).mpr ⟨event, hmem, hexecuting, rfl⟩⟩

section Extends

variable {ledger later : Ledger}

theorem Extends.has (h : Extends ledger later) {k : Json} (hk : ledger.entries.has k = true) :
    later.entries.has k = true := by
  induction h with
  | refl => exact hk
  | record _ _ ih => exact replayEvent_has ih _

theorem Extends.refuses (h : Extends ledger later) {actionId : ActionId} {envelopeHash : String}
    (hrefused : check ledger.entries actionId envelopeHash ≠ .absent) :
    check later.entries actionId envelopeHash ≠ .absent := by
  obtain ⟨id, hnames, hhas⟩ := (check_absent_iff_not_has _ _ _).mp hrefused
  exact (check_absent_iff_not_has _ _ _).mpr ⟨id, hnames, h.has hhas⟩

theorem Extends.journal (h : Extends ledger later) (hfaithful : ledger.Faithful) :
    ∃ appended, later.journal.events = ledger.journal.events ++ appended := by
  induction h with
  | refl => exact ⟨[], (List.append_nil _).symm⟩
  | @record later event hlater _ ih =>
    obtain ⟨appended, hevents⟩ := ih
    refine ⟨appended ++ [event], ?_⟩
    rw [Ledger.record, append_clean (hlater.faithful hfaithful).clean]
    simp [hevents]

/-- The ledger itself writes an executing line before any other line about an Action ID. -/
theorem Extends.paired (h : Extends ledger later) (hfaithful : ledger.Faithful)
    (hpaired : Paired ledger.journal.events) : Paired later.journal.events := by
  induction h with
  | refl => exact hpaired
  | @record later event hlater hfollows ih =>
    have hlaterFaithful := hlater.faithful hfaithful
    rw [Ledger.record, append_clean hlaterFaithful.clean]
    intro event' hmem actionId hnames
    rcases List.mem_append.mp hmem with hold | hnew
    · obtain ⟨first, hfirst, hexecuting⟩ := ih event' hold actionId hnames
      exact ⟨first, List.mem_append_left _ hfirst, hexecuting⟩
    · obtain rfl := List.mem_singleton.mp hnew
      rcases hfollows with hexecuting | hhas
      · exact ⟨event', hmem, hexecuting, hnames⟩
      · rw [← hlaterFaithful.replayed, replay_has_iff] at hhas
        obtain ⟨first, hfirst, hexecuting, hkey⟩ := hhas
        exact ⟨first, List.mem_append_left _ hfirst, hexecuting, key_injective hkey ▸ hnames⟩

end Extends

/-! ## What an event's text says -/

theorem codeUnits_lt (c : Char) : ∀ n ∈ Routing.codeUnits c, n < 65536 := by
  have hvalid := c.valid
  unfold UInt32.isValidChar Nat.isValidChar at hvalid
  have hnat : c.val.toNat = c.toNat := rfl
  intro n hn
  unfold Routing.codeUnits at hn
  split at hn <;> simp only [List.mem_cons, List.not_mem_nil, or_false] at hn <;> omega

theorem map_ofNat_injective {a b : List Nat} (ha : ∀ n ∈ a, n < 65536) (hb : ∀ n ∈ b, n < 65536)
    (h : a.map UInt16.ofNat = b.map UInt16.ofNat) : a = b := by
  induction a generalizing b with
  | nil => exact (List.map_eq_nil_iff.mp h.symm).symm
  | cons n a ih =>
    cases b with
    | nil => cases h
    | cons m b =>
      obtain ⟨hn, ha⟩ := List.forall_mem_cons.mp ha
      obtain ⟨hm, hb⟩ := List.forall_mem_cons.mp hb
      obtain ⟨hfirst, hrest⟩ := List.cons.inj h
      have hsame := congrArg UInt16.toNat hfirst
      rw [UInt16.toNat_ofNat_of_lt' hn, UInt16.toNat_ofNat_of_lt' hm] at hsame
      rw [hsame, ih ha hb hrest]

theorem units_injective {a b : String} (h : units a = units b) : a = b := by
  have hlt : ∀ s : String, ∀ n ∈ Routing.utf16 s, n < 65536 := by
    intro s n hn
    obtain ⟨c, -, hc⟩ := List.mem_flatMap.mp hn
    exact codeUnits_lt c n hc
  exact Routing.utf16_injective (map_ofNat_injective (hlt a) (hlt b) h)

section Says

variable {ν : Type} {texts : Texts ν}

theorem stringValue_inj (a b : String) : (stringValue a : Value ν) = stringValue b ↔ a = b :=
  ⟨fun h => units_injective (Value.string.inj h), congrArg stringValue⟩

theorem idValue_injective {scopeFirst scopeFirst' : Bool} {a b : JournalId}
    (h : (idValue scopeFirst a : Value ν) = idValue scopeFirst' b) : a = b := by
  have hnames : codes "scope" ≠ codes "value" := by decide
  cases a with
  | flat s =>
    cases b with
    | flat t => rw [(stringValue_inj _ _).mp h]
    | pair b =>
      obtain ⟨value, scope⟩ := b
      cases scope <;> cases h
  | pair a =>
    obtain ⟨value, scope⟩ := a
    cases b with
    | flat t => cases scope <;> cases h
    | pair b =>
      obtain ⟨value', scope'⟩ := b
      cases scope <;> cases scope' <;> cases scopeFirst <;> cases scopeFirst' <;>
        simp only [idValue, ↓reduceIte, Bool.false_eq_true, Value.object.injEq, List.cons.injEq,
          Prod.mk.injEq, true_and, and_true, reduceCtorEq, and_false, hnames, hnames.symm,
          false_and, stringValue_inj] at h
      all_goals simp [h]

/-- The text of an event says of which kind it is, and of which Action ID. -/
theorem eventValue_says {a b : LedgerEvent} (h : eventValue texts a = eventValue texts b) :
    a.isExecuting = b.isExecuting ∧ a.actionId = b.actionId := by
  have hmembers := Value.object.inj h
  have hkinds : (stringValue "executing" : Value ν) ≠ stringValue "resolved" :=
    fun heq => absurd ((stringValue_inj _ _).mp heq) (by decide)
  cases a with
  | executing id hash expiresAt time =>
    cases b with
    | executing id' hash' expiresAt' time' =>
      obtain ⟨-, hrest⟩ := List.cons.inj hmembers
      exact ⟨rfl, idValue_injective (Prod.mk.inj (List.cons.inj hrest).1).2⟩
    | resolved id' resolution response time' =>
      exact absurd (Prod.mk.inj (List.cons.inj hmembers).1).2 hkinds
  | resolved id resolution response time =>
    cases b with
    | executing id' hash' expiresAt' time' =>
      exact absurd (Prod.mk.inj (List.cons.inj hmembers).1).2.symm hkinds
    | resolved id' resolution' response' time' =>
      obtain ⟨-, hrest⟩ := List.cons.inj hmembers
      exact ⟨rfl, idValue_injective (Prod.mk.inj (List.cons.inj hrest).1).2⟩

end Says

/-! ## After the crash -/

section Crash

variable {ν : Type} {texts : Texts ν}

/-- Opening the file succeeds, and after any calls every Action ID of a complete
line is refused, and what was appended is read the next time. -/
def Survives (texts : Texts ν) (now : Timestamp) (found : Text) (complete : List LedgerEvent) :
    Prop :=
  ∃ read opened, ReadsAll texts found read ∧ construct now ⟨read, .clean⟩ = some opened ∧
    ∀ calls : List Call,
      let live := calls.foldl Ledger.call opened
      let appended := live.journal.events.drop read.length
      (∀ event ∈ complete, ∀ actionId, event.actionId.Names actionId → ∀ envelopeHash,
        check live.entries actionId envelopeHash ≠ .absent) ∧
      ∃ reread, ReadsAll texts (found ++ linesOf texts appended) reread ∧
        ∀ event ∈ appended, event ∈ reread

theorem ReadsAll.parses {contents : Text} {read : List LedgerEvent}
    (h : ReadsAll texts contents read) {word : Text} (hword : word ∈ lines contents) :
    ∃ value, Parses texts.number word value := by
  unfold ReadsAll at h
  generalize lines contents = words at h hword
  induction h with
  | nil => cases hword
  | cons hparse _ ih =>
    rcases List.mem_cons.mp hword with rfl | hrest
    · exact ⟨_, hparse⟩
    · exact ih hrest

theorem has_map {entries : Entries} (f : Json → LedgerEntry → LedgerEntry) (k : Json) :
    (entries.map f).has k = entries.has k := by
  rw [OrderedMap.has, OrderedMap.has, OrderedMap.get?_map, Option.isSome_map]

/-- What an opened ledger refuses. -/
theorem opened_refuses_iff {now : Timestamp} {read : List LedgerEvent} {opened : Ledger}
    (h : construct now ⟨read, .clean⟩ = some opened) (actionId : ActionId) (envelopeHash : String) :
    check opened.entries actionId envelopeHash ≠ .absent ↔
      ∃ event ∈ read, event.isExecuting = true ∧ event.actionId.Names actionId := by
  obtain ⟨opened', hopens, -, hentries⟩ := construct_extends now read
  cases h.symm.trans hopens
  rw [← replay_refuses_iff read actionId envelopeHash, check_absent_iff_not_has,
    check_absent_iff_not_has, hentries]
  simp only [has_map]

/-- The value of the Action ID without scope that a key is of. -/
def valueOf : Json → String
  | .arr [.str value] => value
  | .arr [.null, .str value] => value
  | _ => ""

/-- An Action ID that is longer than those of all entries. -/
def freshId (entries : Entries) : ActionId :=
  ⟨String.ofList (List.replicate ((entries.keys.map fun k => (valueOf k).length).sum + 1) 'a'),
    none⟩

theorem check_freshId (entries : Entries) (envelopeHash : String) :
    check entries (freshId entries) envelopeHash = .absent := by
  have hfresh : ∀ k, valueOf k = (freshId entries).value → entries.has k = false := by
    intro k hvalue
    by_contra hhas
    obtain ⟨entry, hentry⟩ := (OrderedMap.has_iff _ _).mp (Bool.not_eq_false _ ▸ hhas)
    have hmem : k ∈ entries.keys :=
      List.mem_map.mpr ⟨(k, entry), (entries.mem_entries_iff k entry).mpr hentry, rfl⟩
    have hle : (valueOf k).length ≤ (entries.keys.map fun k => (valueOf k).length).sum :=
      List.le_sum_of_mem (List.mem_map.mpr ⟨k, hmem, rfl⟩)
    rw [hvalue] at hle
    simp [freshId] at hle
  exact (check_eq_absent_iff _ _ _).mpr ⟨hfresh _ rfl, hfresh _ rfl⟩

theorem lineEnd_not_mem_of_prefix {event : LedgerEvent} {before after : Text}
    (h : eventText texts event = before ++ after) : lineEnd ∉ before := fun hmem =>
  lineEnd_not_mem_eventText texts event (h ▸ List.mem_append_left _ hmem)

/-- The line end is the last of a line, so what is before a cut is in the event's text. -/
theorem line_cut {event : LedgerEvent} {before after : Text}
    (h : line texts event = before ++ after) (hafter : after ≠ []) :
    ∃ left, eventText texts event = before ++ left ∧ after = left ++ [lineEnd] := by
  obtain rfl | ⟨left, last, rfl⟩ := List.eq_nil_or_concat after
  · exact absurd rfl hafter
  · rw [List.concat_eq_append] at h ⊢
    rw [line, ← List.append_assoc] at h
    obtain ⟨htext, hlast⟩ := List.append_inj' h rfl
    exact ⟨left, htext, by rw [hlast]⟩

/-- What is left of a torn line is the event's text without its line end, or no document. -/
theorem torn_cases {event : LedgerEvent} {fragment : Text}
    (h : Torn (line texts event) fragment) (hne : fragment ≠ []) :
    fragment = eventText texts event ∨
      ∃ rest, fragment = openBrace :: rest ∧ lineEnd ∉ fragment ∧
        ∀ tree, ¬ DocumentText tree fragment := by
  obtain ⟨tail, hstarts⟩ := eventText_starts texts event
  have htext := eventText_text texts event
  have hunique := eventValue_unique texts event
  rw [hstarts] at htext
  cases h with
  | @cut before after h hafter =>
    obtain ⟨left, hcut, -⟩ := line_cut h hafter
    have hnone := lineEnd_not_mem_of_prefix hcut
    cases fragment with
    | nil => exact absurd rfl hne
    | cons c rest =>
      by_cases hleft : left = []
      · rw [hleft, List.append_nil] at hcut
        exact Or.inl hcut.symm
      · rw [hstarts, List.cons_append] at hcut
        obtain ⟨rfl, hrest⟩ := List.cons.inj hcut
        exact Or.inr ⟨rest, rfl, hnone, fun tree => cut_no_document htext hunique hrest hleft⟩
  | @split before after c h hc =>
    obtain ⟨left, hcut, hleft⟩ := line_cut h (List.cons_ne_nil _ _)
    have hnone := lineEnd_not_mem_of_prefix hcut
    cases before with
    | nil =>
      -- a brace is one byte
      cases left with
      | nil =>
        obtain ⟨rfl, -⟩ := List.cons.inj hleft
        exact absurd hc (by decide)
      | cons d left =>
        rw [hstarts, List.nil_append] at hcut
        obtain ⟨rfl, -⟩ := List.cons.inj hleft
        obtain ⟨rfl, -⟩ := List.cons.inj hcut
        exact absurd hc (by decide)
    | cons d before =>
      rw [hstarts, List.cons_append] at hcut
      obtain ⟨rfl, -⟩ := List.cons.inj hcut
      refine Or.inr ⟨before ++ [replacement], rfl, ?_, fun tree => replacement_no_document before⟩
      intro hmem
      rcases List.mem_append.mp hmem with hbefore | hlast
      · exact hnone hbefore
      · exact absurd (List.mem_singleton.mp hlast) (by decide)

/-- The journals that a ledger writes list no Action ID without its dispatch. -/
theorem live_paired {now : Timestamp} {events : List LedgerEvent} {opened : Ledger}
    (h : construct now ⟨events, .clean⟩ = some opened) (hpaired : Paired events)
    (calls : List Call) : Paired (calls.foldl Ledger.call opened).journal.events := by
  obtain ⟨opened', hopens, hextends, -⟩ := construct_extends now events
  cases h.symm.trans hopens
  have hfaithful := hextends.faithful (replayed_faithful events)
  exact (hextends.trans (calls_extends hfaithful calls)).paired (replayed_faithful events) hpaired

/-- The next line that is appended continues the text without line end. -/
theorem fused_not_read {complete read : List LedgerEvent} {last first : LedgerEvent}
    {rest : List LedgerEvent} :
    ¬ ReadsAll texts (linesOf texts complete ++ eventText texts last ++
      linesOf texts (first :: rest)) read := by
  intro hread
  obtain ⟨tail, hlast⟩ := eventText_starts texts last
  obtain ⟨tail', hfirst⟩ := eventText_starts texts first
  have htext := eventText_text texts last
  have hnone := lineEnd_not_mem_eventText texts last
  have hnone' := lineEnd_not_mem_eventText texts first
  rw [hlast] at htext hnone
  rw [hfirst] at hnone'
  have hfused : lineEnd ∉ openBrace :: (tail ++ openBrace :: tail') := by
    rw [← List.cons_append]
    exact fun hmem => (List.mem_append.mp hmem).elim hnone hnone'
  have hsplit : linesOf texts complete ++ eventText texts last ++ linesOf texts (first :: rest) =
      linesOf texts complete ++ (openBrace :: (tail ++ openBrace :: tail') ++
        lineEnd :: linesOf texts rest) := by
    simp [linesOf, line, hlast, hfirst]
  have hline : openBrace :: (tail ++ openBrace :: tail') ∈
      lines (linesOf texts complete ++ eventText texts last ++ linesOf texts (first :: rest)) := by
    rw [hsplit, lines_linesOf, lines_object_append hfused]
    exact List.mem_append_right _ List.mem_cons_self
  obtain ⟨value, tree, hdocument, -⟩ := hread.parses hline
  exact fused_no_document htext (eventValue_unique texts last) tail' hdocument

/-- **Bricked.** Whatever is left of a torn line, the file is not read, now or
after the next append. -/
theorem torn_not_survives {now : Timestamp} {complete : List LedgerEvent} {last : LedgerEvent}
    {fragment : Text} (h : Torn (line texts last) fragment) (hne : fragment ≠ []) :
    ¬ Survives texts now (linesOf texts complete ++ fragment) complete := by
  rintro ⟨read, opened, hread, hopens, hcalls⟩
  rcases torn_cases h hne with rfl | ⟨rest, rfl, hnone, hdocument⟩
  · -- one more dispatch appends a line to it
    obtain ⟨opened', hopens', hextends, -⟩ := construct_extends now read
    cases hopens.symm.trans hopens'
    have hfaithful := hextends.faithful (replayed_faithful read)
    obtain ⟨appended, hevents⟩ := hextends.journal (replayed_faithful read)
    let call : Call := .authorizeDispatch (freshId opened.entries) "" "" now
    have hcall : opened.call call =
        opened.record (executingEvent (freshId opened.entries) "" "" now) := by
      simp only [call, Ledger.call, authorizeDispatch, check_freshId]
      rfl
    have hjournal : (opened.call call).journal.events =
        read ++ (appended ++ [executingEvent (freshId opened.entries) "" "" now]) := by
      rw [hcall, Ledger.record, append_clean hfaithful.clean, hevents]
      simp [replayed]
    obtain ⟨-, reread, hreread, -⟩ := hcalls [call]
    rw [List.foldl_cons, List.foldl_nil, hjournal, List.drop_left] at hreread
    obtain ⟨first, rest, hfirst⟩ := List.exists_cons_of_ne_nil
      (List.append_ne_nil_of_right_ne_nil appended (List.cons_ne_nil
        (executingEvent (freshId opened.entries) "" "" now) []))
    rw [hfirst] at hreread
    exact fused_not_read hreread
  · have hline : openBrace :: rest ∈ lines (linesOf texts complete ++ openBrace :: rest) := by
      rw [lines_linesOf, lines_object hnone]
      exact List.mem_append_right _ (List.mem_singleton.mpr rfl)
    obtain ⟨value, tree, htree, -⟩ := hread.parses hline
    exact hdocument tree htree

/-- **Intact.** A file of complete lines is opened, refuses what it lists, and is
read back with everything that is appended. -/
theorem intact_survives {now : Timestamp} {complete : List LedgerEvent} (h : Paired complete) :
    Survives texts now (linesOf texts complete) complete := by
  obtain ⟨opened, hopens, hextends, -⟩ := construct_extends now complete
  have hfaithful := hextends.faithful (replayed_faithful complete)
  refine ⟨complete, opened, readsAll_linesOf complete, hopens, fun calls => ?_⟩
  have hlive := calls_extends hfaithful calls
  obtain ⟨appended, hevents⟩ := (hextends.trans hlive).journal (replayed_faithful complete)
  refine ⟨fun event hmem actionId hnames envelopeHash => ?_, complete ++ appended, ?_, ?_⟩
  · exact hlive.refuses ((opened_refuses_iff hopens actionId envelopeHash).mpr
      (h event hmem actionId hnames))
  · rw [hevents]
    simp only [replayed, List.drop_left]
    have hread : ReadsAll texts _ _ := readsAll_linesOf (complete ++ appended)
    rwa [linesOf, List.flatMap_append] at hread
  · rw [hevents]
    simp only [replayed, List.drop_left]
    exact fun event hmem => List.mem_append_right _ hmem

theorem paired_of_survives {now : Timestamp} {complete : List LedgerEvent}
    (h : Survives texts now (linesOf texts complete) complete) : Paired complete := by
  obtain ⟨read, opened, hread, hopens, hcalls⟩ := h
  have hvalues := readsAll_values hread
  intro event hmem actionId hnames
  have hrefused := (hcalls []).1 event hmem actionId hnames ""
  obtain ⟨first, hfirst, hexecuting, hfirstNames⟩ :=
    (opened_refuses_iff hopens actionId "").mp hrefused
  have hvalue : eventValue texts first ∈ complete.map (eventValue texts) :=
    hvalues ▸ List.mem_map_of_mem hfirst
  obtain ⟨same, hsame, heq⟩ := List.mem_map.mp hvalue
  obtain ⟨hkind, hid⟩ := eventValue_says heq
  exact ⟨same, hsame, hkind ▸ hexecuting, hid ▸ hfirstNames⟩

/-- **The crash.** The file survives a torn write exactly if nothing of the last
line was written, given that its lines list no Action ID without its dispatch. -/
theorem survives_iff (texts : Texts ν) (now : Timestamp) (complete : List LedgerEvent)
    (last : LedgerEvent) (fragment : Text) (h : Torn (line texts last) fragment) :
    Survives texts now (linesOf texts complete ++ fragment) complete ↔
      fragment = [] ∧ Paired complete := by
  constructor
  · intro hsurvives
    have hnil : fragment = [] := by
      by_contra hne
      exact torn_not_survives h hne hsurvives
    rw [hnil, List.append_nil] at hsurvives
    exact ⟨hnil, paired_of_survives hsurvives⟩
  · rintro ⟨rfl, hpaired⟩
    rw [List.append_nil]
    exact intact_survives hpaired

end Crash

/-- Files without numbers and responses. -/
def plainTexts : Texts Unit where
  number _ := ()
  written _ := codes "0"
  written_number _ := by
    refine Language.mem_mul.mpr ⟨[], Or.inl rfl, codes "0", ?_, rfl⟩
    refine Language.mem_mul.mpr ⟨codes "0", Or.inl ⟨48, rfl, rfl⟩, [], ?_, rfl⟩
    exact Language.mem_mul.mpr ⟨[], Or.inl rfl, [], Or.inl rfl, rfl⟩
  number_written _ := rfl
  response _ := .null
  response_unique _ := rfl
  scopeFirst _ := false

def dispatchEvent : LedgerEvent :=
  .executing (.pair ⟨"1", none⟩) "hash" "2026-01-02T00:00:00.000Z" "2026-01-01T00:00:00.000Z"

theorem survives_iff_intact :
    Survives plainTexts "2026-01-01T00:00:01.000Z" (linesOf plainTexts [dispatchEvent] ++ [])
        [dispatchEvent] ↔
      ([] : Text) = [] ∧ Paired [dispatchEvent] :=
  survives_iff plainTexts _ _ dispatchEvent _ (.cut (List.nil_append _).symm (List.cons_ne_nil _ _))

/-- One brace of a second line is left, and the Verifier does not start. -/
theorem torn_write_bricks :
    Torn (line plainTexts dispatchEvent) [openBrace] ∧
      ¬ Survives plainTexts "2026-01-01T00:00:01.000Z"
        (linesOf plainTexts [dispatchEvent] ++ [openBrace]) [dispatchEvent] := by
  have htorn : Torn (line plainTexts dispatchEvent) [openBrace] := by
    refine @Torn.cut _ _ (line plainTexts dispatchEvent).tail rfl ?_
    simp [line, eventText, eventValue, Value.stringify]
  exact ⟨htorn, torn_not_survives htorn (List.cons_ne_nil _ _)⟩

end Mpas.DispatchLedger
