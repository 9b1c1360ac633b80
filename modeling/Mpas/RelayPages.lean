import Mpas.RelayReliability
import Mpas.RequestEquivalence

/-!
# Polling page by page

A participant that polls from the start, each time with the cursor of the page
before, is handed out what is addressed to it: in the order it was stored, each
envelope once, and whatever has not expired by the time of any of the polls. The
numbers of the deliveries are shared by all participants, and new envelopes are
stored between the polls.

* `pollAll`: polling until a page is empty;
* `polling_exact`: what the pages hold.
-/

namespace Mpas.RelayDelivery

open Routing (DeliveryEnvelope parseDeliveryEnvelope)

variable {platform : Platform} {did : Did}

/-! ## Polling -/

/-- An envelope as it is parsed: it names no recipient twice. -/
structure ParsedEnvelope where
  envelope : DeliveryEnvelope
  unique : envelope.recipients.Nodup

/-- The entry is of the participant, and has not expired when the clock is read for it. -/
def isShown (platform : Platform) (did : Did) (now : Nat → Int) (entry : StoredDelivery) : Bool :=
  decide (entry.recipient = did) && isCurrent platform (now entry.sequence) entry.envelope

namespace RelayStore

/-- A poll that reads the clock again for each entry it looks at. -/
def pollDeliveriesAt (platform : Platform) (store : RelayStore) (did : Did)
    (cursor : Option String) (now : Nat → Int) : Except WorkerError Page := do
  let after ← parseCursor cursor
  let deliveries := Pages.page (·.sequence) DELIVERY_PAGE_SIZE (isShown platform did now) after
    store.deliveries
  return { deliveries, nextCursor := deliveries.getLast?.map fun entry => toString entry.sequence }

def storeAll (store : RelayStore) (envelopes : List ParsedEnvelope) : RelayStore :=
  envelopes.foldl (fun store parsed => store.storeEnvelope parsed.envelope) store

end RelayStore

/-- A poll, what was stored since the poll before it, and the clock during it. -/
structure Round where
  arrivals : List ParsedEnvelope
  now : Nat → Int

/-- Polling with the cursor of the page before, until a page is empty. -/
def pollAll (platform : Platform) (did : Did) :
    List Round → RelayStore → Option String → Except WorkerError (List Page)
  | [], _, _ => .ok []
  | round :: rest, store, cursor => do
    let store := store.storeAll round.arrivals
    let page ← store.pollDeliveriesAt platform did cursor round.now
    if page.deliveries = [] then return [page]
    return page :: (← pollAll platform did rest store page.nextCursor)

/-! ## What is stored -/

theorem parseDeliveryEnvelope_unique {value : Json} {envelope : DeliveryEnvelope}
    (h : parseDeliveryEnvelope platform value = .ok envelope) : envelope.recipients.Nodup := by
  cases value with
  | obj members => exact (Routing.parseDeliveryEnvelope_reads h).unique
  | _ => cases h

/-- The entries of an envelope, numbered from `next`. -/
def entriesOf (envelope : DeliveryEnvelope) (next : Nat) : List Did → List StoredDelivery
  | [] => []
  | recipient :: rest => ⟨next, recipient, envelope⟩ :: entriesOf envelope (next + 1) rest

/-- The entries of envelopes stored one after the other. -/
def filed (next : Nat) : List ParsedEnvelope → List StoredDelivery
  | [] => []
  | parsed :: rest => entriesOf parsed.envelope next parsed.envelope.recipients ++
      filed (next + parsed.envelope.recipients.length) rest

def filedCount (envelopes : List ParsedEnvelope) : Nat :=
  (envelopes.map fun parsed => parsed.envelope.recipients.length).sum

theorem storeFor_all (store : RelayStore) (envelope : DeliveryEnvelope) (recipients : List Did) :
    recipients.foldl (RelayStore.storeFor envelope) store =
      { deliveries := store.deliveries ++ entriesOf envelope store.nextDeliverySequence recipients
        nextDeliverySequence := store.nextDeliverySequence + recipients.length } := by
  induction recipients generalizing store with
  | nil => simp [entriesOf]
  | cons recipient rest ih =>
    rw [List.foldl_cons, ih]
    simp only [RelayStore.storeFor, entriesOf, List.append_assoc, List.singleton_append,
      List.length_cons, RelayStore.mk.injEq, true_and]
    omega

theorem storeAll_eq (store : RelayStore) (envelopes : List ParsedEnvelope) :
    store.storeAll envelopes =
      { deliveries := store.deliveries ++ filed store.nextDeliverySequence envelopes
        nextDeliverySequence := store.nextDeliverySequence + filedCount envelopes } := by
  induction envelopes generalizing store with
  | nil => simp [RelayStore.storeAll, filed, filedCount]
  | cons parsed rest ih =>
    have hstored : store.storeAll (parsed :: rest) =
        (store.storeEnvelope parsed.envelope).storeAll rest := rfl
    rw [hstored, ih, RelayStore.storeEnvelope, storeFor_all]
    simp only [filed, filedCount, List.append_assoc, List.map_cons, List.sum_cons,
      RelayStore.mk.injEq, true_and]
    omega

theorem filed_append (next : Nat) (first second : List ParsedEnvelope) :
    filed next (first ++ second) = filed next first ++ filed (next + filedCount first) second := by
  induction first generalizing next with
  | nil => simp [filed, filedCount]
  | cons parsed rest ih =>
    have hcount : next + filedCount (parsed :: rest) =
        next + parsed.envelope.recipients.length + filedCount rest := by
      simp only [filedCount, List.map_cons, List.sum_cons]
      omega
    rw [List.cons_append, filed, filed, ih, hcount, List.append_assoc]

theorem entriesOf_bounds {envelope : DeliveryEnvelope} {recipients : List Did} {next : Nat}
    {entry : StoredDelivery} (h : entry ∈ entriesOf envelope next recipients) :
    next ≤ entry.sequence ∧ entry.sequence < next + recipients.length := by
  induction recipients generalizing next with
  | nil => cases h
  | cons recipient rest ih =>
    rw [List.length_cons]
    rcases List.mem_cons.mp h with rfl | hrest
    · exact ⟨Nat.le_refl _, by dsimp only; omega⟩
    · have hbounds := ih hrest
      omega

theorem entriesOf_ascending (envelope : DeliveryEnvelope) (recipients : List Did) (next : Nat) :
    Pages.Ascending (·.sequence) (entriesOf envelope next recipients) := by
  induction recipients generalizing next with
  | nil => exact List.Pairwise.nil
  | cons recipient rest ih =>
    exact List.pairwise_cons.mpr ⟨fun entry hentry => (entriesOf_bounds hentry).1, ih (next + 1)⟩

theorem filed_ascending (envelopes : List ParsedEnvelope) (next : Nat) :
    Pages.Ascending (·.sequence) (filed next envelopes) ∧
      ∀ entry ∈ filed next envelopes, next ≤ entry.sequence := by
  induction envelopes generalizing next with
  | nil => exact ⟨List.Pairwise.nil, by simp [filed]⟩
  | cons parsed rest ih =>
    obtain ⟨hascending, hbound⟩ := ih (next + parsed.envelope.recipients.length)
    refine ⟨List.pairwise_append.mpr ⟨entriesOf_ascending _ _ _, hascending, ?_⟩, ?_⟩
    · intro entry hentry later hlater
      exact Nat.lt_of_lt_of_le (entriesOf_bounds hentry).2 (hbound later hlater)
    · intro entry hentry
      rcases List.mem_append.mp hentry with hfirst | hlater
      · exact (entriesOf_bounds hfirst).1
      · exact Nat.le_trans (Nat.le_add_right _ _) (hbound entry hlater)

/-! ## The polls as readings of a queue -/

/-- The entries that the rounds add, and what they show. -/
def readingsOf (platform : Platform) (did : Did) (next : Nat) :
    List Round → List (Pages.Reading StoredDelivery)
  | [] => []
  | round :: rest =>
    { arrivals := filed next round.arrivals, shown := isShown platform did round.now } ::
      readingsOf platform did (next + filedCount round.arrivals) rest

theorem readingsOf_arrivals (rounds : List Round) (next k : Nat) :
    ((readingsOf platform did next rounds).take k).flatMap Pages.Reading.arrivals =
      filed next ((rounds.take k).flatMap Round.arrivals) := by
  induction rounds generalizing next k with
  | nil => simp [readingsOf, filed]
  | cons round rest ih =>
    cases k with
    | zero => simp [filed]
    | succ k =>
      rw [readingsOf, List.take_succ_cons, List.take_succ_cons, List.flatMap_cons,
        List.flatMap_cons, filed_append, ih]

theorem readingsOf_shown {rounds : List Round} {next k : Nat}
    {reading : Pages.Reading StoredDelivery}
    (h : reading ∈ (readingsOf platform did next rounds).take k) :
    ∃ round ∈ rounds.take k, reading.shown = isShown platform did round.now := by
  induction rounds generalizing next k with
  | nil => simp [readingsOf] at h
  | cons round rest ih =>
    cases k with
    | zero => simp at h
    | succ k =>
      rw [readingsOf, List.take_succ_cons] at h
      rw [List.take_succ_cons]
      rcases List.mem_cons.mp h with rfl | hrest
      · exact ⟨round, List.mem_cons_self, rfl⟩
      · obtain ⟨other, hother, hshown⟩ := ih hrest
        exact ⟨other, List.mem_cons_of_mem _ hother, hshown⟩

/-- Polling is reading on, page by page; no cursor of a page is refused. -/
theorem pollAll_reads (rounds : List Round) (store : RelayStore) {cursor : Option String}
    {after : Nat} (hcursor : parseCursor cursor = .ok after) :
    ∃ pages, pollAll platform did rounds store cursor = .ok pages ∧
      pages.map (·.deliveries) = Pages.readOn (·.sequence) DELIVERY_PAGE_SIZE after
        store.deliveries (readingsOf platform did store.nextDeliverySequence rounds) ∧
      ∀ page ∈ pages, page.nextCursor =
        page.deliveries.getLast?.map fun entry => toString entry.sequence := by
  induction rounds generalizing store cursor after with
  | nil => exact ⟨[], rfl, rfl, by simp⟩
  | cons round rest ih =>
    have hstore := storeAll_eq store round.arrivals
    rw [pollAll]
    rw [RelayStore.pollDeliveriesAt, hcursor]
    simp only [bind, Except.bind, pure, Except.pure, readingsOf, Pages.readOn, hstore]
    generalize Pages.page (·.sequence) DELIVERY_PAGE_SIZE (isShown platform did round.now) after
      (store.deliveries ++ filed store.nextDeliverySequence round.arrivals) = entries
    cases hlast : entries.getLast? with
    | none =>
      rw [List.getLast?_eq_none_iff] at hlast
      subst hlast
      exact ⟨[_], rfl, rfl, by simp⟩
    | some last =>
      have hne : entries ≠ [] := by
        rintro rfl
        cases hlast
      obtain ⟨pages, hpages, hreads, hcursors⟩ := ih
        { deliveries := store.deliveries ++ filed store.nextDeliverySequence round.arrivals
          nextDeliverySequence := store.nextDeliverySequence + filedCount round.arrivals }
        (parseCursor_toString last.sequence)
      refine ⟨⟨entries, some (toString last.sequence)⟩ :: pages, ?_, ?_, ?_⟩
      · simp only [Option.map_some, hne, ↓reduceIte, hpages]
      · rw [List.map_cons, hreads]
      · refine List.forall_mem_cons.mpr ⟨?_, hcursors⟩
        rw [hlast]
        rfl

/-! ## One entry for each envelope -/

theorem entriesOf_mem {envelope : DeliveryEnvelope} {recipients : List Did} {next : Nat}
    {entry : StoredDelivery} (h : entry ∈ entriesOf envelope next recipients) :
    entry.recipient ∈ recipients ∧ entry.envelope = envelope := by
  induction recipients generalizing next with
  | nil => cases h
  | cons recipient rest ih =>
    rcases List.mem_cons.mp h with rfl | hrest
    · exact ⟨List.mem_cons_self, rfl⟩
    · exact ⟨List.mem_cons_of_mem _ (ih hrest).1, (ih hrest).2⟩

theorem exists_entry {envelope : DeliveryEnvelope} {recipients : List Did} (next : Nat)
    (h : did ∈ recipients) :
    ∃ entry ∈ entriesOf envelope next recipients, entry.recipient = did := by
  induction recipients generalizing next with
  | nil => cases h
  | cons recipient rest ih =>
    rcases List.mem_cons.mp h with rfl | hrest
    · exact ⟨_, List.mem_cons_self, rfl⟩
    · obtain ⟨entry, hentry, hrecipient⟩ := ih (next + 1) hrest
      exact ⟨entry, List.mem_cons_of_mem _ hentry, hrecipient⟩

section

variable {picked : StoredDelivery → Bool}

/-- No recipient is named twice, so at most one entry of an envelope is picked. -/
theorem entriesOf_filter (hpicked : ∀ entry, picked entry = true → entry.recipient = did)
    {envelope : DeliveryEnvelope} {recipients : List Did} (next : Nat) (h : recipients.Nodup) :
    ((entriesOf envelope next recipients).filter picked).map (·.envelope) =
      if (entriesOf envelope next recipients).any picked then [envelope] else [] := by
  induction recipients generalizing next with
  | nil => rfl
  | cons recipient rest ih =>
    obtain ⟨hfresh, hrest⟩ := List.nodup_cons.mp h
    rw [entriesOf, List.any_cons]
    cases hfirst : picked ⟨next, recipient, envelope⟩ with
    | false =>
      rw [List.filter_cons_of_neg (by simp [hfirst]), Bool.false_or]
      exact ih (next + 1) hrest
    | true =>
      have hnone : (entriesOf envelope (next + 1) rest).filter picked = [] := by
        rw [List.filter_eq_nil_iff]
        intro entry hentry hentryPicked
        have hsame : entry.recipient = recipient := by
          rw [hpicked entry hentryPicked, ← hpicked _ hfirst]
        exact hfresh (hsame ▸ (entriesOf_mem hentry).1)
      rw [List.filter_cons_of_pos hfirst, hnone]
      rfl

/-- Each envelope, and whether one of its entries is picked. -/
def marked (picked : StoredDelivery → Bool) (next : Nat) :
    List ParsedEnvelope → List (DeliveryEnvelope × Bool)
  | [] => []
  | parsed :: rest =>
    (parsed.envelope, (entriesOf parsed.envelope next parsed.envelope.recipients).any picked) ::
      marked picked (next + parsed.envelope.recipients.length) rest

theorem marked_envelopes (next : Nat) (envelopes : List ParsedEnvelope) :
    (marked picked next envelopes).map Prod.fst = envelopes.map (·.envelope) := by
  induction envelopes generalizing next with
  | nil => rfl
  | cons parsed rest ih => rw [marked, List.map_cons, List.map_cons, ih]

theorem filed_filter (hpicked : ∀ entry, picked entry = true → entry.recipient = did) (next : Nat)
    (envelopes : List ParsedEnvelope) :
    ((filed next envelopes).filter picked).map (·.envelope) =
      ((marked picked next envelopes).filter Prod.snd).map Prod.fst := by
  induction envelopes generalizing next with
  | nil => rfl
  | cons parsed rest ih =>
    rw [filed, List.filter_append, List.map_append, ih, marked,
      entriesOf_filter hpicked next parsed.unique]
    cases hany : (entriesOf parsed.envelope next parsed.envelope.recipients).any picked with
    | false => rw [List.filter_cons_of_neg (by simp)]; rfl
    | true => rw [List.filter_cons_of_pos (by simp)]; rfl

theorem marked_addressed (hpicked : ∀ entry, picked entry = true → entry.recipient = did)
    {next : Nat} {envelopes : List ParsedEnvelope} {mark : DeliveryEnvelope × Bool} (h : mark ∈ marked picked next envelopes)
    (hmark : mark.2 = true) : did ∈ mark.1.recipients := by
  induction envelopes generalizing next with
  | nil => cases h
  | cons parsed rest ih =>
    rcases List.mem_cons.mp h with rfl | hrest
    · obtain ⟨entry, hentry, hentryPicked⟩ := List.any_eq_true.mp hmark
      rw [← hpicked entry hentryPicked]
      exact (entriesOf_mem hentry).1
    · exact ih hrest

theorem marked_of_addressed {next : Nat} {envelopes : List ParsedEnvelope}
    {mark : DeliveryEnvelope × Bool} (h : mark ∈ marked picked next envelopes)
    (haddressed : did ∈ mark.1.recipients)
    (hall : ∀ entry ∈ filed next envelopes, entry.recipient = did → entry.envelope = mark.1 →
      picked entry = true) : mark.2 = true := by
  induction envelopes generalizing next with
  | nil => cases h
  | cons parsed rest ih =>
    rcases List.mem_cons.mp h with rfl | hrest
    · obtain ⟨entry, hentry, hrecipient⟩ := exists_entry next haddressed
      exact List.any_eq_true.mpr ⟨entry, hentry, hall entry (List.mem_append_left _ hentry)
        hrecipient (entriesOf_mem hentry).2⟩
    · exact ih hrest fun entry hentry => hall entry (List.mem_append_right _ hentry)

end

/-! ## What the pages hold -/

/-- The envelopes that were stored by the time of the last poll. -/
def storedBy (rounds : List Round) (pages : List Page) : List DeliveryEnvelope :=
  ((rounds.take pages.length).flatMap Round.arrivals).map (·.envelope)

/-- The envelopes of the pages, one page after the other. -/
def handedOut (pages : List Page) : List DeliveryEnvelope :=
  pages.flatMap fun page => page.deliveries.map (·.envelope)

/-- No poll comes when the envelope has expired. -/
def CurrentAtPolls (platform : Platform) (rounds : List Round) (pages : List Page)
    (envelope : DeliveryEnvelope) : Prop :=
  ∀ round ∈ rounds.take pages.length, ∀ n, isCurrent platform (round.now n) envelope = true

/-- The cursors ascend, and the pages hold stored envelopes in their order, each once
and addressed to the participant; and all those that were current, if a page was empty. -/
structure Exact (platform : Platform) (did : Did) (rounds : List Round) (pages : List Page) :
    Prop where
  cursors : (pages.filterMap fun page => page.nextCursor.map fun cursor =>
    cursorAt (some cursor)).Pairwise (· < ·)
  handed : ∃ marks : List (DeliveryEnvelope × Bool),
    marks.map Prod.fst = storedBy rounds pages ∧
    (marks.filter Prod.snd).map Prod.fst = handedOut pages ∧
    (∀ mark ∈ marks, mark.2 = true → did ∈ mark.1.recipients) ∧
    ((∃ page ∈ pages, page.deliveries = []) → ∀ mark ∈ marks, did ∈ mark.1.recipients →
      CurrentAtPolls platform rounds pages mark.1 → mark.2 = true)

theorem cursors_eq {pages : List Page} (h : ∀ page ∈ pages, page.nextCursor =
      page.deliveries.getLast?.map fun entry => toString entry.sequence) :
    (pages.filterMap fun page => page.nextCursor.map fun cursor => cursorAt (some cursor)) =
      ((pages.map (·.deliveries)).filterMap List.getLast?).map (·.sequence) := by
  induction pages with
  | nil => rfl
  | cons page rest ih =>
    obtain ⟨hpage, hrest⟩ := List.forall_mem_cons.mp h
    rw [List.filterMap_cons, hpage, ih hrest, List.map_cons, List.filterMap_cons]
    cases page.deliveries.getLast? with
    | none => rfl
    | some last => simp only [Option.map_some, cursorAt_toString, List.map_cons]

theorem readingsOf_length (rounds : List Round) (next : Nat) :
    (readingsOf platform did next rounds).length = rounds.length := by
  induction rounds generalizing next with
  | nil => rfl
  | cons round rest ih => rw [readingsOf, List.length_cons, List.length_cons, ih]

theorem readingsOf_all (rounds : List Round) (next : Nat) :
    (readingsOf platform did next rounds).flatMap Pages.Reading.arrivals =
      filed next (rounds.flatMap Round.arrivals) := by
  have htake : ((readingsOf platform did next rounds).take rounds.length).flatMap
      Pages.Reading.arrivals = filed next ((rounds.take rounds.length).flatMap Round.arrivals) :=
    readingsOf_arrivals rounds next rounds.length
  rwa [List.take_length, List.take_of_length_le (by rw [readingsOf_length])] at htake

theorem handedOut_eq (pages : List Page) :
    handedOut pages = (pages.map (·.deliveries)).flatten.map (·.envelope) := by
  rw [handedOut, ← List.flatMap_def, List.map_flatMap]

/-- What the pages hold is filed, of the participant, and in the order of its numbers;
an entry that is missing was not shown at some poll, if a page was empty. -/
structure Delivers (platform : Platform) (did : Did) (rounds : List Round) (pages : List Page) :
    Prop where
  ascending : Pages.Ascending (·.sequence) (pages.map (·.deliveries)).flatten
  filed : ∀ entry ∈ (pages.map (·.deliveries)).flatten,
    entry ∈ filed 1 ((rounds.take pages.length).flatMap Round.arrivals)
  addressed : ∀ entry ∈ (pages.map (·.deliveries)).flatten, entry.recipient = did
  complete : (∃ page ∈ pages, page.deliveries = []) →
    ∀ entry ∈ RelayDelivery.filed 1 ((rounds.take pages.length).flatMap Round.arrivals),
      (∀ round ∈ rounds.take pages.length, isShown platform did round.now entry = true) →
      entry ∈ (pages.map (·.deliveries)).flatten

theorem pages_deliver {rounds : List Round} {pages : List Page}
    (h : pages.map (·.deliveries) = Pages.readOn (·.sequence) DELIVERY_PAGE_SIZE 0 []
      (readingsOf platform did 1 rounds)) : Delivers platform did rounds pages := by
  have hascending : Pages.Ascending (·.sequence)
      ([] ++ (readingsOf platform did 1 rounds).flatMap Pages.Reading.arrivals) := by
    rw [readingsOf_all]
    exact (filed_ascending _ 1).1
  have hqueue : Pages.queueAfter [] (readingsOf platform did 1 rounds)
      (pages.map (·.deliveries)) =
        filed 1 ((rounds.take pages.length).flatMap Round.arrivals) := by
    rw [Pages.queueAfter, List.length_map, readingsOf_arrivals, List.nil_append]
  obtain ⟨hflat, hmem⟩ := Pages.readOn_ascending hascending
  rw [← h] at hflat hmem
  refine ⟨hflat, fun entry hentry => ?_, fun entry hentry => ?_, fun hempty entry hentry hshown => ?_⟩
  · rw [← hqueue]
    exact (hmem entry hentry).1
  · obtain ⟨-, -, reading, hreading, hshown⟩ := hmem entry hentry
    rw [← List.take_length (l := readingsOf platform did 1 rounds)] at hreading
    obtain ⟨round, -, heq⟩ := readingsOf_shown hreading
    rw [heq, isShown, Bool.and_eq_true, decide_eq_true_eq] at hshown
    exact hshown.1
  · have hnil : [] ∈ pages.map (·.deliveries) := by
      obtain ⟨page, hpage, hdeliveries⟩ := hempty
      exact List.mem_map.mpr ⟨page, hpage, hdeliveries⟩
    rw [← hqueue] at hentry
    have hpositive : 0 < entry.sequence := by
      rw [hqueue] at hentry
      exact (filed_ascending _ 1).2 entry hentry
    rw [h] at hnil hentry ⊢
    refine Pages.readOn_complete (by decide) hascending hnil hentry hpositive ?_
    intro reading hreading
    rw [← h, List.length_map] at hreading
    obtain ⟨round, hround, heq⟩ := readingsOf_shown hreading
    rw [heq]
    exact hshown round hround

/-- **Polling is exact**, whatever is stored between the polls and however the clock goes. -/
theorem polling_exact (platform : Platform) (did : Did) (rounds : List Round) :
    ∃ pages, pollAll platform did rounds {} none = .ok pages ∧ Exact platform did rounds pages := by
  obtain ⟨pages, hpages, hreads, hcursors⟩ :
      ∃ pages, pollAll platform did rounds {} none = .ok pages ∧
        pages.map (·.deliveries) = Pages.readOn (·.sequence) DELIVERY_PAGE_SIZE 0 []
          (readingsOf platform did 1 rounds) ∧
        ∀ page ∈ pages, page.nextCursor =
          page.deliveries.getLast?.map fun entry => toString entry.sequence :=
    pollAll_reads rounds {} rfl
  have hdelivers := pages_deliver hreads
  refine ⟨pages, hpages, ?_, ?_⟩
  · rw [cursors_eq hcursors, List.pairwise_map]
    exact hdelivers.ascending.sublist (Pages.lasts_sublist _)
  · have hpicked : ∀ entry, decide (entry ∈ (pages.map (·.deliveries)).flatten) = true →
        entry.recipient = did := fun entry h => hdelivers.addressed entry (of_decide_eq_true h)
    refine ⟨marked (fun entry => decide (entry ∈ (pages.map (·.deliveries)).flatten)) 1
      ((rounds.take pages.length).flatMap Round.arrivals), marked_envelopes 1 _, ?_, ?_, ?_⟩
    · rw [← filed_filter hpicked, handedOut_eq]
      congr 1
      refine Pages.Ascending.eq_of_mem_iff ((filed_ascending _ 1).1.filter _) hdelivers.ascending
        fun entry => ?_
      rw [List.mem_filter, decide_eq_true_eq, and_iff_right_of_imp (hdelivers.filed entry)]
    · exact fun mark hmark hpick => marked_addressed hpicked hmark hpick
    · intro hempty mark hmark haddressed hcurrent
      refine marked_of_addressed hmark haddressed fun entry hentry hrecipient henvelope => ?_
      refine decide_eq_true (hdelivers.complete hempty entry hentry fun round hround => ?_)
      rw [isShown, hrecipient, henvelope, hcurrent round hround, Bool.and_true, decide_eq_true_eq]

end Mpas.RelayDelivery
