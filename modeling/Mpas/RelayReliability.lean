import Mpas.Library.Pages
import Mpas.RelayDelivery

/-!
# Reliable delivery to a Verifier

No delivery is passed by the saved cursor before it has expired or its response
was accepted, every response answers a delivery, and a saved response is the one
that is submitted from then on. The last needs that a delivery whose response is
saved is again on the page that the next poll gets: it is one of the first
hundred after the cursor, and stays so while the relay's clock does not go back.

* `Invariant`, `step_invariant`: what every step keeps;
* `relay_reliable`: the three laws in every run.
-/

namespace Mpas.RelayDelivery

open Routing (DeliveryEnvelope RoutingValidationError parseDeliveryEnvelope)

variable {platform : Platform} {verifierDid : Did}

/-! ## Cursors -/

theorem parseCursor_toString (n : Nat) : parseCursor (some (toString n)) = .ok n := by
  have htext : (toString n).toList = Nat.toDigits 10 n := Nat.toList_repr
  have hdigits : (Nat.toDigits 10 n).all Char.isDigit = true := by
    rw [List.all_eq_true]
    intro c hc
    exact Nat.isDigit_of_mem_toDigits (by omega) (by omega) hc
  have hne : (Nat.toDigits 10 n).isEmpty = false := by
    simp [Nat.toDigits_ne_nil]
  have hback : Nat.ofDigitChars 10 (Nat.toDigits 10 n) 0 = n :=
    Nat.ofDigitChars_toDigits (by omega) (by omega)
  unfold parseCursor
  simp only [htext, hdigits, hne, hback]
  rfl

/-- The number that a cursor stands for. -/
def cursorAt (cursor : Option String) : Nat :=
  match parseCursor cursor with
  | .ok n => n
  | .error _ => 0

@[simp] theorem cursorAt_toString (n : Nat) : cursorAt (some (toString n)) = n := by
  rw [cursorAt, parseCursor_toString]

/-! ## Expiry -/

/-- The relay hands out the delivery at its latest reading of the clock. -/
def live (platform : Platform) (clock : Option Int) (delivery : StoredDelivery) : Bool :=
  clock.all fun now => isCurrent platform now delivery.envelope

/-- The expiry of the envelope, if it has one, is a date. -/
def Dated (platform : Platform) (envelope : DeliveryEnvelope) : Prop :=
  ∀ expiresAt, envelope.expiresAt = some expiresAt → (platform.dateParse expiresAt).isSome

/-- The instant has passed by a clock. -/
def Past (clock : Option Int) (instant : Int) : Prop := ∃ now, clock = some now ∧ instant ≤ now

/-- The delivery has expired by the relay's clock or by the worker's. -/
def Expired (platform : Platform) (world : World) (delivery : StoredDelivery) : Prop :=
  ∃ instant, delivery.envelope.expiresAt.bind platform.dateParse = some instant ∧
    (Past world.relayClock instant ∨ Past world.workerClock instant)

theorem isCurrent_mono {envelope : DeliveryEnvelope} {now now' : Int} (hle : now ≤ now')
    (h : isCurrent platform now' envelope = true) : isCurrent platform now envelope = true := by
  unfold isCurrent at h ⊢
  cases hexpiry : envelope.expiresAt with
  | none => rfl
  | some text =>
    rw [hexpiry] at h
    cases hdate : platform.dateParse text with
    | none => simp [hdate] at h
    | some t =>
      simp only [hdate, Option.any_some, decide_eq_true_eq] at h ⊢
      omega

theorem live_mono {clock : Option Int} {now : Int} {delivery : StoredDelivery}
    (hle : clock.all (· ≤ now)) (h : live platform (some now) delivery = true) :
    live platform clock delivery = true := by
  cases clock with
  | none => rfl
  | some before =>
    have hbefore : before ≤ now := by simpa using hle
    exact isCurrent_mono hbefore h

theorem expired_of_not_live {world : World} {delivery : StoredDelivery}
    (hdated : Dated platform delivery.envelope)
    (h : live platform world.relayClock delivery = false) : Expired platform world delivery := by
  unfold live at h
  cases hclock : world.relayClock with
  | none => simp [hclock] at h
  | some now =>
    simp only [hclock, Option.all_some] at h
    unfold isCurrent at h
    cases hexpiry : delivery.envelope.expiresAt with
    | none => simp [hexpiry] at h
    | some text =>
      obtain ⟨instant, hinstant⟩ := Option.isSome_iff_exists.mp (hdated text hexpiry)
      simp only [hexpiry, hinstant, Option.any_some, decide_eq_false_iff_not] at h
      refine ⟨instant, ?_, Or.inl ⟨now, hclock, by omega⟩⟩
      rw [hexpiry, Option.bind_some, hinstant]

/-! ## What is parsed -/

theorem requireTimestamp_ok {value : Option Json} {path : String} {text : Timestamp}
    (h : Routing.requireTimestamp platform value path = .ok text) :
    value = some (.str text) ∧ (platform.dateParse text).isSome := by
  unfold Routing.requireTimestamp at h
  split at h
  · split at h
    · rename_i hparsed
      cases h
      exact ⟨rfl, hparsed.2⟩
    · cases h
  · cases h

/-- The expiry of a parsed envelope is the member of that name, and a date. -/
theorem parseDeliveryEnvelope_expiresAt {value : Json} {envelope : DeliveryEnvelope}
    (h : parseDeliveryEnvelope platform value = .ok envelope) :
    value.member "expiresAt" = envelope.expiresAt.map .str ∧ Dated platform envelope := by
  unfold parseDeliveryEnvelope at h
  obtain ⟨object, hobject, h⟩ := Checks.bind_eq_ok.mp h
  obtain ⟨_, -, h⟩ := Checks.bind_eq_ok.mp h
  obtain ⟨_, -, h⟩ := Checks.bind_eq_ok.mp h
  obtain ⟨sender, -, h⟩ := Checks.bind_eq_ok.mp h
  have hvalue : value.member "expiresAt" = object.lookup "expiresAt" := by
    unfold Routing.requireRecord at hobject
    split at hobject
    · rename_i members heq
      cases hobject
      rw [Option.some.inj heq]
      rfl
    · cases hobject
  rw [hvalue]
  dsimp only at h
  split at h
  case h_2 => exact absurd h Checks.error_bind_ne_ok
  obtain ⟨recipients, -, h⟩ := Checks.bind_eq_ok.mp h
  split at h
  · exact absurd h Checks.error_bind_ne_ok
  obtain ⟨createdAt, -, h⟩ := Checks.bind_eq_ok.mp h
  -- The rest of the chain does not touch the expiry, whichever members there are.
  split at h
  all_goals
    rename_i hmember
    obtain ⟨expiresAt, hexpiry, h⟩ := Checks.bind_eq_ok.mp h
    split at h
    · exact absurd h Checks.error_bind_ne_ok
    have hsame : envelope.expiresAt = expiresAt := by
      split at h
      all_goals
        obtain ⟨audience, -, h⟩ := Checks.bind_eq_ok.mp h
        split at h
        · cases h
        · obtain ⟨_, -, h⟩ := Checks.bind_eq_ok.mp h
          cases h
          rfl
    unfold Dated
    rw [hsame, hmember]
  · obtain rfl : none = expiresAt := Except.ok.inj hexpiry
    simp
  · obtain ⟨text, hparsed, rfl⟩ := Checks.map_eq_ok.mp hexpiry
    obtain ⟨hvalue', hdate⟩ := requireTimestamp_ok hparsed
    refine ⟨hvalue', fun text' htext' => ?_⟩
    rw [← Option.some.inj htext']
    exact hdate

theorem parseDeliveryEnvelope_dated {value : Json} {envelope : DeliveryEnvelope}
    (h : parseDeliveryEnvelope platform value = .ok envelope) : Dated platform envelope :=
  (parseDeliveryEnvelope_expiresAt h).2

theorem envelopeJson_expiresAt (envelope : DeliveryEnvelope) :
    (envelopeJson envelope).member "expiresAt" = envelope.expiresAt.map .str := by
  unfold envelopeJson Json.member
  cases envelope.expiresAt <;> cases envelope.audience <;> rfl

theorem buildResponse_dated {envelope built : DeliveryEnvelope} {response : Json}
    {createdAt : Timestamp}
    (h : buildResponse platform verifierDid envelope response createdAt = .ok built) :
    Dated platform built := by
  obtain ⟨-, h⟩ := Checks.throwIf_bind_eq_ok.mp h
  obtain ⟨-, h⟩ := Checks.throwIf_bind_eq_ok.mp h
  obtain ⟨-, h⟩ := Checks.throwIf_bind_eq_ok.mp h
  exact parseDeliveryEnvelope_dated (Checks.mapError_eq_ok.mp h)

/-! ## What holds of a delivery -/

/-- The worker files the delivery under this fingerprint. -/
def Files (platform : Platform) (verifierDid : Did) (delivery : StoredDelivery)
    (fingerprint : String) : Prop :=
  ∃ opened, openDelivery platform verifierDid delivery.envelope = .ok opened ∧
    fingerprintOf platform opened = .ok fingerprint

theorem Files.unique {delivery : StoredDelivery} {fingerprint fingerprint' : String}
    (h : Files platform verifierDid delivery fingerprint)
    (h' : Files platform verifierDid delivery fingerprint') : fingerprint = fingerprint' := by
  obtain ⟨opened, hopened, hfingerprint⟩ := h
  obtain ⟨opened', hopened', hfingerprint'⟩ := h'
  rw [hopened] at hopened'
  cases hopened'
  rw [hfingerprint] at hfingerprint'
  exact Except.ok.inj hfingerprint'

/-- The envelope was built around a response of the Verifier to the delivery. -/
def Responds (platform : Platform) (verifierDid : Did) (delivery : StoredDelivery)
    (envelope : DeliveryEnvelope) : Prop :=
  ∃ opened response createdAt, openDelivery platform verifierDid delivery.envelope = .ok opened ∧
    buildResponse platform verifierDid opened response createdAt = .ok envelope

/-- The envelope responds to a delivery to the Verifier with this fingerprint. -/
def Answers (platform : Platform) (verifierDid : Did) (world : World) (fingerprint : String)
    (envelope : DeliveryEnvelope) : Prop :=
  ∃ delivery ∈ world.relay.deliveries, delivery.recipient = verifierDid ∧
    Files platform verifierDid delivery fingerprint ∧
    Responds platform verifierDid delivery envelope

/-- The delivery has expired, or its response was accepted. -/
def Settled (platform : Platform) (verifierDid : Did) (world : World)
    (delivery : StoredDelivery) : Prop :=
  Expired platform world delivery ∨ ∃ fingerprint envelope,
    Files platform verifierDid delivery fingerprint ∧ (fingerprint, envelope) ∈ world.accepted

/-- The state has a response in its cache that was built for this delivery. -/
def Holds (state : VerifierRelayState) (sequence : Nat) (envelope : DeliveryEnvelope) : Prop :=
  ∃ fingerprint cached, state.responses.get? fingerprint = some cached ∧
    cached.sequence = sequence ∧ cached.envelope = envelope

/-- A response that was built for this delivery has been saved. -/
def Saved (log : List Happening) (sequence : Nat) (envelope : DeliveryEnvelope) : Prop :=
  ∃ state, .saved state ∈ log ∧ Holds state sequence envelope

/-- A response was built for the delivery, and saved or at hand. -/
def Known (log : List Happening) (state : VerifierRelayState) (delivery : StoredDelivery) : Prop :=
  ∃ envelope, Saved log delivery.sequence envelope ∨ Holds state delivery.sequence envelope

/-- The state has the response in its cache. -/
def Caches (state : VerifierRelayState) (fingerprint : String) (envelope : DeliveryEnvelope) :
    Prop :=
  ∃ cached, state.responses.get? fingerprint = some cached ∧ cached.envelope = envelope

/-- How many deliveries the relay would hand out after the cursor, up to this one. -/
def ahead (platform : Platform) (verifierDid : Did) (relay : RelayStore) (clock : Option Int)
    (after : Nat) (delivery : StoredDelivery) : Nat :=
  relay.deliveries.countP fun entry => decide (after < entry.sequence) &&
    decide (entry.recipient = verifierDid) && live platform clock entry &&
    decide (entry.sequence ≤ delivery.sequence)

/-- The delivery is to the Verifier, and on the page after the cursor. -/
def InReach (platform : Platform) (verifierDid : Did) (world : World) (after : Nat)
    (delivery : StoredDelivery) : Prop :=
  delivery.recipient = verifierDid ∧
    ahead platform verifierDid world.relay world.relayClock after delivery ≤ DELIVERY_PAGE_SIZE

/-! ## The invariant -/

structure RelayInvariant (platform : Platform) (relay : RelayStore) : Prop where
  ascending : Pages.Ascending (·.sequence) relay.deliveries
  bounded : ∀ delivery ∈ relay.deliveries, delivery.sequence < relay.nextDeliverySequence
  dated : ∀ delivery ∈ relay.deliveries, Dated platform delivery.envelope

/-- What holds of the state of the worker, in memory or on disk. A response that
was saved is kept until the cursor passes its delivery or the relay hands that
out no more; `remaining` are the deliveries the worker still has in its hands. -/
structure StateInvariant (platform : Platform) (verifierDid : Did) (world : World)
    (state : VerifierRelayState) (remaining : List StoredDelivery) : Prop where
  cursor : ∃ n, parseCursor state.cursor = .ok n ∧ n < world.relay.nextDeliverySequence
  settled : ∀ delivery ∈ world.relay.deliveries, delivery.recipient = verifierDid →
    delivery.sequence ≤ cursorAt state.cursor → Settled platform verifierDid world delivery
  cached : ∀ fingerprint cached, state.responses.get? fingerprint = some cached →
    Dated platform cached.envelope ∧
      (∃ delivery ∈ world.relay.deliveries, delivery.sequence = cached.sequence ∧
        delivery.recipient = verifierDid ∧
        Files platform verifierDid delivery fingerprint ∧
        Responds platform verifierDid delivery cached.envelope) ∧
      (cached.delivered = true → (fingerprint, cached.envelope) ∈ world.accepted)
  kept : ∀ delivery ∈ world.relay.deliveries, ∀ envelope,
    Saved world.log delivery.sequence envelope →
    ∀ fingerprint, Files platform verifierDid delivery fingerprint →
    delivery.sequence ≤ cursorAt state.cursor ∨ Caches state fingerprint envelope ∨
      live platform world.relayClock delivery = false ∧ delivery ∉ remaining
  reach : ∀ delivery ∈ world.relay.deliveries, Known world.log state delivery →
    delivery.sequence ≤ cursorAt state.cursor ∨ live platform world.relayClock delivery = false ∨
      InReach platform verifierDid world (cursorAt state.cursor) delivery

/-- What the worker knows of the first delivery while it waits. -/
def TaskInvariant (platform : Platform) (verifierDid : Did) (world : World)
    (delivery : StoredDelivery) : Task → Prop
  | .consider => True
  | .process fingerprint => Files platform verifierDid delivery fingerprint ∧
      world.memory.responses.get? fingerprint = none
  | .saveResponse fingerprint | .submit fingerprint =>
      Files platform verifierDid delivery fingerprint
  | .saveDelivered fingerprint => Files platform verifierDid delivery fingerprint ∧
      ∃ envelope, (fingerprint, envelope) ∈ world.accepted

structure PageInvariant (platform : Platform) (verifierDid : Did) (world : World) (page : Page) :
    Prop where
  bound : ∃ last, page.nextCursor = some (toString last) ∧
    last < world.relay.nextDeliverySequence ∧
    (∀ delivery ∈ page.deliveries, delivery.sequence ≤ last) ∧
    (∀ delivery ∈ world.relay.deliveries, delivery.recipient = verifierDid →
      delivery.sequence ≤ last →
      Settled platform verifierDid world delivery ∨ delivery ∈ page.deliveries) ∧
    ∀ delivery ∈ world.relay.deliveries, Known world.log world.memory delivery →
      delivery.sequence ≤ last ∨ live platform world.relayClock delivery = false
  stored : ∀ delivery ∈ page.deliveries, delivery ∈ world.relay.deliveries ∧
    cursorAt world.memory.cursor < delivery.sequence ∧
    InReach platform verifierDid world (cursorAt world.memory.cursor) delivery

def Phase.remaining : Phase → List StoredDelivery
  | .working page _ => page.deliveries
  | .down | .idle _ | .polling | .savingPage => []

/-- A submission carries what was saved for the delivery before. -/
def Stable (log : List Happening) : Prop :=
  ∀ before sequence envelope after, log = before ++ .submitted sequence envelope :: after →
    ∀ saved, Saved before sequence saved → saved = envelope

structure Invariant (platform : Platform) (verifierDid : Did) (world : World) : Prop where
  relay : RelayInvariant platform world.relay
  numbered : ∀ sequence envelope, Saved world.log sequence envelope →
    sequence < world.relay.nextDeliverySequence
  memory : StateInvariant platform verifierDid world world.memory world.phase.remaining
  disk : StateInvariant platform verifierDid world world.disk []
  page : ∀ page task, world.phase = .working page task →
    PageInvariant platform verifierDid world page ∧
    ∃ delivery rest, page.deliveries = delivery :: rest ∧
      TaskInvariant platform verifierDid world delivery task
  accepted : ∀ fingerprint envelope, (fingerprint, envelope) ∈ world.accepted →
    Answers platform verifierDid world fingerprint envelope
  stable : Stable world.log

/-! ## Worlds that go on -/

variable {world world' : World} {state : VerifierRelayState}

/-- The relay stores more, the clocks go on, and no more responses are saved. -/
structure Extends (platform : Platform) (world world' : World) : Prop where
  deliveries : ∃ news, world'.relay.deliveries = world.relay.deliveries ++ news ∧
    ∀ delivery ∈ news, world.relay.nextDeliverySequence ≤ delivery.sequence
  next : world.relay.nextDeliverySequence ≤ world'.relay.nextDeliverySequence
  live : ∀ delivery, live platform world'.relayClock delivery = true →
    live platform world.relayClock delivery = true
  relayClock : ∀ instant, Past world.relayClock instant → Past world'.relayClock instant
  workerClock : ∀ instant, Past world.workerClock instant → Past world'.workerClock instant
  accepted : ∀ response ∈ world.accepted, response ∈ world'.accepted
  saved : ∀ sequence envelope, Saved world'.log sequence envelope →
    Saved world.log sequence envelope

/-- What is the same in both worlds goes on. -/
theorem Extends.of_same (hrelay : world'.relay = world.relay)
    (hrelayClock : world'.relayClock = world.relayClock)
    (hworkerClock : world'.workerClock = world.workerClock)
    (haccepted : world'.accepted = world.accepted)
    (hsaved : ∀ sequence envelope, Saved world'.log sequence envelope →
      Saved world.log sequence envelope) : Extends platform world world' where
  deliveries := ⟨[], by rw [hrelay, List.append_nil], by simp⟩
  next := by rw [hrelay]
  live := by
    rw [hrelayClock]
    exact fun _ h => h
  relayClock := by
    rw [hrelayClock]
    exact fun _ h => h
  workerClock := by
    rw [hworkerClock]
    exact fun _ h => h
  accepted := by
    rw [haccepted]
    exact fun _ h => h
  saved := hsaved

theorem Extends.mem (h : Extends platform world world') {delivery : StoredDelivery}
    (hmem : delivery ∈ world.relay.deliveries) : delivery ∈ world'.relay.deliveries := by
  obtain ⟨news, hnews, -⟩ := h.deliveries
  rw [hnews]
  exact List.mem_append_left news hmem

theorem Extends.mem_of_lt (h : Extends platform world world') {delivery : StoredDelivery}
    (hmem : delivery ∈ world'.relay.deliveries)
    (hlt : delivery.sequence < world.relay.nextDeliverySequence) :
    delivery ∈ world.relay.deliveries := by
  obtain ⟨news, hnews, hlarge⟩ := h.deliveries
  rw [hnews] at hmem
  rcases List.mem_append.mp hmem with hold | hnew
  · exact hold
  · have := hlarge delivery hnew
    omega

theorem Extends.gone (h : Extends platform world world') {delivery : StoredDelivery}
    (hgone : RelayDelivery.live platform world.relayClock delivery = false) :
    RelayDelivery.live platform world'.relayClock delivery = false := by
  cases hlive : RelayDelivery.live platform world'.relayClock delivery with
  | false => rfl
  | true =>
    rw [h.live delivery hlive] at hgone
    cases hgone

theorem Extends.settled (h : Extends platform world world') {delivery : StoredDelivery}
    (hsettled : Settled platform verifierDid world delivery) :
    Settled platform verifierDid world' delivery := by
  rcases hsettled with ⟨instant, hinstant, hpast⟩ | ⟨fingerprint, envelope, hfiles, haccepted⟩
  · exact Or.inl ⟨instant, hinstant, hpast.imp (h.relayClock instant) (h.workerClock instant)⟩
  · exact Or.inr ⟨fingerprint, envelope, hfiles, h.accepted _ haccepted⟩

theorem Extends.answers (h : Extends platform world world') {fingerprint : String}
    {envelope : DeliveryEnvelope}
    (hanswers : Answers platform verifierDid world fingerprint envelope) :
    Answers platform verifierDid world' fingerprint envelope := by
  obtain ⟨delivery, hmem, hrest⟩ := hanswers
  exact ⟨delivery, h.mem hmem, hrest⟩

theorem Extends.inReach (h : Extends platform world world') {delivery : StoredDelivery}
    {after : Nat} (hlt : delivery.sequence < world.relay.nextDeliverySequence)
    (hreach : InReach platform verifierDid world after delivery) :
    InReach platform verifierDid world' after delivery := by
  obtain ⟨news, hnews, hlarge⟩ := h.deliveries
  refine ⟨hreach.1, Nat.le_trans ?_ hreach.2⟩
  unfold ahead
  rw [hnews, List.countP_append]
  have hnone : news.countP (fun entry => decide (after < entry.sequence) &&
      decide (entry.recipient = verifierDid) &&
      RelayDelivery.live platform world'.relayClock entry &&
      decide (entry.sequence ≤ delivery.sequence)) = 0 := by
    rw [List.countP_eq_zero]
    intro entry hentry
    have hle := hlarge entry hentry
    have hnot : ¬entry.sequence ≤ delivery.sequence := by omega
    simp [hnot]
  rw [hnone, Nat.add_zero]
  refine List.countP_mono_left fun entry _ hentry => ?_
  simp only [Bool.and_eq_true, decide_eq_true_eq] at hentry ⊢
  exact ⟨⟨hentry.1.1, h.live entry hentry.1.2⟩, hentry.2⟩

/-- A cursor further on has fewer deliveries ahead. -/
theorem InReach.later {after after' : Nat} {delivery : StoredDelivery} (hle : after ≤ after')
    (h : InReach platform verifierDid world after delivery) :
    InReach platform verifierDid world after' delivery := by
  refine ⟨h.1, Nat.le_trans ?_ h.2⟩
  refine List.countP_mono_left fun entry _ hentry => ?_
  simp only [Bool.and_eq_true, decide_eq_true_eq] at hentry ⊢
  have hlt : after < entry.sequence := by omega
  exact ⟨⟨⟨hlt, hentry.1.1.2⟩, hentry.1.2⟩, hentry.2⟩

theorem Extends.known (h : Extends platform world world') {delivery : StoredDelivery}
    (hknown : Known world'.log state delivery) : Known world.log state delivery := by
  obtain ⟨envelope, hwhere⟩ := hknown
  exact ⟨envelope, hwhere.imp_left (h.saved _ _)⟩

theorem StateInvariant.known_lt {remaining : List StoredDelivery}
    (h : StateInvariant platform verifierDid world state remaining)
    (hrelay : RelayInvariant platform world.relay)
    (hnumbered : ∀ sequence envelope, Saved world.log sequence envelope →
      sequence < world.relay.nextDeliverySequence) {delivery : StoredDelivery}
    (hknown : Known world.log state delivery) :
    delivery.sequence < world.relay.nextDeliverySequence := by
  obtain ⟨envelope, hsaved | ⟨fingerprint, cached, hcached, hsequence, -⟩⟩ := hknown
  · exact hnumbered _ _ hsaved
  · obtain ⟨-, ⟨origin, hmem, horigin, -⟩, -⟩ := h.cached fingerprint cached hcached
    have hlt := hrelay.bounded origin hmem
    omega

theorem StateInvariant.shrink {remaining remaining' : List StoredDelivery}
    (h : StateInvariant platform verifierDid world state remaining)
    (hsub : ∀ delivery ∈ remaining', delivery ∈ remaining) :
    StateInvariant platform verifierDid world state remaining' where
  cursor := h.cursor
  settled := h.settled
  cached := h.cached
  kept := by
    intro delivery hmem envelope hsaved fingerprint hfiles
    rcases h.kept delivery hmem envelope hsaved fingerprint hfiles with hpassed | hcaches | hgone
    · exact Or.inl hpassed
    · exact Or.inr (Or.inl hcaches)
    · exact Or.inr (Or.inr ⟨hgone.1, fun hin => hgone.2 (hsub delivery hin)⟩)
  reach := h.reach

theorem StateInvariant.extend {remaining : List StoredDelivery}
    (h : StateInvariant platform verifierDid world state remaining)
    (hrelay : RelayInvariant platform world.relay) (hext : Extends platform world world')
    (hnumbered : ∀ sequence envelope, Saved world.log sequence envelope →
      sequence < world.relay.nextDeliverySequence) :
    StateInvariant platform verifierDid world' state remaining where
  cursor := by
    obtain ⟨n, hn, hlt⟩ := h.cursor
    exact ⟨n, hn, Nat.lt_of_lt_of_le hlt hext.next⟩
  settled := by
    intro delivery hmem hrecipient hle
    obtain ⟨n, hn, hlt⟩ := h.cursor
    have hcursor : cursorAt state.cursor = n := by rw [cursorAt, hn]
    have hold := hext.mem_of_lt hmem (by omega)
    exact hext.settled (h.settled delivery hold hrecipient hle)
  cached := by
    intro fingerprint cached hcached
    obtain ⟨hdated, ⟨delivery, hmem, hanswers⟩, hdelivered⟩ := h.cached fingerprint cached hcached
    exact ⟨hdated, ⟨delivery, hext.mem hmem, hanswers⟩,
      fun hflag => hext.accepted _ (hdelivered hflag)⟩
  kept := by
    intro delivery hmem envelope hsaved fingerprint hfiles
    have hsaved' := hext.saved _ _ hsaved
    have hold := hext.mem_of_lt hmem (hnumbered _ _ hsaved')
    rcases h.kept delivery hold envelope hsaved' fingerprint hfiles with hpassed | hcaches | hgone
    · exact Or.inl hpassed
    · exact Or.inr (Or.inl hcaches)
    · exact Or.inr (Or.inr ⟨hext.gone hgone.1, hgone.2⟩)
  reach := by
    intro delivery hmem hknown
    have hknown' := hext.known hknown
    have hlt := h.known_lt hrelay hnumbered hknown'
    have hold := hext.mem_of_lt hmem hlt
    rcases h.reach delivery hold hknown' with hpassed | hgone | hreach
    · exact Or.inl hpassed
    · exact Or.inr (Or.inl (hext.gone hgone))
    · exact Or.inr (Or.inr (hext.inReach hlt hreach))

theorem PageInvariant.extend {page : Page} (h : PageInvariant platform verifierDid world page)
    (hrelay : RelayInvariant platform world.relay) (hext : Extends platform world world')
    (hnumbered : ∀ sequence envelope, Saved world.log sequence envelope →
      sequence < world.relay.nextDeliverySequence)
    (hmemory : StateInvariant platform verifierDid world world.memory page.deliveries)
    (hcursor : world'.memory.cursor = world.memory.cursor)
    (hholds : ∀ sequence envelope, Holds world'.memory sequence envelope →
      Holds world.memory sequence envelope ∨
        ∃ delivery ∈ page.deliveries, delivery.sequence = sequence) :
    PageInvariant platform verifierDid world' page where
  bound := by
    obtain ⟨last, hlast, hlt, hle, hsettled, hcovers⟩ := h.bound
    refine ⟨last, hlast, Nat.lt_of_lt_of_le hlt hext.next, hle, ?_, ?_⟩
    · intro delivery hmem hrecipient hdelivery
      have hold := hext.mem_of_lt hmem (by omega)
      exact (hsettled delivery hold hrecipient hdelivery).imp_left hext.settled
    · intro delivery hmem hknown
      have hwhere : Known world.log world.memory delivery ∨
          ∃ other ∈ page.deliveries, other.sequence = delivery.sequence := by
        obtain ⟨envelope, hsaved | hin⟩ := hknown
        · exact Or.inl ⟨envelope, Or.inl (hext.saved _ _ hsaved)⟩
        · exact (hholds _ _ hin).imp_left fun hold => ⟨envelope, Or.inr hold⟩
      rcases hwhere with hknown' | ⟨other, hother, hsequence⟩
      · have hold := hext.mem_of_lt hmem (hmemory.known_lt hrelay hnumbered hknown')
        exact (hcovers delivery hold hknown').imp_right hext.gone
      · rw [← hsequence]
        exact Or.inl (hle other hother)
  stored := by
    intro delivery hdelivery
    obtain ⟨hmem, hlt, hreach⟩ := h.stored delivery hdelivery
    rw [hcursor]
    exact ⟨hext.mem hmem, hlt, hext.inReach (hrelay.bounded delivery hmem) hreach⟩

/-- A world that goes on with the same state of the worker. -/
theorem Invariant.carry (h : Invariant platform verifierDid world)
    (hext : Extends platform world world') (hrelay : RelayInvariant platform world'.relay)
    (hmemory : world'.memory = world.memory) (hdisk : world'.disk = world.disk)
    (hremaining : ∀ delivery ∈ world'.phase.remaining, delivery ∈ world.phase.remaining)
    (hpage : ∀ page task, world'.phase = .working page task →
      PageInvariant platform verifierDid world' page ∧
      ∃ delivery rest, page.deliveries = delivery :: rest ∧
        TaskInvariant platform verifierDid world' delivery task)
    (haccepted : ∀ fingerprint envelope, (fingerprint, envelope) ∈ world'.accepted →
      Answers platform verifierDid world' fingerprint envelope)
    (hstable : Stable world'.log) : Invariant platform verifierDid world' where
  relay := hrelay
  numbered := fun sequence envelope hsaved =>
    Nat.lt_of_lt_of_le (h.numbered sequence envelope (hext.saved _ _ hsaved)) hext.next
  memory := by
    rw [hmemory]
    exact (h.memory.extend h.relay hext h.numbered).shrink hremaining
  disk := by
    rw [hdisk]
    exact h.disk.extend h.relay hext h.numbered
  page := hpage
  accepted := haccepted
  stable := hstable

theorem TaskInvariant.extend {delivery : StoredDelivery} {task : Task}
    (h : TaskInvariant platform verifierDid world delivery task)
    (hext : Extends platform world world') (hmemory : world'.memory = world.memory) :
    TaskInvariant platform verifierDid world' delivery task := by
  cases task with
  | consider => trivial
  | process fingerprint =>
    refine ⟨h.1, ?_⟩
    rw [hmemory]
    exact h.2
  | saveResponse fingerprint => exact h
  | submit fingerprint => exact h
  | saveDelivered fingerprint =>
    obtain ⟨hfiles, envelope, haccepted⟩ := h
    exact ⟨hfiles, envelope, hext.accepted _ haccepted⟩

theorem Invariant.atPage {page : Page} {task : Task} (h : Invariant platform verifierDid world)
    (hphase : world.phase = .working page task) :
    StateInvariant platform verifierDid world world.memory page.deliveries := by
  have hmemory := h.memory
  rw [hphase] at hmemory
  exact hmemory

/-- The worker waits for the same in both worlds. -/
theorem Invariant.goOn (h : Invariant platform verifierDid world)
    (hext : Extends platform world world') (hrelay : RelayInvariant platform world'.relay)
    (hmemory : world'.memory = world.memory) (hdisk : world'.disk = world.disk)
    (hsame : world'.phase = world.phase)
    (haccepted : ∀ fingerprint envelope, (fingerprint, envelope) ∈ world'.accepted →
      Answers platform verifierDid world' fingerprint envelope)
    (hstable : Stable world'.log) : Invariant platform verifierDid world' := by
  refine h.carry hext hrelay hmemory hdisk ?_ ?_ haccepted hstable
  · rw [hsame]
    exact fun _ hin => hin
  · intro page task hphase
    rw [hsame] at hphase
    obtain ⟨hpage, delivery, rest, hdeliveries, htask⟩ := h.page page task hphase
    have hholds : ∀ sequence envelope, Holds world'.memory sequence envelope →
        Holds world.memory sequence envelope := by
      rw [hmemory]
      exact fun _ _ hin => hin
    have hpage' : PageInvariant platform verifierDid world' page :=
      hpage.extend h.relay hext h.numbered (h.atPage hphase) (by rw [hmemory])
        fun sequence envelope hin => Or.inl (hholds sequence envelope hin)
    exact ⟨hpage', delivery, rest, hdeliveries, htask.extend hext hmemory⟩

theorem Invariant.fail (h : Invariant platform verifierDid world) (error : WorkerError) :
    Invariant platform verifierDid (world.fail error) := by
  have hext : Extends platform world (world.fail error) :=
    .of_same rfl rfl rfl rfl fun _ _ hsaved => hsaved
  refine h.carry hext h.relay rfl rfl ?_ ?_ ?_ h.stable
  · exact fun _ hin => absurd hin List.not_mem_nil
  · intro page task hphase
    cases hphase
  · exact fun fingerprint envelope hin => hext.answers (h.accepted fingerprint envelope hin)

/-- The worker waits for something that is no delivery. -/
theorem Invariant.rest {phase : Phase} (h : Invariant platform verifierDid world)
    (hphase : ∀ page task, phase ≠ .working page task) :
    Invariant platform verifierDid { world with phase } := by
  have hext : Extends platform world { world with phase } :=
    .of_same rfl rfl rfl rfl fun _ _ hsaved => hsaved
  refine h.carry hext h.relay rfl rfl ?_ ?_ ?_ h.stable
  · intro delivery hin
    cases phase with
    | working page task => exact absurd rfl (hphase page task)
    | down | idle | polling | savingPage => exact absurd hin List.not_mem_nil
  · exact fun page task heq => absurd heq (hphase page task)
  · exact fun fingerprint envelope hin => hext.answers (h.accepted fingerprint envelope hin)

/-- The worker goes on with the deliveries of a page. -/
theorem Invariant.hold {page : Page} {task : Task} (h : Invariant platform verifierDid world)
    (hmemory : StateInvariant platform verifierDid world world.memory page.deliveries)
    (hpage : PageInvariant platform verifierDid world page)
    (htask : ∃ delivery rest, page.deliveries = delivery :: rest ∧
      TaskInvariant platform verifierDid world delivery task) :
    Invariant platform verifierDid { world with phase := .working page task } := by
  have hext : Extends platform world { world with phase := .working page task } :=
    .of_same rfl rfl rfl rfl fun _ _ hsaved => hsaved
  constructor
  case relay => exact h.relay
  case numbered => exact h.numbered
  case memory => exact hmemory.extend h.relay hext h.numbered
  case disk => exact h.disk.extend h.relay hext h.numbered
  case page =>
    intro page' task' hphase
    cases hphase
    obtain ⟨delivery, rest, hdeliveries, hinv⟩ := htask
    have hpage' := hpage.extend h.relay hext h.numbered hmemory rfl fun _ _ hin => Or.inl hin
    exact ⟨hpage', delivery, rest, hdeliveries, hinv.extend hext rfl⟩
  case accepted =>
    exact fun fingerprint envelope hin => hext.answers (h.accepted fingerprint envelope hin)
  case stable => exact h.stable

/-! ## The relay -/

theorem RelayInvariant.storeFor {relay : RelayStore} {envelope : DeliveryEnvelope}
    (h : RelayInvariant platform relay) (hdated : Dated platform envelope) (recipient : Did) :
    RelayInvariant platform (RelayStore.storeFor envelope relay recipient) where
  ascending := h.ascending.append_singleton fun delivery hmem => h.bounded delivery hmem
  bounded := by
    intro delivery hmem
    rcases List.mem_append.mp hmem with hold | hnew
    · have hlt := h.bounded delivery hold
      exact Nat.lt_succ_of_lt hlt
    · rw [List.mem_singleton.mp hnew]
      exact Nat.lt_succ_self _
  dated := by
    intro delivery hmem
    rcases List.mem_append.mp hmem with hold | hnew
    · exact h.dated delivery hold
    · rw [List.mem_singleton.mp hnew]
      exact hdated

theorem storeEnvelope_spec {relay : RelayStore} {envelope : DeliveryEnvelope}
    (h : RelayInvariant platform relay) (hdated : Dated platform envelope) :
    RelayInvariant platform (relay.storeEnvelope envelope) ∧
      (∃ news, (relay.storeEnvelope envelope).deliveries = relay.deliveries ++ news ∧
        ∀ delivery ∈ news, relay.nextDeliverySequence ≤ delivery.sequence) ∧
      relay.nextDeliverySequence ≤ (relay.storeEnvelope envelope).nextDeliverySequence := by
  unfold RelayStore.storeEnvelope
  induction envelope.recipients generalizing relay with
  | nil => exact ⟨h, ⟨[], by simp, by simp⟩, Nat.le_refl _⟩
  | cons recipient rest ih =>
    obtain ⟨hinv, ⟨news, hnews, hlarge⟩, hnext⟩ := ih (h.storeFor hdated recipient)
    refine ⟨hinv, ⟨⟨relay.nextDeliverySequence, recipient, envelope⟩ :: news, ?_, ?_⟩, ?_⟩
    · rw [List.foldl_cons, hnews]
      simp [RelayStore.storeFor]
    · intro delivery hmem
      rcases List.mem_cons.mp hmem with rfl | hrest
      · exact Nat.le_refl _
      · exact Nat.le_of_succ_le (hlarge delivery hrest)
    · exact Nat.le_of_succ_le hnext

/-- The relay has stored an envelope. -/
theorem extends_store {envelope : DeliveryEnvelope} (h : RelayInvariant platform world.relay)
    (hdated : Dated platform envelope)
    (hrelay : world'.relay = world.relay.storeEnvelope envelope)
    (hrelayClock : world'.relayClock = world.relayClock)
    (hworkerClock : world'.workerClock = world.workerClock)
    (haccepted : ∀ response ∈ world.accepted, response ∈ world'.accepted)
    (hsaved : ∀ sequence envelope, Saved world'.log sequence envelope →
      Saved world.log sequence envelope) : Extends platform world world' := by
  obtain ⟨-, hdeliveries, hnext⟩ := storeEnvelope_spec h hdated
  constructor
  case deliveries => rwa [hrelay]
  case next => rwa [hrelay]
  case live =>
    rw [hrelayClock]
    exact fun _ hlive => hlive
  case relayClock =>
    rw [hrelayClock]
    exact fun _ hpast => hpast
  case workerClock =>
    rw [hworkerClock]
    exact fun _ hpast => hpast
  case accepted => exact haccepted
  case saved => exact hsaved

theorem deliver_invariant {value : Json} (h : Invariant platform verifierDid world)
    (hstep : world.deliver platform value = some world') :
    Invariant platform verifierDid world' := by
  unfold World.deliver at hstep
  split at hstep
  · rename_i envelope hparsed
    cases hstep
    have hdated := parseDeliveryEnvelope_dated hparsed
    have hext : Extends platform world { world with
        relay := world.relay.storeEnvelope envelope } :=
      extends_store h.relay hdated rfl rfl rfl (fun _ hin => hin) fun _ _ hsaved => hsaved
    exact h.goOn hext (storeEnvelope_spec h.relay hdated).1 rfl rfl rfl
      (fun fingerprint envelope hin => hext.answers (h.accepted fingerprint envelope hin)) h.stable
  · cases hstep

/-! ## Polling -/

/-- What the relay looks for in a poll. -/
def wanted (platform : Platform) (verifierDid : Did) (after : Nat) (now : Int)
    (entry : StoredDelivery) : Bool :=
  decide (after < entry.sequence) && decide (entry.recipient = verifierDid) &&
    isCurrent platform now entry.envelope

theorem pollDeliveries_ok {relay : RelayStore} {cursor : Option String} {now : Int} {page : Page}
    (h : relay.pollDeliveries platform verifierDid cursor now = .ok page) :
    page.deliveries = (relay.deliveries.filter
        (wanted platform verifierDid (cursorAt cursor) now)).take DELIVERY_PAGE_SIZE ∧
      page.nextCursor = page.deliveries.getLast?.map fun entry => toString entry.sequence := by
  obtain ⟨after, hafter, h⟩ := Checks.bind_eq_ok.mp h
  cases h
  have hcursor : cursorAt cursor = after := by rw [cursorAt, hafter]
  rw [hcursor]
  exact ⟨rfl, rfl⟩

section Page

variable {relay : RelayStore} {after : Nat} {now : Int} {delivery : StoredDelivery}

theorem mem_wanted (hmem : delivery ∈ relay.deliveries) (hafter : after < delivery.sequence)
    (hrecipient : delivery.recipient = verifierDid)
    (hlive : live platform (some now) delivery = true) :
    delivery ∈ relay.deliveries.filter (wanted platform verifierDid after now) := by
  refine List.mem_filter.mpr ⟨hmem, ?_⟩
  have hcurrent : isCurrent platform now delivery.envelope = true := hlive
  simp [wanted, hafter, hrecipient, hcurrent]

theorem of_mem_wanted
    (h : delivery ∈ relay.deliveries.filter (wanted platform verifierDid after now)) :
    delivery ∈ relay.deliveries ∧ after < delivery.sequence ∧
      delivery.recipient = verifierDid ∧ live platform (some now) delivery = true := by
  obtain ⟨hmem, hwanted⟩ := List.mem_filter.mp h
  simp only [wanted, Bool.and_eq_true, decide_eq_true_eq] at hwanted
  exact ⟨hmem, hwanted.1.1, hwanted.1.2, hwanted.2⟩

/-- A delivery that is wanted is on the page if it is in reach. -/
theorem mem_page_iff (hrelay : RelayInvariant platform relay)
    (h : delivery ∈ relay.deliveries.filter (wanted platform verifierDid after now)) :
    delivery ∈ (relay.deliveries.filter (wanted platform verifierDid after now)).take
        DELIVERY_PAGE_SIZE ↔
      ahead platform verifierDid relay (some now) after delivery ≤ DELIVERY_PAGE_SIZE := by
  rw [Pages.mem_take_iff (hrelay.ascending.filter _) h, List.countP_filter, ahead]
  have hsame : ∀ entry : StoredDelivery,
      (decide (entry.sequence ≤ delivery.sequence) && wanted platform verifierDid after now entry) =
        (decide (after < entry.sequence) && decide (entry.recipient = verifierDid) &&
          live platform (some now) entry && decide (entry.sequence ≤ delivery.sequence)) := by
    intro entry
    rw [Bool.and_comm]
    rfl
  simp only [hsame]

end Page

/-- A page that was polled, its deliveries all left. -/
theorem page_invariant {page : Page} {now : Int} (h : Invariant platform verifierDid world)
    (hclock : world.relayClock = some now)
    (hpage : world.relay.pollDeliveries platform verifierDid world.memory.cursor now = .ok page)
    (hne : page.deliveries ≠ []) : PageInvariant platform verifierDid world page := by
  obtain ⟨hdeliveries, hnext⟩ := pollDeliveries_ok hpage
  have hascending : Pages.Ascending (·.sequence) page.deliveries := by
    rw [hdeliveries]
    exact List.Pairwise.sublist (List.take_sublist _ _) (h.relay.ascending.filter _)
  have hwanted : ∀ delivery ∈ page.deliveries, delivery ∈ world.relay.deliveries.filter
      (wanted platform verifierDid (cursorAt world.memory.cursor) now) := by
    intro delivery hin
    rw [hdeliveries] at hin
    exact List.mem_of_mem_take hin
  obtain ⟨last, hlast⟩ : ∃ last, page.deliveries.getLast? = some last :=
    ⟨_, List.getLast?_eq_some_getLast hne⟩
  have hlastin : last ∈ page.deliveries := List.mem_of_getLast? hlast
  obtain ⟨hlastmem, hlastafter, -, -⟩ := of_mem_wanted (hwanted last hlastin)
  constructor
  case bound =>
    refine ⟨last.sequence, ?_, h.relay.bounded last hlastmem, ?_, ?_, ?_⟩
    · rw [hnext, hlast]
      rfl
    · exact fun delivery hin => Pages.le_getLast hascending hin hlast
    · intro delivery hmem hrecipient hle
      by_cases hpassed : delivery.sequence ≤ cursorAt world.memory.cursor
      · exact Or.inl (h.memory.settled delivery hmem hrecipient hpassed)
      · cases hlive : live platform (some now) delivery with
        | false =>
          rw [← hclock] at hlive
          exact Or.inl (Or.inl (expired_of_not_live (h.relay.dated delivery hmem) hlive))
        | true =>
          have hin := mem_wanted hmem (Nat.lt_of_not_le hpassed) hrecipient hlive
          rw [hdeliveries] at hlastin ⊢
          exact Or.inr (Pages.mem_take_of_le (h.relay.ascending.filter _) hin hlastin hle)
    · intro delivery hmem hknown
      rcases h.memory.reach delivery hmem hknown with hpassed | hgone | hreach
      · exact Or.inl (by omega)
      · exact Or.inr hgone
      · cases hlive : live platform (some now) delivery with
        | false =>
          rw [hclock]
          exact Or.inr hlive
        | true =>
          by_cases hpassed : delivery.sequence ≤ cursorAt world.memory.cursor
          · exact Or.inl (by omega)
          · have hin := mem_wanted hmem (Nat.lt_of_not_le hpassed) hreach.1 hlive
            have hahead := hreach.2
            rw [hclock] at hahead
            have honpage := (mem_page_iff h.relay hin).mpr hahead
            rw [← hdeliveries] at honpage
            exact Or.inl (Pages.le_getLast hascending honpage hlast)
  case stored =>
    intro delivery hin
    have hfound := hwanted delivery hin
    obtain ⟨hmem, hafter, hrecipient, -⟩ := of_mem_wanted hfound
    rw [hdeliveries] at hin
    refine ⟨hmem, hafter, hrecipient, ?_⟩
    rw [hclock]
    exact (mem_page_iff h.relay hfound).mp hin

/-- The deliveries of a fresh page are live. -/
theorem page_live {page : Page} {now : Int}
    (hpage : world.relay.pollDeliveries platform verifierDid world.memory.cursor now = .ok page)
    {delivery : StoredDelivery} (hin : delivery ∈ page.deliveries) :
    live platform (some now) delivery = true := by
  rw [(pollDeliveries_ok hpage).1] at hin
  exact (of_mem_wanted (List.mem_of_mem_take hin)).2.2.2

/-- The clock of the relay goes on. -/
theorem Invariant.relayClock {now : Int} (h : Invariant platform verifierDid world)
    (hclock : world.relayClock.all (· ≤ now)) :
    Invariant platform verifierDid { world with relayClock := some now } := by
  have hext : Extends platform world { world with relayClock := some now } := by
    constructor
    case deliveries => exact ⟨[], by simp, by simp⟩
    case next => exact Nat.le_refl _
    case live => exact fun _ hlive => live_mono hclock hlive
    case relayClock =>
      rintro instant ⟨before, hbefore, hle⟩
      rw [hbefore] at hclock
      have hnow : before ≤ now := by simpa using hclock
      exact ⟨now, rfl, by omega⟩
    case workerClock => exact fun _ hpast => hpast
    case accepted => exact fun _ hin => hin
    case saved => exact fun _ _ hsaved => hsaved
  exact h.goOn hext h.relay rfl rfl rfl
    (fun fingerprint envelope hin => hext.answers (h.accepted fingerprint envelope hin)) h.stable

theorem polled_invariant {now : Int} (h : Invariant platform verifierDid world)
    (hstep : world.polled platform verifierDid now = some world') :
    Invariant platform verifierDid world' := by
  unfold World.polled at hstep
  split at hstep
  case isFalse => cases hstep
  rename_i hclock
  have hnow := h.relayClock hclock
  dsimp only at hstep
  split at hstep
  · cases hstep
    exact hnow.fail _
  rename_i page hpage
  split at hstep
  · cases hstep
    exact hnow.rest fun page task heq => by cases heq
  rename_i hne
  cases hstep
  have hnonempty : page.deliveries ≠ [] := by simpa using hne
  have hinv : PageInvariant platform verifierDid { world with relayClock := some now } page :=
    page_invariant hnow rfl hpage hnonempty
  obtain ⟨delivery, rest, hdeliveries⟩ := List.exists_cons_of_ne_nil hnonempty
  refine hnow.hold ?_ hinv ⟨delivery, rest, hdeliveries, trivial⟩
  refine ⟨hnow.memory.cursor, hnow.memory.settled, hnow.memory.cached, ?_, hnow.memory.reach⟩
  intro delivery hmem envelope hsaved fingerprint hfiles
  rcases hnow.memory.kept delivery hmem envelope hsaved fingerprint hfiles
    with hpassed | hcaches | hgone
  · exact Or.inl hpassed
  · exact Or.inr (Or.inl hcaches)
  · refine Or.inr (Or.inr ⟨hgone.1, fun hin => ?_⟩)
    have hlive := page_live hpage hin
    rw [show live platform (some now) delivery = false from hgone.1] at hlive
    cases hlive

/-! ## From one delivery to the next -/

section Delivery

variable {page : Page} {task : Task} {delivery : StoredDelivery} {rest : List StoredDelivery}

/-- All deliveries of the page are done: the cursor passes them, and what was
delivered is dropped. -/
theorem advance_invariant {last : Nat} (h : Invariant platform verifierDid world)
    (hlt : last < world.relay.nextDeliverySequence)
    (hsettled : ∀ delivery ∈ world.relay.deliveries, delivery.recipient = verifierDid →
      delivery.sequence ≤ last → Settled platform verifierDid world delivery)
    (hcovers : ∀ delivery ∈ world.relay.deliveries, Known world.log world.memory delivery →
      delivery.sequence ≤ last ∨ live platform world.relayClock delivery = false) :
    StateInvariant platform verifierDid world (world.memory.advance (toString last)) [] := by
  have hafter : cursorAt (world.memory.advance (toString last)).cursor = last :=
    cursorAt_toString last
  have hget : ∀ fingerprint cached,
      (world.memory.advance (toString last)).responses.get? fingerprint = some cached →
      world.memory.responses.get? fingerprint = some cached := by
    intro fingerprint cached hcached
    have hfilter := OrderedMap.get?_filter world.memory.responses
      (fun _ response => !response.delivered) fingerprint
    rw [VerifierRelayState.advance, hfilter] at hcached
    exact (Option.filter_eq_some_iff.mp hcached).1
  constructor
  case cursor => exact ⟨last, parseCursor_toString last, hlt⟩
  case settled =>
    intro delivery hmem hrecipient hle
    rw [hafter] at hle
    exact hsettled delivery hmem hrecipient hle
  case cached =>
    exact fun fingerprint cached hcached =>
      h.memory.cached fingerprint cached (hget fingerprint cached hcached)
  case kept =>
    intro delivery hmem envelope hsaved fingerprint hfiles
    rw [hafter]
    rcases hcovers delivery hmem ⟨envelope, Or.inl hsaved⟩ with hle | hgone
    · exact Or.inl hle
    · exact Or.inr (Or.inr ⟨hgone, List.not_mem_nil⟩)
  case reach =>
    intro delivery hmem hknown
    have hbefore : Known world.log world.memory delivery := by
      obtain ⟨envelope, hsaved | ⟨fingerprint, cached, hcached, hrest⟩⟩ := hknown
      · exact ⟨envelope, Or.inl hsaved⟩
      · exact ⟨envelope, Or.inr ⟨fingerprint, cached, hget fingerprint cached hcached, hrest⟩⟩
    rw [hafter]
    exact (hcovers delivery hmem hbefore).imp_right Or.inl

theorem finishPage_invariant {nextCursor : Option String}
    (h : Invariant platform verifierDid world)
    (hpage : ∀ cursor, nextCursor = some cursor → StateInvariant platform verifierDid world
      (world.memory.advance cursor) []) :
    Invariant platform verifierDid (world.finishPage nextCursor) := by
  unfold World.finishPage
  split
  · exact h.fail _
  rename_i cursor
  split
  · exact h.fail _
  have hext : Extends platform world { world with
      memory := world.memory.advance cursor, phase := .savingPage } :=
    .of_same rfl rfl rfl rfl fun _ _ hsaved => hsaved
  constructor
  case relay => exact h.relay
  case numbered => exact h.numbered
  case memory => exact (hpage cursor rfl).extend h.relay hext h.numbered
  case disk => exact h.disk.extend h.relay hext h.numbered
  case page =>
    intro page task hphase
    cases hphase
  case accepted =>
    exact fun fingerprint envelope hin => hext.answers (h.accepted fingerprint envelope hin)
  case stable => exact h.stable

theorem nextDelivery_invariant (h : Invariant platform verifierDid world)
    (hphase : world.phase = .working page task) (hdeliveries : page.deliveries = delivery :: rest)
    (hdone : Settled platform verifierDid world delivery) :
    Invariant platform verifierDid (world.nextDelivery page) := by
  obtain ⟨hpage, -⟩ := h.page page task hphase
  obtain ⟨last, hlast, hlt, hle, hsettled, hcovers⟩ := hpage.bound
  have hremaining : world.phase.remaining = page.deliveries := by rw [hphase]; rfl
  have hsettled' : ∀ other ∈ world.relay.deliveries, other.recipient = verifierDid →
      other.sequence ≤ last → Settled platform verifierDid world other ∨ other ∈ rest := by
    intro other hmem hrecipient hother
    rcases hsettled other hmem hrecipient hother with hdone' | hin
    · exact Or.inl hdone'
    · rw [hdeliveries] at hin
      rcases List.mem_cons.mp hin with rfl | hin
      · exact Or.inl hdone
      · exact Or.inr hin
  unfold World.nextDelivery
  rw [hdeliveries, List.tail_cons]
  cases hrest : rest with
  | nil =>
    refine finishPage_invariant h fun cursor hcursor => ?_
    obtain rfl : toString last = cursor := Option.some.inj (hlast.symm.trans hcursor)
    refine advance_invariant h hlt ?_ hcovers
    intro other hmem hrecipient hother
    rcases hsettled' other hmem hrecipient hother with hdone' | hin
    · exact hdone'
    · rw [hrest] at hin
      exact absurd hin List.not_mem_nil
  | cons next others =>
    have hsub : ∀ other ∈ next :: others, other ∈ page.deliveries := by
      intro other hin
      rw [hdeliveries, hrest]
      exact List.mem_cons_of_mem delivery hin
    refine h.hold (h.memory.shrink ?_) ⟨?_, ?_⟩ ⟨next, others, rfl, trivial⟩
    · rw [hremaining]
      exact hsub
    · refine ⟨last, hlast, hlt, fun other hin => hle other (hsub other hin), ?_, hcovers⟩
      rw [← hrest]
      exact hsettled'
    · exact fun other hin => hpage.stored other (hsub other hin)

theorem Past.later {clock : Option Int} {now instant : Int} (h : Past clock instant) :
    Past (World.later clock now) instant := by
  obtain ⟨before, rfl, hle⟩ := h
  exact ⟨max before now, rfl, le_trans hle (le_max_left _ _)⟩

theorem Invariant.workerClock (h : Invariant platform verifierDid world) (now : Int) :
    Invariant platform verifierDid { world with
      workerClock := World.later world.workerClock now } := by
  have hext : Extends platform world { world with
      workerClock := World.later world.workerClock now } := by
    constructor
    case deliveries => exact ⟨[], by simp, by simp⟩
    case next => exact Nat.le_refl _
    case live => exact fun _ hlive => hlive
    case relayClock => exact fun _ hpast => hpast
    case workerClock => exact fun _ hpast => hpast.later
    case accepted => exact fun _ hin => hin
    case saved => exact fun _ _ hsaved => hsaved
  exact h.goOn hext h.relay rfl rfl rfl
    (fun fingerprint envelope hin => hext.answers (h.accepted fingerprint envelope hin)) h.stable

/-- Parsing an Action Request keeps the expiry of its envelope. -/
theorem openDelivery_expiresAt {envelope opened : DeliveryEnvelope}
    (h : openDelivery platform verifierDid envelope = .ok opened) :
    opened.expiresAt = envelope.expiresAt := by
  obtain ⟨-, h⟩ := Checks.throwIf_bind_eq_ok.mp h
  obtain ⟨parsed, hparsed, h⟩ := Checks.bind_eq_ok.mp h
  obtain ⟨-, h⟩ := Checks.throwIf_bind_eq_ok.mp h
  cases h
  obtain ⟨outer, houter, h⟩ := Checks.bind_eq_ok.mp (Checks.mapError_eq_ok.mp hparsed)
  obtain ⟨payload, -, h⟩ := Checks.bind_eq_ok.mp h
  cases h
  have hmember := (parseDeliveryEnvelope_expiresAt houter).1
  rw [envelopeJson_expiresAt] at hmember
  show outer.expiresAt = envelope.expiresAt
  cases hleft : outer.expiresAt <;> cases hright : envelope.expiresAt <;>
    simp_all

theorem considered_invariant (h : Invariant platform verifierDid world) (now : Int)
    (hphase : world.phase = .working page .consider)
    (hdeliveries : page.deliveries = delivery :: rest) :
    Invariant platform verifierDid
      (world.considered platform verifierDid page delivery now) := by
  have hnow := h.workerClock now
  obtain ⟨hpage, -⟩ := hnow.page page .consider hphase
  have hmemory := hnow.atPage hphase
  unfold World.considered
  dsimp only
  split
  · exact hnow.fail _
  rename_i opened hopened
  split
  · rename_i hexpired
    refine nextDelivery_invariant hnow hphase hdeliveries (Or.inl ?_)
    unfold isDeliveryEnvelopeExpired at hexpired
    rw [openDelivery_expiresAt hopened] at hexpired
    obtain ⟨instant, hinstant, hle⟩ := (Option.any_eq_true _ _).mp hexpired
    have hpast : Past (World.later world.workerClock now) instant := by
      refine ⟨_, rfl, le_trans ?_ (le_max_right _ _)⟩
      simpa using hle
    exact ⟨instant, hinstant, Or.inr hpast⟩
  split
  · exact hnow.fail _
  rename_i fingerprint hfingerprint
  have hfiles : Files platform verifierDid delivery fingerprint := ⟨opened, hopened, hfingerprint⟩
  split
  · rename_i hnone
    exact hnow.hold hmemory hpage ⟨delivery, rest, hdeliveries, hfiles, hnone⟩
  rename_i cached hcached
  split
  · rename_i hdelivered
    have haccepted := (hnow.memory.cached fingerprint cached hcached).2.2 hdelivered
    exact nextDelivery_invariant hnow hphase hdeliveries
      (Or.inr ⟨fingerprint, cached.envelope, hfiles, haccepted⟩)
  · exact hnow.hold hmemory hpage ⟨delivery, rest, hdeliveries, hfiles⟩

/-! ## Responses -/

/-- The state in memory changes while the worker has the deliveries of a page in its hands. -/
theorem Invariant.remember {task' : Task} (h : Invariant platform verifierDid world)
    (hphase : world.phase = .working page task)
    (hstate : StateInvariant platform verifierDid world state page.deliveries)
    (hcursor : state.cursor = world.memory.cursor)
    (hholds : ∀ sequence envelope, Holds state sequence envelope →
      Holds world.memory sequence envelope ∨
        ∃ delivery ∈ page.deliveries, delivery.sequence = sequence)
    (htask : ∃ delivery rest, page.deliveries = delivery :: rest ∧ TaskInvariant platform
      verifierDid { world with memory := state, phase := .working page task' } delivery task') :
    Invariant platform verifierDid
      { world with memory := state, phase := .working page task' } := by
  have hext : Extends platform world
      { world with memory := state, phase := .working page task' } :=
    .of_same rfl rfl rfl rfl fun _ _ hsaved => hsaved
  constructor
  case relay => exact h.relay
  case numbered => exact h.numbered
  case memory => exact hstate.extend h.relay hext h.numbered
  case disk => exact h.disk.extend h.relay hext h.numbered
  case page =>
    intro page' task'' hphase'
    cases hphase'
    have hpage := (h.page page task hphase).1
    exact ⟨hpage.extend h.relay hext h.numbered (h.atPage hphase) hcursor hholds, htask⟩
  case accepted =>
    exact fun key envelope hin => hext.answers (h.accepted key envelope hin)
  case stable => exact h.stable

/-- Deliveries are told apart by their numbers. -/
theorem RelayInvariant.eq_of_sequence {relay : RelayStore} {a b : StoredDelivery}
    (h : RelayInvariant platform relay) (ha : a ∈ relay.deliveries) (hb : b ∈ relay.deliveries)
    (hsequence : a.sequence = b.sequence) : a = b := by
  have hne : relay.deliveries.Pairwise fun x y => x.sequence = y.sequence → x = y :=
    h.ascending.imp fun {x y} hlt heq => absurd heq (Nat.ne_of_lt hlt)
  exact hne.forall_of_forall_of_flip (fun _ _ _ => rfl)
    (h.ascending.imp fun {x y} hlt heq => absurd heq.symm (Nat.ne_of_lt hlt)) ha hb hsequence

theorem processed_invariant {fingerprint : String} (h : Invariant platform verifierDid world)
    (response : Option Json) (createdAt : Timestamp)
    (hphase : world.phase = .working page (.process fingerprint))
    (hdeliveries : page.deliveries = delivery :: rest) :
    Invariant platform verifierDid
      (world.processed platform verifierDid page delivery fingerprint response createdAt) := by
  obtain ⟨hpage, delivery', rest', hdeliveries', hfiles, hnone⟩ := h.page page _ hphase
  rw [hdeliveries] at hdeliveries'
  cases hdeliveries'
  have hmemory := h.atPage hphase
  unfold World.processed
  split
  · exact h.fail _
  · exact h.fail _
  rename_i response' opened hopened
  split
  · exact h.fail _
  rename_i built hbuilt
  have hfirst : delivery ∈ page.deliveries := by rw [hdeliveries]; exact List.mem_cons_self
  obtain ⟨hmem, -, hreach⟩ := hpage.stored delivery hfirst
  have hget : ∀ key,
      (world.memory.cache fingerprint ⟨built, false, delivery.sequence⟩).responses.get? key =
        if fingerprint = key then some ⟨built, false, delivery.sequence⟩
        else world.memory.responses.get? key :=
    fun key => OrderedMap.get?_set _ _ key _
  -- What is held now was held before, but for the response to this delivery.
  have hholds : ∀ sequence envelope,
      Holds (world.memory.cache fingerprint ⟨built, false, delivery.sequence⟩) sequence envelope →
      Holds world.memory sequence envelope ∨ delivery.sequence = sequence := by
    rintro sequence envelope ⟨key, cached, hcached, hsequence, henvelope⟩
    rw [hget] at hcached
    split at hcached
    · cases hcached
      exact Or.inr hsequence
    · exact Or.inl ⟨key, cached, hcached, hsequence, henvelope⟩
  have hcache : StateInvariant platform verifierDid world
      (world.memory.cache fingerprint ⟨built, false, delivery.sequence⟩) page.deliveries := by
    constructor
    case cursor => exact hmemory.cursor
    case settled => exact hmemory.settled
    case cached =>
      intro key cached hcached
      rw [hget] at hcached
      split at hcached
      · rename_i hkey
        cases hcached
        rw [← hkey]
        exact ⟨buildResponse_dated hbuilt, ⟨delivery, hmem, rfl, hreach.1, hfiles, opened,
          response', createdAt, hopened, hbuilt⟩, fun hflag => by cases hflag⟩
      · exact hmemory.cached key cached hcached
    case kept =>
      intro other hother envelope hsaved key hkey
      refine (hmemory.kept other hother envelope hsaved key hkey).imp_right (Or.imp_left ?_)
      rintro ⟨cached, hcached, henvelope⟩
      have hne : fingerprint ≠ key := by
        rintro rfl
        rw [hnone] at hcached
        cases hcached
      exact ⟨cached, by rw [hget, if_neg hne, hcached], henvelope⟩
    case reach =>
      rintro other hother ⟨envelope, hwhere⟩
      have hknown : Known world.log world.memory other ∨ delivery.sequence = other.sequence := by
        rcases hwhere with hsaved | hin
        · exact Or.inl ⟨envelope, Or.inl hsaved⟩
        · exact (hholds _ _ hin).imp_left fun hold => ⟨envelope, Or.inr hold⟩
      rcases hknown with hold | hsequence
      · exact hmemory.reach other hother hold
      · rw [← h.relay.eq_of_sequence hmem hother hsequence]
        exact Or.inr (Or.inr hreach)
  refine h.remember hphase hcache rfl ?_ ⟨delivery, rest, hdeliveries, hfiles⟩
  exact fun sequence envelope hin =>
    (hholds sequence envelope hin).imp_right fun heq => ⟨delivery, hfirst, heq⟩

theorem stable_append {log : List Happening} {happening : Happening} (h : Stable log)
    (hnew : ∀ sequence envelope, happening = .submitted sequence envelope →
      ∀ saved, Saved log sequence saved → saved = envelope) : Stable (log ++ [happening]) := by
  intro before sequence envelope after heq saved hsaved
  rcases List.eq_nil_or_concat after with rfl | ⟨others, last, rfl⟩
  · obtain ⟨rfl, hlast⟩ := List.append_inj' heq rfl
    exact hnew sequence envelope (List.singleton_inj.mp hlast) saved hsaved
  · have hsplit : log ++ [happening] =
        (before ++ .submitted sequence envelope :: others) ++ [last] := by
      rw [heq]
      simp
    obtain ⟨hlog, -⟩ := List.append_inj' hsplit rfl
    exact h before sequence envelope others hlog saved hsaved

theorem Saved.of_append_submitted {log : List Happening} {sequence sequence' : Nat}
    {envelope envelope' : DeliveryEnvelope}
    (h : Saved (log ++ [.submitted sequence envelope]) sequence' envelope') :
    Saved log sequence' envelope' := by
  obtain ⟨state, hin, hholds⟩ := h
  rcases List.mem_append.mp hin with hold | hnew
  · exact ⟨state, hold, hholds⟩
  · cases List.mem_singleton.mp hnew

theorem Saved.of_append_saved {log : List Happening} {sequence : Nat}
    {envelope : DeliveryEnvelope} (h : Saved (log ++ [.saved state]) sequence envelope) :
    Saved log sequence envelope ∨ Holds state sequence envelope := by
  obtain ⟨state', hin, hholds⟩ := h
  rcases List.mem_append.mp hin with hold | hnew
  · exact Or.inl ⟨state', hold, hholds⟩
  · cases List.mem_singleton.mp hnew
    exact Or.inr hholds

theorem markDelivered_get? (state : VerifierRelayState) (fingerprint key : String) :
    (state.markDelivered fingerprint).responses.get? key =
      (state.responses.get? key).map fun response =>
        if key = fingerprint then { response with delivered := true } else response :=
  OrderedMap.get?_map _ _ _

theorem Holds.of_markDelivered {fingerprint : String} {sequence : Nat}
    {envelope : DeliveryEnvelope} (h : Holds (state.markDelivered fingerprint) sequence envelope) :
    Holds state sequence envelope := by
  obtain ⟨key, cached, hcached, hsequence, henvelope⟩ := h
  rw [markDelivered_get?] at hcached
  obtain ⟨before, hbefore, rfl⟩ := Option.map_eq_some_iff.mp hcached
  refine ⟨key, before, hbefore, ?_, ?_⟩
  · rw [← hsequence]
    split <;> rfl
  · rw [← henvelope]
    split <;> rfl

/-- The response of a delivery is accepted. -/
theorem StateInvariant.markDelivered {remaining : List StoredDelivery}
    (h : StateInvariant platform verifierDid world state remaining) (fingerprint : String)
    (haccepted : ∀ cached, state.responses.get? fingerprint = some cached →
      (fingerprint, cached.envelope) ∈ world.accepted) :
    StateInvariant platform verifierDid world (state.markDelivered fingerprint) remaining where
  cursor := h.cursor
  settled := h.settled
  cached := by
    intro key cached hcached
    rw [markDelivered_get?] at hcached
    obtain ⟨before, hbefore, rfl⟩ := Option.map_eq_some_iff.mp hcached
    obtain ⟨hdated, hanswers, hdelivered⟩ := h.cached key before hbefore
    split
    · rename_i hkey
      subst hkey
      exact ⟨hdated, hanswers, fun _ => haccepted before hbefore⟩
    · exact ⟨hdated, hanswers, hdelivered⟩
  kept := by
    intro delivery hmem envelope hsaved key hkey
    refine (h.kept delivery hmem envelope hsaved key hkey).imp_right (Or.imp_left ?_)
    rintro ⟨cached, hcached, henvelope⟩
    refine ⟨_, by rw [markDelivered_get?, hcached]; rfl, ?_⟩
    split <;> exact henvelope
  reach := by
    intro delivery hmem ⟨envelope, hwhere⟩
    exact h.reach delivery hmem ⟨envelope, hwhere.imp_right Holds.of_markDelivered⟩

theorem submitted_invariant {fingerprint : String} (h : Invariant platform verifierDid world)
    (submission : Submission)
    (hphase : world.phase = .working page (.submit fingerprint))
    (hdeliveries : page.deliveries = delivery :: rest)
    (hstep : world.submitted page delivery fingerprint submission = some world') :
    Invariant platform verifierDid world' := by
  obtain ⟨hpage, delivery', rest', hdeliveries', hfiles⟩ := h.page page _ hphase
  rw [hdeliveries] at hdeliveries'
  cases hdeliveries'
  have hmemory := h.atPage hphase
  have hfirst : delivery ∈ page.deliveries := by rw [hdeliveries]; exact List.mem_cons_self
  obtain ⟨hmem, hafter, hreach⟩ := hpage.stored delivery hfirst
  unfold World.submitted at hstep
  split at hstep
  · cases hstep
  rename_i cached hcached
  obtain ⟨hdated, ⟨origin, horigin, -, hanswers⟩, -⟩ := hmemory.cached fingerprint cached hcached
  -- What was saved for this delivery is what is cached, as the worker still has it in its hands.
  have hstable : Stable (world.log ++ [.submitted delivery.sequence cached.envelope]) := by
    refine stable_append h.stable fun sequence envelope heq saved hsaved => ?_
    cases heq
    rcases hmemory.kept delivery hmem saved hsaved fingerprint hfiles with
      hpassed | ⟨before, hbefore, henvelope⟩ | hgone
    · omega
    · rw [hcached] at hbefore
      cases hbefore
      exact henvelope.symm
    · exact absurd hfirst hgone.2
  have hsent : Invariant platform verifierDid { world with
      log := world.log ++ [.submitted delivery.sequence cached.envelope] } := by
    have hext : Extends platform world { world with
        log := world.log ++ [.submitted delivery.sequence cached.envelope] } :=
      .of_same rfl rfl rfl rfl fun _ _ hsaved => hsaved.of_append_submitted
    exact h.goOn hext h.relay rfl rfl rfl h.accepted hstable
  have haccepting : Invariant platform verifierDid { world with
      log := world.log ++ [.submitted delivery.sequence cached.envelope]
      relay := world.relay.storeEnvelope cached.envelope
      accepted := world.accepted ++ [(fingerprint, cached.envelope)] } := by
    have hext : Extends platform world { world with
        log := world.log ++ [.submitted delivery.sequence cached.envelope]
        relay := world.relay.storeEnvelope cached.envelope
        accepted := world.accepted ++ [(fingerprint, cached.envelope)] } :=
      extends_store h.relay hdated rfl rfl rfl (fun _ hin => List.mem_append_left _ hin)
        fun _ _ hsaved => hsaved.of_append_submitted
    refine h.goOn hext (storeEnvelope_spec h.relay hdated).1 rfl rfl rfl ?_ hstable
    intro key envelope hin
    rcases List.mem_append.mp hin with hold | hnew
    · exact hext.answers (h.accepted key envelope hold)
    · cases List.mem_singleton.mp hnew
      exact hext.answers ⟨origin, horigin, hanswers⟩
  dsimp only at hstep
  split at hstep
  · cases hstep
    have hin : (fingerprint, cached.envelope) ∈
        world.accepted ++ [(fingerprint, cached.envelope)] :=
      List.mem_append_right _ (List.mem_singleton_self _)
    have hmarked := haccepting.memory.markDelivered fingerprint (by
      intro other hother
      rw [hcached] at hother
      cases hother
      exact hin)
    rw [show Phase.remaining _ = _ from congrArg Phase.remaining hphase] at hmarked
    exact haccepting.remember hphase hmarked rfl
      (fun _ _ hholds => Or.inl hholds.of_markDelivered)
      ⟨delivery, rest, hdeliveries, hfiles, cached.envelope, hin⟩
  · cases hstep
    exact hsent.fail _
  · cases hstep
    exact haccepting.fail _
  · cases hstep
    exact hsent.fail _

/-- The state in memory is saved. -/
theorem Invariant.save (h : Invariant platform verifierDid world) :
    Invariant platform verifierDid
      { world with disk := world.memory, log := world.log ++ [.saved world.memory] } := by
  have hknown : ∀ delivery, Known (world.log ++ [.saved world.memory]) world.memory delivery →
      Known world.log world.memory delivery := by
    rintro delivery ⟨envelope, hsaved | hin⟩
    · rcases hsaved.of_append_saved with hold | hin
      · exact ⟨envelope, Or.inl hold⟩
      · exact ⟨envelope, Or.inr hin⟩
    · exact ⟨envelope, Or.inr hin⟩
  have hmemory : StateInvariant platform verifierDid
      { world with disk := world.memory, log := world.log ++ [.saved world.memory] }
      world.memory world.phase.remaining := by
    constructor
    case cursor => exact h.memory.cursor
    case settled => exact h.memory.settled
    case cached => exact h.memory.cached
    case kept =>
      intro delivery hmem envelope hsaved fingerprint hfiles
      rcases hsaved.of_append_saved with hold | ⟨key, cached, hcached, hsequence, henvelope⟩
      · exact h.memory.kept delivery hmem envelope hold fingerprint hfiles
      · obtain ⟨-, ⟨origin, horigin, hnumber, -, hkey, -⟩, -⟩ :=
          h.memory.cached key cached hcached
        obtain rfl : origin = delivery :=
          h.relay.eq_of_sequence horigin hmem (hnumber.trans hsequence)
        rw [hfiles.unique hkey]
        exact Or.inr (Or.inl ⟨cached, hcached, henvelope⟩)
    case reach => exact fun delivery hmem hin => h.memory.reach delivery hmem (hknown delivery hin)
  constructor
  case relay => exact h.relay
  case numbered =>
    intro sequence envelope hsaved
    rcases hsaved.of_append_saved with hold | ⟨key, cached, hcached, hsequence, -⟩
    · exact h.numbered sequence envelope hold
    · obtain ⟨-, ⟨origin, horigin, hnumber, -⟩, -⟩ := h.memory.cached key cached hcached
      rw [← hsequence, ← hnumber]
      exact h.relay.bounded origin horigin
  case memory => exact hmemory
  case disk => exact hmemory.shrink fun _ hin => absurd hin List.not_mem_nil
  case page =>
    intro page task hphase
    obtain ⟨hpage, delivery, rest, hdeliveries, htask⟩ := h.page page task hphase
    obtain ⟨last, hlast, hlt, hle, hsettled, hcovers⟩ := hpage.bound
    refine ⟨⟨⟨last, hlast, hlt, hle, hsettled, ?_⟩, hpage.stored⟩, delivery, rest, hdeliveries, ?_⟩
    · exact fun other hmem hin => hcovers other hmem (hknown other hin)
    · cases task <;> exact htask
  case accepted => exact h.accepted
  case stable => exact stable_append h.stable fun _ _ heq => by cases heq

theorem Invariant.save_or_fail {ok : Bool} {andThen : World → World}
    (h : Invariant platform verifierDid world)
    (hthen : Invariant platform verifierDid
        { world with disk := world.memory, log := world.log ++ [.saved world.memory] } →
      Invariant platform verifierDid (andThen
        { world with disk := world.memory, log := world.log ++ [.saved world.memory] })) :
    Invariant platform verifierDid (world.save ok andThen) := by
  unfold World.save
  cases ok with
  | true => exact hthen h.save
  | false => exact h.fail _

end Delivery

/-! ## Runs -/

theorem Invariant.restart (h : Invariant platform verifierDid world) :
    Invariant platform verifierDid
      { world with memory := world.disk, phase := .idle none } := by
  have hext : Extends platform world { world with memory := world.disk, phase := .idle none } :=
    .of_same rfl rfl rfl rfl fun _ _ hsaved => hsaved
  have hdisk := h.disk.extend h.relay hext h.numbered
  constructor
  case relay => exact h.relay
  case numbered => exact h.numbered
  case memory => exact hdisk
  case disk => exact hdisk
  case page =>
    intro page task hphase
    cases hphase
  case accepted =>
    exact fun fingerprint envelope hin => hext.answers (h.accepted fingerprint envelope hin)
  case stable => exact h.stable

theorem step_invariant {event : Event} (h : Invariant platform verifierDid world)
    (hstep : step platform verifierDid world event = some world') :
    Invariant platform verifierDid world' := by
  unfold step at hstep
  split at hstep
  case h_1 => exact deliver_invariant h hstep
  case h_2 =>
    cases hstep
    exact h.rest fun page task heq => by cases heq
  case h_3 =>
    cases hstep
    exact h.rest fun page task heq => by cases heq
  case h_4 => exact polled_invariant h hstep
  case h_5 page hphase =>
    obtain ⟨-, delivery, rest, hdeliveries, -⟩ := h.page page _ hphase
    rw [hdeliveries] at hstep
    cases hstep
    exact considered_invariant h _ hphase hdeliveries
  case h_6 page fingerprint hphase =>
    obtain ⟨-, delivery, rest, hdeliveries, -⟩ := h.page page _ hphase
    rw [hdeliveries] at hstep
    cases hstep
    exact processed_invariant h _ _ hphase hdeliveries
  case h_7 page fingerprint hphase =>
    cases hstep
    refine h.save_or_fail fun hsaved => ?_
    obtain ⟨hpage, delivery, rest, hdeliveries, hfiles⟩ := hsaved.page page _ hphase
    exact hsaved.hold (hsaved.atPage hphase) hpage ⟨delivery, rest, hdeliveries, hfiles⟩
  case h_8 page fingerprint hphase =>
    obtain ⟨-, delivery, rest, hdeliveries, -⟩ := h.page page _ hphase
    rw [hdeliveries, List.head?_cons, Option.bind_some] at hstep
    exact submitted_invariant h _ hphase hdeliveries hstep
  case h_9 page fingerprint hphase =>
    cases hstep
    refine h.save_or_fail fun hsaved => ?_
    obtain ⟨-, delivery, rest, hdeliveries, hfiles, envelope, haccepted⟩ :=
      hsaved.page page _ hphase
    exact nextDelivery_invariant hsaved hphase hdeliveries
      (Or.inr ⟨fingerprint, envelope, hfiles, haccepted⟩)
  case h_10 =>
    cases hstep
    exact h.save_or_fail fun hsaved => hsaved.rest fun page task heq => by cases heq
  case h_11 => cases hstep
  case h_12 =>
    cases hstep
    exact h.rest fun page task heq => by cases heq
  case h_13 =>
    cases hstep
    exact h.restart
  case h_14 => cases hstep

theorem invariant_start : Invariant platform verifierDid {} := by
  have hstate : StateInvariant platform verifierDid {} {} [] := by
    constructor
    case cursor => exact ⟨0, rfl, by decide⟩
    case cached =>
      intro fingerprint cached hcached
      cases hcached
    all_goals
      intro delivery hmem
      exact absurd hmem List.not_mem_nil
  constructor
  case relay =>
    constructor
    · exact List.Pairwise.nil
    all_goals
      intro delivery hmem
      exact absurd hmem List.not_mem_nil
  case numbered =>
    rintro sequence envelope ⟨state, hin, -⟩
    exact absurd hin List.not_mem_nil
  case memory => exact hstate
  case disk => exact hstate
  case page =>
    intro page task hphase
    cases hphase
  case accepted => exact fun _ _ hin => absurd hin List.not_mem_nil
  case stable =>
    intro before sequence envelope after heq
    simp at heq

/-- The laws of delivery. -/
structure Reliable (platform : Platform) (verifierDid : Did) (world : World) : Prop where
  nothingLost : ∀ delivery ∈ world.relay.deliveries, delivery.recipient = verifierDid →
    delivery.sequence ≤ cursorAt world.disk.cursor → Settled platform verifierDid world delivery
  nothingInvented : ∀ fingerprint envelope, (fingerprint, envelope) ∈ world.accepted →
    Answers platform verifierDid world fingerprint envelope
  stable : Stable world.log

/-- **Reliable delivery.** -/
theorem relay_reliable (platform : Platform) (verifierDid : Did) (events : List Event)
    (world : World) (h : Machine.Run (step platform verifierDid) Machine.Free {} events world) :
    Reliable platform verifierDid world := by
  have hinv : Invariant platform verifierDid world :=
    h.invariant (I := Invariant platform verifierDid)
      (fun _ _ _ hbefore _ hstep => step_invariant hbefore hstep) invariant_start
  exact ⟨hinv.disk.settled, hinv.accepted, hinv.stable⟩

/-! ## A response that is sent twice -/

section

/-- The hashes and the date of this one delivery. -/
def onePlatform : Platform where
  computeJsonHash := fun value =>
    if value.member "type" = some (.str "DeliveryEnvelope") then
      ⟨"sha-256", "RQKZMeyYjpGg2PjkTIz5NOHkPSIGZ9WPNHJbxTQ_hWk"⟩
    else ⟨"sha-256", "OECr_jhVLlKEuz7wNmQoV5j45wNEOM93q6kxzF5Awc4"⟩
  dateParse := fun text => if text = "2025-01-01T00:00:00.000Z" then some 1735689600000 else none
  urlOrigin := fun _ => none
  stringify := fun _ => ""

def requested : Json :=
  .obj [("version", .str "1"), ("type", .str "DeliveryEnvelope"), ("sender", .str "did:web:a"),
    ("recipients", .arr [.str "did:web:v"]), ("createdAt", .str "2025-01-01T00:00:00.000Z"),
    ("payload", .obj [("version", .str "1"), ("type", .str "ActionRequest"),
      ("actionPackage", .obj [("version", .str "1"), ("type", .str "ActionPackage"),
        ("actionEnvelope", .obj [("type", .str "ActionEnvelope")])])])]

def responded : Json :=
  .obj [("result", .str "success"), ("verifier", .obj [("did", .str "did:web:v")]),
    ("actionEnvelopeHash", .obj [("alg", .str "sha-256"),
      ("value", .str "OECr_jhVLlKEuz7wNmQoV5j45wNEOM93q6kxzF5Awc4")])]

/-- The answer to the first submission is lost, and the worker crashes. -/
def lostAnswer : List Event :=
  [.deliver requested, .pollNow, .polled 1735689601000, .considered 1735689601000,
    .processed (some responded) "2025-01-01T00:00:00.000Z", .saved true,
    .submitted (.unanswered true), .crash, .restart, .pollNow, .polled 1735689602000,
    .considered 1735689602000, .submitted .accepted, .saved true, .saved true]

theorem relay_reliable_lostAnswer :
    ∃ world, Machine.Run (step onePlatform "did:web:v") Machine.Free {} lostAnswer world ∧
      (world.accepted.length = 2 ∧ world.disk.cursor = some "1") ∧
      Reliable onePlatform "did:web:v" world := by
  obtain ⟨world, hrun, hstate⟩ : ∃ world,
      Machine.Run (step onePlatform "did:web:v") Machine.Free {} lostAnswer world ∧
        (world.accepted.length = 2 ∧ world.disk.cursor = some "1") :=
    Machine.run_of_exec_any (by decide +kernel)
  exact ⟨world, hrun, hstate, relay_reliable onePlatform "did:web:v" lostAnswer world hrun⟩

end

end Mpas.RelayDelivery
