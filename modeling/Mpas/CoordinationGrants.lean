import Mpas.CoordinationAuthority

/-!
# Nonces and tickets

What a signed request is good for. Its nonce is granted to one handler while the signature
lives, a handler starts one operation at most, and the ticket of a session opens one socket.

* `Claimed`: a granted nonce blocks its pair until the signature has expired;
* `operations_single_use`: two operations have two requests, and two nonces;
* `sockets_signed`: each socket is the one of a session that its DID signed.
-/

namespace Mpas.CoordinationServer

open NonceStore (claimNonce live Claim)
open NotificationHub (Hub Distinct TicketRecord issue_get? consume_get? accepted_eq_some)

variable {μ : Type} {platform : Platform μ} {w w' : World μ} {event : Event μ}
  {handler handler' : Handler μ}

/-! ## Nonces -/

/-- A granted claim blocks its pair from now on until the signature has expired, and no two
claims of a pair were granted while one of them did. -/
structure Claimed (w : World μ) : Prop where
  made : ∀ (i : Nat) (handler : Handler μ) (claim : Claim), w.handlers[i]? = some handler →
    handler.grant = some claim → claim.time ≤ w.clock
  blocks : ∀ (i : Nat) (handler : Handler μ) (claim : Claim), w.handlers[i]? = some handler →
    handler.grant = some claim → ∀ t, w.clock ≤ t → t ≤ claim.expires * 1000 →
      live w.nonces claim.pair t ≠ none
  apart : ∀ (i j : Nat) (handler handler' : Handler μ) (claim claim' : Claim), i ≠ j →
    w.handlers[i]? = some handler → w.handlers[j]? = some handler' →
    handler.grant = some claim → handler'.grant = some claim' → claim.pair = claim'.pair →
      claim.expires * 1000 < claim'.time ∨ claim'.expires * 1000 < claim.time

theorem claimed_empty : Claimed ({} : World μ) where
  made i handler claim h := by simp at h
  blocks i handler claim h := by simp at h
  apart i j handler handler' claim claim' _ h := by simp at h

/-- What changes no claim and no nonce keeps the claims, whatever the clock goes on to. -/
theorem Claimed.of_same (h : Claimed w) (hclock : w.clock ≤ w'.clock)
    (hnonces : w'.nonces = w.nonces)
    (hgrants : ∀ (i : Nat) (handler' : Handler μ) (claim : Claim), w'.handlers[i]? = some handler' →
      handler'.grant = some claim →
      ∃ handler, w.handlers[i]? = some handler ∧ handler.grant = some claim) : Claimed w' where
  made := by
    intro i handler' claim hhandler' hgrant'
    obtain ⟨handler, hhandler, hgrant⟩ := hgrants i handler' claim hhandler' hgrant'
    exact le_trans (h.made i handler claim hhandler hgrant) hclock
  blocks := by
    intro i handler' claim hhandler' hgrant' t ht hexpires
    obtain ⟨handler, hhandler, hgrant⟩ := hgrants i handler' claim hhandler' hgrant'
    rw [hnonces]
    exact h.blocks i handler claim hhandler hgrant t (le_trans hclock ht) hexpires
  apart := by
    intro i j first second claim claim' hne hfirst hsecond hgrant hgrant' hpair
    obtain ⟨handler, hhandler, hgrant⟩ := hgrants i first claim hfirst hgrant
    obtain ⟨handler', hhandler', hgrant'⟩ := hgrants j second claim' hsecond hgrant'
    exact h.apart i j handler handler' claim claim' hne hhandler hhandler' hgrant hgrant' hpair

/-- What blocks a pair still does after another claim. -/
theorem blocks_after (store : NonceStore.InMemoryNonceStore) (claim : Claim)
    {pair : String × String} {t : Int} (ht : claim.time ≤ t) (hlive : live store pair t ≠ none)
    (hpair : pair = claim.pair → live store pair claim.time ≠ none) :
    live (claimNonce store claim).2 pair t ≠ none := by
  by_cases hsame : pair = claim.pair
  · subst hsame
    rw [NonceStore.live_claimNonce_refused store claim ht (hpair rfl)]
    exact hlive
  · rw [NonceStore.live_claimNonce_other store claim ht hsame]
    exact hlive

theorem Claimed.claim (h : Claimed w) {i : Nat} (hhandler : w.handlers[i]? = some handler)
    {success : MpasAuthSuccess} {task : Task} {nonces : NonceStore.InMemoryNonceStore}
    {granted : Bool} (hanswer : claimNonce w.nonces (w.claimOf success) = (granted, nonces)) :
    Claimed ({ w with nonces := nonces }.setHandler i
      (handler.claimed (w.claimOf success) granted task)) := by
  have hbound := (List.getElem?_eq_some_iff.mp hhandler).1
  have hself : (w.handlers.set i (handler.claimed (w.claimOf success) granted task))[i]? =
      some (handler.claimed (w.claimOf success) granted task) := List.getElem?_set_self hbound
  have hnonces : (claimNonce w.nonces (w.claimOf success)).2 = nonces := by rw [hanswer]
  have hfree : granted = true → live w.nonces (w.claimOf success).pair w.clock = none := by
    intro hgranted
    have hnone := NonceStore.claimNonce_granted w.nonces (w.claimOf success)
    rw [hanswer] at hnone
    exact Option.isNone_iff_eq_none.mp (hnone.symm.trans hgranted)
  -- a claim of the new state is the new one, or was there
  have hcases : ∀ (j : Nat) (found : Handler μ) (claim : Claim),
      (w.handlers.set i (handler.claimed (w.claimOf success) granted task))[j]? = some found →
      found.grant = some claim →
      (j = i ∧ granted = true ∧ claim = w.claimOf success) ∨
        (j ≠ i ∧ w.handlers[j]? = some found) := by
    intro j found claim hfound hgrant
    by_cases hj : i = j
    · subst hj
      rw [hself] at hfound
      obtain rfl := Option.some.inj hfound
      unfold Handler.claimed at hgrant
      dsimp only at hgrant
      split at hgrant
      · rename_i hgranted
        exact .inl ⟨rfl, hgranted, (Option.some.inj hgrant).symm⟩
      · cases hgrant
    · rw [List.getElem?_set_ne hj] at hfound
      exact .inr ⟨Ne.symm hj, hfound⟩
  have hexpired : ∀ (j : Nat) (found : Handler μ) (claim : Claim), w.handlers[j]? = some found →
      found.grant = some claim → claim.pair = (w.claimOf success).pair → granted = true →
      claim.expires * 1000 < w.clock := by
    intro j found claim hfound hgrant hpair hgranted
    by_contra hlate
    refine h.blocks j found claim hfound hgrant w.clock le_rfl (by omega) ?_
    rw [hpair]
    exact hfree hgranted
  refine ⟨?_, ?_, ?_⟩
  · intro j found claim hfound hgrant
    rcases hcases j found claim hfound hgrant with ⟨-, -, rfl⟩ | ⟨-, hold⟩
    · exact le_rfl
    · exact h.made j found claim hold hgrant
  · intro j found claim hfound hgrant t ht hexpires
    change live nonces claim.pair t ≠ none
    rw [← hnonces]
    rcases hcases j found claim hfound hgrant with ⟨-, hgranted, rfl⟩ | ⟨-, hold⟩
    · rw [NonceStore.live_claimNonce_granted _ _ _ (hfree hgranted)]
      simp [Option.filter, hexpires]
    · refine blocks_after w.nonces (w.claimOf success) ht
        (h.blocks j found claim hold hgrant t ht hexpires) fun _ => ?_
      exact h.blocks j found claim hold hgrant w.clock le_rfl (le_trans ht hexpires)
  · intro j k first second claim claim' hne hfirst hsecond hgrant hgrant' hpair
    rcases hcases j first claim hfirst hgrant with ⟨rfl, hgranted, rfl⟩ | ⟨hj, hold⟩
    · rcases hcases k second claim' hsecond hgrant' with ⟨rfl, -, -⟩ | ⟨-, hold'⟩
      · exact absurd rfl hne
      · exact .inr (hexpired k second claim' hold' hgrant' hpair.symm hgranted)
    · rcases hcases k second claim' hsecond hgrant' with ⟨rfl, hgranted, rfl⟩ | ⟨-, hold'⟩
      · exact .inl (hexpired j first claim hold hgrant hpair hgranted)
      · exact h.apart j k first second claim claim' hne hold hold' hgrant hgrant' hpair

/-- A move other than a claim. -/
theorem Claimed.set (h : Claimed w) {i : Nat} (hhandler : w.handlers[i]? = some handler)
    (hclock : w'.clock = w.clock) (hnonces : w'.nonces = w.nonces)
    (hhandlers : w'.handlers = w.handlers.set i handler') (hgrant : handler'.grant = handler.grant) :
    Claimed w' := by
  refine h.of_same (le_of_eq hclock.symm) hnonces ?_
  intro j found claim hfound hclaim
  rw [hhandlers] at hfound
  by_cases hj : i = j
  · subst hj
    rw [List.getElem?_set_self (List.getElem?_eq_some_iff.mp hhandler).1] at hfound
    obtain rfl := Option.some.inj hfound
    exact ⟨handler, hhandler, hgrant ▸ hclaim⟩
  · rw [List.getElem?_set_ne hj] at hfound
    exact ⟨found, hfound, hclaim⟩

theorem Claimed.moved (h : Claimed w) {i : Nat} (hhandler : w.handlers[i]? = some handler)
    (hmoved : Moved platform w i handler w') : Claimed w' := by
  cases hmoved with
  | replied _ hclock => exact h.set hhandler hclock rfl rfl rfl
  | polled => exact h.set hhandler rfl rfl rfl rfl
  | claimed => exact h.claim hhandler rfl
  | issued => exact h.set hhandler rfl rfl rfl rfl
  | joined _ hclock => exact h.set hhandler hclock rfl rfl rfl
  | started _ hclock => exact h.set hhandler hclock rfl rfl rfl
  | finished => exact h.set hhandler rfl rfl rfl rfl

theorem Claimed.step (h : Claimed w) (hs : step platform w event = some w') : Claimed w' := by
  cases event with
  | tick ms =>
    cases hs
    refine h.of_same ?_ rfl fun i handler claim hhandler hgrant => ⟨handler, hhandler, hgrant⟩
    change w.calls.clock ≤ w.calls.clock + ms
    omega
  | receive request =>
    cases hs
    refine h.of_same le_rfl rfl ?_
    intro i found claim hfound hgrant
    change (w.handlers ++ [_])[i]? = some found at hfound
    rcases Nat.lt_or_ge i w.handlers.length with hlt | hge
    · rw [List.getElem?_append_left hlt] at hfound
      exact ⟨found, hfound, hgrant⟩
    · rw [List.getElem?_append_right hge] at hfound
      obtain rfl := List.mem_singleton.mp (List.mem_of_getElem? hfound)
      cases hgrant
  | proceed i ticket =>
    obtain ⟨moving, hmoving, hs⟩ := Option.bind_eq_some_iff.mp hs
    exact h.moved hmoving (proceed_moved hs)
  | run p =>
    obtain ⟨job, -, hs⟩ := Option.bind_eq_some_iff.mp hs
    obtain ⟨-, calls, hclock, -, rfl⟩ := run_eq_some hs
    exact h.of_same (le_of_eq hclock.symm) rfl fun i handler claim hhandler hgrant => ⟨handler, hhandler, hgrant⟩
  | handle p =>
    obtain ⟨calls, hclock, -, rfl⟩ := handle_eq_some hs
    exact h.of_same (le_of_eq hclock.symm) rfl fun i handler claim hhandler hgrant =>
      ⟨handler, hhandler, hgrant⟩
  | upgrade authorization handshake =>
    cases hs
    obtain ⟨hhandlers, -, hcalls, hnonces⟩ := upgrade_same platform w authorization handshake
    refine h.of_same ?_ hnonces ?_
    · rw [World.clock, World.clock, hcalls]
    · rw [hhandlers]
      exact fun i handler claim hhandler hgrant => ⟨handler, hhandler, hgrant⟩
  | shut i =>
    cases hs
    exact h.of_same le_rfl rfl fun i handler claim hhandler hgrant => ⟨handler, hhandler, hgrant⟩
  | remove i =>
    obtain ⟨socket, -, -, rfl⟩ := remove_eq_some hs
    exact h.of_same le_rfl rfl fun i handler claim hhandler hgrant => ⟨handler, hhandler, hgrant⟩

/-- **Single use.** Two operations of a server that enforces authentication were started for
two requests. If both carry the same DID and nonce, one was claimed after the other's
signature had expired. -/
theorem operations_single_use (platform : Platform μ) (events : List (Event μ)) (w : World μ)
    (henforced : platform.enforcement = true)
    (h : Machine.Run (step platform) Machine.Free {} events w) (p q : Nat) (job job' : Job)
    (hne : p ≠ q) (hjob : w.jobs[p]? = some job) (hjob' : w.jobs[q]? = some job') :
    job.origin ≠ job'.origin ∧ ∃ handler handler' claim claim',
      w.handlers[job.origin]? = some handler ∧ w.handlers[job'.origin]? = some handler' ∧
      handler.grant = some claim ∧ handler'.grant = some claim' ∧
      (claim.pair = claim'.pair →
        claim.expires * 1000 < claim'.time ∨ claim'.expires * 1000 < claim.time) := by
  obtain ⟨hstable, hauthorized, -⟩ := run_authorized henforced h
  have hclaimed : Claimed w := h.invariant (I := Claimed)
    (fun _ _ _ hkept _ hstep => hkept.step hstep) claimed_empty
  have hapart : job.origin ≠ job'.origin := by
    intro hsame
    have hp : (w.jobs.map (·.origin))[p]? = some job.origin := by rw [List.getElem?_map, hjob]; rfl
    have hq : (w.jobs.map (·.origin))[q]? = some job.origin := by
      rw [List.getElem?_map, hjob', hsame]
      rfl
    have hbound := (List.getElem?_eq_some_iff.mp hp).1
    exact hne ((List.getElem?_inj hbound hstable.ordered.origins).mp (hp.trans hq.symm))
  obtain ⟨handler, did, order, hhandler, -, -, hsigned, -⟩ :=
    hauthorized.jobs job (List.mem_of_getElem? hjob)
  obtain ⟨handler', did', order', hhandler', -, -, hsigned', -⟩ :=
    hauthorized.jobs job' (List.mem_of_getElem? hjob')
  obtain ⟨success, time, -, -, hgrant⟩ := hsigned.verified
  obtain ⟨success', time', -, -, hgrant'⟩ := hsigned'.verified
  exact ⟨hapart, handler, handler', _, _, hhandler, hhandler', hgrant, hgrant',
    hclaimed.apart _ _ handler handler' _ _ hapart hhandler hhandler' hgrant hgrant'⟩

/-- The agent creates a workflow and cancels it with one nonce, more than a minute apart. -/
theorem operations_single_use_again :
    ∃ w, Machine.Run (step signedPlatform) Machine.Free {} cancelledEvents w ∧
      ∃ first last handler handler' claim claim', w.jobs[0]? = some first ∧
        w.jobs[2]? = some last ∧ w.handlers[first.origin]? = some handler ∧
        w.handlers[last.origin]? = some handler' ∧ handler.grant = some claim ∧
        handler'.grant = some claim' ∧ claim.pair = ("did:web:agent", "n1") ∧
        claim'.pair = ("did:web:agent", "n1") ∧ first.origin ≠ last.origin ∧
        (claim.expires * 1000 < claim'.time ∨ claim'.expires * 1000 < claim.time) := by
  obtain ⟨w, hrun, hjobs, hpairs⟩ : ∃ w,
      Machine.Run (step signedPlatform) Machine.Free {} cancelledEvents w ∧
        w.jobs.map (·.origin) = [0, 1, 3] ∧
        w.handlers.map (fun handler => handler.grant.map Claim.pair) =
          [some ("did:web:agent", "n1"), some ("did:web:alice", "n1"),
            some ("did:web:alice", "n2"), some ("did:web:agent", "n1")] :=
    Machine.run_of_exec_any (by decide +kernel)
  have hjob : ∀ p origin : Nat, [0, 1, 3][p]? = some origin →
      ∃ job : Job, w.jobs[p]? = some job ∧ job.origin = origin := by
    intro p origin horigin
    rw [← hjobs, List.getElem?_map] at horigin
    exact Option.map_eq_some_iff.mp horigin
  obtain ⟨first, hfirst, horigin⟩ := hjob 0 0 rfl
  obtain ⟨last, hlast, horigin'⟩ := hjob 2 3 rfl
  obtain ⟨hapart, handler, handler', claim, claim', hhandler, hhandler', hgrant, hgrant', hexpired⟩ :=
    operations_single_use signedPlatform cancelledEvents w rfl hrun 0 2 first last (by decide)
      hfirst hlast
  have hpair : ∀ (i : Nat) (found : Handler SignedMessage) (made : Claim),
      w.handlers[i]? = some found → found.grant = some made →
      (w.handlers.map fun handler => handler.grant.map Claim.pair)[i]? = some (some made.pair) := by
    intro i found made hfound hmade
    rw [List.getElem?_map, hfound, Option.map_some, hmade, Option.map_some]
  have hagent := hpair _ _ _ hhandler hgrant
  have hagent' := hpair _ _ _ hhandler' hgrant'
  rw [hpairs, horigin] at hagent
  rw [hpairs, horigin'] at hagent'
  have hsame : claim.pair = ("did:web:agent", "n1") :=
    (Option.some.inj (Option.some.inj hagent)).symm
  have hsame' : claim'.pair = ("did:web:agent", "n1") :=
    (Option.some.inj (Option.some.inj hagent')).symm
  exact ⟨w, hrun, first, last, handler, handler', claim, claim', hfirst, hlast, hhandler, hhandler',
    hgrant, hgrant', hsame, hsame', hapart, hexpired (hsame.trans hsame'.symm)⟩

/-! ## Tickets -/

/-- The request of a session that a DID signed, once it has been answered. -/
def Opened (platform : Platform μ) (handler : Handler μ) (did : Did) : Prop :=
  handler.Begun ∧ Verified platform handler did ∧ handler.request.route = .session

theorem Opened.keeps {did : Did} (h : Opened platform handler did)
    (hkeeps : Keeps handler handler') : Opened platform handler' did := by
  obtain ⟨hbegun, hverified, hroute⟩ := h
  refine ⟨hkeeps.begun hbegun, hverified.keeps hkeeps hbegun.not_authenticating, ?_⟩
  rw [hkeeps.request]
  exact hroute

/-- A ticket and a socket is of one session. -/
structure Ticketed (platform : Platform μ) (w : World μ) : Prop where
  distinct : Distinct w.hub
  tickets : ∀ key record, w.hub.tickets.get? key = some record →
    ∃ handler, w.handlers[record.origin]? = some handler ∧ Opened platform handler record.did
  owned : ∀ owner ∈ w.hub.owners,
    ∃ handler, w.handlers[owner.2]? = some handler ∧ Opened platform handler owner.1

theorem ticketed_empty : Ticketed platform ({} : World μ) where
  distinct := NotificationHub.distinct_empty
  tickets key record h := by cases h
  owned _ h := absurd h List.not_mem_nil

/-- What issues no ticket and opens no socket. -/
theorem Ticketed.of_same (h : Ticketed platform w) (htickets : w'.hub.tickets = w.hub.tickets)
    (howners : w'.hub.owners = w.hub.owners)
    (hhandlers : Heap.Evolves Keeps w.handlers w'.handlers) : Ticketed platform w' where
  distinct := h.distinct.of_same htickets howners
  tickets := by
    intro key record hrecord
    rw [htickets] at hrecord
    obtain ⟨handler, hhandler, hopened⟩ := h.tickets key record hrecord
    obtain ⟨handler', hhandler', hkeeps⟩ := hhandlers _ handler hhandler
    exact ⟨handler', hhandler', hopened.keeps hkeeps⟩
  owned := by
    intro owner howner
    rw [howners] at howner
    obtain ⟨handler, hhandler, hopened⟩ := h.owned owner howner
    obtain ⟨handler', hhandler', hkeeps⟩ := hhandlers _ handler hhandler
    exact ⟨handler', hhandler', hopened.keeps hkeeps⟩

/-- A handler that is about to begin has no ticket yet, and no socket. -/
theorem Ticketed.fresh (h : Ticketed platform w) {i : Nat} {task : Task}
    (hhandler : w.handlers[i]? = some handler) (hready : Ready platform w handler task) :
    (∀ key record, w.hub.tickets.get? key = some record → record.origin ≠ i) ∧
      i ∉ w.hub.origins := by
  refine ⟨?_, ?_⟩
  · rintro key record hrecord rfl
    obtain ⟨found, hfound, hopened⟩ := h.tickets key record hrecord
    rw [hhandler] at hfound
    obtain rfl := Option.some.inj hfound
    exact hready.not_begun hopened.1
  · intro hmem
    rw [NotificationHub.origins_eq] at hmem
    obtain ⟨owner, howner, rfl⟩ := List.mem_map.mp hmem
    obtain ⟨found, hfound, hopened⟩ := h.owned owner howner
    rw [hhandler] at hfound
    obtain rfl := Option.some.inj hfound
    exact hready.not_begun hopened.1

theorem Ticketed.issue (h : Ticketed platform w) (hauthorized : Authorized platform w)
    (henforced : platform.enforcement = true) {i : Nat} {did : Did} {ticket : String}
    {reply : Reply} (hhandler : w.handlers[i]? = some handler)
    (hready : Ready platform w handler (.session did)) :
    Ticketed platform
      ({ w with hub := (w.hub.issue platform.hashTicket w.clock i did ticket).1 }.setHandler i
        (handler.reply reply)) := by
  have hclaimed : handler.phase = .claiming true (.session did) := by
    cases hready with
    | granted hphase => exact hphase
    | unenforced _ hdisabled =>
      rw [henforced] at hdisabled
      cases hdisabled
  have hphase : handler.phase ≠ .authenticating := by
    rw [hclaimed]
    exact fun h => by cases h
  obtain ⟨hverified, hroute⟩ :=
    hauthorized.sound handler (List.mem_of_getElem? hhandler) _ hclaimed
  have hhandlers : Heap.Evolves Keeps w.handlers (w.handlers.set i (handler.reply reply)) :=
    Heap.evolves_of_forall₂ (Heap.forall₂_set Keeps.refl hhandler (keeps_reply handler reply))
  obtain ⟨hticket, hsocket⟩ := h.fresh hhandler hready
  refine ⟨h.distinct.issue hticket hsocket, ?_, ?_⟩
  · intro key record hrecord
    rcases issue_get? hrecord with ⟨-, hdid, horigin⟩ | hold
    · refine ⟨handler.reply reply, ?_, .inr ⟨reply, rfl⟩, ?_, hroute⟩
      · rw [horigin]
        exact List.getElem?_set_self (List.getElem?_eq_some_iff.mp hhandler).1
      · rw [hdid]
        exact hverified.keeps (keeps_reply handler reply) hphase
    · obtain ⟨found, hfound, hopened⟩ := h.tickets key record hold
      obtain ⟨found', hfound', hkeeps⟩ := hhandlers _ found hfound
      exact ⟨found', hfound', hopened.keeps hkeeps⟩
  · intro owner howner
    obtain ⟨found, hfound, hopened⟩ := h.owned owner howner
    obtain ⟨found', hfound', hkeeps⟩ := hhandlers _ found hfound
    exact ⟨found', hfound', hopened.keeps hkeeps⟩

theorem Ticketed.moved (h : Ticketed platform w) (hauthorized : Authorized platform w)
    (henforced : platform.enforcement = true) {i : Nat} (hhandler : w.handlers[i]? = some handler)
    (hmoved : Moved platform w i handler w') : Ticketed platform w' := by
  obtain ⟨handler', hset, hkeeps⟩ := hmoved.handlers
  have hhandlers : Heap.Evolves Keeps w.handlers w'.handlers := by
    rw [hset]
    exact Heap.evolves_of_forall₂ (Heap.forall₂_set Keeps.refl hhandler hkeeps)
  cases hmoved with
  | issued hready => exact h.issue hauthorized henforced hhandler hready
  | replied => exact h.of_same rfl rfl hhandlers
  | polled => exact h.of_same rfl rfl hhandlers
  | claimed => exact h.of_same rfl rfl hhandlers
  | joined => exact h.of_same rfl rfl hhandlers
  | started => exact h.of_same rfl rfl hhandlers
  | finished => exact h.of_same rfl (NotificationHub.notify_owners _ _) hhandlers

theorem connect_hub (platform : Platform μ) (w : World μ) (did : Did) (origin : Nat) :
    (connect platform w did origin).hub.tickets = w.hub.tickets ∧
      (connect platform w did origin).hub.owners = w.hub.owners ++ [(did, origin)] := by
  unfold connect
  dsimp only
  split
  · refine ⟨rfl, ?_⟩
    rw [NotificationHub.notify_owners, NotificationHub.bind_owners]
  · exact ⟨rfl, NotificationHub.bind_owners did origin⟩

theorem Ticketed.upgrade (h : Ticketed platform w) (authorization : Option String)
    (handshake : Bool) : Ticketed platform (upgrade platform w authorization handshake) := by
  unfold CoordinationServer.upgrade
  split
  · exact h
  rename_i key record haccepted
  obtain ⟨hrecord, -, -⟩ := accepted_eq_some haccepted
  dsimp only
  split
  · obtain ⟨htickets, howners⟩ := connect_hub platform
      { w with hub := w.hub.consume key } record.did record.origin
    refine ⟨?_, ?_, ?_⟩
    · exact (h.distinct.bind hrecord record.did).of_same htickets
        (howners.trans (NotificationHub.bind_owners record.did record.origin).symm)
    · intro other found hfound
      rw [htickets] at hfound
      exact h.tickets other found (consume_get? hfound).1
    · intro owner howner
      rw [howners] at howner
      rcases List.mem_append.mp howner with hold | hnew
      · exact h.owned owner hold
      · obtain rfl := List.mem_singleton.mp hnew
        exact h.tickets key record hrecord
  · exact ⟨h.distinct.consume key, fun other found hfound =>
      h.tickets other found (consume_get? hfound).1, h.owned⟩

theorem Ticketed.step (h : Ticketed platform w) (hauthorized : Authorized platform w)
    (henforced : platform.enforcement = true) (hs : step platform w event = some w') :
    Ticketed platform w' := by
  have hhandlers := step_handlers hs
  cases event with
  | proceed i ticket =>
    obtain ⟨moving, hmoving, hs⟩ := Option.bind_eq_some_iff.mp hs
    exact h.moved hauthorized henforced hmoving (proceed_moved hs)
  | upgrade authorization handshake =>
    cases hs
    exact h.upgrade authorization handshake
  | tick ms =>
    cases hs
    exact h.of_same rfl rfl hhandlers
  | receive request =>
    cases hs
    exact h.of_same rfl rfl hhandlers
  | run p =>
    obtain ⟨job, -, hs⟩ := Option.bind_eq_some_iff.mp hs
    obtain ⟨-, calls, -, -, rfl⟩ := run_eq_some hs
    exact h.of_same rfl rfl hhandlers
  | handle p =>
    obtain ⟨calls, -, -, rfl⟩ := handle_eq_some hs
    exact h.of_same rfl rfl hhandlers
  | shut i =>
    cases hs
    exact h.of_same rfl (NotificationHub.shut_owners i) hhandlers
  | remove i =>
    obtain ⟨socket, -, -, rfl⟩ := remove_eq_some hs
    exact h.of_same rfl rfl hhandlers

/-- **Sockets.** A server that enforces authentication tells of a DID's work only on sockets of
sessions that the DID signed a request for, one for each such request. -/
theorem sockets_signed (platform : Platform μ) (events : List (Event μ)) (w : World μ)
    (henforced : platform.enforcement = true)
    (h : Machine.Run (step platform) Machine.Free {} events w) :
    w.hub.sockets.Pairwise (fun a b => a.origin ≠ b.origin) ∧
      ∀ socket ∈ w.hub.sockets, ∃ handler, w.handlers[socket.origin]? = some handler ∧
        handler.request.route = .session ∧ Verified platform handler socket.did := by
  have hinvariant : (Stable w ∧ Authorized platform w) ∧ Ticketed platform w := by
    refine h.invariant (I := fun w => (Stable w ∧ Authorized platform w) ∧ Ticketed platform w)
      ?_ ⟨⟨stable_empty, authorized_empty⟩, ticketed_empty⟩
    rintro w event w' ⟨⟨hstable, hauthorized⟩, hticketed⟩ - hs
    exact ⟨⟨hstable.step hs, hauthorized.step hstable henforced hs⟩,
      hticketed.step hauthorized henforced hs⟩
  refine ⟨List.pairwise_map.mp hinvariant.2.distinct.sockets, ?_⟩
  intro socket hsocket
  obtain ⟨handler, hhandler, -, hverified, hroute⟩ :=
    hinvariant.2.owned (socket.did, socket.origin) (List.mem_map_of_mem hsocket)
  exact ⟨handler, hhandler, hroute, hverified⟩

/-- Alice's socket. -/
theorem sockets_signed_session :
    ∃ w, Machine.Run (step signedPlatform) Machine.Free {} approvedEvents w ∧
      w.hub.sockets.map (fun socket => (socket.did, socket.origin)) = [("did:web:alice", 2)] ∧
      ∀ socket ∈ w.hub.sockets, ∃ handler, w.handlers[socket.origin]? = some handler ∧
        handler.request.route = .session ∧ Verified signedPlatform handler socket.did := by
  obtain ⟨w, hrun, hsockets⟩ : ∃ w,
      Machine.Run (step signedPlatform) Machine.Free {} approvedEvents w ∧
        w.hub.sockets.map (fun socket => (socket.did, socket.origin)) = [("did:web:alice", 2)] :=
    Machine.run_of_exec_any (by decide +kernel)
  exact ⟨w, hrun, hsockets, (sockets_signed signedPlatform approvedEvents w rfl hrun).2⟩

end Mpas.CoordinationServer
