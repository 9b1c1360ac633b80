import Mpas.Artifacts
import Mpas.Library.OrderedMap

/-!
# The notification hub

A Signer or Proposer asks for a ticket over a signed request and opens one web socket with
it. The sockets of a DID are in a `Set` object that `connections` refers to, and the handler
of a socket's end holds on to the object it was added to.

* `Hub.issue`, `Hub.handleUpgrade`, `Hub.notify`, `Hub.remove`: what the hub does;
* `Registered`: the open sockets are in the sets that `notify` looks at
  (`Registered.notify_sockets`);
* `Distinct`: one ticket opens one socket.
-/

namespace Mpas.NotificationHub

/-! ## Tickets and sockets -/

/-- `origin` is the request that the ticket was issued to. -/
structure TicketRecord where
  did : Did
  expiresAt : Int
  consumed : Bool
  origin : Nat
  deriving DecidableEq, Repr

/-- A set of sockets, and the DID it was made for. -/
structure Group where
  did : Did
  members : List Nat
  deriving DecidableEq, Repr

/-- `group` is the place of the set that the socket was added to. A frame is logged as how
many workflows there were when it was sent. -/
structure Socket where
  did : Did
  group : Nat
  origin : Nat
  isOpen : Bool := true
  frames : List Nat := []
  deriving DecidableEq, Repr

structure Hub where
  tickets : OrderedMap String TicketRecord := ∅
  connections : OrderedMap Did Nat := ∅
  groups : List Group := []
  sockets : List Socket := []
  deriving DecidableEq

def TICKET_LIFETIME_MS : Int := 5 * 60000

/-- `/^Bearer ([A-Za-z0-9_-]+)$/`, and what the group matched. -/
def bearerToken (authorization : String) : Option String :=
  let token := authorization.toList.drop 7
  if "Bearer ".toList.isPrefixOf authorization.toList ∧ token ≠ [] ∧
      token.all (fun c => c.isAlphanum || c = '_' || c = '-') then some (String.ofList token)
  else none

namespace Hub

section

variable (hub : Hub) (hashTicket : String → String) (now : Int)

/-- `ticket` is what `randomBytes` gives. -/
def issue (origin : Nat) (did : Did) (ticket : String) (lifetimeMs : Int := TICKET_LIFETIME_MS) :
    Hub × Int :=
  let kept := hub.tickets.filter fun _ record =>
    !(decide (record.expiresAt ≤ now) || record.consumed)
  let expiresAt := now + min lifetimeMs TICKET_LIFETIME_MS
  ({ hub with tickets := kept.set (hashTicket ticket) ⟨did, expiresAt, false, origin⟩ }, expiresAt)

/-- The sockets of the set at a place. -/
def membersAt (group : Nat) : List Nat :=
  match hub.groups[group]? with
  | some found => found.members
  | none => []

/-- The sockets that `connections` has for a DID. -/
def members (did : Did) : List Nat :=
  match hub.connections.get? did with
  | some group => hub.membersAt group
  | none => []

/-- A socket is in the set of its own DID only, so it gets one frame. -/
def notify (workflows : Nat) (dids : List Did) : Hub :=
  { hub with sockets := hub.sockets.mapIdx fun i socket =>
      if socket.isOpen ∧ ∃ did ∈ dids, i ∈ hub.members did then
        { socket with frames := socket.frames ++ [workflows] }
      else socket }

/-- The set that `bind` adds a socket to: the one that the DID has, or a new one. -/
def groupFor (did : Did) : Nat := (hub.connections.get? did).getD hub.groups.length

/-- `bind` without the frame for work that is there already. -/
def bind (did : Did) (origin : Nat) : Hub :=
  let group := hub.groupFor did
  let members := hub.membersAt group ++ [hub.sockets.length]
  { hub with
    connections := hub.connections.set did group
    groups :=
      if group < hub.groups.length then hub.groups.set group ⟨did, members⟩
      else hub.groups ++ [⟨did, members⟩]
    sockets := hub.sockets ++ [⟨did, group, origin, true, []⟩] }

/-- The `remove` that a socket's `close` and `error` events both call. -/
def remove (i : Nat) (socket : Socket) : Hub :=
  let rest := (hub.membersAt socket.group).erase i
  { hub with
    groups := hub.groups.set socket.group ⟨socket.did, rest⟩
    connections := if rest = [] then hub.connections.delete socket.did else hub.connections }

/-- `readyState` is no longer `OPEN`. -/
def shut (i : Nat) : Hub :=
  { hub with sockets := hub.sockets.modify i fun socket => { socket with isOpen := false } }

/-- The record that an upgrade consumes; without one it is answered with 401. -/
def accepted (authorization : Option String) : Option (String × TicketRecord) := do
  let token ← authorization.bind bearerToken
  let record ← hub.tickets.get? (hashTicket token)
  if record.consumed ∨ record.expiresAt ≤ now then none else some (hashTicket token, record)

/-- The ticket is gone before the handshake, which may still fail. -/
def consume (key : String) : Hub := { hub with tickets := hub.tickets.delete key }

end

end Hub

/-! ## What the hub does -/

variable {hub : Hub}

theorem notify_get? {workflows : Nat} {dids : List Did} {i : Nat} {socket' : Socket}
    (h : (hub.notify workflows dids).sockets[i]? = some socket') :
    ∃ socket, hub.sockets[i]? = some socket ∧ socket'.did = socket.did ∧
      socket'.group = socket.group ∧ socket'.isOpen = socket.isOpen := by
  simp only [Hub.notify, List.getElem?_mapIdx, Option.map_eq_some_iff] at h
  obtain ⟨socket, hsocket, rfl⟩ := h
  refine ⟨socket, hsocket, ?_⟩
  split <;> exact ⟨rfl, rfl, rfl⟩

theorem shut_get? {i j : Nat} {socket' : Socket}
    (h : (hub.shut i).sockets[j]? = some socket') :
    ∃ socket, hub.sockets[j]? = some socket ∧ socket'.did = socket.did ∧
      socket'.group = socket.group ∧ (socket'.isOpen = true → socket.isOpen = true) := by
  change (hub.sockets.modify i _)[j]? = some socket' at h
  rw [List.getElem?_modify] at h
  obtain ⟨socket, hsocket, rfl⟩ := Option.map_eq_some_iff.mp h
  refine ⟨socket, hsocket, ?_⟩
  split
  · exact ⟨rfl, rfl, fun hfalse => by cases hfalse⟩
  · exact ⟨rfl, rfl, id⟩

theorem bind_get? {did : Did} {origin i : Nat} {socket' : Socket}
    (h : (hub.bind did origin).sockets[i]? = some socket') :
    hub.sockets[i]? = some socket' ∨
      i = hub.sockets.length ∧ socket' = ⟨did, hub.groupFor did, origin, true, []⟩ := by
  change (hub.sockets ++ [_])[i]? = some socket' at h
  rcases Nat.lt_trichotomy i hub.sockets.length with hlt | rfl | hgt
  · rw [List.getElem?_append_left hlt] at h
    exact .inl h
  · rw [List.getElem?_concat_length] at h
    exact .inr ⟨rfl, (Option.some.inj h).symm⟩
  · rw [List.getElem?_eq_none (by simp; omega)] at h
    cases h

theorem accepted_eq_some {hashTicket : String → String} {now : Int} {authorization : Option String}
    {key : String} {record : TicketRecord}
    (h : hub.accepted hashTicket now authorization = some (key, record)) :
    hub.tickets.get? key = some record ∧ record.consumed = false ∧ now < record.expiresAt := by
  obtain ⟨token, -, h⟩ := Option.bind_eq_some_iff.mp h
  obtain ⟨found, hfound, h⟩ := Option.bind_eq_some_iff.mp h
  split at h
  · cases h
  · rename_i hlive
    cases h
    simp only [not_or, Bool.not_eq_true, not_le] at hlive
    exact ⟨hfound, hlive⟩

/-! ## The sockets of a DID -/

/-- The sockets without what becomes of them. -/
def Hub.owners (hub : Hub) : List (Did × Nat) := hub.sockets.map fun s => (s.did, s.origin)

@[simp] theorem notify_owners (workflows : Nat) (dids : List Did) :
    (hub.notify workflows dids).owners = hub.owners := by
  apply List.ext_getElem?
  intro i
  simp only [Hub.owners, Hub.notify, List.getElem?_map, List.getElem?_mapIdx, Option.map_map]
  congr 1
  funext socket
  dsimp only [Function.comp]
  split <;> rfl

@[simp] theorem shut_owners (i : Nat) : (hub.shut i).owners = hub.owners := by
  apply List.ext_getElem?
  intro j
  simp only [Hub.owners, Hub.shut, List.getElem?_map, List.getElem?_modify]
  cases hub.sockets[j]? with
  | none => rfl
  | some socket =>
    simp only [Option.map_some]
    split <;> rfl

theorem bind_owners (did : Did) (origin : Nat) :
    (hub.bind did origin).owners = hub.owners ++ [(did, origin)] := by
  simp [Hub.owners, Hub.bind]

/-- Each set is one DID's and has its sockets only, and the open ones are in the set that their
DID has. -/
structure Registered (hub : Hub) : Prop where
  placed : ∀ did group, hub.connections.get? did = some group →
    ∃ found, hub.groups[group]? = some found ∧ found.did = did
  owned : ∀ (i : Nat) (socket : Socket), hub.sockets[i]? = some socket →
    ∃ found, hub.groups[socket.group]? = some found ∧ found.did = socket.did
  listed : ∀ (i : Nat) (socket : Socket), hub.sockets[i]? = some socket → socket.isOpen = true →
    hub.connections.get? socket.did = some socket.group ∧ i ∈ hub.membersAt socket.group
  named : ∀ (group : Nat) (found : Group), hub.groups[group]? = some found →
    ∀ i ∈ found.members, ∃ origin, hub.owners[i]? = some (found.did, origin)

theorem Registered.mem_members (h : Registered hub) {i : Nat} {socket : Socket}
    (hsocket : hub.sockets[i]? = some socket) (hopen : socket.isOpen = true) :
    i ∈ hub.members socket.did := by
  obtain ⟨hgroup, hmem⟩ := h.listed i socket hsocket hopen
  rw [Hub.members, hgroup]
  exact hmem

theorem Registered.did_of_mem (h : Registered hub) {did : Did} {i : Nat} {socket : Socket}
    (hsocket : hub.sockets[i]? = some socket) (hmem : i ∈ hub.members did) : socket.did = did := by
  unfold Hub.members Hub.membersAt at hmem
  split at hmem
  · rename_i group hgroup
    obtain ⟨found, hfound, rfl⟩ := h.placed did group hgroup
    rw [hfound] at hmem
    obtain ⟨origin, howner⟩ := h.named group found hfound i hmem
    rw [Hub.owners, List.getElem?_map, hsocket] at howner
    exact congrArg Prod.fst (Option.some.inj howner)
  · cases hmem

/-- **Hints** reach the open sockets of their DIDs, and no others. -/
theorem Registered.notify_sockets (h : Registered hub) (workflows : Nat) (dids : List Did) (i : Nat) :
    (hub.notify workflows dids).sockets[i]? = (hub.sockets[i]?).map fun socket =>
      if socket.isOpen = true ∧ socket.did ∈ dids then
        { socket with frames := socket.frames ++ [workflows] }
      else socket := by
  simp only [Hub.notify, List.getElem?_mapIdx]
  cases hsocket : hub.sockets[i]? with
  | none => rfl
  | some socket =>
    have htold : (socket.isOpen = true ∧ ∃ did ∈ dids, i ∈ hub.members did) ↔
        socket.isOpen = true ∧ socket.did ∈ dids := by
      refine and_congr_right fun hopen => ⟨?_, fun hdid => ⟨_, hdid, h.mem_members hsocket hopen⟩⟩
      rintro ⟨did, hdid, hmem⟩
      rwa [h.did_of_mem hsocket hmem]
    simp only [Option.map_some, htold]

/-- The set that a socket was added to is the one that its DID has now, if it has one. -/
def isCurrent (hub : Hub) (socket : Socket) : Bool :=
  (hub.connections.get? socket.did).all fun group => decide (group = socket.group)

theorem registered_empty : Registered {} where
  placed did group h := by cases h
  owned i socket h := by simp at h
  listed i socket h := by simp at h
  named group found h := by simp at h

/-- What leaves the registry as it is, and opens no socket. -/
theorem Registered.of_same {hub' : Hub} (h : Registered hub)
    (hconnections : hub'.connections = hub.connections) (hgroups : hub'.groups = hub.groups)
    (howners : hub'.owners = hub.owners) (hsockets : ∀ (i : Nat) (socket' : Socket), hub'.sockets[i]? = some socket' →
      ∃ socket, hub.sockets[i]? = some socket ∧ socket'.did = socket.did ∧
        socket'.group = socket.group ∧ (socket'.isOpen = true → socket.isOpen = true)) :
    Registered hub' where
  placed := by
    rw [hconnections, hgroups]
    exact h.placed
  owned := by
    intro i socket' hsocket'
    obtain ⟨socket, hsocket, hdid, hgroup, -⟩ := hsockets i socket' hsocket'
    rw [hdid, hgroup, hgroups]
    exact h.owned i socket hsocket
  listed := by
    intro i socket' hsocket' hopen'
    obtain ⟨socket, hsocket, hdid, hgroup, hopen⟩ := hsockets i socket' hsocket'
    have hlisted := h.listed i socket hsocket (hopen hopen')
    unfold Hub.membersAt at hlisted ⊢
    rw [hdid, hgroup, hconnections, hgroups]
    exact hlisted
  named := by
    rw [hgroups, howners]
    exact h.named

theorem Registered.notify (h : Registered hub) (workflows : Nat) (dids : List Did) :
    Registered (hub.notify workflows dids) := by
  refine h.of_same rfl rfl (notify_owners workflows dids) ?_
  intro i socket' hsocket'
  obtain ⟨socket, hsocket, hdid, hgroup, hopen⟩ := notify_get? hsocket'
  exact ⟨socket, hsocket, hdid, hgroup, fun hopen' => hopen ▸ hopen'⟩

theorem Registered.shut (h : Registered hub) (i : Nat) : Registered (hub.shut i) := by
  refine h.of_same rfl rfl (shut_owners i) ?_
  intro j socket' hsocket'
  obtain ⟨socket, hsocket, hdid, hgroup, hopen⟩ := shut_get? hsocket'
  exact ⟨socket, hsocket, hdid, hgroup, hopen⟩

theorem Registered.tickets (h : Registered hub) (tickets : OrderedMap String TicketRecord) :
    Registered { hub with tickets } :=
  h.of_same rfl rfl rfl fun _ socket hsocket => ⟨socket, hsocket, rfl, rfl, id⟩

section Bind

variable (did : Did) (origin : Nat)

theorem bind_connections :
    (hub.bind did origin).connections = hub.connections.set did (hub.groupFor did) := rfl

theorem groupFor_new (h : Registered hub) (hge : ¬hub.groupFor did < hub.groups.length) :
    hub.groupFor did = hub.groups.length := by
  unfold Hub.groupFor at hge ⊢
  cases hgroup : hub.connections.get? did with
  | none => rfl
  | some group =>
    obtain ⟨found, hfound, -⟩ := h.placed did group hgroup
    rw [hgroup] at hge
    exact absurd (List.getElem?_eq_some_iff.mp hfound).1 hge

theorem bind_groups_self (h : Registered hub) : (hub.bind did origin).groups[hub.groupFor did]? =
    some ⟨did, hub.membersAt (hub.groupFor did) ++ [hub.sockets.length]⟩ := by
  dsimp only [Hub.bind]
  split
  · rename_i hlt
    exact List.getElem?_set_self hlt
  · rename_i hge
    rw [groupFor_new did h hge]
    exact List.getElem?_concat_length

theorem bind_groups_other (h : Registered hub) {group : Nat} (hne : group ≠ hub.groupFor did) :
    (hub.bind did origin).groups[group]? = hub.groups[group]? := by
  dsimp only [Hub.bind]
  split
  · rw [List.getElem?_set_ne (Ne.symm hne)]
  · rename_i hge
    rw [groupFor_new did h hge] at hne
    rcases Nat.lt_or_gt_of_ne hne with hlt | hgt
    · exact List.getElem?_append_left hlt
    · rw [List.getElem?_eq_none (by simp; omega), List.getElem?_eq_none (by omega)]

/-- The set that a DID's new socket goes to is no other DID's. -/
theorem groupFor_owned (h : Registered hub) {found : Group}
    (hfound : hub.groups[hub.groupFor did]? = some found) : found.did = did := by
  unfold Hub.groupFor at hfound
  cases hgroup : hub.connections.get? did with
  | none =>
    rw [hgroup] at hfound
    simp at hfound
  | some group =>
    obtain ⟨same, hsame, hdid⟩ := h.placed did group hgroup
    rw [hgroup] at hfound
    rw [Option.getD_some, hsame] at hfound
    rw [← Option.some.inj hfound, hdid]

/-- The sets are still the same DIDs', and have their members. -/
theorem bind_groups (h : Registered hub) {group : Nat} {found : Group}
    (hfound : hub.groups[group]? = some found) :
    ∃ found', (hub.bind did origin).groups[group]? = some found' ∧ found'.did = found.did ∧
      ∀ i ∈ found.members, i ∈ found'.members := by
  by_cases hgroup : group = hub.groupFor did
  · subst hgroup
    refine ⟨_, bind_groups_self did origin h, (groupFor_owned did h hfound).symm, ?_⟩
    intro i hi
    rw [Hub.membersAt, hfound]
    exact List.mem_append_left _ hi
  · exact ⟨found, (bind_groups_other did origin h hgroup).trans hfound, rfl, fun _ => id⟩

theorem bind_named (h : Registered hub) {group : Nat} {found : Group}
    (hfound : (hub.bind did origin).groups[group]? = some found) {i : Nat}
    (hmem : i ∈ found.members) :
    ∃ origin', (hub.bind did origin).owners[i]? = some (found.did, origin') := by
  have hold : ∀ {found : Group}, hub.groups[group]? = some found → i ∈ found.members →
      ∃ origin', (hub.bind did origin).owners[i]? = some (found.did, origin') := by
    intro found hfound hmem
    obtain ⟨origin', howner⟩ := h.named group found hfound i hmem
    rw [bind_owners, List.getElem?_append_left (List.getElem?_eq_some_iff.mp howner).1]
    exact ⟨origin', howner⟩
  by_cases hgroup : group = hub.groupFor did
  · subst hgroup
    rw [bind_groups_self did origin h] at hfound
    obtain rfl := Option.some.inj hfound
    rcases List.mem_append.mp hmem with hbefore | hnew
    · unfold Hub.membersAt at hbefore
      split at hbefore
      · rename_i own hown
        have howner := hold hown hbefore
        rwa [groupFor_owned did h hown] at howner
      · cases hbefore
    · rw [List.mem_singleton.mp hnew, bind_owners]
      exact ⟨origin, by simp [Hub.owners]⟩
  · rw [bind_groups_other did origin h hgroup] at hfound
    exact hold hfound hmem

theorem Registered.bind (h : Registered hub) : Registered (hub.bind did origin) := by
  have hself := bind_groups_self did origin h
  refine ⟨?_, ?_, ?_, fun group found hfound i hmem => bind_named did origin h hfound hmem⟩
  · intro other group hgroup
    rw [bind_connections, OrderedMap.get?_set] at hgroup
    split at hgroup
    · rename_i hdid
      obtain rfl := Option.some.inj hgroup
      exact ⟨_, hself, hdid⟩
    · obtain ⟨found, hfound, hdid⟩ := h.placed other group hgroup
      obtain ⟨found', hfound', hsame, -⟩ := bind_groups did origin h hfound
      exact ⟨found', hfound', hsame.trans hdid⟩
  · intro i socket hsocket
    rcases bind_get? hsocket with hold | ⟨-, rfl⟩
    · obtain ⟨found, hfound, hdid⟩ := h.owned i socket hold
      obtain ⟨found', hfound', hsame, -⟩ := bind_groups did origin h hfound
      exact ⟨found', hfound', hsame.trans hdid⟩
    · exact ⟨_, hself, rfl⟩
  · intro i socket hsocket hopen
    rcases bind_get? hsocket with hold | ⟨rfl, rfl⟩
    · obtain ⟨hgroup, hmem⟩ := h.listed i socket hold hopen
      refine ⟨?_, ?_⟩
      · rw [bind_connections, OrderedMap.get?_set]
        split
        · rename_i hdid
          rw [Hub.groupFor, hdid, hgroup]
          rfl
        · exact hgroup
      · obtain ⟨found, hfound, -⟩ := h.owned i socket hold
        obtain ⟨found', hfound', -, hkept⟩ := bind_groups did origin h hfound
        rw [Hub.membersAt, hfound] at hmem
        rw [Hub.membersAt, hfound']
        exact hkept i hmem
    · refine ⟨?_, ?_⟩
      · rw [bind_connections, OrderedMap.get?_set_self]
      · rw [Hub.membersAt, hself]
        simp

end Bind

/-- The end of a socket whose set is still its DID's takes no open socket away. -/
theorem Registered.remove (h : Registered hub) {i : Nat} {socket : Socket}
    (hsocket : hub.sockets[i]? = some socket) (hclosed : socket.isOpen = false)
    (hcurrent : isCurrent hub socket = true) : Registered (hub.remove i socket) := by
  obtain ⟨own, hown, howner⟩ := h.owned i socket hsocket
  have hself : (hub.remove i socket).groups[socket.group]? =
      some ⟨socket.did, (hub.membersAt socket.group).erase i⟩ :=
    List.getElem?_set_self (List.getElem?_eq_some_iff.mp hown).1
  have hother : ∀ group, socket.group ≠ group →
      (hub.remove i socket).groups[group]? = hub.groups[group]? :=
    fun group hne => List.getElem?_set_ne hne
  have hgroups : ∀ (group : Nat) (found : Group), hub.groups[group]? = some found →
      ∃ found', (hub.remove i socket).groups[group]? = some found' ∧ found'.did = found.did := by
    intro group found hfound
    by_cases hgroup : socket.group = group
    · subst hgroup
      rw [hown] at hfound
      refine ⟨_, hself, ?_⟩
      rw [← Option.some.inj hfound, howner]
    · exact ⟨found, (hother group hgroup).trans hfound, rfl⟩
  have hconnections : ∀ did group, (hub.remove i socket).connections.get? did = some group →
      hub.connections.get? did = some group := by
    intro did group hgroup
    dsimp only [Hub.remove] at hgroup
    split at hgroup
    · rw [OrderedMap.get?_delete] at hgroup
      split at hgroup
      · cases hgroup
      · exact hgroup
    · exact hgroup
  refine ⟨?_, ?_, ?_, ?_⟩
  · intro did group hgroup
    obtain ⟨found, hfound, hdid⟩ := h.placed did group (hconnections did group hgroup)
    obtain ⟨found', hfound', hsame⟩ := hgroups group found hfound
    exact ⟨found', hfound', hsame.trans hdid⟩
  · intro j other hlook
    obtain ⟨found, hfound, hdid⟩ := h.owned j other hlook
    obtain ⟨found', hfound', hsame⟩ := hgroups other.group found hfound
    exact ⟨found', hfound', hsame.trans hdid⟩
  · intro j other hlook hopen
    change hub.sockets[j]? = some other at hlook
    obtain ⟨hgroup, hmem⟩ := h.listed j other hlook hopen
    have hne : j ≠ i := by
      rintro rfl
      rw [hsocket] at hlook
      rw [← Option.some.inj hlook, hclosed] at hopen
      cases hopen
    by_cases hdid : other.did = socket.did
    · have hsame : other.group = socket.group := by
        rw [isCurrent, ← hdid, hgroup] at hcurrent
        exact of_decide_eq_true hcurrent
      rw [hsame] at hmem
      have hrest : j ∈ (hub.membersAt socket.group).erase i := (List.mem_erase_of_ne hne).mpr hmem
      refine ⟨?_, ?_⟩
      · dsimp only [Hub.remove]
        rw [if_neg (List.ne_nil_of_mem hrest)]
        exact hgroup
      · rw [hsame, Hub.membersAt, hself]
        exact hrest
    · have hapart : socket.group ≠ other.group := by
        intro hsame
        obtain ⟨found, hfound, howned⟩ := h.owned j other hlook
        rw [← hsame, hown] at hfound
        rw [← Option.some.inj hfound, howner] at howned
        exact hdid howned.symm
      refine ⟨?_, ?_⟩
      · dsimp only [Hub.remove]
        split
        · rw [OrderedMap.get?_delete, if_neg (Ne.symm hdid)]
          exact hgroup
        · exact hgroup
      · rw [Hub.membersAt, hother other.group hapart]
        exact hmem
  · intro group found hfound j hmem
    by_cases hgroup : socket.group = group
    · subst hgroup
      rw [hself] at hfound
      obtain rfl := Option.some.inj hfound
      have hbefore := List.mem_of_mem_erase hmem
      rw [Hub.membersAt, hown] at hbefore
      rw [← howner]
      exact h.named socket.group own hown j hbefore
    · rw [hother group hgroup] at hfound
      exact h.named group found hfound j hmem

/-! ## The tickets of a request -/

def Hub.origins (hub : Hub) : List Nat := hub.sockets.map (·.origin)

/-- No request has two tickets, or a ticket and a socket, or two sockets. -/
structure Distinct (hub : Hub) : Prop where
  tickets : ∀ key key' record record', hub.tickets.get? key = some record →
    hub.tickets.get? key' = some record' → record.origin = record'.origin → key = key'
  opened : ∀ key record, hub.tickets.get? key = some record → record.origin ∉ hub.origins
  sockets : hub.origins.Nodup

theorem distinct_empty : Distinct {} where
  tickets key key' record record' h := by cases h
  opened key record h := by cases h
  sockets := List.nodup_nil

theorem origins_eq (hub : Hub) : hub.origins = hub.owners.map Prod.snd := by
  rw [Hub.owners, List.map_map]
  rfl

theorem bind_origins (did : Did) (origin : Nat) :
    (hub.bind did origin).origins = hub.origins ++ [origin] := by
  rw [origins_eq, bind_owners, List.map_append, origins_eq]
  rfl

theorem Distinct.of_same {hub' : Hub} (h : Distinct hub) (htickets : hub'.tickets = hub.tickets)
    (howners : hub'.owners = hub.owners) : Distinct hub' where
  tickets := by
    rw [htickets]
    exact h.tickets
  opened := by
    rw [htickets, origins_eq, howners, ← origins_eq]
    exact h.opened
  sockets := by
    rw [origins_eq, howners, ← origins_eq]
    exact h.sockets

section Issue

variable {hashTicket : String → String} {now : Int} {origin : Nat} {did : Did} {ticket : String}

theorem issue_get? {lifetimeMs : Int} {key : String} {record : TicketRecord}
    (h : (hub.issue hashTicket now origin did ticket lifetimeMs).1.tickets.get? key =
      some record) :
    key = hashTicket ticket ∧ record.did = did ∧ record.origin = origin ∨
      hub.tickets.get? key = some record := by
  dsimp only [Hub.issue] at h
  rw [OrderedMap.get?_set] at h
  split at h
  · rename_i hkey
    cases h
    exact .inl ⟨hkey.symm, rfl, rfl⟩
  · rw [OrderedMap.get?_filter] at h
    exact .inr (Option.filter_eq_some_iff.mp h).1

/-- A request without a ticket or socket may be issued one. -/
theorem Distinct.issue {lifetimeMs : Int} (h : Distinct hub)
    (hticket : ∀ key record, hub.tickets.get? key = some record → record.origin ≠ origin)
    (hsocket : origin ∉ hub.origins) :
    Distinct (hub.issue hashTicket now origin did ticket lifetimeMs).1 where
  tickets := by
    intro key key' record record' hkey hkey' hsame
    rcases issue_get? hkey with ⟨rfl, -, hnew⟩ | hold <;>
      rcases issue_get? hkey' with ⟨rfl, -, hnew'⟩ | hold'
    · rfl
    · exact absurd (hsame.symm.trans hnew) (hticket key' record' hold')
    · exact absurd (hsame.trans hnew') (hticket key record hold)
    · exact h.tickets key key' record record' hold hold' hsame
  opened := by
    intro key record hkey
    rcases issue_get? hkey with ⟨-, -, hnew⟩ | hold
    · rw [hnew]
      exact hsocket
    · exact h.opened key record hold
  sockets := h.sockets

end Issue

theorem consume_get? {key other : String} {record : TicketRecord}
    (h : (hub.consume key).tickets.get? other = some record) :
    hub.tickets.get? other = some record ∧ key ≠ other := by
  dsimp only [Hub.consume] at h
  rw [OrderedMap.get?_delete] at h
  split at h
  · cases h
  · exact ⟨h, ‹_›⟩

theorem Distinct.consume (h : Distinct hub) (key : String) : Distinct (hub.consume key) where
  tickets k k' record record' hk hk' := h.tickets k k' record record' (consume_get? hk).1
    (consume_get? hk').1
  opened k record hk := h.opened k record (consume_get? hk).1
  sockets := h.sockets

/-- The socket that a consumed ticket opens is the only one of its request. -/
theorem Distinct.bind (h : Distinct hub) {key : String} {record : TicketRecord}
    (hkey : hub.tickets.get? key = some record) (did : Did) :
    Distinct ((hub.consume key).bind did record.origin) where
  tickets := (h.consume key).tickets
  opened := by
    intro other record' hother
    have hkept := consume_get? hother
    rw [bind_origins, List.mem_append, List.mem_singleton]
    rintro (hmem | hsame)
    · exact h.opened other record' hkept.1 hmem
    · exact hkept.2 (h.tickets key other record record' hkey hkept.1 hsame.symm)
  sockets := by
    rw [bind_origins]
    refine List.nodup_append.mpr ⟨h.sockets, List.nodup_singleton _, ?_⟩
    intro origin hmem last hlast hsame
    rw [List.mem_singleton.mp hlast] at hsame
    exact h.opened key record hkey (hsame ▸ hmem)

end Mpas.NotificationHub
