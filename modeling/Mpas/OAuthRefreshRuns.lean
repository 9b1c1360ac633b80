import Mpas.Library.Machine
import Mpas.OAuthRefresh

/-!
# Concurrent calls before one refresh

Calls and refreshes in any order of their steps, with every write written and
every request answered.

* `Invariant`: what the refresh in the map holds, and what each call has found;
* `Invariant.callStep`, `Invariant.refreshStep`: the steps keep it;
* `run_works`: the steps that there are come to an end;
* `healthy_refresh_refuses_nobody`: each call has the new tokens, and each expiry one request.
-/

namespace Mpas.OAuthRefresh

open OAuthSessions

variable {target : Target} {session held : Session} {now : Int}

/-! ## The invariant -/

/-- What the refresh in the map holds, against the session that is in the file. -/
def Refresh.Tracks (target : Target) (session : Session) (w : World) : Refresh → Prop
  | .reading => session.inFlight = false
  | .loaded contents => session.inFlight = false ∧ contents = some session
  | .validating held | .requesting held | .sending held => held = session ∧
      grant session ∈ w.expired
  | .marking held => grant session ∈ w.expired ∧ ∃ since, held = session.markRefreshInFlight since
  | .awaiting held => held = session
  | .saving held => target.Valid held w.clock ∧ held.inFlight = false ∧
      grant session < grant held ∧ grant held ≤ w.responses
  | .auditing _ => session.inFlight = false
  | .settled error => session.inFlight = false ∧ error = none
  | .failing .. | .flagging _ | .flagged => False

/-- The refresh will bring new tokens for those in the file, if they are due where it has still to
find that out. -/
def Refresh.renews (isDue : Bool) : Refresh → Bool
  | .reading | .loaded _ => isDue
  | .validating _ | .requesting _ | .marking _ | .sending _ | .awaiting _ | .saving _ => true
  | _ => false

/-- The request is sent and what it brought is not in the file. -/
def Refresh.asked : Refresh → Bool
  | .awaiting _ | .saving _ => true
  | _ => false

/-- The grant of the file is about to be renewed. -/
def World.renewing (target : Target) (session : Session) (w : World) : Bool :=
  w.running.renews (shouldRefreshAccessToken session target.refresh w.clock)

/-- A session that was in the file at some time, without a mark. -/
structure Earlier (target : Target) (session : Session) (w : World) (held : Session) : Prop where
  valid : target.Valid held w.clock
  unmarked : held.inFlight = false
  grant_le : grant held ≤ grant session
  requested : grant held < grant session → grant held ∈ w.requests
  due : grant held = grant session → ∀ now, shouldRefreshAccessToken held target.refresh now =
    shouldRefreshAccessToken session target.refresh now

/-- The grant that a call has found due is renewed, or is in the file and about to be. -/
def Call.Awaits (target : Target) (session : Session) (w : World) (k n : Nat) : Prop :=
  n ∈ w.expired ∧ (n < grant session ∨
    n = grant session ∧ w.current = some k ∧ w.renewing target session = true)

/-- The call has found its grant in the file, and `newest` is good for it. -/
def Call.Served (w : World) (newest : Nat) (call : Call) : Prop :=
  ∃ n due, call.found = some (n, due) ∧ n ≤ newest ∧ (due = true → n ∈ w.expired ∧ n < newest)

def Call.Sound (target : Target) (session : Session) (w : World) (call : Call) : Prop :=
  match call.phase with
  | .waiting k => k < w.refreshes.length ∧ call.found = none
  | .reading => call.found = none
  | .loaded contents => call.found = none ∧ ∃ held, contents = some held ∧
      Earlier target session w held
  | .joined k => k < w.refreshes.length ∧
      ∃ n, call.found = some (n, true) ∧ Call.Awaits target session w k n
  | .rereading => call.Served w (grant session)
  | .returned held => target.Valid held w.clock ∧ grant held ≤ grant session ∧
      call.Served w (grant held)
  | .flagging _ | .flagged | .refused _ | .threw => False

structure Invariant (target : Target) (session : Session) (w : World) : Prop where
  file : w.file = some session
  valid : target.Valid session w.clock
  numbered : grant session ≤ w.responses
  current : ∀ k, w.current = some k → k < w.refreshes.length
  running : w.running.Tracks target session w
  others : ∀ k refresh, w.refreshes[k]? = some refresh →
    w.current = some k ∨ refresh = .settled none
  calls : ∀ call ∈ w.calls, call.Sound target session w
  nodup : w.requests.Nodup
  requested : ∀ n ∈ w.requests, n ≤ grant session ∧ n ∈ w.expired
  asked : grant session ∈ w.requests ↔ w.running.asked = true
  expired : ∀ n ∈ w.expired, n ∈ w.requests ∨
    n = grant session ∧ w.renewing target session = true

theorem Invariant.start (hvalid : target.Valid session now) (hmark : session.inFlight = false) :
    Invariant target session (World.start session now) where
  file := rfl
  valid := hvalid
  numbered := Nat.le_refl _
  current _ hk := by cases hk
  running := ⟨hmark, rfl⟩
  others _ _ hk := by cases hk
  calls _ hcall := by cases hcall
  nodup := List.nodup_nil
  requested _ hn := by cases hn
  asked := by simp [World.start, World.running, Refresh.asked]
  expired _ hn := by cases hn

/-! ## From one world to the next -/

variable {session' : Session} {w w' : World}

/-- What others may do between two steps of a call. -/
structure Advances (target : Target) (session : Session) (w : World) (session' : Session)
    (w' : World) : Prop where
  clock : w.clock ≤ w'.clock
  refreshes : w.refreshes.length ≤ w'.refreshes.length
  requests : ∀ n ∈ w.requests, n ∈ w'.requests
  expired : ∀ n ∈ w.expired, n ∈ w'.expired
  renewed : grant session < grant session' ∧ grant session ∈ w'.requests ∨
    grant session = grant session' ∧
      (∀ now, shouldRefreshAccessToken session target.refresh now =
        shouldRefreshAccessToken session' target.refresh now) ∧
      (w.renewing target session = true →
        w'.current = w.current ∧ w'.renewing target session' = true)

namespace Advances

theorem grant_le (h : Advances target session w session' w') : grant session ≤ grant session' := by
  rcases h.renewed with hless | hsame
  · exact Nat.le_of_lt hless.1
  · exact Nat.le_of_eq hsame.1

theorem earlier (h : Advances target session w session' w')
    (hheld : Earlier target session w held) : Earlier target session' w' held where
  valid := hheld.valid.later h.clock
  unmarked := hheld.unmarked
  grant_le := Nat.le_trans hheld.grant_le h.grant_le
  requested hless := by
    rcases Nat.lt_or_eq_of_le hheld.grant_le with hbefore | hsame
    · exact h.requests _ (hheld.requested hbefore)
    · rcases h.renewed with hnext | hnext
      · rw [hsame]
        exact hnext.2
      · omega
  due hsame now := by
    have hle := hheld.grant_le
    rcases h.renewed with hnext | ⟨hgrant, hdue, -⟩
    · omega
    · rw [hheld.due (hsame.trans hgrant.symm), hdue]

theorem awaits {k n : Nat} (h : Advances target session w session' w')
    (hawaits : Call.Awaits target session w k n) :
    Call.Awaits target session' w' k n := by
  obtain ⟨hexpired, hn⟩ := hawaits
  refine ⟨h.expired n hexpired, ?_⟩
  have hle := h.grant_le
  rcases hn with hless | ⟨rfl, hcurrent, hrenews⟩
  · exact .inl (by omega)
  · rcases h.renewed with hnext | ⟨hsame, -, hkept⟩
    · exact .inl hnext.1
    · obtain ⟨hcurrent', hrenews'⟩ := hkept hrenews
      exact .inr ⟨hsame, hcurrent'.trans hcurrent, hrenews'⟩

theorem served {call : Call} {newest newest' : Nat} (h : Advances target session w session' w')
    (hle : newest ≤ newest') (hserved : call.Served w newest) : call.Served w' newest' := by
  obtain ⟨n, due, hfound, hn, hdue⟩ := hserved
  refine ⟨n, due, hfound, by omega, fun hd => ?_⟩
  obtain ⟨hexpired, hless⟩ := hdue hd
  exact ⟨h.expired n hexpired, by omega⟩

theorem sound {call : Call} (h : Advances target session w session' w')
    (hcall : call.Sound target session w) :
    call.Sound target session' w' := by
  have hrefreshes := h.refreshes
  have hle := h.grant_le
  obtain ⟨phase, found⟩ := call
  cases phase with
  | waiting k => exact ⟨by have := hcall.1; omega, hcall.2⟩
  | reading => exact hcall
  | loaded contents =>
    obtain ⟨hfound, held, hcontents, hheld⟩ := hcall
    exact ⟨hfound, held, hcontents, h.earlier hheld⟩
  | joined k =>
    obtain ⟨hk, n, hfound, hawaits⟩ := hcall
    exact ⟨by omega, n, hfound, h.awaits hawaits⟩
  | rereading => exact h.served hle hcall
  | returned held =>
    obtain ⟨hvalid, hheld, hserved⟩ := hcall
    exact ⟨hvalid.later h.clock, by omega, h.served (Nat.le_refl _) hserved⟩
  | flagging | flagged | refused | threw => exact hcall

end Advances

/-- The file stays as it is. -/
theorem Advances.stay (hclock : w.clock ≤ w'.clock)
    (hrefreshes : w.refreshes.length ≤ w'.refreshes.length)
    (hrequests : ∀ n ∈ w.requests, n ∈ w'.requests) (hexpired : ∀ n ∈ w.expired, n ∈ w'.expired)
    (hrenews : w.renewing target session = true →
      w'.current = w.current ∧ w'.renewing target session = true) :
    Advances target session w session w' :=
  ⟨hclock, hrefreshes, hrequests, hexpired, .inr ⟨rfl, fun _ => rfl, hrenews⟩⟩

theorem World.running_of {k : Nat} {refresh : Refresh} (hcurrent : w.current = some k)
    (hrefresh : w.refreshes[k]? = some refresh) : w.running = refresh := by
  simp [World.running, hcurrent, hrefresh]

theorem Refresh.Tracks.grow {refresh : Refresh} (h : refresh.Tracks target session w)
    (hclock : w.clock ≤ w'.clock) (hresponses : w.responses ≤ w'.responses)
    (hexpired : ∀ n ∈ w.expired, n ∈ w'.expired) : refresh.Tracks target session w' := by
  cases refresh with
  | validating | requesting | sending => exact ⟨h.1, hexpired _ h.2⟩
  | marking => exact ⟨hexpired _ h.1, h.2⟩
  | saving held =>
    obtain ⟨hvalid, hmark, hless, hle⟩ := h
    exact ⟨hvalid.later hclock, hmark, hless, Nat.le_trans hle hresponses⟩
  | _ => exact h

/-! ## Steps of a call -/

theorem Invariant.setCall (h : Invariant target session w) (i : Nat) {call : Call}
    (hcall : call.Sound target session w) : Invariant target session (w.setCall i call) := by
  have hadvances : Advances target session w session (w.setCall i call) :=
    .stay (Int.le_refl _) (Nat.le_refl _) (fun _ hn => hn) (fun _ hn => hn) fun hr => ⟨rfl, hr⟩
  exact { h with
    calls := fun one hone => by
      rcases List.mem_or_eq_of_mem_set hone with hold | rfl
      · exact hadvances.sound (h.calls one hold)
      · exact hadvances.sound hcall }

/-- A call that has read the file between two refreshes has what is there. -/
theorem Invariant.earlier (h : Invariant target session w) (hmark : session.inFlight = false) :
    Earlier target session w session where
  valid := h.valid
  unmarked := hmark
  grant_le := Nat.le_refl _
  requested hless := absurd hless (Nat.lt_irrefl _)
  due _ _ := rfl

/-- What is due in an earlier session with the tokens of the file is due in the file. -/
theorem Earlier.due_now (h : Earlier target session w held) (hsame : grant held = grant session)
    (hdue : shouldRefreshAccessToken held target.refresh w.clock = true) :
    shouldRefreshAccessToken session target.refresh w.clock = true := by
  rw [← h.due hsame]
  exact hdue

/-- A refresh that is not past its tokens renews those that are due. -/
theorem Invariant.renewing (h : Invariant target session w)
    (hdue : shouldRefreshAccessToken session target.refresh w.clock = true)
    (hover : w.running.over = false) : w.renewing target session = true := by
  have htracks := h.running
  unfold World.renewing
  rw [hdue]
  cases hrunning : w.running with
  | auditing | settled => rw [hrunning] at hover; cases hover
  | failing | flagging | flagged => rw [hrunning] at htracks; exact htracks.elim
  | _ => rfl

/-- A call has joined the refresh in the map, and that renews what the call has found due, or it is
renewed. -/
theorem Invariant.join_sound (h : Invariant target session w) {i k : Nat}
    (hheld : Earlier target session w held) (hadvances : Advances target session w session w')
    (hcalls : w'.calls = w.calls.set i ⟨.joined k, some (grant held, true)⟩)
    (hexpired : w'.expired = w.expired ++ [grant held]) (hk : k < w'.refreshes.length)
    (hcurrent : w'.current = some k)
    (hrenews : grant held = grant session → w'.renewing target session = true) :
    (∀ call ∈ w'.calls, call.Sound target session w') ∧
      ∀ n ∈ w'.expired, n ∈ w'.requests ∨
        n = grant session ∧ w'.renewing target session = true := by
  have hless : grant held ≠ grant session → grant held < grant session := fun hne => by
    have hle := hheld.grant_le
    omega
  constructor
  · intro one hone
    rw [hcalls] at hone
    rcases List.mem_or_eq_of_mem_set hone with hold | rfl
    · exact hadvances.sound (h.calls one hold)
    · refine ⟨hk, grant held, rfl, ?_, ?_⟩
      · rw [hexpired]
        exact List.mem_append_right _ (List.mem_singleton_self _)
      · by_cases hsame : grant held = grant session
        · exact .inr ⟨hsame, hcurrent, hrenews hsame⟩
        · exact .inl (hless hsame)
  · intro n hn
    rw [hexpired] at hn
    rcases List.mem_append.mp hn with hold | hnew
    · rcases h.expired n hold with hrequested | ⟨hgrant, hrenewing⟩
      · exact .inl (hadvances.requests n hrequested)
      · rcases hadvances.renewed with hnext | ⟨-, -, hkept⟩
        · omega
        · exact .inr ⟨hgrant, (hkept hrenewing).2⟩
    · rw [List.mem_singleton.mp hnew]
      by_cases hsame : grant held = grant session
      · exact .inr ⟨hsame, hrenews hsame⟩
      · exact .inl (hadvances.requests _ (hheld.requested (hless hsame)))

theorem Invariant.joinCurrent (h : Invariant target session w) (i : Nat) {k : Nat}
    (hcurrent : w.current = some k) (hheld : Earlier target session w held)
    (hrenews : grant held = grant session → w.renewing target session = true) :
    Invariant target session (w.join i held) := by
  have hjoin : w.join i held = { w.setCall i ⟨.joined k, some (grant held, true)⟩ with
      expired := w.expired ++ [grant held] } := by
    simp [World.join, hcurrent]
  rw [hjoin]
  have hadvances : Advances target session w session
      { w.setCall i ⟨.joined k, some (grant held, true)⟩ with
        expired := w.expired ++ [grant held] } :=
    .stay (Int.le_refl _) (Nat.le_refl _) (fun _ hn => hn)
      (fun n hn => List.mem_append_left _ hn) fun hr => ⟨rfl, hr⟩
  obtain ⟨hcalls, hexpired⟩ :=
    h.join_sound hheld hadvances rfl rfl (h.current k hcurrent) hcurrent hrenews
  exact { h with
    running := h.running.grow hadvances.clock (Nat.le_refl _) hadvances.expired
    calls := hcalls
    requested := fun n hn => ⟨(h.requested n hn).1, List.mem_append_left _ (h.requested n hn).2⟩
    expired := hexpired }

theorem Invariant.joinNew (h : Invariant target session w) (i : Nat) (hcurrent : w.current = none)
    (hheld : Earlier target session w held)
    (hdue : shouldRefreshAccessToken held target.refresh w.clock = true) :
    Invariant target session (w.join i held) := by
  have hjoin : w.join i held =
      { w.setCall i ⟨.joined w.refreshes.length, some (grant held, true)⟩ with
        expired := w.expired ++ [grant held]
        refreshes := w.refreshes ++ [.reading]
        current := some w.refreshes.length } := by
    simp [World.join, hcurrent]
  have hidle : w.running = .settled none := by simp [World.running, hcurrent]
  have htracks := h.running
  have hasked := h.asked
  rw [hidle] at htracks hasked
  have hadvances : Advances target session w session (w.join i held) := by
    rw [hjoin]
    refine .stay (Int.le_refl _) (by simp) (fun _ hn => hn)
      (fun n hn => List.mem_append_left _ hn) fun hr => ?_
    simp [World.renewing, hidle, Refresh.renews] at hr
  have hrunning : (w.join i held).running = .reading := by
    rw [hjoin]
    exact World.running_of rfl (by simp)
  have hrenews : grant held = grant session → (w.join i held).renewing target session = true := by
    intro hsame
    unfold World.renewing
    rw [hrunning, hjoin]
    exact hheld.due_now hsame hdue
  rw [hjoin] at hadvances hrunning hrenews ⊢
  obtain ⟨hcalls, hexpired⟩ := h.join_sound hheld hadvances rfl rfl (by simp) rfl hrenews
  exact {
    file := h.file
    valid := h.valid
    numbered := h.numbered
    current := fun k hk => by cases hk; simp
    running := by rw [hrunning]; exact htracks.1
    others := fun k refresh hk => by
      rcases Nat.lt_or_ge k w.refreshes.length with hold | hnew
      · rw [List.getElem?_append_left hold] at hk
        refine .inr ((h.others k refresh hk).resolve_left ?_)
        rw [hcurrent]
        simp
      · rw [List.getElem?_append_right hnew] at hk
        obtain ⟨hzero, -⟩ := List.getElem?_eq_some_iff.mp hk
        simp only [List.length_singleton] at hzero
        exact .inl (congrArg some (show w.refreshes.length = k by omega))
    calls := hcalls
    nodup := h.nodup
    requested := fun n hn => ⟨(h.requested n hn).1, List.mem_append_left _ (h.requested n hn).2⟩
    asked := by rw [hrunning]; exact hasked
    expired := hexpired }

/-- A refresh that a call has joined, and that is out of the map, has succeeded. -/
theorem Invariant.outcome (h : Invariant target session w) {k : Nat}
    {error : Option OAuthPrepareErrorCode} (houtcome : w.outcome k = some error) :
    w.current ≠ some k ∧ error = none := by
  unfold World.outcome at houtcome
  split at houtcome
  · rename_i settled hrefresh
    split at houtcome
    · cases houtcome
    · rename_i hother
      cases houtcome
      have hsettled := (h.others k _ hrefresh).resolve_left hother
      cases hsettled
      exact ⟨hother, rfl⟩
  · cases houtcome

theorem Invariant.callStep (h : Invariant target session w) {i : Nat} {written : Bool}
    (hmeets : w.meets target (.call i written) = true)
    (hstep : callStep target w i written = some w') : Invariant target session w' := by
  obtain ⟨call, hcall, hgo⟩ := Option.bind_eq_some_iff.mp hstep
  have hsound := h.calls call (List.mem_of_getElem? hcall)
  obtain ⟨phase, found⟩ := call
  simp only [World.meets, hcall, Option.map_some] at hmeets
  cases phase with
  | waiting k =>
    obtain ⟨error, -, rfl⟩ := Option.map_eq_some_iff.mp hgo
    exact h.setCall i hsound.2
  | reading =>
    cases hgo
    rw [h.file] at hmeets ⊢
    have hmark : session.inFlight = false := by simpa using hmeets
    exact h.setCall i ⟨hsound, session, rfl, h.earlier hmark⟩
  | loaded contents =>
    obtain ⟨hfound, held, rfl, hheld⟩ := hsound
    have hcheck := hheld.valid.checkCall hheld.unmarked
    cases hdue : shouldRefreshAccessToken held target.refresh w.clock with
    | false =>
      rw [hdue, if_neg Bool.false_ne_true] at hcheck
      simp only [hcheck, Option.some.injEq] at hgo
      subst hgo
      exact h.setCall i ⟨grant held, false, rfl, hheld.grant_le, fun hnever => by cases hnever⟩
    | true =>
      rw [hdue, if_pos rfl] at hcheck
      simp only [hcheck, Option.some.injEq] at hgo
      subst hgo
      simp only [World.joinsLate, hcheck, h.file, Option.map_some, Option.getD_some] at hmeets
      cases hcurrent : w.current with
      | none => exact h.joinNew i hcurrent hheld hdue
      | some k =>
        refine h.joinCurrent i hcurrent hheld fun hsame => ?_
        refine h.renewing (hheld.due_now hsame hdue) ?_
        simpa [hcurrent, hsame] using hmeets
  | joined k =>
    obtain ⟨error, houtcome, rfl⟩ := Option.map_eq_some_iff.mp hgo
    obtain ⟨hother, rfl⟩ := h.outcome houtcome
    obtain ⟨-, n, hfound, hexpired, hawaits⟩ := hsound
    have hless := hawaits.resolve_right fun hnever => hother hnever.2.1
    exact h.setCall i ⟨n, true, hfound, Nat.le_of_lt hless, fun _ => ⟨hexpired, hless⟩⟩
  | rereading =>
    have hread : (target.readBoundOAuthSession w.file).filter (!·.reauthorizationRequired) =
        some session := by
      rw [h.file, h.valid.bound]
      simp [h.valid.authorized]
    simp only [hread, Option.some.injEq] at hgo
    subst hgo
    exact h.setCall i ⟨h.valid, Nat.le_refl _, hsound⟩
  | returned held => cases hgo
  | flagging | flagged | refused | threw => exact hsound.elim

/-! ## Steps of the refresh -/

/-- A refresh that can go on is the one in the map. -/
theorem Invariant.going (h : Invariant target session w) {k : Nat} {outcome : Outcome}
    (hstep : refreshStep target w k outcome = some w') :
    w.current = some k ∧ w.refreshes[k]? = some w.running := by
  obtain ⟨refresh, hrefresh, hgo⟩ := Option.bind_eq_some_iff.mp hstep
  rcases h.others k refresh hrefresh with hcurrent | rfl
  · exact ⟨hcurrent, by rw [World.running_of hcurrent hrefresh]; exact hrefresh⟩
  · cases outcome <;> cases hgo

theorem World.running_turn {k : Nat} (hcurrent : w.current = some k) (hk : k < w.refreshes.length)
    (refresh : Refresh) (hnow : w'.current = w.current)
    (hset : w'.refreshes = w.refreshes.set k refresh) : w'.running = refresh := by
  refine World.running_of (hnow.trans hcurrent) ?_
  rw [hset]
  exact List.getElem?_set_self hk

/-- The refresh goes on to `refresh`, and `session'` is in the file. -/
theorem Invariant.turn (h : Invariant target session w) {k : Nat} (hcurrent : w.current = some k)
    (refresh : Refresh) {requests expired : List Nat} {responses : Nat}
    (hw' : w' = { w.setRefresh k refresh with
      file := some session', requests, expired, responses })
    (hvalid : target.Valid session' w.clock) (hnumbered : grant session' ≤ responses)
    (htracks : refresh.Tracks target session' w')
    (hadvances : Advances target session w session' w') (hnodup : requests.Nodup)
    (hrequested : ∀ n ∈ requests, n ≤ grant session' ∧ n ∈ expired)
    (hasked : grant session' ∈ requests ↔ refresh.asked = true)
    (hexpired : ∀ n ∈ expired, n ∈ requests ∨ n = grant session' ∧
      refresh.renews (shouldRefreshAccessToken session' target.refresh w.clock) = true) :
    Invariant target session' w' := by
  have hk := h.current k hcurrent
  have hrunning : w'.running = refresh := by
    subst hw'
    exact World.running_turn hcurrent hk refresh rfl rfl
  have hcalls : ∀ call ∈ w'.calls, call.Sound target session' w' := by
    intro call hcall
    refine hadvances.sound (h.calls call ?_)
    subst hw'
    exact hcall
  subst hw'
  exact {
    file := rfl
    valid := hvalid
    numbered := hnumbered
    current := fun j hj => by
      have hj' := h.current j hj
      simpa [World.setRefresh] using hj'
    running := by rw [hrunning]; exact htracks
    others := fun j other hj => by
      rcases Decidable.em (k = j) with rfl | hne
      · exact .inl hcurrent
      · exact h.others j other ((List.getElem?_set_ne hne).symm.trans hj)
    calls := hcalls
    nodup := hnodup
    requested := hrequested
    asked := by rw [hrunning]; exact hasked
    expired := fun n hn => by
      unfold World.renewing
      rw [hrunning]
      exact hexpired n hn }

/-- The refresh goes on and leaves the file alone. -/
theorem Invariant.proceed (h : Invariant target session w) {k : Nat}
    (hcurrent : w.current = some k) (refresh : Refresh) {expired : List Nat} {responses : Nat}
    (hw' : w' = { w.setRefresh k refresh with expired, responses })
    (htracks : refresh.Tracks target session w') (hresponses : w.responses ≤ responses)
    (hasked : refresh.asked = w.running.asked)
    (hrenews : w.renewing target session = true →
      refresh.renews (shouldRefreshAccessToken session target.refresh w.clock) = true)
    (hkept : ∀ n ∈ w.expired, n ∈ expired)
    (hexpired : ∀ n ∈ expired, n ∈ w.expired ∨ n = grant session ∧
      refresh.renews (shouldRefreshAccessToken session target.refresh w.clock) = true) :
    Invariant target session w' := by
  have hrunning : w'.running = refresh := by
    subst hw'
    exact World.running_turn hcurrent (h.current k hcurrent) refresh rfl rfl
  have hadvances : Advances target session w session w' := by
    subst hw'
    refine .stay (Int.le_refl _) (by simp [World.setRefresh]) (fun _ hn => hn) hkept
      fun hr => ⟨rfl, ?_⟩
    unfold World.renewing
    rw [hrunning]
    exact hrenews hr
  have hfile : w' = { w.setRefresh k refresh with file := some session, expired, responses } := by
    rw [hw', ← h.file]
    rfl
  refine h.turn hcurrent refresh hfile h.valid (Nat.le_trans h.numbered hresponses) htracks
    hadvances h.nodup (fun n hn => ⟨(h.requested n hn).1, hkept n (h.requested n hn).2⟩) ?_
    fun n hn => ?_
  · rw [hasked]
    exact h.asked
  · rcases hexpired n hn with hold | hnew
    · exact (h.expired n hold).imp_right fun hr => ⟨hr.1, hrenews hr.2⟩
    · exact .inr hnew

theorem Invariant.mark (h : Invariant target session w) {k : Nat} (hcurrent : w.current = some k)
    {since : Int} (hheld : held = session.markRefreshInFlight since)
    (hrunning : w.running = .marking held) (hdue : grant session ∈ w.expired)
    (hw' : w' = { w.setRefresh k (.sending held) with file := some held }) :
    Invariant target held w' := by
  have hasked := h.asked
  have hrunning' : w'.running = .sending held := by
    subst hw'
    exact World.running_turn hcurrent (h.current k hcurrent) _ rfl rfl
  have hrenewing : w'.renewing target held = true := by
    unfold World.renewing
    rw [hrunning']
    rfl
  have hadvances : Advances target session w held w' := by
    subst hw' hheld
    exact ⟨Int.le_refl _, by simp [World.setRefresh], fun _ hn => hn, fun _ hn => hn,
      .inr ⟨rfl, fun _ => rfl, fun _ => ⟨rfl, hrenewing⟩⟩⟩
  rw [hrunning] at hasked
  have hexpired : grant held ∈ w'.expired := by
    subst hw' hheld
    exact hdue
  subst hheld
  exact h.turn hcurrent _ hw' (h.valid.marked since) h.numbered ⟨rfl, hexpired⟩ hadvances h.nodup
    h.requested hasked fun n hn => (h.expired n hn).imp_right fun hr => ⟨hr.1, rfl⟩

theorem Invariant.send (h : Invariant target session w) {k : Nat} (hcurrent : w.current = some k)
    (hrunning : w.running = .sending session)
    (hw' : w' = { w.setRefresh k (.awaiting session) with
      requests := w.requests ++ [grant session] })
    (hdue : grant session ∈ w.expired) : Invariant target session w' := by
  have hnew : grant session ∉ w.requests := by
    rw [h.asked, hrunning]
    exact Bool.false_ne_true
  have hfile : w' = { w.setRefresh k (.awaiting session) with
      file := some session, requests := w.requests ++ [grant session] } := by
    rw [hw', ← h.file]
    rfl
  have hrunning' : w'.running = .awaiting session := by
    subst hw'
    exact World.running_turn hcurrent (h.current k hcurrent) _ rfl rfl
  have hadvances : Advances target session w session w' := by
    subst hw'
    refine .stay (Int.le_refl _) (by simp [World.setRefresh])
      (fun n hn => List.mem_append_left _ hn) (fun _ hn => hn) fun _ => ⟨rfl, ?_⟩
    unfold World.renewing
    rw [hrunning']
    rfl
  refine h.turn hcurrent _ hfile h.valid h.numbered rfl hadvances ?_ (fun n hn => ?_) ?_
    fun n hn => ?_
  · exact List.nodup_append.mpr ⟨h.nodup, List.pairwise_singleton _ _, fun a ha b hb hab =>
      hnew (by rw [← List.mem_singleton.mp hb, ← hab]; exact ha)⟩
  · rcases List.mem_append.mp hn with hold | hlast
    · exact h.requested n hold
    · rw [List.mem_singleton.mp hlast]
      exact ⟨Nat.le_refl _, hdue⟩
  · simp [Refresh.asked]
  · rcases h.expired n hn with hold | hr
    · exact .inl (List.mem_append_left _ hold)
    · exact .inr ⟨hr.1, rfl⟩

theorem Invariant.save (h : Invariant target session w) {k : Nat} (hcurrent : w.current = some k)
    (hrunning : w.running = .saving held)
    (hw' : w' = { w.setRefresh k (.auditing held) with file := some held }) :
    Invariant target held w' := by
  have htracks := h.running
  rw [hrunning] at htracks
  obtain ⟨hvalid, hmark, hless, hle⟩ := htracks
  have hasked : grant session ∈ w.requests := by
    rw [h.asked, hrunning]
    rfl
  have hadvances : Advances target session w held w' := by
    subst hw'
    exact ⟨Int.le_refl _, by simp [World.setRefresh], fun _ hn => hn, fun _ hn => hn,
      .inl ⟨hless, hasked⟩⟩
  refine h.turn hcurrent _ hw' hvalid hle hmark hadvances h.nodup (fun n hn => ?_) ?_ fun n hn => ?_
  · exact ⟨Nat.le_trans (h.requested n hn).1 (Nat.le_of_lt hless), (h.requested n hn).2⟩
  · refine ⟨fun hn => ?_, fun hn => ?_⟩
    · have hbefore := (h.requested _ hn).1
      omega
    · cases hn
  · refine .inl ((h.expired n hn).elim id fun hr => ?_)
    rw [hr.1]
    exact hasked

/-- The refresh goes on with what it found due. -/
theorem Invariant.proceedSame (h : Invariant target session w) {k : Nat}
    (hcurrent : w.current = some k) (refresh : Refresh) (hw' : w' = w.setRefresh k refresh)
    (htracks : refresh.Tracks target session w') (hasked : refresh.asked = w.running.asked)
    (hrenews : w.renewing target session = true →
      refresh.renews (shouldRefreshAccessToken session target.refresh w.clock) = true) :
    Invariant target session w' :=
  h.proceed hcurrent refresh hw' htracks (Nat.le_refl _) hasked hrenews (fun _ hn => hn)
    fun _ hn => .inl hn

theorem Invariant.checked (h : Invariant target session w) {k : Nat}
    (hcurrent : w.current = some k) (hrunning : w.running = .loaded (some session))
    (hmark : session.inFlight = false)
    (hstep : refreshStep target w k .succeeded = some w')
    (hrefresh : w.refreshes[k]? = some w.running) :
    Invariant target session w' := by
  have hcheck := h.valid.checkRefresh hmark
  simp only [OAuthRefresh.refreshStep, hrefresh, hrunning, Option.bind_some,
    Option.some.injEq] at hstep
  cases hdue : shouldRefreshAccessToken session target.refresh w.clock with
  | false =>
    rw [hdue, if_neg Bool.false_ne_true] at hcheck
    rw [hcheck] at hstep
    refine h.proceedSame hcurrent _ hstep.symm ⟨hmark, rfl⟩ (by rw [hrunning]; rfl) fun hr => ?_
    unfold World.renewing at hr
    rw [hrunning, hdue] at hr
    cases hr
  | true =>
    rw [hdue, if_pos rfl] at hcheck
    rw [hcheck] at hstep
    dsimp only at hstep
    have hfound : grant session ∈ w.expired ++ [grant session] :=
      List.mem_append_right _ (List.mem_singleton_self _)
    have hnew : ∀ n ∈ w.expired ++ [grant session], n ∈ w.expired ∨ n = grant session :=
      fun n hn => (List.mem_append.mp hn).imp_right List.mem_singleton.mp
    have hw' : grant session ∈ w'.expired := by
      rw [← hstep]
      exact hfound
    cases hcimd : session.details.cimd with
    | true =>
      rw [hcimd, if_pos rfl] at hstep
      exact h.proceed hcurrent (.validating session) hstep.symm ⟨rfl, hw'⟩ (Nat.le_refl _)
        (by rw [hrunning]; rfl) (fun _ => rfl) (fun n hn => List.mem_append_left _ hn)
        fun n hn => (hnew n hn).imp_right fun hlast => ⟨hlast, rfl⟩
    | false =>
      rw [hcimd, if_neg Bool.false_ne_true] at hstep
      exact h.proceed hcurrent (.requesting session) hstep.symm ⟨rfl, hw'⟩ (Nat.le_refl _)
        (by rw [hrunning]; rfl) (fun _ => rfl) (fun n hn => List.mem_append_left _ hn)
        fun n hn => (hnew n hn).imp_right fun hlast => ⟨hlast, rfl⟩

theorem Invariant.refreshStep (h : Invariant target session w) {k : Nat} {outcome : Outcome}
    (hhealthy : (Event.refresh k outcome).healthy = true)
    (hstep : refreshStep target w k outcome = some w') :
    ∃ session', Invariant target session' w' := by
  obtain ⟨hcurrent, hrefresh⟩ := h.going hstep
  have htracks := h.running
  have hgo := hstep
  unfold OAuthRefresh.refreshStep at hgo
  rw [hrefresh, Option.bind_some] at hgo
  cases outcome with
  | failed | changed => cases hhealthy
  | answered value jitter =>
    cases hrunning : w.running with
    | awaiting held =>
      rw [hrunning] at hgo htracks
      obtain rfl : held = session := htracks
      rw [Option.ite_none_right_eq_some, Option.some.injEq] at hgo
      have hvalue : value.refreshToken.isSome = true := hhealthy
      have hresponses : w'.responses = w.responses + 1 ∧ w'.clock = w.clock := by
        rw [← hgo.2]
        exact ⟨rfl, rfl⟩
      refine ⟨held, h.proceed hcurrent _ hgo.2.symm ?_ (Nat.le_succ _) (by rw [hrunning]; rfl)
        (fun _ => rfl) (fun _ hn => hn) fun _ hn => .inl hn⟩
      have hnumbered := h.numbered
      refine ⟨?_, rfl, ?_, ?_⟩
      · rw [hresponses.2]
        exact h.valid.saved hvalue _ _ _
      · rw [grant_saved]
        omega
      · rw [grant_saved, hresponses.1]
    | _ => rw [hrunning] at hgo; cases hgo
  | succeeded =>
    cases hrunning : w.running with
    | reading =>
      rw [hrunning] at hgo htracks
      cases hgo
      refine ⟨session, h.proceedSame hcurrent _ rfl ⟨htracks, h.file⟩ (by rw [hrunning]; rfl)
        fun hr => ?_⟩
      unfold World.renewing at hr
      rw [hrunning] at hr
      exact hr
    | loaded contents =>
      rw [hrunning] at htracks
      obtain ⟨hmark, rfl⟩ := htracks
      exact ⟨session, h.checked hcurrent hrunning hmark hstep hrefresh⟩
    | validating held =>
      rw [hrunning] at hgo htracks
      cases hgo
      exact ⟨session, h.proceedSame hcurrent _ rfl htracks (by rw [hrunning]; rfl) fun _ => rfl⟩
    | requesting held =>
      rw [hrunning] at hgo htracks
      obtain ⟨rfl, hdue⟩ := htracks
      cases hgo
      exact ⟨held, h.proceedSame hcurrent _ rfl ⟨hdue, w.clock, rfl⟩ (by rw [hrunning]; rfl)
        fun _ => rfl⟩
    | marking held =>
      rw [hrunning] at hgo htracks
      obtain ⟨hdue, since, hheld⟩ := htracks
      exact ⟨held, h.mark hcurrent hheld hrunning hdue (Option.some.inj hgo).symm⟩
    | sending held =>
      rw [hrunning] at hgo htracks
      obtain ⟨rfl, hdue⟩ := htracks
      exact ⟨held, h.send hcurrent hrunning (Option.some.inj hgo).symm hdue⟩
    | saving held =>
      rw [hrunning] at hgo
      exact ⟨held, h.save hcurrent hrunning (Option.some.inj hgo).symm⟩
    | auditing held =>
      rw [hrunning] at hgo htracks
      cases hgo
      refine ⟨session, h.proceedSame hcurrent _ rfl ⟨htracks, rfl⟩ (by rw [hrunning]; rfl)
        fun hr => ?_⟩
      unfold World.renewing at hr
      rw [hrunning] at hr
      cases hr
    | awaiting | settled => rw [hrunning] at hgo; cases hgo
    | failing | flagging | flagged => rw [hrunning] at htracks; exact htracks.elim

/-! ## Runs -/

/-- Time passes. -/
theorem Invariant.tick (h : Invariant target session w) (elapsed : Nat) :
    Invariant target session { w with clock := w.clock + elapsed } := by
  have hclock : w.clock ≤ w.clock + elapsed := by omega
  have hrenewing : w.renewing target session = true →
      World.renewing target session { w with clock := w.clock + elapsed } = true := by
    unfold World.renewing
    rw [show World.running { w with clock := w.clock + elapsed } = w.running from rfl]
    cases w.running with
    | reading | loaded => exact shouldRefresh_later hclock
    | _ => exact id
  have hadvances : Advances target session w session { w with clock := w.clock + elapsed } :=
    .stay hclock (Nat.le_refl _) (fun _ hn => hn) (fun _ hn => hn) fun hr => ⟨rfl, hrenewing hr⟩
  exact { h with
    valid := h.valid.later hclock
    running := h.running.grow hclock (Nat.le_refl _) fun _ hn => hn
    calls := fun call hcall => hadvances.sound (h.calls call hcall)
    expired := fun n hn => (h.expired n hn).imp_right fun hr => ⟨hr.1, hrenewing hr.2⟩ }

theorem Invariant.begin (h : Invariant target session w) (phase : CallPhase)
    (hphase : Call.Sound target session w ⟨phase, none⟩) :
    Invariant target session { w with calls := w.calls ++ [⟨phase, none⟩] } := by
  have hadvances : Advances target session w session
      { w with calls := w.calls ++ [⟨phase, none⟩] } :=
    .stay (Int.le_refl _) (Nat.le_refl _) (fun _ hn => hn) (fun _ hn => hn) fun hr => ⟨rfl, hr⟩
  exact { h with
    calls := fun call hcall => by
      rcases List.mem_append.mp hcall with hold | hnew
      · exact hadvances.sound (h.calls call hold)
      · rw [List.mem_singleton.mp hnew]
        exact hadvances.sound hphase }

theorem Invariant.forget (h : Invariant target session w) {error : Option OAuthPrepareErrorCode}
    (hsettled : w.running = .settled error) :
    Invariant target session { w with current := none } := by
  have htracks := h.running
  have hasked := h.asked
  rw [hsettled] at htracks hasked
  have hstill : w.renewing target session = false := by
    unfold World.renewing
    rw [hsettled]
    rfl
  have hadvances : Advances target session w session { w with current := none } :=
    .stay (Int.le_refl _) (Nat.le_refl _) (fun _ hn => hn) (fun _ hn => hn) fun hr => by
      rw [hstill] at hr
      cases hr
  exact { h with
    current := fun k hk => by cases hk
    running := ⟨htracks.1, rfl⟩
    others := fun k refresh hk => by
      refine .inr ((h.others k refresh hk).elim (fun hcurrent => ?_) id)
      rw [← World.running_of hcurrent hk, hsettled, htracks.2]
    calls := fun call hcall => hadvances.sound (h.calls call hcall)
    asked := hasked
    expired := fun n hn => (h.expired n hn).imp_right fun hr => by
      rw [hstill] at hr
      cases hr.2 }

theorem Invariant.step (h : Invariant target session w) {event : Event}
    (hhealthy : event.healthy = true) (hmeets : w.meets target event = true)
    (hstep : step target w event = some w') : ∃ session', Invariant target session' w' := by
  cases event with
  | tick elapsed =>
    cases hstep
    exact ⟨session, h.tick elapsed⟩
  | start =>
    cases hstep
    refine ⟨session, h.begin _ ?_⟩
    cases hcurrent : w.current with
    | none => rfl
    | some k => exact ⟨h.current k hcurrent, rfl⟩
  | call i written => exact ⟨session, h.callStep hmeets hstep⟩
  | refresh k outcome => exact h.refreshStep hhealthy hstep
  | forget =>
    simp only [OAuthRefresh.step] at hstep
    split at hstep
    · rename_i error hsettled
      cases hstep
      have hrunning : w.running = .settled error := by
        unfold World.running
        rw [hsettled]
        rfl
      exact ⟨session, h.forget hrunning⟩
    · cases hstep

/-! ## The work that is left -/

/-- A step of a call or of a refresh, which is not for someone to begin or time to pass. -/
def Event.works : Event → Bool
  | .tick _ | .start => false
  | _ => true

/-- A call that joins counts for the refresh that it may begin. -/
def CallPhase.work : CallPhase → Nat
  | .waiting _ => 20
  | .reading => 19
  | .loaded _ => 18
  | .joined _ => 3
  | .flagging _ => 2
  | .flagged | .rereading => 1
  | .returned _ | .refused _ | .threw => 0

def Refresh.work : Refresh → Nat
  | .reading => 12
  | .loaded _ => 11
  | .validating _ => 10
  | .requesting _ => 9
  | .marking _ => 8
  | .sending _ => 7
  | .awaiting _ => 6
  | .saving _ => 5
  | .auditing _ => 4
  | .failing .. | .flagging _ => 2
  | .flagged => 1
  | .settled _ => 0

def World.work (w : World) : Nat :=
  (w.calls.map fun call => call.phase.work).sum + (w.refreshes.map Refresh.work).sum +
    w.current.toList.length

theorem sum_set {α : Type} (f : α → Nat) {items : List α} {i : Nat} {old : α} (new : α)
    (h : items[i]? = some old) :
    ((items.set i new).map f).sum + f old = (items.map f).sum + f new := by
  induction items generalizing i with
  | nil => cases h
  | cons item items ih =>
    cases i with
    | zero =>
      cases h
      simp only [List.set_cons_zero, List.map_cons, List.sum_cons]
      omega
    | succ i =>
      have hrest := ih h
      simp only [List.set_cons_succ, List.map_cons, List.sum_cons]
      omega

theorem World.work_setCall {i : Nat} {call : Call} (new : Call) (h : w.calls[i]? = some call) :
    (w.setCall i new).work + call.phase.work = w.work + new.phase.work := by
  have hsum := sum_set (fun call : Call => call.phase.work) new h
  simp only [World.work, World.setCall]
  omega

theorem World.work_setRefresh {k : Nat} {refresh : Refresh} (new : Refresh)
    (h : w.refreshes[k]? = some refresh) :
    (w.setRefresh k new).work + refresh.work = w.work + new.work := by
  have hsum := sum_set Refresh.work new h
  simp only [World.work, World.setRefresh]
  omega

theorem World.work_join {i : Nat} {call : Call} (h : w.calls[i]? = some call) (held : Session) :
    (w.join i held).work + call.phase.work ≤ w.work + 16 := by
  have hsum := sum_set (fun call : Call => call.phase.work)
    ⟨.joined (w.current.getD w.refreshes.length), some (grant held, true)⟩ h
  unfold World.join
  cases hcurrent : w.current with
  | none =>
    rw [hcurrent] at hsum
    simp [World.work, World.setCall, hcurrent, CallPhase.work, Refresh.work] at hsum ⊢
    omega
  | some k =>
    rw [hcurrent] at hsum
    simp [World.work, World.setCall, hcurrent, CallPhase.work] at hsum ⊢
    omega

theorem World.work_persist {k : Nat} {refresh : Refresh} (h : w.refreshes[k]? = some refresh)
    (held : Session) (failure : OAuthOperatorError) :
    (w.persist k held failure).work + refresh.work ≤ w.work + 2 := by
  unfold World.persist
  refine Nat.le_trans (Nat.le_of_eq (World.work_setRefresh _ h)) ?_
  split <;> simp [Refresh.work]

theorem World.work_call {i : Nat} {call : Call} (h : w.calls[i]? = some call) {phase : CallPhase}
    {found : Option (Nat × Bool)} (hless : phase.work < call.phase.work) :
    (w.setCall i ⟨phase, found⟩).work < w.work := by
  have hset : (w.setCall i ⟨phase, found⟩).work + call.phase.work = w.work + phase.work :=
    World.work_setCall _ h
  omega

theorem callStep_works {i : Nat} {written : Bool} (h : callStep target w i written = some w') :
    w'.work < w.work := by
  obtain ⟨call, hcall, hgo⟩ := Option.bind_eq_some_iff.mp h
  obtain ⟨phase, found⟩ := call
  cases phase with
  | waiting k =>
    obtain ⟨error, -, rfl⟩ := Option.map_eq_some_iff.mp hgo
    exact World.work_call hcall (by simp [CallPhase.work])
  | reading =>
    cases hgo
    exact World.work_call hcall (by simp [CallPhase.work])
  | loaded contents =>
    cases hgo
    cases target.checkCall contents w.clock with
    | refresh held =>
      have hwork := World.work_join hcall held
      simp only [CallPhase.work] at hwork ⊢
      omega
    | _ => exact World.work_call hcall (by simp [CallPhase.work])
  | flagging | flagged =>
    cases hgo
    cases written <;> exact World.work_call hcall (by simp [CallPhase.work])
  | joined k =>
    obtain ⟨error, -, rfl⟩ := Option.map_eq_some_iff.mp hgo
    cases error <;> exact World.work_call hcall (by simp [CallPhase.work])
  | rereading =>
    cases hgo
    split <;> exact World.work_call hcall (by simp [CallPhase.work])
  | returned | refused | threw => cases hgo

theorem World.work_refresh {k : Nat} {refresh new : Refresh} (h : w.refreshes[k]? = some refresh)
    (hless : new.work < refresh.work) : (w.setRefresh k new).work < w.work := by
  have hset := World.work_setRefresh new h
  omega

theorem refreshStep_works {k : Nat} {outcome : Outcome}
    (h : refreshStep target w k outcome = some w') : w'.work < w.work := by
  obtain ⟨refresh, hrefresh, hgo⟩ := Option.bind_eq_some_iff.mp h
  have hpersist : ∀ held failure, 2 < refresh.work → (w.persist k held failure).work < w.work := by
    intro held failure hmore
    have hwork := World.work_persist hrefresh held failure
    omega
  cases outcome with
  | succeeded =>
    cases refresh with
    | loaded contents =>
      cases hgo
      cases target.checkRefresh contents w.clock with
      | go held =>
        dsimp only
        cases held.details.cimd <;> exact World.work_refresh hrefresh (by simp [Refresh.work])
      | _ => exact World.work_refresh hrefresh (by simp [Refresh.work])
    | awaiting | settled => cases hgo
    | _ =>
      cases hgo
      exact World.work_refresh hrefresh (by simp [Refresh.work])
  | failed failure =>
    cases refresh with
    | reading | loaded | settled => cases hgo
    | validating | failing | flagging | flagged =>
      cases hgo
      exact World.work_refresh hrefresh (by simp [Refresh.work])
    | _ =>
      cases hgo
      exact hpersist _ _ (by simp [Refresh.work])
  | changed =>
    cases refresh with
    | validating =>
      cases hgo
      exact World.work_refresh hrefresh (by simp [Refresh.work])
    | _ => cases hgo
  | answered value jitter =>
    cases refresh with
    | awaiting held =>
      obtain ⟨-, hgo⟩ := Option.ite_none_right_eq_some.mp hgo
      cases hgo
      exact World.work_refresh hrefresh (by simp [Refresh.work])
    | _ => cases hgo

theorem step_works {event : Event} (hworks : event.works = true)
    (h : step target w event = some w') : w'.work < w.work := by
  cases event with
  | tick | start => cases hworks
  | call i written => exact callStep_works h
  | refresh k outcome => exact refreshStep_works h
  | forget =>
    unfold step at h
    dsimp only at h
    cases hcurrent : w.current with
    | none => rw [hcurrent] at h; cases h
    | some k =>
      split at h
      · cases h
        simp [World.work, hcurrent]
      · cases h

/-- However it goes, the calls and refreshes that there are come to an end. -/
theorem run_works {C : World → Event → Prop} {events : List Event}
    (h : Machine.Run (step target) C w events w') (hworks : ∀ event ∈ events, event.works = true) :
    events.length ≤ w.work := by
  induction h with
  | nil w => exact Nat.zero_le _
  | @cons w t w' event events hc hstep hrest ih =>
    have hnext := step_works (hworks event List.mem_cons_self) hstep
    have hlength := ih fun other hother => hworks other (List.mem_cons_of_mem _ hother)
    rw [List.length_cons]
    omega

/-- What there is to do next is never refused. -/
def World.GoesOn (target : Target) (w : World) : Prop :=
  ∃ event, event.works = true ∧ event.healthy = true ∧ w.meets target event = true ∧
    (step target w event).isSome = true

/-- The refresh in the map goes on, or out of the map. -/
theorem Invariant.refresh_goes_on (h : Invariant target session w) {k : Nat}
    (hcurrent : w.current = some k) : w.GoesOn target := by
  obtain ⟨refresh, hrefresh⟩ : ∃ refresh, w.refreshes[k]? = some refresh :=
    ⟨_, List.getElem?_eq_getElem (h.current k hcurrent)⟩
  have htracks := h.running
  rw [World.running_of hcurrent hrefresh] at htracks
  cases refresh with
  | settled error =>
    exact ⟨.forget, rfl, rfl, rfl, by simp [OAuthRefresh.step, hcurrent, hrefresh]⟩
  | awaiting held =>
    refine ⟨.refresh k (.answered ⟨"", some "", none, none⟩ 0), rfl, rfl, rfl, ?_⟩
    simp [OAuthRefresh.step, OAuthRefresh.refreshStep, hrefresh]
  | failing | flagging | flagged => exact htracks.elim
  | _ =>
    refine ⟨.refresh k .succeeded, rfl, rfl, rfl, ?_⟩
    simp [OAuthRefresh.step, OAuthRefresh.refreshStep, hrefresh]

/-- With no refresh in the map a call goes on: what it may wait for is settled. -/
theorem Invariant.call_goes_on (h : Invariant target session w) (hcurrent : w.current = none)
    {call : Call} (hmem : call ∈ w.calls) (hcall : call.settled = false) : w.GoesOn target := by
  obtain ⟨i, hi⟩ := List.getElem?_of_mem hmem
  have hsound := h.calls call hmem
  have hmark : session.inFlight = false := by
    have htracks := h.running
    rw [show w.running = .settled none by simp [World.running, hcurrent]] at htracks
    exact htracks.1
  have houtcome : ∀ k, k < w.refreshes.length → w.outcome k = some none := by
    intro k hk
    have hrefresh := List.getElem?_eq_getElem hk
    have hsettled := (h.others k _ hrefresh).resolve_left (by simp [hcurrent])
    rw [hsettled] at hrefresh
    simp [World.outcome, hrefresh, hcurrent]
  refine ⟨.call i true, rfl, rfl, ?_, ?_⟩
  · unfold World.meets
    dsimp only
    rw [hi, Option.map_some]
    cases hphase : call.phase with
    | reading => simp [h.file, hmark]
    | loaded contents =>
      unfold World.joinsLate
      rw [hcurrent]
      dsimp only
      split <;> rfl
    | _ => rfl
  · obtain ⟨phase, found⟩ := call
    cases phase with
    | waiting k =>
      have hk : k < w.refreshes.length := hsound.1
      simp [OAuthRefresh.step, OAuthRefresh.callStep, hi, houtcome k hk]
    | joined k =>
      have hk : k < w.refreshes.length := hsound.1
      simp [OAuthRefresh.step, OAuthRefresh.callStep, hi, houtcome k hk]
    | returned | refused | threw => cases hcall
    | _ => simp [OAuthRefresh.step, OAuthRefresh.callStep, hi]

/-! ## What the calls return -/

structure World.Served (target : Target) (w : World) : Prop where
  /-- A call that has ended has returned a provider: its tokens are newer than those that the call
  has found due, for which a request was sent, and no older than those that it has found good. -/
  returned : ∀ call ∈ w.calls, call.settled = true → ∃ held n due,
    call.phase = .returned held ∧ target.Valid held w.clock ∧ call.found = some (n, due) ∧
      n ≤ grant held ∧ (due = true → n < grant held ∧ n ∈ w.requests)
  /-- No two requests are for one grant. -/
  once : w.requests.Nodup
  /-- A request is for a grant that was found due. -/
  expired : ∀ n ∈ w.requests, n ∈ w.expired
  /-- Each grant that was found due has had its request, at the latest with the refresh. -/
  requested : w.current = none → ∀ n ∈ w.expired, n ∈ w.requests
  /-- Until each call has ended something goes on. -/
  goes_on : (∀ call ∈ w.calls, call.settled = true) ∨ w.GoesOn target
  /-- And this comes to an end. -/
  ends : ∀ events w', Machine.Run (step target) Machine.Free w events w' →
    (∀ event ∈ events, event.works = true) → events.length ≤ w.work

theorem Invariant.served (h : Invariant target session w) : w.Served target where
  returned call hmem hsettled := by
    have hsound := h.calls call hmem
    obtain ⟨phase, found⟩ := call
    cases phase with
    | returned held =>
      obtain ⟨hvalid, hle, n, due, hfound, hn, hdue⟩ := hsound
      refine ⟨held, n, due, rfl, hvalid, hfound, hn, fun hd => ?_⟩
      obtain ⟨hexpired, hless⟩ := hdue hd
      refine ⟨hless, (h.expired n hexpired).resolve_right fun hr => ?_⟩
      omega
    | refused | threw => exact hsound.elim
    | _ => cases hsettled
  once := h.nodup
  expired n hn := (h.requested n hn).2
  requested hcurrent n hn := by
    refine (h.expired n hn).resolve_right fun hr => ?_
    have hrenewing := hr.2
    simp [World.renewing, World.running, hcurrent, Refresh.renews] at hrenewing
  goes_on := by
    rcases Classical.em (∀ call ∈ w.calls, call.settled = true) with hall | hsome
    · exact .inl hall
    · refine .inr ?_
      cases hcurrent : w.current with
      | some k => exact h.refresh_goes_on hcurrent
      | none =>
        simp only [not_forall, Bool.not_eq_true] at hsome
        obtain ⟨call, hmem, hcall⟩ := hsome
        exact h.call_goes_on hcurrent hmem hcall
  ends events w' hrun hworks := run_works hrun hworks

/-- **A healthy refresh refuses nobody.** For any number of calls, in any order of the steps, where
the stored session is valid and no call takes a mark for a lost refresh. -/
theorem healthy_refresh_refuses_nobody {events : List Event} (hvalid : target.Valid session now)
    (hmark : session.inFlight = false)
    (hrun : Machine.Run (step target)
      (fun w event => event.healthy = true ∧ w.meets target event = true)
      (World.start session now) events w) : w.Served target := by
  have hkeep : ∀ w event w', (∃ session', Invariant target session' w) →
      event.healthy = true ∧ w.meets target event = true → step target w event = some w' →
      ∃ session', Invariant target session' w' := by
    rintro w event w' ⟨session', h⟩ hcondition hstep
    exact h.step hcondition.1 hcondition.2 hstep
  obtain ⟨session', hend⟩ := hrun.invariant hkeep ⟨session, Invariant.start hvalid hmark⟩
  exact hend.served

/-! ## Two calls -/

def sampleBound : SessionBinding.StoredOAuthSession where
  applicationDid := "did:web:app.example"
  resourceUrl := "https://mcp.example/mcp"
  owner := some "local-os-user:501"
  sharing := some ⟨["did:web:app.example"], ["local-os-user:501"]⟩
  binding := some ⟨"did:web:app.example", "https://mcp.example/mcp", "https://issuer.example",
    .str "dynamic", ⟨["mcp:tools"], "offline_access"⟩⟩

def sampleTarget : Target where
  runtime := ⟨fun _ => "0", fun text => some ⟨"https:", "/mcp", text⟩⟩
  sessionName := "work"
  credentialHandle := "mcp"
  applicationDid := "did:web:app.example"
  resourceUrl := "https://mcp.example/mcp"
  expected := some ⟨none, none, some (.str "https://issuer.example"), none,
    some "local-os-user:501", none⟩
  refresh := ⟨60000, 30000, by decide, by decide⟩

/-- Its tokens were saved at 0, for an hour. -/
def sampleSession : Session where
  details := ⟨"work", "mcp", sampleBound, true, false⟩
  tokens := some ⟨⟨"old", 0⟩, some ⟨"refresh", 0⟩, none, some 3600⟩
  tokensSavedAt := some 0

theorem sampleSession_valid : sampleTarget.Valid sampleSession 3600000 := by
  refine ⟨?_, ?_, rfl, rfl, rfl, rfl⟩
  · decide +kernel
  · decide +kernel

/-- Both calls have looked for a refresh; the first has read the file and begun one, which has
marked the file. -/
def marking : List Event :=
  [.start, .start, .call 0 true, .call 0 true, .refresh 0 .succeeded, .refresh 0 .succeeded,
    .refresh 0 .succeeded, .refresh 0 .succeeded]

/-- The second call reads the file when the tokens are saved, and both return. -/
def saving : List Event :=
  [.refresh 0 .succeeded, .refresh 0 (.answered ⟨"new", some "next", none, some 3600⟩ 1000),
    .refresh 0 .succeeded, .call 1 true, .refresh 0 .succeeded, .call 1 true, .forget,
    .call 0 true, .call 0 true, .call 1 true]

theorem two_calls_served : ∃ w,
    Machine.Run (step sampleTarget)
      (fun w event => event.healthy = true ∧ w.meets sampleTarget event = true)
      (World.start sampleSession 3600000) (marking ++ saving) w ∧
    (∀ call ∈ w.calls, call.settled = true) ∧ w.requests = [0] ∧ w.Served sampleTarget := by
  obtain ⟨w, hrun, hend⟩ : ∃ w,
      Machine.Run (step sampleTarget)
        (fun w event => (event.healthy && w.meets sampleTarget event) = true)
        (World.start sampleSession 3600000) (marking ++ saving) w ∧
      ((∀ call ∈ w.calls, call.settled = true) ∧ w.requests = [0]) :=
    Machine.run_of_checked_any (by decide +kernel)
  have hmeets := hrun.weaken fun w event hc => (Bool.and_eq_true _ _).mp hc
  exact ⟨w, hmeets, hend.1, hend.2,
    healthy_refresh_refuses_nobody sampleSession_valid rfl hmeets⟩

/-- The second call reads the file as it is marked, and is refused. -/
theorem marked_session_refused : sampleTarget.Valid sampleSession 3600000 ∧ ∃ w,
    Machine.Run (step sampleTarget) (fun _ event => event.healthy = true)
      (World.start sampleSession 3600000) (marking ++ [.call 1 true, .call 1 true]) w ∧
    (w.calls[1]?.map Call.phase).any (fun phase => match phase with
      | .refused .tokenRefreshFailed => true
      | _ => false) = true := by
  refine ⟨sampleSession_valid, ?_⟩
  exact Machine.run_of_checked_any (by decide +kernel)

end Mpas.OAuthRefresh
