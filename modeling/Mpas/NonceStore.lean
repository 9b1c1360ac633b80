import Mathlib.Data.Nat.Digits.Defs
import Mathlib.Data.List.Sort
import Mpas.Library.OrderedMap

/-!
# Single use of a signed request

The freshness check of the RFC 9421 verifier and the in-memory nonce store that
the Coordination server claims a nonce from once a request is authenticated.
Clock values are milliseconds, `created` and `expires` are whole seconds.
-/

namespace Mpas.NonceStore

/-! ## The freshness check -/

/-- The options of the verifier that its freshness check reads. -/
structure VerificationPolicy where
  maxLifetimeSeconds : Int := 60
  clockSkewSeconds : Int := 30
  deriving DecidableEq, Repr

def MPAS_MAX_SIGNATURE_LIFETIME_SECONDS : Int := 60

def validVerificationPolicy (policy : VerificationPolicy) : Bool :=
  decide (policy.maxLifetimeSeconds > 0) &&
    decide (policy.maxLifetimeSeconds ≤ MPAS_MAX_SIGNATURE_LIFETIME_SECONDS) &&
    decide (policy.clockSkewSeconds ≥ 0)

/-- The signature parameters that name a request and bound its life. -/
structure Signature where
  keyid : String
  nonce : String
  created : Int
  expires : Int
  deriving DecidableEq, Repr

inductive Freshness
  | policyInvalid
  | freshnessInvalid
  | accepted
  deriving DecidableEq, Repr

/-- The verifier works in floored seconds; integer division rounds down here too. -/
def nowSeconds (now : Int) : Int := now / 1000

def checkFreshness (policy : VerificationPolicy) (signature : Signature) (now : Int) : Freshness :=
  if ¬ validVerificationPolicy policy then .policyInvalid
  else if signature.expires ≤ signature.created ∨
      signature.expires - signature.created > policy.maxLifetimeSeconds ∨
      signature.created > nowSeconds now + policy.clockSkewSeconds ∨
      signature.expires < nowSeconds now then .freshnessInvalid
  else .accepted

/-! ## The store -/

structure InMemoryNonceStore where
  claims : OrderedMap String Int
  deriving DecidableEq

def InMemoryNonceStore.new : InMemoryNonceStore := ⟨∅⟩

/-- The length of a string in UTF-16 code units. -/
def utf16Length (s : List Char) : Nat := (s.map fun c => if c.toNat < 0x10000 then 1 else 2).sum

def claimKey (keyid nonce : String) : String :=
  toString (utf16Length keyid.toList) ++ ":" ++ keyid ++ nonce

/-- Entries that expired before `now` are dropped first, whoever claims. -/
def prune (now : Int) (claims : OrderedMap String Int) : OrderedMap String Int :=
  claims.filter fun _ storedExpiry => !decide (storedExpiry < now)

def claim (store : InMemoryNonceStore) (now : Int) (keyid nonce : String) (expiresAt : Int) :
    Bool × InMemoryNonceStore :=
  let claims := prune now store.claims
  let key := claimKey keyid nonce
  match claims.get? key with
  | some existingExpiry =>
    if existingExpiry ≥ now then (false, ⟨claims⟩)
    else (true, ⟨(claims.delete key).set key expiresAt⟩)
  | none => (true, ⟨claims.set key expiresAt⟩)


/-! ## Claim keys -/

/-- Two beginnings of one text that have the same UTF-16 length are the same. -/
theorem prefix_unique (a b c d : List Char) (h : a ++ b = c ++ d)
    (hl : utf16Length a = utf16Length c) : a = c ∧ b = d := by
  induction a generalizing c with
  | nil =>
    cases c with
    | nil => exact ⟨rfl, h⟩
    | cons x c =>
      simp only [utf16Length, List.map_nil, List.sum_nil, List.map_cons, List.sum_cons] at hl
      split at hl <;> omega
  | cons x a ih =>
    cases c with
    | nil =>
      simp only [utf16Length, List.map_nil, List.sum_nil, List.map_cons, List.sum_cons] at hl
      split at hl <;> omega
    | cons y c =>
      obtain ⟨rfl, h'⟩ := List.cons.inj h
      obtain ⟨rfl, rfl⟩ := ih c h' (by simpa [utf16Length] using hl)
      exact ⟨rfl, rfl⟩

/-- A separator that neither part contains splits a text in one way. -/
theorem split_at_separator {α : Type*} {x : α} (a b c d : List α) (ha : x ∉ a) (hc : x ∉ c)
    (h : a ++ x :: b = c ++ x :: d) : a = c ∧ b = d := by
  induction a generalizing c with
  | nil =>
    cases c with
    | nil => exact ⟨rfl, (List.cons.inj h).2⟩
    | cons y c => exact absurd ((List.cons.inj h).1 ▸ List.mem_cons_self) hc
  | cons y a ih =>
    cases c with
    | nil => exact absurd ((List.cons.inj h).1 ▸ List.mem_cons_self) ha
    | cons z c =>
      obtain ⟨rfl, h'⟩ := List.cons.inj h
      obtain ⟨rfl, rfl⟩ := ih c (fun m => ha (List.mem_cons_of_mem _ m))
        (fun m => hc (List.mem_cons_of_mem _ m)) h'
      exact ⟨rfl, rfl⟩

theorem colon_not_mem_repr (n : Nat) : ':' ∉ (toString n).toList := by
  intro h
  have hd : (':' : Char).isDigit = true := by
    apply Nat.isDigit_of_mem_toDigits (b := 10) (n := n) (by decide) (by decide)
    simpa [Nat.repr] using h
  exact absurd hd (by decide)

theorem digits_injective {m n : Nat} (h : (toString m).toList = (toString n).toList) : m = n := by
  have hback (n : Nat) : Nat.ofDigitChars 10 (Nat.toDigits 10 n) 0 = n :=
    Nat.ofDigitChars_toDigits (by omega) (by omega)
  have hdigits : Nat.toDigits 10 m = Nat.toDigits 10 n := by
    rwa [← Nat.toList_repr, ← Nat.toList_repr]
  rw [← hback m, ← hback n, hdigits]

/-- The length prefix keeps pairs apart that concatenate to one text. -/
theorem claimKey_injective {k n k' n' : String} (h : claimKey k n = claimKey k' n') :
    k = k' ∧ n = n' := by
  have hl := congrArg String.toList h
  simp only [claimKey, String.toList_append, List.append_assoc] at hl
  have hcolon : (":" : String).toList = [':'] := by decide
  rw [hcolon] at hl
  simp only [List.cons_append, List.nil_append] at hl
  obtain ⟨hlen, hrest⟩ := split_at_separator _ _ _ _ (colon_not_mem_repr _)
    (colon_not_mem_repr _) hl
  have hn : utf16Length k.toList = utf16Length k'.toList :=
    digits_injective hlen
  obtain ⟨hk, hn'⟩ := prefix_unique _ _ _ _ hrest hn
  exact ⟨String.toList_injective hk, String.toList_injective hn'⟩


/-! ## What a claim does -/

/-- One call of `claim`: the pair, the signature's expiry in seconds and the clock. -/
structure Claim where
  keyid : String
  nonce : String
  expires : Int
  time : Int
  deriving DecidableEq, Repr

def Claim.pair (c : Claim) : String × String := (c.keyid, c.nonce)

def claimNonce (store : InMemoryNonceStore) (c : Claim) : Bool × InMemoryNonceStore :=
  claim store c.time c.keyid c.nonce (c.expires * 1000)

/-- The claims in order, each with its answer. -/
def results (store : InMemoryNonceStore) : List Claim → List (Claim × Bool)
  | [] => []
  | c :: cs => (c, (claimNonce store c).1) :: results (claimNonce store c).2 cs

/-- The expiry stored for a pair, if it still blocks at time `t`. -/
def live (store : InMemoryNonceStore) (pair : String × String) (t : Int) : Option Int :=
  (store.claims.get? (claimKey pair.1 pair.2)).filter fun e => decide (t ≤ e)

theorem live_new (pair : String × String) (t : Int) : live .new pair t = none := rfl

theorem get?_prune (now : Int) (claims : OrderedMap String Int) (k : String) :
    (prune now claims).get? k = (claims.get? k).filter fun e => decide (now ≤ e) := by
  unfold prune
  rw [OrderedMap.get?_filter]
  cases claims.get? k <;> simp [Option.filter]

/-- A claim is granted exactly when nothing stored for its pair still blocks. -/
theorem claimNonce_granted (store : InMemoryNonceStore) (c : Claim) :
    (claimNonce store c).1 = (live store c.pair c.time).isNone := by
  simp only [claimNonce, claim, live, Claim.pair, get?_prune]
  cases h : store.claims.get? (claimKey c.keyid c.nonce) with
  | none => rfl
  | some e =>
    by_cases he : c.time ≤ e
    · simp [Option.filter, he]
    · simp [Option.filter, he]

theorem claimKey_ne {c : Claim} {pair : String × String} (h : pair ≠ c.pair) :
    claimKey c.keyid c.nonce ≠ claimKey pair.1 pair.2 := by
  intro hk
  obtain ⟨h₁, h₂⟩ := claimKey_injective hk
  exact h (Prod.ext h₁.symm h₂.symm)

/-- Pruning at `now` changes nothing that could still block at a later time. -/
theorem filter_prune {now t : Int} (ht : now ≤ t) (claims : OrderedMap String Int) (k : String) :
    ((prune now claims).get? k).filter (fun e => decide (t ≤ e)) =
      (claims.get? k).filter fun e => decide (t ≤ e) := by
  rw [get?_prune]
  cases claims.get? k with
  | none => rfl
  | some e =>
    by_cases he : t ≤ e
    · simp [Option.filter, he, le_trans ht he]
    · by_cases hc : now ≤ e <;> simp [Option.filter, he, hc]

/-- **Distinct pairs.** A claim leaves what blocks another pair as it was. -/
theorem live_claimNonce_other (store : InMemoryNonceStore) (c : Claim) {pair : String × String}
    {t : Int} (ht : c.time ≤ t) (hp : pair ≠ c.pair) :
    live (claimNonce store c).2 pair t = live store pair t := by
  have hk := claimKey_ne hp
  have hprune := filter_prune ht store.claims (claimKey pair.1 pair.2)
  simp only [claimNonce, claim, live]
  split
  · split
    · exact hprune
    · rw [OrderedMap.get?_set_ne _ _ hk, OrderedMap.get?_delete, if_neg hk, hprune]
  · rw [OrderedMap.get?_set_ne _ _ hk, hprune]

/-- A granted claim stores its own expiry. -/
theorem live_claimNonce_granted (store : InMemoryNonceStore) (c : Claim) (t : Int)
    (hg : live store c.pair c.time = none) :
    live (claimNonce store c).2 c.pair t =
      (some (c.expires * 1000)).filter fun e => decide (t ≤ e) := by
  simp only [live, Claim.pair] at hg
  simp only [claimNonce, claim, live, Claim.pair, get?_prune, hg, OrderedMap.get?_set_self]

/-- A refused claim leaves what blocks its pair as it was. -/
theorem live_claimNonce_refused (store : InMemoryNonceStore) (c : Claim) {t : Int}
    (ht : c.time ≤ t) (hr : live store c.pair c.time ≠ none) :
    live (claimNonce store c).2 c.pair t = live store c.pair t := by
  obtain ⟨e, he⟩ := Option.ne_none_iff_exists'.mp hr
  have hge : e ≥ c.time := by
    simp only [live, Option.filter_eq_some_iff, decide_eq_true_eq] at he
    exact he.2
  have hprune := filter_prune ht store.claims (claimKey c.keyid c.nonce)
  simp only [live, Claim.pair] at he
  simp only [claimNonce, claim, live, Claim.pair]
  rw [get?_prune, he]
  simp only [hge, ↓reduceIte]
  exact hprune

/-! ## Presentations of one signature -/

/-- `c` presents the signature while the freshness check accepts it. -/
def presents (policy : VerificationPolicy) (signature : Signature) (c : Claim) : Bool :=
  decide (c.pair = (signature.keyid, signature.nonce)) && decide (c.expires = signature.expires) &&
    decide (checkFreshness policy signature c.time = .accepted)

def presentationTimes (policy : VerificationPolicy) (signature : Signature) (cs : List Claim) :
    List Int :=
  (cs.filter (presents policy signature)).map Claim.time

/-- The presentations that the store grants. -/
def grants (policy : VerificationPolicy) (signature : Signature) (store : InMemoryNonceStore)
    (cs : List Claim) : List (Claim × Bool) :=
  (results store cs).filter fun r => presents policy signature r.1 && r.2

def Nondecreasing (cs : List Claim) : Prop := (cs.map Claim.time).Pairwise (· ≤ ·)

instance (cs : List Claim) : Decidable (Nondecreasing cs) := by
  unfold Nondecreasing; infer_instance

theorem Nondecreasing.cons {c : Claim} {cs : List Claim} (h : Nondecreasing (c :: cs)) :
    (∀ d ∈ cs, c.time ≤ d.time) ∧ Nondecreasing cs := by
  obtain ⟨h₁, h₂⟩ := List.pairwise_cons.mp h
  exact ⟨fun d hd => h₁ d.time (List.mem_map_of_mem hd), h₂⟩

theorem presents_pair {policy : VerificationPolicy} {signature : Signature} {c : Claim}
    (h : presents policy signature c = true) :
    c.pair = (signature.keyid, signature.nonce) ∧ c.expires = signature.expires ∧
      checkFreshness policy signature c.time = .accepted := by
  simp only [presents, Bool.and_eq_true, decide_eq_true_eq] at h
  exact ⟨h.1.1, h.1.2, h.2⟩

/-- Two stores agree from `now` on about what blocks `pair`. -/
def Agree (pair : String × String) (now : Int) (s s' : InMemoryNonceStore) : Prop :=
  ∀ t, now ≤ t → live s pair t = live s' pair t

theorem Agree.claim {pair : String × String} {s s' : InMemoryNonceStore} {c : Claim}
    (h : Agree pair c.time s s') (hp : c.pair = pair) :
    (claimNonce s c).1 = (claimNonce s' c).1 ∧
      Agree pair c.time (claimNonce s c).2 (claimNonce s' c).2 := by
  subst hp
  have hl := h c.time le_rfl
  refine ⟨by rw [claimNonce_granted, claimNonce_granted, hl], fun t ht => ?_⟩
  by_cases hg : live s c.pair c.time = none
  · rw [live_claimNonce_granted s c t hg, live_claimNonce_granted s' c t (hl ▸ hg)]
  · rw [live_claimNonce_refused s c ht hg, live_claimNonce_refused s' c ht (hl ▸ hg), h t ht]

/-- **No pair blocks another**: the answers to the claims of one pair are those
of a store in which nobody else claims. -/
theorem results_of_pair (pair : String × String) (cs : List Claim) (now : Int)
    (s s' : InMemoryNonceStore) (hs : Nondecreasing cs) (hnow : ∀ c ∈ cs, now ≤ c.time)
    (h : Agree pair now s s') :
    (results s cs).filter (fun r => decide (r.1.pair = pair)) =
      results s' (cs.filter fun c => decide (c.pair = pair)) := by
  induction cs generalizing s s' now with
  | nil => rfl
  | cons c cs ih =>
    obtain ⟨hc, hcs⟩ := hs.cons
    have hagree : Agree pair c.time s s' := fun t ht => h t (le_trans (hnow c (by simp)) ht)
    by_cases hp : c.pair = pair
    · obtain ⟨hans, hnext⟩ := hagree.claim hp
      simp [results, hp, hans, ih c.time _ _ hcs hc hnext]
    · have hnext : Agree pair c.time (claimNonce s c).2 s' := fun t ht => by
        rw [live_claimNonce_other s c ht (Ne.symm hp), hagree t ht]
      simp [results, hp, ih c.time _ _ hcs hc hnext]

section Bound

variable (policy : VerificationPolicy) (signature : Signature)

/-- While an entry blocks until `expires`, no presentation up to then is granted. -/
theorem grants_blocked (cs : List Claim) (now : Int) (store : InMemoryNonceStore)
    (hs : Nondecreasing cs) (hnow : ∀ c ∈ cs, now ≤ c.time)
    (hexp : ∀ c ∈ cs, presents policy signature c = true → c.time ≤ signature.expires * 1000)
    (hlive : ∀ t, now ≤ t → t ≤ signature.expires * 1000 →
      live store (signature.keyid, signature.nonce) t ≠ none) :
    grants policy signature store cs = [] := by
  induction cs generalizing store now with
  | nil => rfl
  | cons c cs ih =>
    obtain ⟨hc, hcs⟩ := hs.cons
    have hle : now ≤ c.time := hnow c (by simp)
    have hkeep : ∀ t, c.time ≤ t → t ≤ signature.expires * 1000 →
        live (claimNonce store c).2 (signature.keyid, signature.nonce) t ≠ none := by
      intro t ht hte
      have hbefore := hlive t (le_trans hle ht) hte
      by_cases hp : (signature.keyid, signature.nonce) = c.pair
      · have hblocked : live store c.pair c.time ≠ none := by
          rw [← hp]
          exact hlive c.time hle (le_trans ht hte)
        rw [hp, live_claimNonce_refused store c ht hblocked, ← hp]
        exact hbefore
      · rw [live_claimNonce_other store c ht hp]
        exact hbefore
    have hrest := ih c.time _ hcs hc (fun d hd => hexp d (by simp [hd])) hkeep
    have hhead : (presents policy signature c && (claimNonce store c).1) = false := by
      cases hpr : presents policy signature c with
      | false => rfl
      | true =>
        obtain ⟨hpair, -, -⟩ := presents_pair hpr
        have hb := hlive c.time hle (hexp c (by simp) hpr)
        rw [claimNonce_granted, hpair]
        simpa using Option.isSome_iff_ne_none.mpr hb
    simpa [grants, results, hhead] using hrest

theorem grants_length_le (cs : List Claim) (store : InMemoryNonceStore) :
    (grants policy signature store cs).length ≤ (cs.filter (presents policy signature)).length := by
  induction cs generalizing store with
  | nil => simp [grants, results]
  | cons c cs ih =>
    have hrest := ih (claimNonce store c).2
    simp only [grants, results, List.filter_cons] at hrest ⊢
    cases presents policy signature c <;> cases (claimNonce store c).1 <;>
      simp only [Bool.false_and, Bool.and_false, Bool.and_self, Bool.false_eq_true, ↓reduceIte,
        List.length_cons] <;> omega

/-- Presentations that all come at or before `expires` are granted at most once,
whatever is stored and whatever else is claimed. -/
theorem grants_le_one (cs : List Claim) (store : InMemoryNonceStore) (hs : Nondecreasing cs)
    (hexp : ∀ c ∈ cs, presents policy signature c = true → c.time ≤ signature.expires * 1000) :
    (grants policy signature store cs).length ≤ 1 := by
  induction cs generalizing store with
  | nil => simp [grants, results]
  | cons c cs ih =>
    obtain ⟨hc, hcs⟩ := hs.cons
    have hrest := ih (claimNonce store c).2 hcs (fun d hd => hexp d (by simp [hd]))
    cases hpr : presents policy signature c && (claimNonce store c).1 with
    | false => simpa [grants, results, hpr] using hrest
    | true =>
      obtain ⟨hpres, hgrant⟩ := (Bool.and_eq_true _ _).mp hpr
      obtain ⟨hpair, hexpires, -⟩ := presents_pair hpres
      have hnone : live store c.pair c.time = none := by
        simpa [claimNonce_granted] using hgrant
      have hblocked : grants policy signature (claimNonce store c).2 cs = [] := by
        apply grants_blocked policy signature cs c.time _ hcs hc
          (fun d hd => hexp d (by simp [hd]))
        intro t _ hte
        rw [← hpair, live_claimNonce_granted store c t hnone, hexpires]
        simp [Option.filter, hte]
      have hlen : (grants policy signature store (c :: cs)).length =
          (grants policy signature (claimNonce store c).2 cs).length + 1 := by
        simp [grants, results, hpr]
      rw [hlen, hblocked]
      simp

end Bound

/-! ## Exactly when a signature is single use -/

/-- The claim that a presentation of `signature` at `t` makes. -/
def Signature.claimAt (signature : Signature) (t : Int) : Claim :=
  ⟨signature.keyid, signature.nonce, signature.expires, t⟩

theorem presents_claimAt {policy : VerificationPolicy} {signature : Signature} {t : Int}
    (h : checkFreshness policy signature t = .accepted) :
    presents policy signature (signature.claimAt t) = true := by
  simp [presents, Signature.claimAt, Claim.pair, h]

/-- An expiry blocks nothing at a later time. -/
theorem filter_lapsed {e t : Int} (h : e < t) :
    (some e).filter (fun e => decide (t ≤ e)) = none := by
  have hn : ¬ t ≤ e := not_le.mpr h
  simp [Option.filter, hn]

section Replays

variable {policy : VerificationPolicy} {signature : Signature}

/-- A presentation after `expires` is granted again, however often the
signature was presented before it. -/
theorem grants_late (ts : List Int) (late : Int) (store : InMemoryNonceStore)
    (hle : ∀ t ∈ ts, t ≤ late) (hlate : signature.expires * 1000 < late)
    (hfresh : checkFreshness policy signature late = .accepted)
    (hlapsed : live store (signature.keyid, signature.nonce) late = none) :
    (signature.claimAt late, true) ∈
      grants policy signature store ((ts ++ [late]).map signature.claimAt) := by
  induction ts generalizing store with
  | nil =>
    have hg : (claimNonce store (signature.claimAt late)).1 = true := by
      rw [claimNonce_granted]
      simpa [Signature.claimAt, Claim.pair] using hlapsed
    simp [grants, results, hg, presents_claimAt hfresh]
  | cons t ts ih =>
    have hnext : live (claimNonce store (signature.claimAt t)).2
        (signature.keyid, signature.nonce) late = none := by
      have htl : t ≤ late := hle t (by simp)
      by_cases hg : live store (signature.claimAt t).pair t = none
      · have := live_claimNonce_granted store (signature.claimAt t) late hg
        rw [show (signature.keyid, signature.nonce) = (signature.claimAt t).pair from rfl, this]
        exact filter_lapsed hlate
      · have := live_claimNonce_refused store (signature.claimAt t) (t := late) htl hg
        rw [show (signature.keyid, signature.nonce) = (signature.claimAt t).pair from rfl, this]
        exact hlapsed
    have := ih _ (fun u hu => hle u (by simp [hu])) hnext
    simp only [List.cons_append, List.map_cons, grants, results, List.filter_cons]
    split
    · exact List.mem_cons_of_mem _ this
    · exact this

theorem presentationTimes_claimAt (ts : List Int)
    (hfresh : ∀ t ∈ ts, checkFreshness policy signature t = .accepted) :
    presentationTimes policy signature (ts.map signature.claimAt) = ts := by
  induction ts with
  | nil => rfl
  | cons t ts ih =>
    have hp := presents_claimAt (hfresh t (by simp))
    have := ih fun u hu => hfresh u (by simp [hu])
    simp only [presentationTimes] at this ⊢
    rw [List.map_cons, List.filter_cons_of_pos hp, List.map_cons, this]
    rfl

theorem nondecreasing_claimAt {ts : List Int} (h : ts.Pairwise (· ≤ ·)) :
    Nondecreasing (ts.map signature.claimAt) := by
  simpa [Nondecreasing, List.map_map, Function.comp_def, Signature.claimAt] using h

/-- Two presentations of which the last comes after `expires` are both granted. -/
theorem two_grants (first : Int) (ts : List Int) (late : Int)
    (hsorted : (first :: ts ++ [late]).Pairwise (· ≤ ·))
    (hfresh : ∀ t ∈ first :: ts ++ [late], checkFreshness policy signature t = .accepted)
    (hlate : signature.expires * 1000 < late) :
    2 ≤ (grants policy signature .new ((first :: ts ++ [late]).map signature.claimAt)).length := by
  have hfirst : (claimNonce .new (signature.claimAt first)).1 = true := by
    rw [claimNonce_granted, live_new]
    rfl
  have hlapsed : live (claimNonce .new (signature.claimAt first)).2
      (signature.keyid, signature.nonce) late = none := by
    have := live_claimNonce_granted .new (signature.claimAt first) late (live_new _ _)
    rw [show (signature.keyid, signature.nonce) = (signature.claimAt first).pair from rfl, this]
    exact filter_lapsed hlate
  have hle : ∀ t ∈ ts, t ≤ late := by
    intro t ht
    have := (List.pairwise_append.mp (List.pairwise_cons.mp hsorted).2).2.2
    exact this t ht late (by simp)
  have hmem := grants_late ts late _ hle hlate (hfresh late (by simp)) hlapsed
  have hpos := List.length_pos_of_mem hmem
  have hcons : grants policy signature .new ((first :: ts ++ [late]).map signature.claimAt) =
      (signature.claimAt first, true) :: grants policy signature
        (claimNonce .new (signature.claimAt first)).2 ((ts ++ [late]).map signature.claimAt) := by
    simp [grants, results, hfirst, presents_claimAt (hfresh first (by simp))]
  rw [hcons, List.length_cons]
  omega

end Replays

/-- The law of single use for a signature presented at the times `ts`: whatever
else is claimed in between, at most one presentation is granted, and the claims
of every pair are answered as if nobody else claimed. -/
def SingleUse (policy : VerificationPolicy) (signature : Signature) (ts : List Int) : Prop :=
  (∀ cs, Nondecreasing cs → presentationTimes policy signature cs = ts →
    (grants policy signature .new cs).length ≤ 1) ∧
  ∀ cs pair, Nondecreasing cs →
    (results .new cs).filter (fun r => decide (r.1.pair = pair)) =
      results .new (cs.filter fun c => decide (c.pair = pair))

/-- **Single use, exactly.** The law holds of the times at which a signature is
presented if and only if it is presented once, or never after `expires`: in the
last partial second the check still accepts it and its entry is gone. -/
theorem singleUse_iff (policy : VerificationPolicy) (signature : Signature) (ts : List Int)
    (hsorted : ts.Pairwise (· ≤ ·))
    (hfresh : ∀ t ∈ ts, checkFreshness policy signature t = .accepted) :
    SingleUse policy signature ts ↔
      ts.length ≤ 1 ∨ ∀ t ∈ ts, t ≤ signature.expires * 1000 := by
  constructor
  · rintro ⟨hlaw, -⟩
    by_contra hcon
    obtain ⟨hlen, t, ht, hlate⟩ : ¬ ts.length ≤ 1 ∧ ∃ t ∈ ts, signature.expires * 1000 < t := by
      simpa using hcon
    match ts, hsorted, hfresh, hlaw with
    | [], _, _, _ => simp at hlen
    | first :: rest, hsorted, hfresh, hlaw =>
      rcases List.eq_nil_or_concat rest with rfl | ⟨mid, last, rfl⟩
      · simp at hlen
      · rw [List.concat_eq_append] at *
        have hlast : signature.expires * 1000 < last := by
          have hall := List.pairwise_append.mp
            (show ((first :: mid) ++ [last]).Pairwise (· ≤ ·) from hsorted)
          rcases List.mem_append.mp (show t ∈ (first :: mid) ++ [last] by simpa using ht) with h | h
          · exact lt_of_lt_of_le hlate (hall.2.2 t h last (by simp))
          · simpa [List.mem_singleton.mp h] using hlate
        have htwo := two_grants first mid last hsorted hfresh hlast
        have hone := hlaw ((first :: mid ++ [last]).map signature.claimAt)
          (nondecreasing_claimAt hsorted) (presentationTimes_claimAt _ hfresh)
        omega
  · intro hcond
    refine ⟨fun cs hs hts => ?_, fun cs pair hs => ?_⟩
    · rcases hcond with hlen | hexp
      · have hsub : ((grants policy signature .new cs).map Prod.fst).length ≤
            (cs.filter (presents policy signature)).length := by
          simpa using grants_length_le policy signature cs .new
        have hcount : (cs.filter (presents policy signature)).length = ts.length := by
          rw [← hts]; simp [presentationTimes]
        simp only [List.length_map] at hsub
        omega
      · apply grants_le_one policy signature cs .new hs
        intro c hc hp
        apply hexp
        rw [← hts]
        exact List.mem_map_of_mem (List.mem_filter.mpr ⟨hc, hp⟩)
    · cases cs with
      | nil => rfl
      | cons c cs =>
        exact results_of_pair pair (c :: cs) c.time .new .new hs
          (fun d hd => (List.mem_cons.mp hd).elim (fun e => e ▸ le_rfl) (hs.cons.1 d))
          fun _ _ => rfl

/-- A signature that expires at second 10, presented at millisecond 10000 and
again one millisecond later. -/
def replayed : Signature := ⟨"did:jwk:alice", "n-1", 0, 10⟩

theorem singleUse_iff_early :
    SingleUse {} replayed [9000, 10000] ↔
      [(9000 : Int), 10000].length ≤ 1 ∨ ∀ t ∈ [(9000 : Int), 10000], t ≤ replayed.expires * 1000 :=
  singleUse_iff {} replayed [9000, 10000] (by decide) (by decide)

/-- The store grants both presentations, one on each side of the expiry. -/
theorem replayed_granted_twice :
    Nondecreasing [replayed.claimAt 10000, replayed.claimAt 10001] ∧
      presentationTimes {} replayed [replayed.claimAt 10000, replayed.claimAt 10001] =
        [10000, 10001] ∧
      (grants {} replayed .new [replayed.claimAt 10000, replayed.claimAt 10001]).length = 2 := by
  decide

end Mpas.NonceStore
