import Mathlib.Data.Fin.Basic
import Mathlib.Data.List.Basic
import Mathlib.Tactic.IntervalCases

/-!
# Base64 without padding

Bytes as digits of six bits, three bytes in four digits and what is left in two or
three, and the texts of the digits in an alphabet.

* `octets_sextets`: the bytes come back from their digits;
* `Alphabet.decode_eq_some_iff`: of each sequence of bytes exactly one text is
  decoded, so that what is decoded has one spelling;
* `urlSafe`: the alphabet that is safe in URLs.
-/

namespace Mpas.Base64

/-! ## Digits -/

def sextet (n : Nat) : Fin 64 := ⟨n % 64, Nat.mod_lt n (by decide)⟩

def octet (n : Nat) : UInt8 := UInt8.ofNat n

/-- The digits of bytes; the bits behind the last byte are zero. -/
def sextets : List UInt8 → List (Fin 64)
  | a :: b :: c :: rest =>
    let n := a.toNat * 65536 + b.toNat * 256 + c.toNat
    sextet (n / 262144) :: sextet (n / 4096) :: sextet (n / 64) :: sextet n :: sextets rest
  | [a, b] =>
    let n := a.toNat * 1024 + b.toNat * 4
    [sextet (n / 4096), sextet (n / 64), sextet n]
  | [a] => [sextet (a.toNat * 16 / 64), sextet (a.toNat * 16)]
  | [] => []

/-- The bytes that digits have in them, whatever the bits behind them are. -/
def octets : List (Fin 64) → List UInt8
  | p :: q :: r :: s :: rest =>
    let n := p.val * 262144 + q.val * 4096 + r.val * 64 + s.val
    octet (n / 65536) :: octet (n / 256) :: octet n :: octets rest
  | [p, q, r] =>
    let n := p.val * 4096 + q.val * 64 + r.val
    [octet (n / 1024), octet (n / 4)]
  | [p, q] => [octet ((p.val * 64 + q.val) / 16)]
  | _ => []

theorem octet_eq {n : Nat} {a : UInt8} (h : n % 256 = a.toNat) : octet n = a := by
  apply UInt8.toNat_inj.mp
  rw [octet, UInt8.toNat_ofNat', h]

/-- **Round trip of the bytes.** -/
theorem octets_sextets (bytes : List UInt8) : octets (sextets bytes) = bytes := by
  induction bytes using sextets.induct with
  | case1 a b c rest ih =>
    have ha := a.toNat_lt
    have hb := b.toNat_lt
    have hc := c.toNat_lt
    rw [sextets, octets, ih]
    simp only [sextet]
    rw [octet_eq (a := a) (by omega), octet_eq (a := b) (by omega), octet_eq (a := c) (by omega)]
  | case2 a b =>
    have ha := a.toNat_lt
    have hb := b.toNat_lt
    rw [sextets, octets]
    simp only [sextet]
    rw [octet_eq (a := a) (by omega), octet_eq (a := b) (by omega)]
  | case3 a =>
    have ha := a.toNat_lt
    rw [sextets, octets]
    simp only [sextet]
    rw [octet_eq (a := a) (by omega)]
  | case4 => rfl

theorem sextets_injective : Function.Injective sextets :=
  Function.LeftInverse.injective octets_sextets

/-- Bytes have digits, and digits that are those of bytes are not just one. -/
theorem sextets_eq_nil_iff (bytes : List UInt8) : sextets bytes = [] ↔ bytes = [] := by
  constructor
  · intro h
    rw [← octets_sextets bytes, h]
    rfl
  · rintro rfl
    rfl

/-! ## Alphabets -/

/-- Sixty-four letters, with what each of them is worth. -/
structure Alphabet (σ : Type) where
  letter : Fin 64 → σ
  value : σ → Option (Fin 64)
  value_letter : ∀ n, value (letter n) = some n
  letter_value : ∀ c n, value c = some n → letter n = c

namespace Alphabet

variable {σ : Type} (alphabet : Alphabet σ)

def encode (bytes : List UInt8) : List σ := (sextets bytes).map alphabet.letter

/-- The digits of a text that has only letters. -/
def digits (text : List σ) : Option (List (Fin 64)) := text.mapM alphabet.value

/-- The bytes of a text that is the one that they are encoded as. -/
def decode [DecidableEq σ] (text : List σ) : Option (List UInt8) :=
  (alphabet.digits text).bind fun ns =>
    if alphabet.encode (octets ns) = text then some (octets ns) else none

variable {alphabet}

theorem letter_injective : Function.Injective alphabet.letter := by
  intro m n h
  have hvalue := alphabet.value_letter m
  rw [h, alphabet.value_letter n] at hvalue
  exact (Option.some.inj hvalue).symm

theorem encode_injective : Function.Injective alphabet.encode := fun _ _ h =>
  sextets_injective (List.map_injective_iff.mpr letter_injective h)

theorem digits_letters (ns : List (Fin 64)) :
    alphabet.digits (ns.map alphabet.letter) = some ns := by
  induction ns with
  | nil => rfl
  | cons n ns ih =>
    unfold digits at ih ⊢
    rw [List.map_cons, List.mapM_cons, ih, alphabet.value_letter]
    rfl

/-- **One spelling.** The text that is decoded is the one that was encoded. -/
theorem decode_eq_some_iff [DecidableEq σ] {text : List σ} {bytes : List UInt8} :
    alphabet.decode text = some bytes ↔ text = alphabet.encode bytes := by
  constructor
  · intro h
    obtain ⟨ns, -, h⟩ := Option.bind_eq_some_iff.mp h
    split at h
    · rename_i htext
      cases h
      exact htext.symm
    · cases h
  · rintro rfl
    have hdigits : alphabet.digits (alphabet.encode bytes) = some (sextets bytes) :=
      digits_letters _
    rw [decode, hdigits, Option.bind_some, octets_sextets, if_pos rfl]

theorem decode_encode [DecidableEq σ] (bytes : List UInt8) :
    alphabet.decode (alphabet.encode bytes) = some bytes :=
  decode_eq_some_iff.mpr rfl

theorem encode_eq_nil_iff (bytes : List UInt8) : alphabet.encode bytes = [] ↔ bytes = [] := by
  rw [encode, List.map_eq_nil_iff, sextets_eq_nil_iff]

/-- The letters of a text that was encoded. -/
theorem value_of_mem_encode {bytes : List UInt8} {c : σ} (h : c ∈ alphabet.encode bytes) :
    (alphabet.value c).isSome = true := by
  obtain ⟨n, -, rfl⟩ := List.mem_map.mp h
  rw [alphabet.value_letter]
  rfl

end Alphabet

/-! ## `A-Z a-z 0-9 - _` -/

def urlLetter (n : Fin 64) : UInt16 :=
  if n.val < 26 then UInt16.ofNat (65 + n.val)
  else if n.val < 52 then UInt16.ofNat (71 + n.val)
  else if n.val < 62 then UInt16.ofNat (n.val - 4)
  else if n.val = 62 then 45
  else 95

def urlValue (c : UInt16) : Option (Fin 64) :=
  let n := c.toNat
  if 65 ≤ n ∧ n ≤ 90 then some (sextet (n - 65))
  else if 97 ≤ n ∧ n ≤ 122 then some (sextet (n - 71))
  else if 48 ≤ n ∧ n ≤ 57 then some (sextet (n + 4))
  else if n = 45 then some 62
  else if n = 95 then some 63
  else none

theorem sextet_val {n : Nat} (h : n < 64) : (sextet n).val = n := Nat.mod_eq_of_lt h

theorem urlLetter_urlValue (c : UInt16) (n : Fin 64) (h : urlValue c = some n) :
    urlLetter n = c := by
  have hc := c.toNat_lt
  apply UInt16.toNat_inj.mp
  simp only [urlValue] at h
  split at h
  · cases h
    rw [urlLetter, sextet_val (by omega), if_pos (by omega), UInt16.toNat_ofNat',
      Nat.mod_eq_of_lt (by omega)]
    omega
  · split at h
    · cases h
      rw [urlLetter, sextet_val (by omega), if_neg (by omega), if_pos (by omega),
        UInt16.toNat_ofNat', Nat.mod_eq_of_lt (by omega)]
      omega
    · split at h
      · cases h
        rw [urlLetter, sextet_val (by omega), if_neg (by omega), if_neg (by omega),
          if_pos (by omega), UInt16.toNat_ofNat', Nat.mod_eq_of_lt (by omega)]
        omega
      · split at h
        · cases h
          exact (by assumption : c.toNat = 45).symm
        · split at h
          · cases h
            exact (by assumption : c.toNat = 95).symm
          · cases h

def urlSafe : Alphabet UInt16 where
  letter := urlLetter
  value := urlValue
  value_letter := by decide
  letter_value := urlLetter_urlValue

end Mpas.Base64
