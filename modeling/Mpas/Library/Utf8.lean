import Mpas.Library.JsonWriting

/-!
# UTF-8 and UTF-16

Texts are sequences of UTF-16 code units. As bytes they are written in UTF-8, half a
pair of surrogates as the replacement character; bytes are read with a replacement
character for each longest beginning of a sequence that does not go on.

* `WellFormed`: no surrogate stands alone;
* `decode_encode`: a well-formed text comes back from its bytes;
* `writeString_wellFormed`: what JSON writes for a string is well formed, whatever the string.
-/

namespace Mpas.Utf8

open JsonText

def replacement : Nat := 0xFFFD

def isSurrogate (c : UInt16) : Bool := isHighSurrogate c || isLowSurrogate c

/-- The code units of a code point. -/
def unitsOf (point : Nat) : Text :=
  if point < 0x10000 then [UInt16.ofNat point]
  else [UInt16.ofNat (0xD800 + (point - 0x10000) / 0x400),
    UInt16.ofNat (0xDC00 + (point - 0x10000) % 0x400)]

/-- The bytes of a code point. -/
def bytesOf (point : Nat) : List UInt8 :=
  if point < 0x80 then [UInt8.ofNat point]
  else if point < 0x800 then
    [UInt8.ofNat (0xC0 + point / 0x40), UInt8.ofNat (0x80 + point % 0x40)]
  else if point < 0x10000 then
    [UInt8.ofNat (0xE0 + point / 0x1000), UInt8.ofNat (0x80 + point / 0x40 % 0x40),
      UInt8.ofNat (0x80 + point % 0x40)]
  else
    [UInt8.ofNat (0xF0 + point / 0x40000), UInt8.ofNat (0x80 + point / 0x1000 % 0x40),
      UInt8.ofNat (0x80 + point / 0x40 % 0x40), UInt8.ofNat (0x80 + point % 0x40)]

def pairPoint (high low : UInt16) : Nat :=
  0x10000 + (high.toNat - 0xD800) * 0x400 + (low.toNat - 0xDC00)

/-- A code unit that is not in a pair. -/
def unitPoint (c : UInt16) : Nat := if isSurrogate c then replacement else c.toNat

/-- `Buffer.from(text, "utf8")` -/
def encode : Text → List UInt8
  | [] => []
  | [c] => bytesOf (unitPoint c)
  | c :: d :: rest =>
    if isHighSurrogate c && isLowSurrogate d then bytesOf (pairPoint c d) ++ encode rest
    else bytesOf (unitPoint c) ++ encode (d :: rest)

/-- A sequence that has begun: the bits so far, how many bytes are to come, and
between which bounds the next one lies. -/
structure Pending where
  point : Nat
  needed : Nat
  lower : Nat := 0x80
  upper : Nat := 0xBF

/-- The first byte of a sequence. -/
def lead (b : Nat) : Text × Option Pending :=
  if b < 0x80 then ([UInt16.ofNat b], none)
  else if 0xC2 ≤ b ∧ b ≤ 0xDF then ([], some { point := b - 0xC0, needed := 1 })
  else if 0xE0 ≤ b ∧ b ≤ 0xEF then
    ([], some { point := b - 0xE0, needed := 2
                lower := if b = 0xE0 then 0xA0 else 0x80
                upper := if b = 0xED then 0x9F else 0xBF })
  else if 0xF0 ≤ b ∧ b ≤ 0xF4 then
    ([], some { point := b - 0xF0, needed := 3
                lower := if b = 0xF0 then 0x90 else 0x80
                upper := if b = 0xF4 then 0x8F else 0xBF })
  else ([UInt16.ofNat replacement], none)

/-- A byte that goes on with a sequence, or with which another one begins. -/
def trail (pending : Pending) (b : Nat) : Text × Option Pending :=
  if pending.lower ≤ b ∧ b ≤ pending.upper then
    let point := pending.point * 0x40 + (b - 0x80)
    if pending.needed = 1 then (unitsOf point, none)
    else ([], some { point, needed := pending.needed - 1 })
  else (UInt16.ofNat replacement :: (lead b).1, (lead b).2)

def decodeFrom : Option Pending → List UInt8 → Text
  | none, [] => []
  | some _, [] => [UInt16.ofNat replacement]
  | none, b :: rest => (lead b.toNat).1 ++ decodeFrom (lead b.toNat).2 rest
  | some pending, b :: rest =>
    (trail pending b.toNat).1 ++ decodeFrom (trail pending b.toNat).2 rest

/-- `buffer.toString("utf8")` -/
def decode (bytes : List UInt8) : Text := decodeFrom none bytes

/-! ## Round trip -/

theorem toNat_byte {n : Nat} (h : n < 256) : (UInt8.ofNat n).toNat = n := by
  rw [UInt8.toNat_ofNat', Nat.mod_eq_of_lt (by omega)]

/-- A code point that is none of a surrogate. -/
def Scalar (point : Nat) : Prop := point < 0xD800 ∨ 0xE000 ≤ point ∧ point ≤ 0x10FFFF

theorem decodeFrom_one {point : Nat} (h : point < 0x80) (rest : List UInt8) :
    decodeFrom none (bytesOf point ++ rest) = unitsOf point ++ decodeFrom none rest := by
  rw [bytesOf, if_pos h, unitsOf, if_pos (by omega), List.singleton_append, decodeFrom,
    toNat_byte (by omega), lead, if_pos h]

/-- The last byte of a sequence. -/
theorem decodeFrom_last {point lower upper b : Nat} (h : lower ≤ b ∧ b ≤ upper) (hb : b < 256)
    (rest : List UInt8) :
    decodeFrom (some ⟨point, 1, lower, upper⟩) (UInt8.ofNat b :: rest) =
      unitsOf (point * 0x40 + (b - 0x80)) ++ decodeFrom none rest := by
  rw [decodeFrom, toNat_byte hb, trail, if_pos h]
  dsimp only
  rw [if_pos rfl]

/-- A byte of a sequence behind which others come. -/
theorem decodeFrom_next {point needed lower upper b : Nat} (h : lower ≤ b ∧ b ≤ upper)
    (hb : b < 256) (rest : List UInt8) :
    decodeFrom (some ⟨point, needed + 2, lower, upper⟩) (UInt8.ofNat b :: rest) =
      decodeFrom (some ⟨point * 0x40 + (b - 0x80), needed + 1, 0x80, 0xBF⟩) rest := by
  rw [decodeFrom, toNat_byte hb, trail, if_pos h]
  dsimp only
  rw [if_neg (by omega)]
  rfl

theorem decodeFrom_two {point : Nat} (h : 0x80 ≤ point) (h' : point < 0x800)
    (rest : List UInt8) :
    decodeFrom none (bytesOf point ++ rest) = unitsOf point ++ decodeFrom none rest := by
  rw [bytesOf, if_neg (by omega), if_pos h', List.cons_append, List.singleton_append,
    decodeFrom, toNat_byte (by omega), lead, if_neg (by omega), if_pos (by omega),
    decodeFrom_last (by omega) (by omega), List.nil_append]
  exact congrArg (fun p => unitsOf p ++ decodeFrom none rest) (by omega)

theorem decodeFrom_three {point : Nat} (h : 0x800 ≤ point) (h' : point < 0x10000)
    (hscalar : Scalar point) (rest : List UInt8) :
    decodeFrom none (bytesOf point ++ rest) = unitsOf point ++ decodeFrom none rest := by
  have hlower : (if 0xE0 + point / 0x1000 = 0xE0 then 0xA0 else 0x80) ≤
      0x80 + point / 0x40 % 0x40 := by
    split <;> omega
  have hupper : 0x80 + point / 0x40 % 0x40 ≤
      (if 0xE0 + point / 0x1000 = 0xED then 0x9F else 0xBF) := by
    rcases hscalar with hs | hs <;> split <;> omega
  rw [bytesOf, if_neg (by omega), if_neg (by omega), if_pos h', List.cons_append,
    List.cons_append, List.singleton_append, decodeFrom, toNat_byte (by omega), lead,
    if_neg (by omega), if_neg (by omega), if_pos (by omega),
    decodeFrom_next ⟨hlower, hupper⟩ (by omega), decodeFrom_last (by omega) (by omega),
    List.nil_append]
  exact congrArg (fun p => unitsOf p ++ decodeFrom none rest) (by omega)

theorem decodeFrom_four {point : Nat} (h : 0x10000 ≤ point) (h' : point ≤ 0x10FFFF)
    (rest : List UInt8) :
    decodeFrom none (bytesOf point ++ rest) = unitsOf point ++ decodeFrom none rest := by
  have hlower : (if 0xF0 + point / 0x40000 = 0xF0 then 0x90 else 0x80) ≤
      0x80 + point / 0x1000 % 0x40 := by
    split <;> omega
  have hupper : 0x80 + point / 0x1000 % 0x40 ≤
      (if 0xF0 + point / 0x40000 = 0xF4 then 0x8F else 0xBF) := by
    split <;> omega
  rw [bytesOf, if_neg (by omega), if_neg (by omega), if_neg (by omega), List.cons_append,
    List.cons_append, List.cons_append, List.singleton_append, decodeFrom,
    toNat_byte (by omega), lead, if_neg (by omega), if_neg (by omega), if_neg (by omega),
    if_pos (by omega), decodeFrom_next ⟨hlower, hupper⟩ (by omega),
    decodeFrom_next (by omega) (by omega), decodeFrom_last (by omega) (by omega),
    List.nil_append]
  exact congrArg (fun p => unitsOf p ++ decodeFrom none rest) (by omega)

theorem decodeFrom_bytesOf {point : Nat} (h : Scalar point) (rest : List UInt8) :
    decodeFrom none (bytesOf point ++ rest) = unitsOf point ++ decodeFrom none rest := by
  have hle : point ≤ 0x10FFFF := by rcases h with h | h <;> omega
  by_cases h1 : point < 0x80
  · exact decodeFrom_one h1 rest
  by_cases h2 : point < 0x800
  · exact decodeFrom_two (by omega) h2 rest
  by_cases h3 : point < 0x10000
  · exact decodeFrom_three (by omega) h3 h rest
  · exact decodeFrom_four (by omega) hle rest

/-- Each surrogate is in a pair. -/
inductive WellFormed : Text → Prop
  | nil : WellFormed []
  | unit {c : UInt16} {rest : Text} : isSurrogate c = false → WellFormed rest →
      WellFormed (c :: rest)
  | pair {c d : UInt16} {rest : Text} : isHighSurrogate c = true → isLowSurrogate d = true →
      WellFormed rest → WellFormed (c :: d :: rest)

theorem highSurrogate_iff (c : UInt16) :
    isHighSurrogate c = true ↔ 0xD800 ≤ c.toNat ∧ c.toNat ≤ 0xDBFF := by
  simp [isHighSurrogate, UInt16.le_iff_toNat_le]

theorem lowSurrogate_iff (c : UInt16) :
    isLowSurrogate c = true ↔ 0xDC00 ≤ c.toNat ∧ c.toNat ≤ 0xDFFF := by
  simp [isLowSurrogate, UInt16.le_iff_toNat_le]

theorem not_surrogate_iff (c : UInt16) :
    isSurrogate c = false ↔ c.toNat < 0xD800 ∨ 0xE000 ≤ c.toNat := by
  rw [← Bool.not_eq_true, isSurrogate, Bool.or_eq_true, highSurrogate_iff, lowSurrogate_iff]
  omega

theorem encode_unit {c : UInt16} (h : isSurrogate c = false) (rest : Text) :
    encode (c :: rest) = bytesOf c.toNat ++ encode rest := by
  have hpoint : unitPoint c = c.toNat := by rw [unitPoint, h, if_neg Bool.false_ne_true]
  cases rest with
  | nil => simp only [encode, hpoint, List.append_nil]
  | cons d rest =>
    have hhigh : isHighSurrogate c = false := (Bool.or_eq_false_iff.mp h).1
    rw [encode, hhigh, Bool.false_and, if_neg Bool.false_ne_true, hpoint]

theorem unitsOf_unit (c : UInt16) : unitsOf c.toNat = [c] := by
  rw [unitsOf, if_pos c.toNat_lt, UInt16.ofNat_toNat]

theorem unitsOf_pair {c d : UInt16} (hc : isHighSurrogate c = true)
    (hd : isLowSurrogate d = true) : unitsOf (pairPoint c d) = [c, d] := by
  have hc := (highSurrogate_iff c).mp hc
  have hd := (lowSurrogate_iff d).mp hd
  have hhigh : 0xD800 + (pairPoint c d - 0x10000) / 0x400 = c.toNat := by
    unfold pairPoint
    omega
  have hlow : 0xDC00 + (pairPoint c d - 0x10000) % 0x400 = d.toNat := by
    unfold pairPoint
    omega
  rw [unitsOf, if_neg (by unfold pairPoint; omega), hhigh, hlow, UInt16.ofNat_toNat,
    UInt16.ofNat_toNat]

/-- **Round trip.** A well-formed text is read back from its bytes. -/
theorem decode_encode {text : Text} (h : WellFormed text) : decode (encode text) = text := by
  induction h with
  | nil => rfl
  | @unit c rest hc _ ih =>
    have hscalar : Scalar c.toNat := by
      have hlt := c.toNat_lt
      have hc := (not_surrogate_iff c).mp hc
      unfold Scalar
      omega
    rw [encode_unit hc, decode, decodeFrom_bytesOf hscalar, unitsOf_unit, ← decode, ih,
      List.singleton_append]
  | @pair c d rest hc hd _ ih =>
    have hscalar : Scalar (pairPoint c d) := by
      have hc := (highSurrogate_iff c).mp hc
      have hd := (lowSurrogate_iff d).mp hd
      unfold Scalar pairPoint
      omega
    rw [encode, hc, hd, Bool.and_self, if_pos rfl, decode, decodeFrom_bytesOf hscalar,
      unitsOf_pair hc hd, ← decode, ih]
    rfl

theorem encode_injective {text other : Text} (h : WellFormed text) (h' : WellFormed other)
    (heq : encode text = encode other) : text = other := by
  rw [← decode_encode h, heq, decode_encode h']

/-! ## What JSON writes -/

theorem WellFormed.append {text other : Text} (h : WellFormed text) (h' : WellFormed other) :
    WellFormed (text ++ other) := by
  induction h with
  | nil => exact h'
  | unit hc _ ih => exact .unit hc ih
  | pair hc hd _ ih => exact .pair hc hd ih

theorem wellFormed_of_all {text : Text} (h : text.all (fun c => !isSurrogate c) = true) :
    WellFormed text := by
  induction text with
  | nil => exact .nil
  | cons c rest ih =>
    rw [List.all_cons, Bool.and_eq_true, Bool.not_eq_true'] at h
    exact .unit h.1 (ih h.2)

theorem hexCode_not_surrogate {n : UInt16} (h : n < 16) : isSurrogate (hexCode n) = false := by
  obtain ⟨k, rfl⟩ := exists_fin_of_lt h
  revert k
  decide

theorem unicodeEscape_wellFormed (c : UInt16) : WellFormed (unicodeEscape c) := by
  have hmod : ∀ n : UInt16, n % 16 < 16 := fun n => UInt16.mod_lt n (by decide)
  exact .unit (by decide) (.unit (by decide) (.unit (hexCode_not_surrogate (hmod _))
    (.unit (hexCode_not_surrogate (hmod _)) (.unit (hexCode_not_surrogate (hmod _))
      (.unit (hexCode_not_surrogate (hmod _)) .nil)))))

theorem writeUnit_wellFormed (c : UInt16) : WellFormed (writeUnit c) := by
  unfold writeUnit
  split
  · rename_i hc
    rcases hc with rfl | rfl <;> exact wellFormed_of_all (by decide)
  iterate 5
    split
    · exact wellFormed_of_all (by decide)
  split
  · exact unicodeEscape_wellFormed c
  · rename_i hc
    refine .unit ?_ .nil
    rw [isSurrogate]
    grind

theorem writeUnits_wellFormed (s : Text) : WellFormed (writeUnits s) := by
  induction s using writeUnits.induct with
  | case1 => exact .nil
  | case2 c => exact writeUnit_wellFormed c
  | case3 c d rest h ih =>
    rw [writeUnits, if_pos h]
    obtain ⟨hc, hd⟩ := Bool.and_eq_true_iff.mp h
    exact .pair hc hd ih
  | case4 c d rest h ih =>
    rw [writeUnits, if_neg h]
    exact (writeUnit_wellFormed c).append ih

theorem writeString_wellFormed (s : Text) : WellFormed (writeString s) :=
  .unit (by decide) ((writeUnits_wellFormed s).append (wellFormed_of_all (by decide)))

end Mpas.Utf8
