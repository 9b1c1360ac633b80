import Mpas.Builders
import Mpas.PackageVerification

/-!
# Timestamps and the numbers of their milliseconds

* `toISOString_fits`: what `toISOString` writes, from 1970 to 9999, has the shape of
  a timestamp with millisecond precision;
* `add_int`, `sub_int`: sums of whole milliseconds are exact.
-/

namespace Mpas.Timestamps

open Routing (fitsTemplate)
open Builders (padded civilDate toISOString)

/-! ## Templates -/

theorem fitsTemplate_append {template text : List Char} {template' text' : List Char}
    (h : fitsTemplate template text = true) (h' : fitsTemplate template' text' = true) :
    fitsTemplate (template ++ template') (text ++ text') = true := by
  induction template generalizing text with
  | nil =>
    cases text with
    | nil => exact h'
    | cons c text => cases h
  | cons t template ih =>
    cases text with
    | nil => cases h
    | cons c text =>
      simp only [fitsTemplate, Bool.and_eq_true] at h
      simp only [List.cons_append, fitsTemplate, Bool.and_eq_true]
      exact ⟨h.1, ih h.2⟩

theorem fitsTemplate_digits {digits : List Char} (h : ∀ c ∈ digits, c.isDigit = true) :
    fitsTemplate (List.replicate digits.length '0') digits = true := by
  induction digits with
  | nil => rfl
  | cons c digits ih =>
    rw [List.forall_mem_cons] at h
    simp only [List.length_cons, List.replicate_succ, fitsTemplate, ↓reduceIte, Bool.and_eq_true]
    exact ⟨h.1, ih h.2⟩

/-! ## Padded numbers -/

theorem toString_digits (n : Nat) : ∀ c ∈ (toString n).toList, c.isDigit = true := by
  intro c hc
  have hdigits : (toString n).toList = Nat.toDigits 10 n := by simp
  rw [hdigits] at hc
  exact Nat.isDigit_of_mem_toDigits (by omega) (by omega) hc

theorem toString_length {n width : Nat} (hpos : 0 < width) (h : n < 10 ^ width) :
    (toString n).toList.length ≤ width := by
  have hdigits : (toString n).toList = Nat.toDigits 10 n := by simp
  rw [hdigits]
  exact (Nat.length_toDigits_le_iff (by omega) hpos).mpr h

theorem padded_fits {width n : Nat} (hpos : 0 < width) (h : n < 10 ^ width) :
    fitsTemplate (List.replicate width '0') (padded width n).toList = true := by
  have hlength := toString_length hpos h
  have hchars : (padded width n).toList =
      List.replicate (width - (toString n).length) '0' ++ (toString n).toList := by
    simp [padded]
  rw [hchars]
  have hall : ∀ c ∈ List.replicate (width - (toString n).length) '0' ++ (toString n).toList,
      c.isDigit = true := by
    intro c hc
    rcases List.mem_append.mp hc with hc | hc
    · rw [List.eq_of_mem_replicate hc]
      rfl
    · exact toString_digits n c hc
  have hwidth : (List.replicate (width - (toString n).length) '0' ++
      (toString n).toList).length = width := by
    rw [List.length_append, List.length_replicate]
    simp only [String.length_toList] at hlength ⊢
    omega
  have hfits := fitsTemplate_digits hall
  rwa [hwidth] at hfits

/-! ## `toISOString` -/

/-- The year of an era, and the day of that year. -/
theorem yearOfEra_bounds (dayOfEra : Nat) (h : dayOfEra < 146097) :
    let yearOfEra := (dayOfEra - dayOfEra / 1460 + dayOfEra / 36524 - dayOfEra / 146096) / 365
    let dayOfYear := dayOfEra - (365 * yearOfEra + yearOfEra / 4 - yearOfEra / 100)
    yearOfEra ≤ 400 ∧ dayOfYear ≤ 500 ∧
      (dayOfEra ≤ 146036 → yearOfEra ≤ 399 ∧ (yearOfEra = 399 → dayOfYear ≤ 305)) := by
  intro yearOfEra dayOfYear
  have hyear : yearOfEra =
    (dayOfEra - dayOfEra / 1460 + dayOfEra / 36524 - dayOfEra / 146096) / 365 := rfl
  have hday : dayOfYear = dayOfEra - (365 * yearOfEra + yearOfEra / 4 - yearOfEra / 100) := rfl
  clear_value yearOfEra dayOfYear
  omega

/-- The days from 1970 to 9999 are in a year of four digits. -/
theorem civilDate_bounds {day : Int} (h : 0 ≤ day) (h' : day < 2932897) :
    0 ≤ (civilDate day).1 ∧ (civilDate day).1 ≤ 9999 ∧ (civilDate day).2.1 < 100 ∧
      (civilDate day).2.2 < 100 := by
  have hera : 4 ≤ (day + 719468) / 146097 ∧ (day + 719468) / 146097 ≤ 24 := by omega
  have hdays : ((day + 719468) % 146097).toNat < 146097 := by omega
  have hlast : (day + 719468) / 146097 = 24 → ((day + 719468) % 146097).toNat ≤ 146036 := by omega
  obtain ⟨hyear, hday, hend⟩ := yearOfEra_bounds _ hdays
  unfold civilDate
  dsimp only at hyear hday hend ⊢
  generalize ((day + 719468) % 146097).toNat = dayOfEra at *
  generalize (day + 719468) / 146097 = era at *
  generalize (dayOfEra - dayOfEra / 1460 + dayOfEra / 36524 - dayOfEra / 146096) / 365 =
    yearOfEra at *
  generalize dayOfEra - (365 * yearOfEra + yearOfEra / 4 - yearOfEra / 100) = dayOfYear at *
  by_cases hmonth : (5 * dayOfYear + 2) / 153 < 10
  · simp only [hmonth, ↓reduceIte]
    refine ⟨?_, ?_, ?_, ?_⟩ <;> (try split) <;> omega
  · simp only [hmonth, ↓reduceIte]
    refine ⟨?_, ?_, ?_, ?_⟩ <;> (try split) <;> omega

/-- The milliseconds from 1970 to 9999. -/
def InRange (ms : Int) : Prop := 0 ≤ ms ∧ ms < 253402300800000

theorem toISOString_fits {ms : Int} (h : InRange ms) :
    fitsTemplate "0000-00-00T00:00:00.000Z".toList (toISOString ms).toList = true := by
  obtain ⟨hnonneg, hlt⟩ := h
  obtain ⟨hyear, hyear', hmonth, hday⟩ :=
    @civilDate_bounds (ms / 86400000) (by omega) (by omega)
  have htime : (ms % 86400000).toNat < 86400000 := by omega
  unfold toISOString
  dsimp only
  rw [if_pos ⟨hyear, hyear'⟩]
  generalize (civilDate (ms / 86400000)).1 = year at *
  generalize (civilDate (ms / 86400000)).2.1 = month at *
  generalize (civilDate (ms / 86400000)).2.2 = day at *
  generalize (ms % 86400000).toNat = time at *
  have hchar (c : Char) (hc : c ≠ '0') : fitsTemplate [c] [c] = true := by simp [fitsTemplate, hc]
  have htemplate : "0000-00-00T00:00:00.000Z".toList =
      List.replicate 4 '0' ++ ['-'] ++ List.replicate 2 '0' ++ ['-'] ++ List.replicate 2 '0' ++
        ['T'] ++ List.replicate 2 '0' ++ [':'] ++ List.replicate 2 '0' ++ [':'] ++
        List.replicate 2 '0' ++ ['.'] ++ List.replicate 3 '0' ++ ['Z'] := rfl
  rw [htemplate]
  simp only [String.toList_append]
  refine fitsTemplate_append (fitsTemplate_append (fitsTemplate_append (fitsTemplate_append
    (fitsTemplate_append (fitsTemplate_append (fitsTemplate_append (fitsTemplate_append
    (fitsTemplate_append (fitsTemplate_append (fitsTemplate_append (fitsTemplate_append
    (fitsTemplate_append ?_ ?_) ?_) ?_) ?_) ?_) ?_) ?_) ?_) ?_) ?_) ?_) ?_) ?_
  · exact padded_fits (by omega) (by omega)
  · exact hchar '-' (by decide)
  · exact padded_fits (by omega) (by omega)
  · exact hchar '-' (by decide)
  · exact padded_fits (by omega) (by omega)
  · exact hchar 'T' (by decide)
  · exact padded_fits (by omega) (by omega)
  · exact hchar ':' (by decide)
  · exact padded_fits (by omega) (by omega)
  · exact hchar ':' (by decide)
  · exact padded_fits (by omega) (by omega)
  · exact hchar '.' (by decide)
  · exact padded_fits (by omega) (by omega)
  · exact hchar 'Z' (by decide)

/-! ## Whole milliseconds -/

theorem binaryExponent_natCast {m : Nat} (hm : m ≠ 0) :
    JsNumber.binaryExponent (m : ℚ) = Nat.log2 m := by
  have hbelow : ((2 : ℚ) ^ ((Nat.log2 m : Nat) : Int)) ≤ m := by
    rw [zpow_natCast]
    exact_mod_cast Nat.log2_self_le hm
  have habove : (m : ℚ) < (2 : ℚ) ^ (((Nat.log2 m : Nat) : Int) + 1) := by
    have h := @Nat.lt_log2_self m
    have hcast : (((Nat.log2 m : Nat) : Int) + 1) = ((Nat.log2 m + 1 : Nat) : Int) := by
      push_cast
      rfl
    rw [hcast, zpow_natCast]
    exact_mod_cast h
  have hlog : ((Nat.log2 (m : ℚ).num.natAbs : Nat) : Int) - (Nat.log2 (m : ℚ).den : Nat) =
      Nat.log2 m := by
    have hone : Nat.log2 1 = 0 := rfl
    simp [hone]
  unfold JsNumber.binaryExponent
  simp only [hlog, not_lt.mpr hbelow, not_le.mpr habove, ↓reduceIte]

theorem roundHalfEven_intCast (n : Int) : JsNumber.roundHalfEven (n : ℚ) = n := by
  unfold JsNumber.roundHalfEven
  simp

theorem roundToDouble_intCast {n : Int} (h : n.natAbs < 2 ^ 53) :
    JsNumber.roundToDouble (n : ℚ) = .finite n := by
  by_cases hzero : n = 0
  · subst hzero
    simp [JsNumber.roundToDouble]
  have habs : |(n : ℚ)| = ((n.natAbs : Nat) : ℚ) := by
    rw [← Int.cast_abs, Int.abs_eq_natAbs, Int.cast_natCast]
  obtain ⟨m, hm⟩ : ∃ m, n.natAbs = m := ⟨_, rfl⟩
  rw [hm] at h habs
  have hpos : m ≠ 0 := by omega
  have hexponent : Nat.log2 m ≤ 52 := by
    have := (Nat.log2_lt hpos).mpr h
    omega
  obtain ⟨shift, hshift⟩ : ∃ shift : Nat, shift + Nat.log2 m = 52 :=
    ⟨52 - Nat.log2 m, by omega⟩
  have hulp : (2 : ℚ) ^ (max ((Nat.log2 m : Nat) : Int) (-1022) - 52) = (2 ^ shift)⁻¹ := by
    have hmax : max ((Nat.log2 m : Nat) : Int) (-1022) - 52 = -(shift : Int) := by omega
    rw [hmax, zpow_neg, zpow_natCast]
  have hscaled : (m : ℚ) / (2 ^ shift)⁻¹ = (((m : Int) * 2 ^ shift : Int) : ℚ) := by
    push_cast
    rw [div_inv_eq_mul]
  have hr : (((m : Int) * 2 ^ shift : Int) : ℚ) * (2 ^ shift)⁻¹ = m := by
    push_cast
    rw [mul_assoc, mul_inv_cancel₀ (by positivity), mul_one]
  have hsmall : ¬ (2 : ℚ) ^ (1024 : Nat) ≤ (m : ℚ) := by
    rw [not_le]
    have hlt : (m : ℚ) < 2 ^ 53 := by exact_mod_cast h
    exact hlt.trans_le (pow_le_pow_right₀ (by norm_num) (by norm_num))
  unfold JsNumber.roundToDouble
  rw [if_neg (by exact_mod_cast hzero)]
  simp only [habs, binaryExponent_natCast hpos, hulp, hscaled, roundHalfEven_intCast, hr, hsmall,
    ↓reduceIte]
  congr 1
  split
  · rename_i hneg
    have hneg' : n < 0 := by exact_mod_cast hneg
    have hsame : (m : Int) = -n := by omega
    rw [← Int.cast_natCast, hsame]
    push_cast
    ring
  · rename_i hneg
    have hneg' : ¬ n < 0 := fun hlt => hneg (by exact_mod_cast hlt)
    have hsame : (m : Int) = n := by omega
    rw [← Int.cast_natCast, hsame]

theorem add_int {a b : Int} (h : (a + b).natAbs < 2 ^ 53) :
    (JsNumber.finite a).add (.finite b) = .finite ((a + b : Int) : ℚ) := by
  show JsNumber.roundToDouble ((a : ℚ) + b) = _
  rw [← Int.cast_add, roundToDouble_intCast h]

theorem sub_int {a b : Int} (h : (a - b).natAbs < 2 ^ 53) :
    PackageVerification.sub (.finite a) (.finite b) = .finite ((a - b : Int) : ℚ) := by
  have hnegate : (JsNumber.finite (b : ℚ)).negate = .finite ((-b : Int) : ℚ) := by
    simp [JsNumber.negate]
  rw [PackageVerification.sub, hnegate, add_int (by omega), ← sub_eq_add_neg]

end Mpas.Timestamps
