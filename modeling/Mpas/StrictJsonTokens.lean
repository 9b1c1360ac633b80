import Mpas.StrictJson

/-!
# The tokens of the strict parser

The parser goes through the text by an index, the grammar speaks of words. A
segment is a word between two indices.

* `skipWhitespace_segment`, `skipWhitespace_eq`: white space, skipped to its end;
* `parseString_sound`, `parseString_complete`: string literals;
* `numberPattern_reads`: the pattern reads the numbers of the grammar.
-/

namespace Mpas.StrictJson

open JsonText Pattern

/-! ## Segments -/

/-- The text between two indices. -/
def Segment (text : Text) (i : Nat) (word : Text) (j : Nat) : Prop :=
  text.drop i = word ++ text.drop j ∧ j = i + word.length

section Segments

variable {text word word' : Text} {i j k : Nat} {c : UInt16}

theorem Segment.append (h : Segment text i word j) (h' : Segment text j word' k) :
    Segment text i (word ++ word') k := by
  refine ⟨?_, ?_⟩
  · rw [h.1, h'.1, List.append_assoc]
  · rw [h'.2, h.2, List.length_append, Nat.add_assoc]

theorem Segment.split (h : Segment text i (word ++ word') k) :
    ∃ j, Segment text i word j ∧ Segment text j word' k := by
  have hdrop : text.drop (i + word.length) = word' ++ text.drop k := by
    rw [← List.drop_drop, h.1, List.append_assoc, List.drop_left]
  refine ⟨i + word.length, ⟨?_, rfl⟩, hdrop, ?_⟩
  · rw [hdrop, h.1, List.append_assoc]
  · rw [h.2, List.length_append, Nat.add_assoc]

theorem Segment.cons (hc : text[i]? = some c) (h : Segment text (i + 1) word j) :
    Segment text i (c :: word) j := by
  obtain ⟨hlt, hget⟩ := List.getElem?_eq_some_iff.mp hc
  refine ⟨?_, ?_⟩
  · rw [List.drop_eq_getElem_cons hlt, hget, h.1]
    rfl
  · rw [h.2, List.length_cons]
    omega

theorem Segment.head (h : Segment text i (c :: word) j) :
    text[i]? = some c ∧ Segment text (i + 1) word j := by
  have hhead : text[i]? = some c := by
    rw [← List.head?_drop, h.1]
    rfl
  refine ⟨hhead, ?_, ?_⟩
  · rw [← List.drop_drop, h.1]
    rfl
  · rw [h.2, List.length_cons]
    omega

theorem segment_nil : Segment text i [] i := ⟨rfl, rfl⟩

theorem segment_one (hc : text[i]? = some c) : Segment text i [c] (i + 1) :=
  Segment.cons hc segment_nil

theorem Segment.le (h : Segment text i word j) : i ≤ j := by
  rw [h.2]
  exact Nat.le_add_right i word.length

theorem segment_of_drop {rest : Text} (h : text.drop i = word ++ rest) :
    Segment text i word (i + word.length) := by
  refine ⟨?_, rfl⟩
  rw [← List.drop_drop, h, List.drop_left]

end Segments

/-! ## White space -/

theorem skipWhitespace_segment (text : Text) (i : Nat) :
    ∃ ws, ws ∈ whitespace ∧ Segment text i ws (skipWhitespace text i) := by
  fun_induction skipWhitespace text i with
  | case1 i hlt hws ih =>
    obtain ⟨ws, hin, hsegment⟩ := ih
    refine ⟨text[i] :: ws, ?_, Segment.cons (List.getElem?_eq_getElem hlt) hsegment⟩
    intro c hc
    rcases List.mem_cons.mp hc with rfl | hrest
    · exact hws
    · exact hin c hrest
  | case2 i hlt hws => exact ⟨[], fun c hc => absurd hc List.not_mem_nil, segment_nil⟩
  | case3 i hge => exact ⟨[], fun c hc => absurd hc List.not_mem_nil, segment_nil⟩

theorem skipWhitespace_stop {text : Text} {j : Nat}
    (hstop : ∀ c, text[j]? = some c → isWhitespace c = false) : skipWhitespace text j = j := by
  rw [skipWhitespace]
  split
  · rename_i hlt
    rw [hstop _ (List.getElem?_eq_getElem hlt)]
    rfl
  · rfl

theorem skipWhitespace_eq {text ws : Text} {i j : Nat} (hws : ws ∈ whitespace)
    (hsegment : Segment text i ws j) (hstop : ∀ c, text[j]? = some c → isWhitespace c = false) :
    skipWhitespace text i = j := by
  induction ws generalizing i with
  | nil =>
    have heq : j = i := hsegment.2
    subst heq
    exact skipWhitespace_stop hstop
  | cons c ws ih =>
    obtain ⟨hc, hrest⟩ := hsegment.head
    obtain ⟨hlt, hget⟩ := List.getElem?_eq_some_iff.mp hc
    have hspace : isWhitespace text[i] = true := by
      rw [hget]
      exact hws c List.mem_cons_self
    rw [skipWhitespace, dif_pos hlt, if_pos hspace]
    exact ih (fun c hmem => hws c (List.mem_cons_of_mem _ hmem)) hrest

/-! ## Strings -/

theorem scanString_bounds {text : Text} {i j : Nat} (h : scanString text i = .ok j) :
    i < j ∧ j ≤ text.length := by
  fun_induction scanString text i with
  | case1 i hlt hescape ih =>
    obtain ⟨hle, hend⟩ := ih h
    exact ⟨by omega, hend⟩
  | case2 i hlt hescape hquote =>
    cases h
    exact ⟨Nat.lt_succ_self i, hlt⟩
  | case3 i hlt hescape hquote ih =>
    obtain ⟨hle, hend⟩ := ih h
    exact ⟨by omega, hend⟩
  | case4 i hge => cases h

theorem slice_segment {text : Text} {i j : Nat} (hle : i ≤ j) (hend : j ≤ text.length) :
    Segment text i (slice text i j) j := by
  unfold slice
  refine ⟨?_, ?_⟩
  · have hdrop : text.drop j = (text.drop i).drop (j - i) := by
      rw [List.drop_drop]
      congr 1
      omega
    rw [hdrop, List.take_append_drop]
  · rw [List.length_take, List.length_drop]
    omega

theorem Segment.slice_eq {text word : Text} {i j : Nat} (h : Segment text i word j) :
    slice text i j = word := by
  unfold slice
  rw [h.1, h.2, Nat.add_sub_cancel_left, List.take_left]

theorem parseString_sound {text s : Text} {i j : Nat} (h : parseString text i = .ok (s, j)) :
    ∃ word, StringText s word ∧ Segment text i word j := by
  unfold parseString at h
  split at h
  · split at h
    · cases h
    · rename_i next hscan
      obtain ⟨hlt, hend⟩ := scanString_bounds hscan
      split at h
      · rename_i s' hread
        cases h
        exact ⟨_, (readString_iff _ _).mp hread, slice_segment (by omega) hend⟩
      · cases h
  · cases h

theorem scanString_plain {text : Text} {c : UInt16} {i : Nat} (hc : text[i]? = some c)
    (hquote : c ≠ quote) (hescape : c ≠ backslash) :
    scanString text i = scanString text (i + 1) := by
  obtain ⟨hlt, hget⟩ := List.getElem?_eq_some_iff.mp hc
  rw [scanString, dif_pos hlt, hget, if_neg hescape, if_neg hquote]

theorem scanString_escape {text : Text} {i : Nat} (hc : text[i]? = some backslash) :
    scanString text i = scanString text (i + 2) := by
  obtain ⟨hlt, hget⟩ := List.getElem?_eq_some_iff.mp hc
  rw [scanString, dif_pos hlt, hget, if_pos rfl]

theorem hexDigit_plain {c value : UInt16} (h : hexDigit c = some value) :
    c ≠ quote ∧ c ≠ backslash := by
  constructor
  · rintro rfl
    cases h
  · rintro rfl
    cases h

theorem hexUnit_digits {a b c d unit : UInt16} (h : hexUnit a b c d = some unit) :
    ∀ e ∈ [a, b, c, d], e ≠ quote ∧ e ≠ backslash := by
  simp only [hexUnit, Option.bind_eq_bind, Option.bind_eq_some_iff] at h
  obtain ⟨va, ha, vb, hb, vc, hc, vd, hd, -⟩ := h
  intro e he
  simp only [List.mem_cons, List.not_mem_nil, or_false] at he
  rcases he with rfl | rfl | rfl | rfl
  · exact hexDigit_plain ha
  · exact hexDigit_plain hb
  · exact hexDigit_plain hc
  · exact hexDigit_plain hd

theorem scanString_plains {text word : Text} {i j : Nat}
    (hplain : ∀ c ∈ word, c ≠ quote ∧ c ≠ backslash) (h : Segment text i word j) :
    scanString text i = scanString text j := by
  induction word generalizing i with
  | nil =>
    have heq : j = i := h.2
    rw [heq]
  | cons c word ih =>
    obtain ⟨hc, hrest⟩ := h.head
    obtain ⟨hquote, hescape⟩ := hplain c List.mem_cons_self
    rw [scanString_plain hc hquote hescape]
    exact ih (fun c hmem => hplain c (List.mem_cons_of_mem _ hmem)) hrest

/-- Two at a time over an escape, the loop ends up where the character does. -/
theorem scanString_char {text word : Text} {c : UInt16} {i j : Nat} (hchar : CharText c word)
    (h : Segment text i word j) : scanString text i = scanString text j := by
  cases hchar with
  | plain hcontrol hquote hescape =>
    exact scanString_plains (fun e he => by rw [List.mem_singleton.mp he]; exact ⟨hquote, hescape⟩) h
  | escape hescaped =>
    have heq : j = i + 2 := h.2
    rw [heq, scanString_escape h.head.1]
  | unicode hunit =>
    have hrest := h.head.2.head.2
    rw [scanString_escape h.head.1]
    exact scanString_plains (hexUnit_digits hunit) hrest

theorem scanString_chars {text s body : Text} {i j : Nat} (hchars : CharsText s body)
    (h : Segment text i (body ++ [quote]) j) : scanString text i = .ok j := by
  induction hchars generalizing i with
  | nil =>
    obtain ⟨hlt, hget⟩ := List.getElem?_eq_some_iff.mp h.head.1
    have heq : j = i + 1 := h.2
    rw [scanString, dif_pos hlt, hget, if_neg (by decide), if_pos rfl, heq]
  | cons hchar _ ih =>
    rw [List.append_assoc] at h
    obtain ⟨k, hword, hrest⟩ := h.split
    rw [scanString_char hchar hword]
    exact ih hrest

theorem parseString_complete {text s word : Text} {i j : Nat} (hstring : StringText s word)
    (h : Segment text i word j) : parseString text i = .ok (s, j) := by
  obtain ⟨body, hbody, hword⟩ := hstring
  have hread : readString (slice text i j) = some s := by
    rw [h.slice_eq]
    exact (readString_iff word s).mpr ⟨body, hbody, hword⟩
  rw [hword, List.cons_append] at h
  unfold parseString
  rw [if_pos h.head.1, scanString_chars hbody h.head.2]
  simp only [hread]

/-! ## Numbers -/

/-- What would make a number longer. -/
def continuesNumber (c : UInt16) : Bool := isDigit c || c == code '.' || isExponentMark c

theorem isDigit_not_sign (c : UInt16) (h : isDigit c = true) : isSign c = false := by
  cases hs : isSign c with
  | false => rfl
  | true =>
    simp only [isSign, Bool.or_eq_true, beq_iff_eq] at hs
    rcases hs with rfl | rfl <;> cases h

theorem exponent_reads :
    Reads (seq (one isExponentMark) (seq (opt (one isSign)) (plus isDigit))) exponentPart
      (Before isDigit) := by
  have hsign : Reads (opt (one isSign)) (1 + symbol isSign) (Before isSign) :=
    one_reads.opt (fun _ _ => trivial) fun _ h => one_none h
  have hdigits := hsign.seq plus_reads fun word rest hword _ =>
    before_of_starts hword isDigit_not_sign
  exact one_reads.seq hdigits fun _ _ _ _ => trivial

theorem fraction_reads :
    Reads (seq (one (· == code '.')) (plus isDigit)) fractionPart (Before isDigit) :=
  one_reads.seq plus_reads fun _ _ _ _ => trivial

theorem integer_reads :
    Reads (orElse (one (· == code '0')) (seq (one isDigitButZero) (many isDigit))) integerPart
      (Before isDigit) := by
  have hzero : Reads (one (· == code '0')) (symbol (· == code '0')) (Before isDigit) :=
    ⟨one_reads.sound, fun word rest hword _ => one_reads.complete word rest hword trivial⟩
  have hother : Reads (seq (one isDigitButZero) (many isDigit))
      (symbol isDigitButZero * symbols isDigit) (Before isDigit) :=
    one_reads.seq many_reads fun _ _ _ _ => trivial
  refine hzero.orElse hother fun word rest hword _ => one_none (before_of_starts hword ?_)
  intro c hc
  cases hs : c == code '0' with
  | false => rfl
  | true =>
    rw [beq_iff_eq.mp hs] at hc
    cases hc

theorem integerPart_starts {word : Text} (h : word ∈ integerPart) :
    ∃ c rest, word = c :: rest ∧ isDigit c = true := by
  rcases h with ⟨c, hc, rfl⟩ | hother
  · refine ⟨c, [], rfl, ?_⟩
    rw [beq_iff_eq.mp hc]
    rfl
  · obtain ⟨first, ⟨c, hc, rfl⟩, second, -, rfl⟩ := Language.mem_mul.mp hother
    refine ⟨c, second, rfl, ?_⟩
    simp only [isDigitButZero, isDigit, Bool.and_eq_true, decide_eq_true_eq] at hc ⊢
    exact ⟨UInt16.le_trans (by decide) hc.1, hc.2⟩

theorem numberPattern_reads : Reads numberPattern numberText (Before continuesNumber) := by
  have hexponent : Reads (opt (seq (one isExponentMark) (seq (opt (one isSign)) (plus isDigit))))
      (1 + exponentPart) (Before continuesNumber) := by
    refine exponent_reads.opt (fun rest h => h.weaken ?_) fun rest h =>
      seq_none (one_none (h.weaken ?_))
    · exact fun c hc => by simp [continuesNumber, hc]
    · exact fun c hc => by simp [continuesNumber, hc]
  have hfraction : Reads (opt (seq (one (· == code '.')) (plus isDigit))) (1 + fractionPart)
      (Before fun c => isDigit c || c == code '.') := by
    refine fraction_reads.opt (fun rest h => h.weaken ?_) fun rest h =>
      seq_none (one_none (h.weaken ?_))
    · exact fun c hc => by simp [hc]
    · exact fun c hc => by simp [hc]
  have hexponentFollows : ∀ word rest, word ∈ 1 + exponentPart → Before continuesNumber rest →
      Before (fun c => isDigit c || c == code '.') (word ++ rest) := by
    rintro word rest (hempty | hpart) hrest
    · rw [show word = [] from hempty]
      exact hrest.weaken fun c hc => by
        rw [continuesNumber, hc]
        rfl
    · refine before_of_starts hpart fun c hc => ?_
      simp only [isExponentMark, Bool.or_eq_true, beq_iff_eq] at hc
      rcases hc with rfl | rfl <;> rfl
  have hminus : Reads (opt (one (· == code '-'))) (1 + symbol (· == code '-'))
      (Before (· == code '-')) :=
    one_reads.opt (fun _ _ => trivial) fun _ h => one_none h
  refine hminus.seq (integer_reads.seq (hfraction.seq hexponent hexponentFollows) ?_) ?_
  · rintro word rest hword hrest
    obtain ⟨first, hfirst, second, hsecond, rfl⟩ := Language.mem_mul.mp hword
    have hfollows := hexponentFollows second rest hsecond hrest
    rw [List.append_assoc]
    rcases hfirst with hempty | hpart
    · rw [show first = [] from hempty]
      exact hfollows.weaken fun c hc => by simp [hc]
    · refine before_of_starts hpart fun c hc => ?_
      rw [beq_iff_eq.mp hc]
      rfl
  · rintro word rest hword -
    obtain ⟨first, hfirst, second, -, rfl⟩ := Language.mem_mul.mp hword
    obtain ⟨c, tail, rfl, hc⟩ := integerPart_starts hfirst
    intro d hd
    cases hd
    rw [beq_eq_false_iff_ne]
    rintro rfl
    cases hc

theorem numberText_starts {word : Text} (h : word ∈ numberText) :
    ∃ c rest, word = c :: rest ∧ (c = code '-' ∨ isDigit c = true) := by
  obtain ⟨first, hfirst, second, hsecond, rfl⟩ := Language.mem_mul.mp h
  rcases hfirst with hempty | ⟨c, hc, rfl⟩
  · obtain ⟨part, hpart, tail, -, rfl⟩ := Language.mem_mul.mp hsecond
    obtain ⟨c, rest, rfl, hc⟩ := integerPart_starts hpart
    rw [show first = [] from hempty]
    exact ⟨c, rest ++ tail, rfl, Or.inr hc⟩
  · exact ⟨c, second, rfl, Or.inl (beq_iff_eq.mp hc)⟩

end Mpas.StrictJson
