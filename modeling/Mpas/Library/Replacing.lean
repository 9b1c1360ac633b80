import Mpas.Library.Patterns

/-!
# Replacing the matches of a pattern

A pattern is looked for from the left; behind a match the search goes on after
the match. Each match is replaced by a text that may depend on the match and on
what stands before and after it, and everything else is kept.

* `pieces`, `replaceAll`: the search, and the text with the replacements;
* `Replaced`: the words of a language replaced by one text, as a relation;
* `replaceAll_replaced`, `Replaced.unique`: what is replaced by one text is the only such text;
* `HasWord`, `hasWord_iff`: a text with a word of the language is one with a match.
-/

namespace Mpas.Pattern

variable {γ : Type}

section Literal

variable [DecidableEq γ]

def literal (word : List γ) : Pattern γ := fun text =>
  if word.isPrefixOf text then some (word, text.drop word.length) else none

theorem literal_reads (word : List γ) :
    Reads (literal word) ({word} : Language γ) fun _ => True where
  sound := by
    intro text found rest h
    unfold literal at h
    split at h
    · rename_i hprefix
      obtain ⟨tail, rfl⟩ := List.isPrefixOf_iff_prefix.mp hprefix
      cases h
      exact ⟨by rw [List.drop_left], rfl⟩
    · cases h
  complete := by
    rintro found rest rfl -
    unfold literal
    rw [if_pos (List.isPrefixOf_iff_prefix.mpr (List.prefix_append found rest)), List.drop_left]

end Literal

/-! ## Pieces -/

inductive Piece (γ : Type)
  | kept (c : γ)
  | found (matched : List γ)

def Piece.text : Piece γ → List γ
  | .kept c => [c]
  | .found matched => matched

def textOf (pieces : List (Piece γ)) : List γ := pieces.flatMap Piece.text

/-- With as much fuel as the text is long. A match of nothing does not count. -/
def piecesTo (p : Pattern γ) : Nat → List γ → List (Piece γ)
  | 0, _ | _, [] => []
  | fuel + 1, c :: text =>
    match p (c :: text) with
    | some (first :: more, after) => .found (first :: more) :: piecesTo p fuel after
    | _ => .kept c :: piecesTo p fuel text

def pieces (p : Pattern γ) (text : List γ) : List (Piece γ) := piecesTo p text.length text

section Replacing

/-- Of a match, what stands before it, and what stands after it. -/
abbrev Replacement (γ : Type) := (matched before after : List γ) → List γ

variable (r : Replacement γ)

def replaceFrom : (before : List γ) → List (Piece γ) → List γ
  | _, [] => []
  | before, .kept c :: rest => c :: replaceFrom (before ++ [c]) rest
  | before, .found matched :: rest =>
    r matched before (textOf rest) ++ replaceFrom (before ++ matched) rest

def replaceAll (p : Pattern γ) (text : List γ) : List γ := replaceFrom r [] (pieces p text)

theorem replaceFrom_of_none {pieces : List (Piece γ)} (h : ∀ word, Piece.found word ∉ pieces)
    (before : List γ) : replaceFrom r before pieces = textOf pieces := by
  induction pieces generalizing before with
  | nil => rfl
  | cons piece pieces ih =>
    have hrest : ∀ word, Piece.found word ∉ pieces :=
      fun word hmem => h word (List.mem_cons_of_mem _ hmem)
    cases piece with
    | kept c => simp only [replaceFrom, ih hrest, textOf, List.flatMap_cons, Piece.text,
        List.singleton_append]
    | found word => exact absurd List.mem_cons_self (h word)

end Replacing

/-! ## The words of a language -/

/-- In the second text each word of `L` is replaced by `other`; the words are found from the left. -/
inductive Replaced (L : Language γ) (other : List γ) : List γ → List γ → Prop
  | nil : Replaced L other [] []
  | keep {c : γ} {text result : List γ} : (∀ word rest, c :: text = word ++ rest → word ∉ L) →
      Replaced L other text result → Replaced L other (c :: text) (c :: result)
  | word {word text result : List γ} : word ∈ L → Replaced L other text result →
      Replaced L other (word ++ text) (other ++ result)

/-- Some word of the language stands in the text. -/
def HasWord (L : Language γ) (text : List γ) : Prop :=
  ∃ before word after, word ∈ L ∧ text = before ++ word ++ after

variable {p : Pattern γ} {L : Language γ} {other text result result' : List γ} {fuel : Nat}

theorem length_after {c : γ} {word after : List γ} (hword : word ≠ [])
    (h : c :: text = word ++ after) : after.length ≤ text.length := by
  have hlength := congrArg List.length h
  have hpos := List.length_pos_of_ne_nil hword
  simp only [List.length_cons, List.length_append] at hlength
  omega

theorem not_word_of_none (hp : Reads p L fun _ => True) {c : γ}
    (h : p (c :: text) = none) :
    ∀ word rest, c :: text = word ++ rest → word ∉ L := by
  intro word rest heq hword
  have hmatch := hp.complete word rest hword trivial
  rw [← heq, h] at hmatch
  cases hmatch

/-- The words that stand at one place are one word. -/
theorem word_unique (hp : Reads p L fun _ => True) {word word' rest rest' : List γ}
    (hword : word ∈ L) (hword' : word' ∈ L) (h : word ++ rest = word' ++ rest') : word = word' ∧ rest = rest' := by
  have hmatch := hp.complete word rest hword trivial
  rw [h, hp.complete word' rest' hword' trivial] at hmatch
  cases hmatch
  exact ⟨rfl, rfl⟩

section Reading

variable (hp : Reads p L fun _ => True) (hnil : [] ∉ L)
include hp hnil

/-- One step of the search: a match is a word, and what is no match starts with no word. -/
theorem match_cases (c : γ) (text : List γ) :
    (∃ word after, word ∈ L ∧ word ≠ [] ∧ c :: text = word ++ after ∧
      ∀ fuel, piecesTo p (fuel + 1) (c :: text) = .found word :: piecesTo p fuel after) ∨
    ((∀ word rest, c :: text = word ++ rest → word ∉ L) ∧
      ∀ fuel, piecesTo p (fuel + 1) (c :: text) = .kept c :: piecesTo p fuel text) := by
  cases hmatch : p (c :: text) with
  | none => exact Or.inr ⟨not_word_of_none hp hmatch, fun fuel => by simp [piecesTo, hmatch]⟩
  | some found =>
    obtain ⟨word, after⟩ := found
    obtain ⟨htext, hword⟩ := hp.sound _ _ _ hmatch
    cases word with
    | nil => exact absurd hword hnil
    | cons first more =>
      exact Or.inl ⟨first :: more, after, hword, by simp, htext,
        fun fuel => by simp [piecesTo, hmatch]⟩

theorem textOf_piecesTo (h : text.length ≤ fuel) : textOf (piecesTo p fuel text) = text := by
  induction fuel generalizing text with
  | zero =>
    obtain rfl := List.length_eq_zero_iff.mp (Nat.le_zero.mp h)
    rfl
  | succ fuel ih =>
    cases text with
    | nil => rfl
    | cons c text =>
      rw [List.length_cons] at h
      rcases match_cases hp hnil c text with ⟨word, after, _, hne, htext, hpieces⟩ | ⟨_, hpieces⟩
      · have hafter := length_after hne htext
        have hrest : textOf (piecesTo p fuel after) = after := ih (by omega)
        rw [hpieces, htext]
        simp only [textOf, List.flatMap_cons, Piece.text] at hrest ⊢
        rw [hrest]
      · have hrest : textOf (piecesTo p fuel text) = text := ih (by omega)
        rw [hpieces]
        simp only [textOf, List.flatMap_cons, Piece.text] at hrest ⊢
        rw [hrest]
        rfl

/-- **Replacing by one text** replaces the words of the language by it. -/
theorem replaceFrom_replaced (h : text.length ≤ fuel) (before : List γ) :
    Replaced L other text (replaceFrom (fun _ _ _ => other) before (piecesTo p fuel text)) := by
  induction fuel generalizing text before with
  | zero =>
    obtain rfl := List.length_eq_zero_iff.mp (Nat.le_zero.mp h)
    exact .nil
  | succ fuel ih =>
    cases text with
    | nil => exact .nil
    | cons c text =>
      rw [List.length_cons] at h
      rcases match_cases hp hnil c text with ⟨word, after, hword, hne, htext, hpieces⟩ |
        ⟨hnone, hpieces⟩
      · have hafter := length_after hne htext
        rw [hpieces, htext]
        exact .word hword (ih (by omega) (before ++ word))
      · rw [hpieces]
        exact .keep hnone (ih (by omega) (before ++ [c]))

theorem replaceAll_replaced :
    Replaced L other text (replaceAll (fun _ _ _ => other) p text) :=
  replaceFrom_replaced hp hnil (Nat.le_refl _) []

theorem Replaced.unique (h : Replaced L other text result) (h' : Replaced L other text result') :
    result = result' := by
  induction h generalizing result' with
  | nil =>
    generalize hempty : ([] : List γ) = empty at h'
    cases h' with
    | nil => rfl
    | keep => cases hempty
    | word hword _ =>
      obtain rfl := (List.append_eq_nil_iff.mp hempty.symm).1
      exact absurd hword hnil
  | @keep c text result hnone _ ih =>
    generalize hcons : c :: text = whole at h'
    cases h' with
    | nil => cases hcons
    | keep _ hrest =>
      cases hcons
      rw [ih hrest]
    | word hword _ => exact absurd hword (hnone _ _ hcons)
  | @word word text result hword _ ih =>
    generalize happend : word ++ text = whole at h'
    cases h' with
    | nil =>
      obtain rfl := (List.append_eq_nil_iff.mp happend).1
      exact absurd hword hnil
    | keep hnone _ => exact absurd hword (hnone _ _ happend.symm)
    | word hword' hrest =>
      obtain ⟨rfl, rfl⟩ := word_unique hp hword hword' happend
      rw [ih hrest]

/-- A text has a word of the language where the search finds one. -/
theorem hasWord_piecesTo (h : text.length ≤ fuel) :
    HasWord L text ↔ ∃ word, Piece.found word ∈ piecesTo p fuel text := by
  induction fuel generalizing text with
  | zero =>
    obtain rfl := List.length_eq_zero_iff.mp (Nat.le_zero.mp h)
    refine ⟨?_, fun ⟨word, hmem⟩ => by cases hmem⟩
    rintro ⟨before, word, after, hword, heq⟩
    simp only [List.nil_eq, List.append_eq_nil_iff] at heq
    exact absurd (heq.1.2 ▸ hword) hnil
  | succ fuel ih =>
    cases text with
    | nil =>
      refine ⟨?_, fun ⟨word, hmem⟩ => by cases hmem⟩
      rintro ⟨before, word, after, hword, heq⟩
      simp only [List.nil_eq, List.append_eq_nil_iff] at heq
      exact absurd (heq.1.2 ▸ hword) hnil
    | cons c text =>
      rw [List.length_cons] at h
      rcases match_cases hp hnil c text with ⟨word, after, hword, _, htext, hpieces⟩ |
        ⟨hnone, hpieces⟩
      · refine ⟨fun _ => ⟨word, by rw [hpieces]; exact List.mem_cons_self⟩, fun _ => ?_⟩
        exact ⟨[], word, after, hword, htext⟩
      · have hrest : HasWord L text ↔ ∃ word, Piece.found word ∈ piecesTo p fuel text := ih (by omega)
        rw [hpieces]
        constructor
        · rintro ⟨before, word, after, hword, heq⟩
          cases before with
          | nil => exact absurd hword (hnone word after heq)
          | cons d before =>
            cases heq
            obtain ⟨other, hother⟩ := hrest.mp ⟨before, word, after, hword, rfl⟩
            exact ⟨other, List.mem_cons_of_mem _ hother⟩
        · rintro ⟨word, hmem⟩
          obtain hmem | hmem := List.mem_cons.mp hmem
          · cases hmem
          · obtain ⟨before, other, after, hother, heq⟩ := hrest.mpr ⟨word, hmem⟩
            exact ⟨c :: before, other, after, hother, by rw [heq]; rfl⟩

theorem hasWord_iff : HasWord L text ↔ ∃ word, Piece.found word ∈ pieces p text :=
  hasWord_piecesTo hp hnil (Nat.le_refl _)

end Reading

end Mpas.Pattern
