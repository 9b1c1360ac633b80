import Mathlib.Computability.Language

/-!
# Greedy patterns

A pattern takes the longest part it can from the front of a list and does not
try again with less. It reads a language where what follows lets it see the end
of each word.

* `Reads`: what a pattern takes is a word, and it takes a word that is followed as asked;
* `Reads.seq`, `Reads.orElse`, `Reads.opt`, `plus_reads`: the rules of composition.
-/

namespace Mpas

/-- The part that is taken and the rest, or nothing where there is no match. -/
abbrev Pattern (γ : Type) := List γ → Option (List γ × List γ)

namespace Pattern

variable {γ : Type}

def one (p : γ → Bool) : Pattern γ
  | [] => none
  | c :: rest => if p c then some ([c], rest) else none

def many (p : γ → Bool) : Pattern γ := fun text => some (text.takeWhile p, text.dropWhile p)

def seq (a b : Pattern γ) : Pattern γ := fun text =>
  match a text with
  | none => none
  | some (first, rest) =>
    match b rest with
    | none => none
    | some (second, rest) => some (first ++ second, rest)

def orElse (a b : Pattern γ) : Pattern γ := fun text => (a text).or (b text)

def opt (a : Pattern γ) : Pattern γ := fun text => (a text).or (some ([], text))

def plus (p : γ → Bool) : Pattern γ := seq (one p) (many p)

/-! ## Languages -/

/-- One symbol. -/
def symbol (p : γ → Bool) : Language γ := {word | ∃ c, p c = true ∧ word = [c]}

def symbols (p : γ → Bool) : Language γ := {word | ∀ c ∈ word, p c = true}

/-- The pattern reads the language, before a rest with `F`. -/
structure Reads (a : Pattern γ) (L : Language γ) (F : List γ → Prop) : Prop where
  sound : ∀ text word rest, a text = some (word, rest) → text = word ++ rest ∧ word ∈ L
  complete : ∀ word rest, word ∈ L → F rest → a (word ++ rest) = some (word, rest)

/-- The rest does not start with a symbol of `p`. -/
def Before (p : γ → Bool) (rest : List γ) : Prop := ∀ c, rest.head? = some c → p c = false

variable {a b : Pattern γ} {L M : Language γ} {F G : List γ → Prop} {p q : γ → Bool}

theorem Before.weaken {rest : List γ} (h : Before q rest) (himp : ∀ c, p c = true → q c = true) :
    Before p rest := by
  intro c hc
  have hq := h c hc
  cases hp : p c with
  | false => rfl
  | true =>
    rw [himp c hp] at hq
    cases hq

theorem before_of_starts {word rest : List γ} (hword : word ∈ symbol p * M)
    (hdiffer : ∀ c, p c = true → q c = false) : Before q (word ++ rest) := by
  obtain ⟨first, ⟨c, hc, rfl⟩, second, -, rfl⟩ := Language.mem_mul.mp hword
  intro d hd
  cases hd
  exact hdiffer c hc

theorem one_reads : Reads (one p) (symbol p) fun _ => True where
  sound := by
    intro text word rest h
    cases text with
    | nil => cases h
    | cons c text =>
      simp only [one] at h
      split at h
      · rename_i hc
        cases h
        exact ⟨rfl, c, hc, rfl⟩
      · cases h
  complete := by
    rintro word rest ⟨c, hc, rfl⟩ -
    show (if p c then some ([c], rest) else none) = _
    rw [if_pos hc]

theorem one_none {rest : List γ} (h : Before p rest) : one p rest = none := by
  cases rest with
  | nil => rfl
  | cons c rest =>
    have hc : p c = false := h c rfl
    simp [one, hc]

theorem many_reads : Reads (many p) (symbols p) (Before p) where
  sound := by
    intro text word rest h
    cases h
    exact ⟨List.takeWhile_append_dropWhile.symm, fun c hc => List.all_eq_true.mp List.all_takeWhile c hc⟩
  complete := by
    intro word rest hword hrest
    unfold many
    have htake : rest.takeWhile p = [] := by
      cases rest with
      | nil => rfl
      | cons c rest => simp [hrest c rfl]
    have hdrop : rest.dropWhile p = rest := by
      cases rest with
      | nil => rfl
      | cons c rest => simp [hrest c rfl]
    rw [List.takeWhile_append_of_pos hword, List.dropWhile_append_of_pos hword, htake, hdrop,
      List.append_nil]

theorem Reads.seq (ha : Reads a L F) (hb : Reads b M G)
    (hfollow : ∀ word rest, word ∈ M → G rest → F (word ++ rest)) :
    Reads (seq a b) (L * M) G where
  sound := by
    intro text word rest h
    unfold Pattern.seq at h
    split at h
    · cases h
    · rename_i first middle hfirst
      split at h
      · cases h
      · rename_i second last hsecond
        cases h
        obtain ⟨rfl, hL⟩ := ha.sound _ _ _ hfirst
        obtain ⟨rfl, hM⟩ := hb.sound _ _ _ hsecond
        exact ⟨(List.append_assoc _ _ _).symm, Language.mem_mul.mpr ⟨first, hL, second, hM, rfl⟩⟩
  complete := by
    intro word rest hword hrest
    obtain ⟨first, hL, second, hM, rfl⟩ := Language.mem_mul.mp hword
    unfold Pattern.seq
    rw [List.append_assoc, ha.complete first (second ++ rest) hL (hfollow second rest hM hrest)]
    simp only [hb.complete second rest hM hrest]

theorem seq_none {rest : List γ} (h : a rest = none) : Pattern.seq a b rest = none := by
  unfold Pattern.seq
  rw [h]

theorem Reads.orElse (ha : Reads a L F) (hb : Reads b M F)
    (hother : ∀ word rest, word ∈ M → F rest → a (word ++ rest) = none) :
    Reads (orElse a b) (L + M) F where
  sound := by
    intro text word rest h
    rcases Option.or_eq_some_iff.mp h with hfirst | ⟨-, hsecond⟩
    · obtain ⟨htext, hL⟩ := ha.sound _ _ _ hfirst
      exact ⟨htext, Or.inl hL⟩
    · obtain ⟨htext, hM⟩ := hb.sound _ _ _ hsecond
      exact ⟨htext, Or.inr hM⟩
  complete := by
    intro word rest hword hrest
    unfold Pattern.orElse
    rcases hword with hL | hM
    · rw [ha.complete word rest hL hrest]
      rfl
    · rw [hother word rest hM hrest, hb.complete word rest hM hrest]
      rfl

/-- An optional part is not there where the pattern does not match what follows. -/
theorem Reads.opt (ha : Reads a L F) (hfollow : ∀ rest, G rest → F rest)
    (hnone : ∀ rest, G rest → a rest = none) : Reads (opt a) (1 + L) G where
  sound := by
    intro text word rest h
    rcases Option.or_eq_some_iff.mp h with hfirst | ⟨-, hempty⟩
    · obtain ⟨htext, hL⟩ := ha.sound _ _ _ hfirst
      exact ⟨htext, Or.inr hL⟩
    · cases hempty
      exact ⟨rfl, Or.inl rfl⟩
  complete := by
    intro word rest hword hrest
    unfold Pattern.opt
    rcases hword with hempty | hL
    · have hnil : word = [] := hempty
      subst hnil
      rw [List.nil_append, hnone rest hrest]
      rfl
    · rw [ha.complete word rest hL (hfollow rest hrest)]
      rfl

theorem plus_reads : Reads (plus p) (symbol p * symbols p) (Before p) :=
  one_reads.seq many_reads fun _ _ _ _ => trivial

end Pattern

end Mpas
