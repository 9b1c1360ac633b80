import Mathlib.Data.List.Forall2

/-!
# Verdicts of monotone rules

A verdict is the outcome of evaluating a rule: it holds, it does not, or its
evaluation fails. `all` is a conjunction that evaluates every part, `any` a
disjunction that stops at the first part that holds, `every` a conjunction that
stops at the first part that does not. A verdict *improves* when a rule that
could be evaluated still can be, and one that held still holds.

* `any_map_ok`, `every_map_ok`: without failures these are the Boolean operators;
* `every_cases`: what a conjunction that stops early can come to in some order;
* `all_improves`, `any_improves`: both operators are monotone, so a rule built
  from monotone parts is monotone, failures included;
* `means_all`, `means_any`: what a rule means, and when its evaluation gets
  stuck, from the same of its parts.
-/

namespace Mpas

/-- A verdict: `error` when the rule cannot be evaluated. -/
abbrev Verdict (ε : Type*) := Except ε Bool

namespace Verdict

variable {ε : Type*}

/-- Every part is evaluated, in order; the first failure is the outcome. -/
def all : List (Verdict ε) → Verdict ε
  | [] => .ok true
  | .error e :: _ => .error e
  | .ok b :: rest => (all rest).map (b && ·)

/-- The parts are evaluated until one holds. -/
def any : List (Verdict ε) → Verdict ε
  | [] => .ok false
  | .error e :: _ => .error e
  | .ok true :: _ => .ok true
  | .ok false :: rest => any rest

/-- The parts are evaluated until one does not hold. -/
def every : List (Verdict ε) → Verdict ε
  | [] => .ok true
  | .error e :: _ => .error e
  | .ok false :: _ => .ok false
  | .ok true :: rest => every rest

theorem any_map_ok {α : Type*} (p : α → Bool) (xs : List α) :
    any (xs.map fun x => (.ok (p x) : Verdict ε)) = .ok (xs.any p) := by
  induction xs with
  | nil => rfl
  | cons x xs ih => cases h : p x <;> simp [any, h, ih]

theorem every_map_ok {α : Type*} (p : α → Bool) (xs : List α) :
    every (xs.map fun x => (.ok (p x) : Verdict ε)) = .ok (xs.all p) := by
  induction xs with
  | nil => rfl
  | cons x xs ih => cases h : p x <;> simp [every, h, ih]

/-- What a conjunction that stops early comes to is there among its parts. -/
theorem every_cases (vs : List (Verdict ε)) :
    (every vs = .ok true ∧ ∀ v ∈ vs, v = .ok true) ∨
      (every vs = .ok false ∧ .ok false ∈ vs) ∨ ∃ e, every vs = .error e ∧ .error e ∈ vs := by
  induction vs with
  | nil => exact .inl ⟨rfl, by simp⟩
  | cons v rest ih =>
    cases v with
    | error e => exact .inr (.inr ⟨e, rfl, List.mem_cons_self⟩)
    | ok b =>
      cases b with
      | false => exact .inr (.inl ⟨rfl, List.mem_cons_self⟩)
      | true =>
        rcases ih with ⟨heq, hall⟩ | ⟨heq, hmem⟩ | ⟨e, heq, hmem⟩
        · exact .inl ⟨heq, List.forall_mem_cons.mpr ⟨rfl, hall⟩⟩
        · exact .inr (.inl ⟨heq, List.mem_cons_of_mem _ hmem⟩)
        · exact .inr (.inr ⟨e, heq, List.mem_cons_of_mem _ hmem⟩)

/-- Some order of the parts comes to a verdict. -/
def Settles (vs : List (Verdict ε)) : Prop := .ok false ∈ vs ∨ ∀ v ∈ vs, v = .ok true

theorem every_ok {vs : List (Verdict ε)} {b : Bool} (h : every vs = .ok b) :
    Settles vs ∧ (b = true ↔ ∀ v ∈ vs, v = .ok true) := by
  rcases every_cases vs with ⟨heq, hall⟩ | ⟨heq, hmem⟩ | ⟨e, heq, -⟩
  · rw [heq] at h
    cases h
    exact ⟨.inr hall, by simpa using hall⟩
  · rw [heq] at h
    cases h
    refine ⟨.inl hmem, ?_⟩
    simp only [Bool.false_eq_true, false_iff]
    intro hall
    have hfalse := hall _ hmem
    cases hfalse
  · rw [heq] at h
    cases h

theorem every_error {vs : List (Verdict ε)} {e : ε} (h : every vs = .error e) : .error e ∈ vs := by
  rcases every_cases vs with ⟨heq, -⟩ | ⟨heq, -⟩ | ⟨e', heq, hmem⟩
  · rw [heq] at h
    cases h
  · rw [heq] at h
    cases h
  · rw [heq] at h
    cases h
    exact hmem

/-- A part that is not true decides when it comes first. -/
theorem every_cons_of_ne {v : Verdict ε} (h : v ≠ .ok true) (rest : List (Verdict ε)) :
    every (v :: rest) = v := by
  cases v with
  | error e => rfl
  | ok b =>
    cases b with
    | false => rfl
    | true => exact absurd rfl h

/-! ## Monotonicity -/

def Improves (v w : Verdict ε) : Prop :=
  ∀ b, v = .ok b → ∃ c, w = .ok c ∧ (b = true → c = true)

theorem Improves.refl (v : Verdict ε) : Improves v v := fun b h => ⟨b, h, id⟩

theorem Improves.holds {v w : Verdict ε} (h : Improves v w) (hv : v = .ok true) :
    w = .ok true := by
  obtain ⟨c, hc, hbc⟩ := h true hv
  rw [hc, hbc rfl]

theorem improves_ok {a b : Bool} (h : a = true → b = true) :
    Improves (.ok a : Verdict ε) (.ok b) := by
  intro c hc
  cases hc
  exact ⟨b, rfl, h⟩

theorem improves_error (e : ε) (w : Verdict ε) : Improves (.error e) w :=
  fun _ h => by cases h

theorem all_cons (v : Verdict ε) (rest : List (Verdict ε)) :
    all (v :: rest) = v.bind fun b => (all rest).map (b && ·) := by
  cases v <;> rfl

theorem all_improves {vs ws : List (Verdict ε)} (h : List.Forall₂ Improves vs ws) :
    Improves (all vs) (all ws) := by
  induction h with
  | nil => exact .refl _
  | @cons v w vs ws hvw _ ih =>
    cases v with
    | error e => exact improves_error _ _
    | ok b =>
      obtain ⟨c, rfl, hbc⟩ := hvw b rfl
      cases hall : all vs with
      | error e => simpa [all, hall, Except.map] using improves_error _ _
      | ok b' =>
        obtain ⟨c', hc', hbc'⟩ := ih b' hall
        simp only [all, hall, hc', Except.map]
        apply improves_ok
        intro h
        simp only [Bool.and_eq_true] at h ⊢
        exact ⟨hbc h.1, hbc' h.2⟩

theorem any_improves {vs ws : List (Verdict ε)} (h : List.Forall₂ Improves vs ws) :
    Improves (any vs) (any ws) := by
  induction h with
  | nil => exact .refl _
  | @cons v w vs ws hvw _ ih =>
    cases v with
    | error e => exact improves_error _ _
    | ok b =>
      obtain ⟨c, rfl, hbc⟩ := hvw b rfl
      cases b <;> cases c
      · exact ih
      · intro b _
        exact ⟨true, rfl, fun _ => rfl⟩
      · simp at hbc
      · exact .refl _

/-! ## Meaning -/

/-- A verdict fails exactly when the evaluation is stuck, and is the meaning otherwise. -/
def Means (stuck holds : Prop) : Verdict ε → Prop
  | .error _ => stuck
  | .ok b => ¬stuck ∧ (b = true ↔ holds)

variable {stuck stuck' holds holds' : Prop} {v : Verdict ε} {vs : List (Verdict ε)}

theorem Means.true_iff (h : Means stuck holds v) : v = .ok true ↔ holds ∧ ¬stuck := by
  cases v with
  | error e =>
    have hstuck : stuck := h
    simp [hstuck]
  | ok b =>
    obtain ⟨hfree, hb⟩ := h
    simp [hfree, ← hb]

theorem Means.congr (hstuck : stuck ↔ stuck') (hholds : holds ↔ holds')
    (h : Means stuck holds v) : Means stuck' holds' v := by
  rw [← propext hstuck, ← propext hholds]
  exact h

theorem means_all_nil : Means False True (all ([] : List (Verdict ε))) := by simp [all, Means]

theorem means_any_nil : Means False False (any ([] : List (Verdict ε))) := by simp [any, Means]

theorem means_all_cons (h : Means stuck holds v) (h' : Means stuck' holds' (all vs)) :
    Means (stuck ∨ stuck') (holds ∧ holds') (all (v :: vs)) := by
  cases v with
  | error e => exact Or.inl h
  | ok b =>
    obtain ⟨hfree, hb⟩ := h
    simp only [all]
    cases hvs : all vs with
    | error e =>
      rw [hvs] at h'
      exact Or.inr h'
    | ok b' =>
      rw [hvs] at h'
      obtain ⟨hfree', hb'⟩ := h'
      refine ⟨fun hor => hor.elim hfree hfree', ?_⟩
      simp [← hb, ← hb']

/-- The parts after one that holds do not matter, neither when they get stuck. -/
theorem means_any_cons (h : Means stuck holds v) (h' : Means stuck' holds' (any vs)) :
    Means (stuck ∨ ¬holds ∧ stuck') (holds ∨ holds') (any (v :: vs)) := by
  cases v with
  | error e => exact Or.inl h
  | ok b =>
    obtain ⟨hfree, hb⟩ := h
    cases b with
    | true =>
      have hholds : holds := hb.mp rfl
      exact ⟨by simp [hfree, hholds], by simp [hholds]⟩
    | false =>
      have hnot : ¬holds := fun hholds => by simpa using hb.mpr hholds
      exact h'.congr (by simp [hfree, hnot]) (by simp [hnot])

section

variable {α : Type*} {parts : List α} {stucks holdings : α → Prop} {verdict : α → Verdict ε}

theorem means_all (h : ∀ part ∈ parts, Means (stucks part) (holdings part) (verdict part)) :
    Means (∃ part ∈ parts, stucks part) (∀ part ∈ parts, holdings part)
      (all (parts.map verdict)) := by
  induction parts with
  | nil => exact means_all_nil.congr (by simp) (by simp)
  | cons part rest ih =>
    obtain ⟨hpart, hrest⟩ := List.forall_mem_cons.mp h
    exact (means_all_cons hpart (ih hrest)).congr (by simp) (by simp)

/-- `stucks` is true of a part, and nothing before it holds. -/
theorem exists_first_cons {first : α} {rest : List α} :
    (∃ before part after, first :: rest = before ++ part :: after ∧
      (∀ earlier ∈ before, ¬holdings earlier) ∧ stucks part) ↔
      stucks first ∨ ¬holdings first ∧ ∃ before part after, rest = before ++ part :: after ∧
        (∀ earlier ∈ before, ¬holdings earlier) ∧ stucks part := by
  constructor
  · rintro ⟨before, part, after, heq, hbefore, hstuck⟩
    cases before with
    | nil =>
      cases heq
      exact Or.inl hstuck
    | cons earlier before =>
      cases heq
      obtain ⟨hfirst, hothers⟩ := List.forall_mem_cons.mp hbefore
      exact Or.inr ⟨hfirst, before, part, after, rfl, hothers, hstuck⟩
  · rintro (hstuck | ⟨hfirst, before, part, after, rfl, hbefore, hstuck⟩)
    · exact ⟨[], first, rest, rfl, by simp, hstuck⟩
    · exact ⟨first :: before, part, after, rfl, List.forall_mem_cons.mpr ⟨hfirst, hbefore⟩, hstuck⟩

theorem means_any (h : ∀ part ∈ parts, Means (stucks part) (holdings part) (verdict part)) :
    Means (∃ before part after, parts = before ++ part :: after ∧
        (∀ earlier ∈ before, ¬holdings earlier) ∧ stucks part)
      (∃ part ∈ parts, holdings part) (any (parts.map verdict)) := by
  induction parts with
  | nil => exact means_any_nil.congr (by simp) (by simp)
  | cons part rest ih =>
    obtain ⟨hpart, hrest⟩ := List.forall_mem_cons.mp h
    exact (means_any_cons hpart (ih hrest)).congr exists_first_cons.symm (by simp)

end

end Verdict

end Mpas
