import Mathlib.Data.List.Basic

/-!
# Chains of checks

A validation is a chain of checks that each throw or go on. What a chain that
came to its end has established is read off link by link.

* `bind_eq_ok`, `map_eq_ok`, `mapError_eq_ok`: a chain ends well if its links do;
* `throwIf_eq_ok`, `forM_eq_ok`: what one check, and a check of each element, establish.
-/

namespace Mpas

namespace Checks

variable {ε : Type*} {α β : Type}

/-- Throw `error` if `bad`. -/
def throwIf (bad : Prop) [Decidable bad] (error : ε) : Except ε Unit :=
  if bad then .error error else .ok ()

theorem throwIf_eq_ok {bad : Prop} [Decidable bad] {error : ε} {u : Unit} :
    throwIf bad error = .ok u ↔ ¬bad := by
  by_cases h : bad <;> simp [throwIf, h]

theorem bind_eq_ok {x : Except ε α} {f : α → Except ε β} {b : β} :
    (x >>= f) = .ok b ↔ ∃ a, x = .ok a ∧ f a = .ok b := by
  cases x with
  | error e => simp [bind, Except.bind]
  | ok a => simp [bind, Except.bind]

/-- A chain that has thrown does not end well. -/
theorem error_bind_ne_ok {e : ε} {f : α → Except ε β} {b : β} :
    (Except.error e >>= f) ≠ .ok b := by
  intro h
  cases h

theorem map_eq_ok {x : Except ε α} {f : α → β} {b : β} :
    x.map f = .ok b ↔ ∃ a, x = .ok a ∧ f a = b := by
  cases x <;> simp [Except.map]

theorem mapError_eq_ok {ε' : Type*} {x : Except ε α} {f : ε → ε'} {a : α} :
    x.mapError f = .ok a ↔ x = .ok a := by
  cases x <;> simp [Except.mapError]

/-- A check in front of the rest of a chain. -/
theorem throwIf_bind_eq_ok {bad : Prop} [Decidable bad] {error : ε} {f : Unit → Except ε β}
    {b : β} : (throwIf bad error >>= f) = .ok b ↔ ¬bad ∧ f () = .ok b := by
  by_cases h : bad <;> simp [throwIf, h, bind, Except.bind]

theorem forM_eq_ok {check : α → Except ε Unit} {xs : List α} :
    xs.forM check = .ok () ↔ ∀ x ∈ xs, check x = .ok () := by
  induction xs with
  | nil =>
    constructor
    · simp
    · exact fun _ => rfl
  | cons x xs ih =>
    show (check x >>= fun _ => xs.forM check) = .ok () ↔ _
    rw [bind_eq_ok]
    constructor
    · rintro ⟨_, hx, hrest⟩
      simpa [hx] using ih.mp hrest
    · intro hall
      exact ⟨(), hall x List.mem_cons_self, ih.mpr fun y hy => hall y (List.mem_cons_of_mem x hy)⟩

end Checks

end Mpas
