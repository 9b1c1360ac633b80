import Mathlib.Data.List.Forall2

/-!
# Heaps of objects

A heap is a list of objects, an object's address its place in the list. Objects
are rewritten in place and new ones are put at the end, so an address stays
valid. Rewriting all objects by a relation `R` is `List.Forall₂ R`.

* `lookup_set`, `lookup_append`: what is at an address after a rewriting, or after a new object;
* `forall₂_set`, `forall₂_trans`: rewriting one object, and rewriting twice;
* `Evolves`: what becomes of each object while the heap also grows.
-/

namespace Mpas

namespace Heap

variable {α : Type*} {R S : α → α → Prop} {heap heap' heap'' : List α}

/-! ## Addresses -/

theorem lookup_set {address other : Nat} {object found : α}
    (h : (heap.set address object)[other]? = some found) :
    other = address ∧ found = object ∨ other ≠ address ∧ heap[other]? = some found := by
  by_cases hsame : address = other
  · subst hsame
    have hbound := (List.getElem?_eq_some_iff.mp h).1
    rw [List.length_set] at hbound
    rw [List.getElem?_set_self hbound] at h
    exact .inl ⟨rfl, (Option.some.inj h).symm⟩
  · rw [List.getElem?_set_ne hsame] at h
    exact .inr ⟨Ne.symm hsame, h⟩

theorem lookup_append {address : Nat} {object found : α}
    (h : (heap ++ [object])[address]? = some found) :
    heap[address]? = some found ∨ address = heap.length ∧ found = object := by
  rcases Nat.lt_or_ge address heap.length with hlt | hge
  · rw [List.getElem?_append_left hlt] at h
    exact .inl h
  · have hbound := (List.getElem?_eq_some_iff.mp h).1
    rw [List.length_append, List.length_singleton] at hbound
    obtain rfl : address = heap.length := by omega
    rw [List.getElem?_concat_length] at h
    exact .inr ⟨rfl, (Option.some.inj h).symm⟩

/-! ## Rewriting -/

theorem forall₂_set {address : Nat} {object object' : α} (hrefl : ∀ x, R x x)
    (h : heap[address]? = some object) (hR : R object object') :
    List.Forall₂ R heap (heap.set address object') := by
  induction heap generalizing address with
  | nil => simp at h
  | cons first rest ih =>
    cases address with
    | zero =>
      obtain rfl : first = object := by simpa using h
      exact .cons hR (List.forall₂_same.mpr fun x _ => hrefl x)
    | succ address => exact .cons (hrefl first) (ih (by simpa using h))

theorem forall₂_trans (htrans : ∀ x y z, R x y → R y z → R x z) (h : List.Forall₂ R heap heap')
    (h' : List.Forall₂ R heap' heap'') : List.Forall₂ R heap heap'' := by
  induction h generalizing heap'' with
  | nil => exact h'
  | cons hxy _ ih =>
    cases h' with
    | cons hyz hrest => exact .cons (htrans _ _ _ hxy hyz) (ih hrest)

/-- What rewriting keeps of every object holds of all objects afterwards. -/
theorem forall₂_forall {P Q : α → Prop} (keep : ∀ x y, P x → R x y → Q y)
    (h : List.Forall₂ R heap heap') (hP : ∀ x ∈ heap, P x) : ∀ y ∈ heap', Q y := by
  induction h with
  | nil => simp
  | @cons x y xs ys hxy _ ih =>
    intro z hz
    rcases List.mem_cons.mp hz with rfl | hz
    · exact keep x z (hP x List.mem_cons_self) hxy
    · exact ih (fun w hw => hP w (List.mem_cons_of_mem x hw)) z hz

theorem forall₂_source (h : List.Forall₂ R heap heap') {address : Nat} {object' : α}
    (hobject : heap'[address]? = some object') :
    ∃ object, heap[address]? = some object ∧ R object object' := by
  induction h generalizing address with
  | nil => simp at hobject
  | @cons x y _ _ hxy _ ih =>
    cases address with
    | zero =>
      obtain rfl : y = object' := by simpa using hobject
      exact ⟨x, rfl, hxy⟩
    | succ address => exact ih (by simpa using hobject)

/-! ## Growth -/

/-- Every object is still at its address, changed as `R` allows. -/
def Evolves (R : α → α → Prop) (heap heap' : List α) : Prop :=
  ∀ (address : Nat) (object : α), heap[address]? = some object →
    ∃ object', heap'[address]? = some object' ∧ R object object'

theorem Evolves.refl (hrefl : ∀ x, R x x) (heap : List α) : Evolves R heap heap :=
  fun _ object h => ⟨object, h, hrefl object⟩

theorem Evolves.trans (htrans : ∀ x y z, R x y → R y z → R x z) (h : Evolves R heap heap')
    (h' : Evolves R heap' heap'') : Evolves R heap heap'' := by
  intro address object hobject
  obtain ⟨object', hobject', hR⟩ := h address object hobject
  obtain ⟨object'', hobject'', hR'⟩ := h' address object' hobject'
  exact ⟨object'', hobject'', htrans _ _ _ hR hR'⟩

theorem Evolves.mono (hRS : ∀ x y, R x y → S x y) (h : Evolves R heap heap') :
    Evolves S heap heap' := by
  intro address object hobject
  obtain ⟨object', hobject', hR⟩ := h address object hobject
  exact ⟨object', hobject', hRS _ _ hR⟩

theorem evolves_append (hrefl : ∀ x, R x x) (heap news : List α) :
    Evolves R heap (heap ++ news) := by
  intro address object hobject
  have hbound : address < heap.length := (List.getElem?_eq_some_iff.mp hobject).1
  exact ⟨object, by rw [List.getElem?_append_left hbound, hobject], hrefl object⟩

theorem evolves_of_forall₂ (h : List.Forall₂ R heap heap') : Evolves R heap heap' := by
  intro address object hobject
  induction h generalizing address with
  | nil => simp at hobject
  | @cons x y _ _ hxy _ ih =>
    cases address with
    | zero =>
      obtain rfl : x = object := by simpa using hobject
      exact ⟨y, rfl, hxy⟩
    | succ address => exact ih address (by simpa using hobject)

end Heap

end Mpas
