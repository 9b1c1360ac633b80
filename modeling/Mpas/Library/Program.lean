import Mathlib.Logic.Relation

/-!
# Programs that may end before any of their writes

A program reads and writes contents that outlive its process, throws and
catches exceptions, and returns. Its process can end before any write: an
execution lists, write by write, the contents that such an end leaves behind.

* `wp_bind`, `wp_tryCatch`, `wp_write`: weakest preconditions with a third
  condition, on the contents that are left behind;
* `Moves.bind`, `Moves.write`: from a relation on contents that each write
  respects to the executions of a whole program.
-/

namespace Mpas

structure Execution (σ ε α : Type) where
  result : Except ε α
  contents : σ
  /-- the contents before each write -/
  passed : List σ

def Program (σ ε α : Type) : Type := σ → Execution σ ε α

namespace Program

variable {σ ε α β : Type}

protected def pure (a : α) : Program σ ε α := fun s => ⟨.ok a, s, []⟩

/-- The exception ends this execution after the writes so far. -/
protected def bind (p : Program σ ε α) (f : α → Program σ ε β) : Program σ ε β := fun s =>
  match (p s).result with
  | .ok a =>
    let rest := f a (p s).contents
    ⟨rest.result, rest.contents, (p s).passed ++ rest.passed⟩
  | .error e => ⟨.error e, (p s).contents, (p s).passed⟩

protected def throw (e : ε) : Program σ ε α := fun s => ⟨.error e, s, []⟩

/-- What was written before the exception stays written. -/
protected def tryCatch (p : Program σ ε α) (handler : ε → Program σ ε α) : Program σ ε α := fun s =>
  match (p s).result with
  | .ok a => ⟨.ok a, (p s).contents, (p s).passed⟩
  | .error e =>
    let rest := handler e (p s).contents
    ⟨rest.result, rest.contents, (p s).passed ++ rest.passed⟩

instance : Monad (Program σ ε) where
  pure := Program.pure
  bind := Program.bind

instance : MonadExceptOf ε (Program σ ε) where
  throw := Program.throw
  tryCatch := Program.tryCatch

def read : Program σ ε σ := fun s => ⟨.ok s, s, []⟩

def write (f : σ → α × σ) : Program σ ε α := fun s => ⟨.ok (f s).1, (f s).2, [s]⟩

/-! ## Weakest preconditions -/

/-- From `s`, the program returns within `Q` or throws within `E`, and a
process that ends before one of its writes leaves contents within `C`. -/
def wp (p : Program σ ε α) (Q : α → σ → Prop) (E : ε → σ → Prop) (C : σ → Prop) (s : σ) : Prop :=
  (∀ s' ∈ (p s).passed, C s') ∧
    match (p s).result with
    | .ok a => Q a (p s).contents
    | .error e => E e (p s).contents

section Rules

variable {Q : α → σ → Prop} {E : ε → σ → Prop} {C : σ → Prop} {s : σ}

@[simp] theorem wp_pure (a : α) : wp (pure a : Program σ ε α) Q E C s ↔ Q a s := by
  simp [wp, pure, Program.pure]

@[simp] theorem wp_bind (p : Program σ ε β) (f : β → Program σ ε α) :
    wp (p >>= f) Q E C s ↔ wp p (fun b => wp (f b) Q E C) E C s := by
  show wp (Program.bind p f) Q E C s ↔ _
  unfold wp Program.bind
  cases (p s).result with
  | error e => rfl
  | ok b =>
    simp only [List.mem_append]
    constructor
    · exact fun h => ⟨fun s' hs => h.1 s' (Or.inl hs), fun s' hs => h.1 s' (Or.inr hs), h.2⟩
    · exact fun h => ⟨fun s' hs => hs.elim (h.1 s') (h.2.1 s'), h.2.2⟩

@[simp] theorem wp_throw (e : ε) : wp (throw e : Program σ ε α) Q E C s ↔ E e s := by
  show wp (Program.throw e) Q E C s ↔ _
  simp [wp, Program.throw]

@[simp] theorem wp_tryCatch (p : Program σ ε α) (handler : ε → Program σ ε α) :
    wp (tryCatch p handler) Q E C s ↔ wp p Q (fun e => wp (handler e) Q E C) C s := by
  show wp (Program.tryCatch p handler) Q E C s ↔ _
  unfold wp Program.tryCatch
  cases (p s).result with
  | ok a => rfl
  | error e =>
    simp only [List.mem_append]
    constructor
    · exact fun h => ⟨fun s' hs => h.1 s' (Or.inl hs), fun s' hs => h.1 s' (Or.inr hs), h.2⟩
    · exact fun h => ⟨fun s' hs => hs.elim (h.1 s') (h.2.1 s'), h.2.2⟩

@[simp] theorem wp_read {Q : σ → σ → Prop} :
    wp (read : Program σ ε σ) Q E C s ↔ Q s s := by
  simp [wp, read]

@[simp] theorem wp_write (f : σ → α × σ) :
    wp (write f : Program σ ε α) Q E C s ↔ C s ∧ Q (f s).1 (f s).2 := by
  simp [wp, write]

theorem wp_mono {p : Program σ ε α} {Q' : α → σ → Prop} {E' : ε → σ → Prop} {C' : σ → Prop}
    (h : wp p Q E C s) (hq : ∀ a s, Q a s → Q' a s) (he : ∀ e s, E e s → E' e s)
    (hc : ∀ s, C s → C' s) : wp p Q' E' C' s := by
  refine ⟨fun s' hs => hc s' (h.1 s' hs), ?_⟩
  have h₂ := h.2
  cases hr : (p s).result with
  | ok a =>
    rw [hr] at h₂
    exact hq _ _ h₂
  | error e =>
    rw [hr] at h₂
    exact he _ _ h₂

/-- A program that does not throw returns what its postcondition says. -/
theorem wp_result {p : Program σ ε α} (h : wp p Q (fun _ _ => False) C s) :
    ∃ a, (p s).result = .ok a ∧ Q a (p s).contents := by
  have h₂ := h.2
  cases hr : (p s).result with
  | ok a =>
    rw [hr] at h₂
    exact ⟨a, rfl, h₂⟩
  | error e =>
    rw [hr] at h₂
    exact h₂.elim

end Rules

/-! ## Programs that move by a relation -/

/-- From `s`, wherever the program or its process ends, the contents are
reached from `s` by steps of `M`; `Q` holds where the program returns. -/
def Moves (M : σ → σ → Prop) (p : Program σ ε α) (s : σ) (Q : α → σ → Prop) : Prop :=
  wp p (fun a s' => Relation.ReflTransGen M s s' ∧ Q a s') (fun _ => Relation.ReflTransGen M s)
    (Relation.ReflTransGen M s) s

section Moves

open Relation (ReflTransGen)

variable {M : σ → σ → Prop} {s : σ}

theorem Moves.pure {a : α} {Q : α → σ → Prop} (h : Q a s) :
    Moves M (pure a : Program σ ε α) s Q := by
  rw [Moves, wp_pure]
  exact ⟨.refl, h⟩

theorem Moves.throw {e : ε} {Q : α → σ → Prop} : Moves M (throw e : Program σ ε α) s Q := by
  rw [Moves, wp_throw]

theorem Moves.bind {p : Program σ ε β} {f : β → Program σ ε α} {P : β → σ → Prop}
    {Q : α → σ → Prop} (hp : Moves M p s P)
    (hf : ∀ b s', ReflTransGen M s s' → P b s' → Moves M (f b) s' Q) :
    Moves M (p >>= f) s Q := by
  rw [Moves, wp_bind]
  refine wp_mono hp (fun b s' h => ?_) (fun _ _ h => h) (fun _ h => h)
  exact wp_mono (hf b s' h.1 h.2) (fun _ _ h' => ⟨h.1.trans h'.1, h'.2⟩) (fun _ _ h' => h.1.trans h')
    (fun _ h' => h.1.trans h')

theorem Moves.seq {p : Program σ ε β} {f : β → Program σ ε α} {Q : α → σ → Prop}
    (h : Moves M p s fun b s' => Moves M (f b) s' Q) : Moves M (p >>= f) s Q :=
  h.bind fun _ _ _ h' => h'

theorem Moves.tryCatch {p : Program σ ε α} {handler : ε → Program σ ε α} {Q : α → σ → Prop}
    (hp : Moves M p s Q) (hh : ∀ e s', ReflTransGen M s s' → Moves M (handler e) s' Q) :
    Moves M (tryCatch p handler) s Q := by
  rw [Moves, wp_tryCatch]
  refine wp_mono hp (fun _ _ h => h) (fun e s' h => ?_) (fun _ h => h)
  exact wp_mono (hh e s' h) (fun _ _ h' => ⟨h.trans h'.1, h'.2⟩) (fun _ _ h' => h.trans h')
    (fun _ h' => h.trans h')

theorem Moves.read {Q : σ → σ → Prop} (h : Q s s) : Moves M (read : Program σ ε σ) s Q := by
  rw [Moves, wp_read]
  exact ⟨.refl, h⟩

theorem Moves.write {f : σ → α × σ} {Q : α → σ → Prop} (hm : ReflTransGen M s (f s).2)
    (h : Q (f s).1 (f s).2) : Moves M (write f : Program σ ε α) s Q := by
  rw [Moves, wp_write]
  exact ⟨.refl, hm, h⟩

theorem Moves.mono {p : Program σ ε α} {Q Q' : α → σ → Prop} (h : Moves M p s Q)
    (hq : ∀ a s, Q a s → Q' a s) : Moves M p s Q' :=
  wp_mono h (fun a s' h => ⟨h.1, hq a s' h.2⟩) (fun _ _ h => h) (fun _ h => h)

/-- All contents of an execution are reached by steps of `M`. -/
theorem Moves.contents {p : Program σ ε α} {Q : α → σ → Prop} (h : Moves M p s Q) :
    ReflTransGen M s (p s).contents := by
  have h₂ := h.2
  cases hr : (p s).result with
  | ok a =>
    rw [hr] at h₂
    exact h₂.1
  | error e =>
    rw [hr] at h₂
    exact h₂

theorem Moves.passed {p : Program σ ε α} {Q : α → σ → Prop} (h : Moves M p s Q) {s' : σ}
    (hs : s' ∈ (p s).passed) : ReflTransGen M s s' := h.1 s' hs

theorem Moves.returned {p : Program σ ε α} {Q : α → σ → Prop} (h : Moves M p s Q) {a : α}
    (hr : (p s).result = .ok a) : Q a (p s).contents := by
  have h₂ := h.2
  rw [hr] at h₂
  exact h₂.2

end Moves

end Program

end Mpas
