import Mathlib.Logic.Relation

/-!
# Runs of a partial step function

A system is a state type, a type of events and a partial `step`: `none` means
that the event is not enabled. A `Run` takes one step after another; every
step taken meets a side condition `C` on the state before it and its event,
so that a law which needs something of the environment says so at each step.

* `Run.invariant`: what holds first and is kept by each step holds at the end;
* `Run.relates`: what each step relates, the ends of a run are related by;
* `Run.append`: runs compose;
* `run_of_exec`, `run_of_checked`: executing the events one by one gives a run.
-/

namespace Mpas

namespace Machine

variable {σ ε : Type*}

inductive Run (step : σ → ε → Option σ) (C : σ → ε → Prop) : σ → List ε → σ → Prop
  | nil (s : σ) : Run step C s [] s
  | cons {s t u : σ} {e : ε} {es : List ε} :
      C s e → step s e = some t → Run step C t es u → Run step C s (e :: es) u

/-- The side condition that asks nothing. -/
def Free : σ → ε → Prop := fun _ _ => True

variable {step : σ → ε → Option σ} {C : σ → ε → Prop}

theorem Run.single {s t : σ} {e : ε} (hc : C s e) (hs : step s e = some t) :
    Run step C s [e] t := .cons hc hs (.nil t)

theorem Run.append {s t u : σ} {es fs : List ε} (h : Run step C s es t)
    (h' : Run step C t fs u) : Run step C s (es ++ fs) u := by
  induction h with
  | nil => exact h'
  | cons hc hs _ ih => exact .cons hc hs (ih h')

theorem Run.weaken {D : σ → ε → Prop} (hCD : ∀ s e, C s e → D s e) {s t : σ} {es : List ε}
    (h : Run step C s es t) : Run step D s es t := by
  induction h with
  | nil s => exact .nil s
  | cons hc hs _ ih => exact .cons (hCD _ _ hc) hs ih

theorem Run.strengthen {D : ε → Prop} {s t : σ} {es : List ε} (h : Run step C s es t)
    (hD : ∀ e ∈ es, D e) : Run step (fun s e => C s e ∧ D e) s es t := by
  induction h with
  | nil s => exact .nil s
  | @cons _ _ _ e _ hc hs _ ih =>
    exact .cons ⟨hc, hD e List.mem_cons_self⟩ hs
      (ih fun e' he' => hD e' (List.mem_cons_of_mem e he'))

/-- **Invariant rule.** -/
theorem Run.invariant {I : σ → Prop} (keep : ∀ s e t, I s → C s e → step s e = some t → I t)
    {s t : σ} {es : List ε} (h : Run step C s es t) (hs : I s) : I t := by
  induction h with
  | nil => exact hs
  | cons hc hstep _ ih => exact ih (keep _ _ _ hs hc hstep)

/-- What holds before each step and at the end holds at the start. -/
theorem Run.at_start {I : σ → Prop} (before : ∀ s e, C s e → I s) {s t : σ} {es : List ε}
    (h : Run step C s es t) (ht : I t) : I s := by
  cases h with
  | nil => exact ht
  | cons hc _ _ => exact before _ _ hc

/-- **Relation along a run.** If each step between two states with `I` respects a
reflexive and transitive relation, the relation holds between the ends of a run
that stays in `I`. -/
theorem Run.relates_within {I : σ → Prop} {R : σ → σ → Prop} (refl : ∀ s, R s s)
    (trans : ∀ s t u, R s t → R t u → R s u) (before : ∀ s e, C s e → I s)
    (keep : ∀ s e t, I s → I t → C s e → step s e = some t → R s t)
    {s t : σ} {es : List ε} (h : Run step C s es t) (ht : I t) : R s t := by
  induction h with
  | nil s => exact refl s
  | cons hc hstep hrest ih =>
    have hnext := hrest.at_start before ht
    exact trans _ _ _ (keep _ _ _ (before _ _ hc) hnext hc hstep) (ih ht)

/-- **Simulation of a relation.** A reflexive and transitive relation that each
step respects, under an invariant, relates the ends of a run. -/
theorem Run.relates {I : σ → Prop} {R : σ → σ → Prop} (refl : ∀ s, R s s)
    (trans : ∀ s t u, R s t → R t u → R s u)
    (keep : ∀ s e t, I s → C s e → step s e = some t → I t ∧ R s t)
    {s t : σ} {es : List ε} (h : Run step C s es t) (hs : I s) : R s t := by
  induction h with
  | nil s => exact refl s
  | cons hc hstep _ ih =>
    obtain ⟨hi, hr⟩ := keep _ _ _ hs hc hstep
    exact trans _ _ _ hr (ih hi)

/-! ## Execution -/

def exec (step : σ → ε → Option σ) : σ → List ε → Option σ
  | s, [] => some s
  | s, e :: es => (step s e).bind fun t => exec step t es

theorem run_of_exec {s t : σ} {es : List ε} (h : exec step s es = some t) :
    Run step Free s es t := by
  induction es generalizing s with
  | nil =>
    cases h
    exact .nil _
  | cons e es ih =>
    obtain ⟨u, hu, hr⟩ := Option.bind_eq_some_iff.mp h
    exact .cons trivial hu (ih hr)

theorem run_of_exec_any {P : σ → Prop} [DecidablePred P] {s : σ} {es : List ε}
    (h : (exec step s es).any fun t => decide (P t)) : ∃ t, Run step Free s es t ∧ P t := by
  cases ht : exec step s es with
  | none => simp [ht] at h
  | some t => exact ⟨t, run_of_exec ht, by simpa [ht] using h⟩

/-- The step function that checks its side condition. -/
def checked (step : σ → ε → Option σ) (c : σ → ε → Bool) (s : σ) (e : ε) : Option σ :=
  if c s e then step s e else none

theorem run_of_checked {c : σ → ε → Bool} {s t : σ} {es : List ε}
    (h : exec (checked step c) s es = some t) : Run step (fun s e => c s e = true) s es t := by
  induction es generalizing s with
  | nil =>
    cases h
    exact .nil _
  | cons e es ih =>
    obtain ⟨u, hu, hr⟩ := Option.bind_eq_some_iff.mp h
    unfold checked at hu
    split at hu
    · rename_i hc
      exact .cons hc hu (ih hr)
    · cases hu

theorem run_of_checked_any {P : σ → Prop} [DecidablePred P] {c : σ → ε → Bool} {s : σ}
    {es : List ε} (h : (exec (checked step c) s es).any fun t => decide (P t)) :
    ∃ t, Run step (fun s e => c s e = true) s es t ∧ P t := by
  cases ht : exec (checked step c) s es with
  | none => simp [ht] at h
  | some t => exact ⟨t, run_of_checked ht, by simpa [ht] using h⟩

end Machine

end Mpas
