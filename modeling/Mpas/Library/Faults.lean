import Mpas.Library.Program

/-!
# Programs whose operations may fail

An operation is performed, or it fails and leaves the contents as they are. A
check does not fail, but it may miss what is there. Both are decided before the
program starts, by two lists with one entry for each operation and each check;
a *sure* start is one with no check that misses.

* `Triple`: from contents within `P`, a sure execution returns within `Q`,
  throws within `E`, and a process that ends before then leaves contents within `C`;
* `Triple.bind`, `Triple.tryCatch`, `Triple.forM`: the rules of composition;
* `Ends`, `Returns`, `Throws`: what executions come to;
* `Completes`: an execution in which nothing fails returns within `Q`.
-/

namespace Mpas

structure Faulty (σ : Type) where
  contents : σ
  faults : List Bool := []
  misses : List Bool := []

namespace Faulty

variable {σ ε α β : Type}

/-- No check misses what is there. -/
def Sure (s : Faulty σ) : Prop := ∀ missed ∈ s.misses, missed = false

def perform (failure : ε) (f : σ → Except ε (α × σ)) (s : Faulty σ) : Except ε α × Faulty σ :=
  if s.faults.head? = some true then (.error failure, { s with faults := s.faults.tail })
  else match f s.contents with
    | .ok (a, contents) => (.ok a, { s with contents, faults := s.faults.tail })
    | .error e => (.error e, { s with faults := s.faults.tail })

/-- An operation that does `f` or fails. -/
def attempt (failure : ε) (f : σ → Except ε (α × σ)) : Program (Faulty σ) ε α := do
  match ← Program.write (perform failure f) with
  | .ok a => return a
  | .error e => throw e

def look (f : σ → Bool) (s : Faulty σ) : Bool × Faulty σ :=
  (if s.misses.head? = some true then false else f s.contents, { s with misses := s.misses.tail })

def check (f : σ → Bool) : Program (Faulty σ) ε Bool := Program.write (look f)

/-- A look at the contents whose failure passes for `missed`. -/
def glance (missed : α) (f : σ → α) : Program (Faulty σ) ε α := Program.write fun s =>
  (if s.misses.head? = some true then missed else f s.contents, { s with misses := s.misses.tail })

/-! ## Triples -/

def Triple (P : σ → Prop) (p : Program (Faulty σ) ε α) (Q : α → σ → Prop) (E C : σ → Prop) : Prop :=
  ∀ s : Faulty σ, s.Sure → P s.contents →
    p.wp (fun a s' => s'.Sure ∧ Q a s'.contents) (fun _ s' => s'.Sure ∧ E s'.contents)
      (fun s' => C s'.contents) s

variable {P P' : σ → Prop} {p : Program (Faulty σ) ε α} {Q Q' : α → σ → Prop} {E E' C C' : σ → Prop}

theorem Triple.pure {a : α} (h : ∀ s, P s → Q a s) :
    Triple P (pure a : Program (Faulty σ) ε α) Q E C := by
  intro s hsure hs
  rw [Program.wp_pure]
  exact ⟨hsure, h _ hs⟩

theorem Triple.throw {e : ε} (h : ∀ s, P s → E s) :
    Triple P (throw e : Program (Faulty σ) ε α) Q E C := by
  intro s hsure hs
  rw [Program.wp_throw]
  exact ⟨hsure, h _ hs⟩

theorem Triple.bind {f : β → Program (Faulty σ) ε α} {p : Program (Faulty σ) ε β}
    {R : β → σ → Prop} (hp : Triple P p R E C) (hf : ∀ b, Triple (R b) (f b) Q E C) :
    Triple P (p >>= f) Q E C := by
  intro s hsure hs
  rw [Program.wp_bind]
  exact Program.wp_mono (hp s hsure hs) (fun b s' h => hf b s' h.1 h.2) (fun _ _ h => h)
    fun _ h => h

/-- The rule for a program whose result is not used. -/
theorem Triple.seq {f : Unit → Program (Faulty σ) ε α} {p : Program (Faulty σ) ε Unit}
    {R : σ → Prop} (hp : Triple P p (fun _ => R) E C) (hf : Triple R (f ()) Q E C) :
    Triple P (p >>= f) Q E C :=
  hp.bind fun _ => hf

theorem Triple.tryCatch {handler : ε → Program (Faulty σ) ε α} (hp : Triple P p Q E' C)
    (hh : ∀ e, Triple E' (handler e) Q E C) : Triple P (tryCatch p handler) Q E C := by
  intro s hsure hs
  rw [Program.wp_tryCatch]
  exact Program.wp_mono (hp s hsure hs) (fun _ _ h => h) (fun e s' h => hh e s' h.1 h.2)
    fun _ h => h

theorem Triple.weaken (h : Triple P p Q E C) (hp : ∀ s, P' s → P s) (hq : ∀ a s, Q a s → Q' a s)
    (he : ∀ s, E s → E' s) (hc : ∀ s, C s → C' s) : Triple P' p Q' E' C' := fun s hsure hs =>
  Program.wp_mono (h s hsure (hp _ hs)) (fun a _ h => ⟨h.1, hq a _ h.2⟩)
    (fun _ _ h => ⟨h.1, he _ h.2⟩) fun _ h => hc _ h

theorem Triple.strengthen (h : Triple P p Q E C) (hp : ∀ s, P' s → P s) : Triple P' p Q E C :=
  h.weaken hp (fun _ _ h => h) (fun _ h => h) fun _ h => h

theorem Triple.or (h : Triple P p Q E C) (h' : Triple P' p Q E C) :
    Triple (fun s => P s ∨ P' s) p Q E C :=
  fun s hsure hs => hs.elim (h s hsure) (h' s hsure)

theorem Triple.exists {ι : Sort*} {P : ι → σ → Prop} (h : ∀ i, Triple (P i) p Q E C) :
    Triple (fun s => ∃ i, P i s) p Q E C := by
  rintro s hsure ⟨i, hs⟩
  exact h i s hsure hs

/-- What holds from each of the contents holds from all of them. -/
theorem Triple.of_each (h : ∀ s, P s → Triple (fun s' => s' = s) p Q E C) : Triple P p Q E C :=
  fun s hsure hs => h s.contents hs s hsure rfl

/-- A condition on no contents is taken out of the precondition. -/
theorem Triple.given {fact : Prop} (h : fact → Triple P p Q E C) :
    Triple (fun s => fact ∧ P s) p Q E C :=
  fun s hsure hs => h hs.1 s hsure hs.2

theorem Sure.tail {s : Faulty σ} (h : s.Sure) : ∀ missed ∈ s.misses.tail, missed = false :=
  fun missed hmem => h missed (List.mem_of_mem_tail hmem)

theorem perform_spec (failure : ε) (f : σ → Except ε (α × σ)) (s : Faulty σ) :
    (perform failure f s).2.misses = s.misses ∧
      ((∃ e, (perform failure f s).1 = .error e) ∧
          (perform failure f s).2.contents = s.contents ∨
        ∃ a, (perform failure f s).1 = .ok a ∧
          f s.contents = .ok (a, (perform failure f s).2.contents)) := by
  unfold perform
  split
  · exact ⟨rfl, Or.inl ⟨⟨failure, rfl⟩, rfl⟩⟩
  · cases f s.contents with
    | ok result => exact ⟨rfl, Or.inr ⟨result.1, rfl, rfl⟩⟩
    | error e => exact ⟨rfl, Or.inl ⟨⟨e, rfl⟩, rfl⟩⟩

/-- What an operation starts from must be fit to be left, as it may fail. -/
theorem Triple.attempt {failure : ε} {f : σ → Except ε (α × σ)} (he : ∀ s, P s → E s)
    (hc : ∀ s, P s → C s) (hq : ∀ s a s', P s → f s = .ok (a, s') → Q a s') :
    Triple P (attempt failure f) Q E C := by
  intro s hsure hs
  unfold Faulty.attempt
  rw [Program.wp_bind, Program.wp_write]
  refine ⟨hc _ hs, ?_⟩
  obtain ⟨hmisses, ⟨⟨e, herror⟩, hsame⟩ | ⟨a, hok, hf⟩⟩ := perform_spec failure f s
  · have hsure' : (perform failure f s).2.Sure := by rwa [Sure, hmisses]
    rw [herror]
    simp only [Program.wp_throw]
    exact ⟨hsure', by rw [hsame]; exact he _ hs⟩
  · have hsure' : (perform failure f s).2.Sure := by rwa [Sure, hmisses]
    rw [hok]
    simp only [Program.wp_pure]
    exact ⟨hsure', hq _ _ _ hs hf⟩

theorem Triple.check {f : σ → Bool} {Q : Bool → σ → Prop} (hc : ∀ s, P s → C s)
    (hq : ∀ s, P s → Q (f s) s) : Triple P (check f : Program (Faulty σ) ε Bool) Q E C := by
  intro s hsure hs
  unfold Faulty.check
  rw [Program.wp_write]
  have hseen : (look f s).1 = f s.contents := by
    unfold look
    cases hmisses : s.misses with
    | nil => rfl
    | cons missed rest =>
      have hfalse : missed = false := hsure missed (by rw [hmisses]; exact List.mem_cons_self)
      simp [hfalse]
  refine ⟨hc _ hs, hsure.tail, ?_⟩
  rw [hseen]
  exact hq _ hs

theorem Triple.glance {missed : α} {f : σ → α} (hc : ∀ s, P s → C s)
    (hq : ∀ s, P s → Q (f s) s) :
    Triple P (glance missed f : Program (Faulty σ) ε α) Q E C := by
  intro s hsure hs
  unfold Faulty.glance
  rw [Program.wp_write]
  have hseen : ¬ s.misses.head? = some true := by
    intro hhead
    have hmissed := hsure true (List.mem_of_mem_head? hhead)
    cases hmissed
  rw [if_neg hseen]
  exact ⟨hc _ hs, hsure.tail, hq _ hs⟩

/-- A loop: `I` holds of the items that are done and those that are left. -/
theorem Triple.forM {items : List β} {body : β → Program (Faulty σ) ε PUnit}
    {I : List β → List β → σ → Prop}
    (h : ∀ done item rest, items = done ++ item :: rest →
      Triple (I done (item :: rest)) (body item) (fun _ => I (done ++ [item]) rest) E C) :
    Triple (I [] items) (items.forM body) (fun _ => I items []) E C := by
  have hloop : ∀ rest done, items = done ++ rest →
      Triple (I done rest) (rest.forM body) (fun _ => I items []) E C := by
    intro rest
    induction rest with
    | nil =>
      intro done heq
      rw [List.append_nil] at heq
      subst heq
      exact Triple.pure fun _ h => h
    | cons item rest ih =>
      intro done heq
      show Triple (I done (item :: rest)) (body item >>= fun _ => rest.forM body) _ E C
      exact (h done item rest heq).bind fun _ => ih (done ++ [item]) (by rw [heq]; simp)
  exact hloop items [] rfl

/-- A loop that keeps one condition. -/
theorem Triple.forM_const {items : List β} {body : β → Program (Faulty σ) ε PUnit}
    (h : ∀ item ∈ items, Triple P (body item) (fun _ => P) E C) :
    Triple P (items.forM body) (fun _ => P) E C := by
  refine Triple.forM (I := fun _ _ => P) fun done item rest heq => h item ?_
  rw [heq]
  exact List.mem_append_right done List.mem_cons_self

/-- A loop over the images of the items. -/
theorem Triple.forM_map {γ : Type} {g : γ → β} {items : List γ}
    {body : β → Program (Faulty σ) ε PUnit} {I : List γ → List γ → σ → Prop}
    (h : ∀ done item rest, items = done ++ item :: rest →
      Triple (I done (item :: rest)) (body (g item)) (fun _ => I (done ++ [item]) rest) E C) :
    Triple (I [] items) ((items.map g).forM body) (fun _ => I items []) E C := by
  have himages : ∀ list : List γ,
      (list.map g).forM body = list.forM fun item => body (g item) := by
    intro list
    induction list with
    | nil => rfl
    | cons item rest ih =>
      show (body (g item) >>= fun _ => (rest.map g).forM body) = _
      rw [ih]
      rfl
  rw [himages]
  exact Triple.forM h

/-- What two triples say of one program holds together. -/
theorem Triple.and {Q₁ : α → σ → Prop} {E₁ C₁ : σ → Prop} (h : Triple P p Q E C)
    (h' : Triple P' p Q₁ E₁ C₁) :
    Triple (fun s => P s ∧ P' s) p (fun a s => Q a s ∧ Q₁ a s) (fun s => E s ∧ E₁ s)
      fun s => C s ∧ C₁ s := by
  intro s hsure hs
  obtain ⟨hpassed, hend⟩ := h s hsure hs.1
  obtain ⟨hpassed', hend'⟩ := h' s hsure hs.2
  refine ⟨fun left hleft => ⟨hpassed left hleft, hpassed' left hleft⟩, ?_⟩
  cases hresult : (p s).result with
  | ok a =>
    rw [hresult] at hend hend'
    exact ⟨hend.1, hend.2, hend'.2⟩
  | error e =>
    rw [hresult] at hend hend'
    exact ⟨hend.1, hend.2, hend'.2⟩

/-! ## Executions -/

/-- A sure execution from `s`, or a process that ends before it does, leaves `s'`. -/
def Ends (p : Program (Faulty σ) ε α) (s s' : σ) : Prop :=
  ∃ start : Faulty σ, start.contents = s ∧ start.Sure ∧
    ((∃ left ∈ (p start).passed, left.contents = s') ∨ (p start).contents.contents = s')

def Returns (p : Program (Faulty σ) ε α) (s s' : σ) : Prop :=
  ∃ start : Faulty σ, start.contents = s ∧ start.Sure ∧ ∃ a, (p start).result = .ok a ∧
    (p start).contents.contents = s'

def Throws (p : Program (Faulty σ) ε α) (s s' : σ) : Prop :=
  ∃ start : Faulty σ, start.contents = s ∧ start.Sure ∧ ∃ e, (p start).result = .error e ∧
    (p start).contents.contents = s'

theorem Triple.returns (h : Triple P p Q E C) {s s' : σ} (hs : P s) (hp : Returns p s s') :
    ∃ a, Q a s' := by
  obtain ⟨start, rfl, hsure, a, hresult, rfl⟩ := hp
  have hend := (h start hsure hs).2
  rw [hresult] at hend
  exact ⟨a, hend.2⟩

theorem Triple.throws (h : Triple P p Q E C) {s s' : σ} (hs : P s) (hp : Throws p s s') :
    E s' := by
  obtain ⟨start, rfl, hsure, e, hresult, rfl⟩ := hp
  have hend := (h start hsure hs).2
  rw [hresult] at hend
  exact hend.2

theorem Triple.ends (h : Triple P p Q E C) {s s' : σ} (hs : P s) (hp : Ends p s s') :
    (∃ a, Q a s') ∨ E s' ∨ C s' := by
  obtain ⟨start, rfl, hsure, ⟨left, hleft, rfl⟩ | rfl⟩ := hp
  · exact Or.inr (Or.inr ((h start hsure hs).1 left hleft))
  · have hend := (h start hsure hs).2
    cases hresult : (p start).result with
    | ok a =>
      rw [hresult] at hend
      exact Or.inl ⟨a, hend.2⟩
    | error e =>
      rw [hresult] at hend
      exact Or.inr (Or.inl hend.2)

/-! ## Executions in which nothing fails -/

def Completes (P : σ → Prop) (p : Program (Faulty σ) ε α) (Q : α → σ → Prop) : Prop :=
  ∀ s, P s → ∃ a s', (p { contents := s }).result = .ok a ∧
    (p { contents := s }).contents = { contents := s' } ∧ Q a s'

theorem Completes.pure {a : α} (h : ∀ s, P s → Q a s) :
    Completes P (pure a : Program (Faulty σ) ε α) Q :=
  fun s hs => ⟨a, s, rfl, rfl, h s hs⟩

theorem Completes.bind {f : β → Program (Faulty σ) ε α} {p : Program (Faulty σ) ε β}
    {R : β → σ → Prop} (hp : Completes P p R) (hf : ∀ b, Completes (R b) (f b) Q) :
    Completes P (p >>= f) Q := by
  intro s hs
  obtain ⟨b, s', hresult, hcontents, hb⟩ := hp s hs
  obtain ⟨a, s'', hresult', hcontents', ha⟩ := hf b s' hb
  have hrun : (p >>= f) { contents := s } =
      ⟨(f b { contents := s' }).result, (f b { contents := s' }).contents,
        (p { contents := s }).passed ++ (f b { contents := s' }).passed⟩ := by
    show Program.bind p f { contents := s } = _
    unfold Program.bind
    rw [hresult, hcontents]
  exact ⟨a, s'', by rw [hrun, hresult'], by rw [hrun, hcontents'], ha⟩

theorem Completes.attempt {failure : ε} {f : σ → Except ε (α × σ)}
    (h : ∀ s, P s → ∃ a s', f s = .ok (a, s') ∧ Q a s') : Completes P (attempt failure f) Q := by
  intro s hs
  obtain ⟨a, s', hf, ha⟩ := h s hs
  have hperform : perform failure f { contents := s } = (.ok a, { contents := s' }) := by
    simp [perform, hf]
  have hrun : Faulty.attempt failure f { contents := s } =
      ⟨.ok a, { contents := s' }, [{ contents := s }]⟩ := by
    simp only [Faulty.attempt, Bind.bind, Program.bind, Program.write, hperform]
    rfl
  exact ⟨a, s', by rw [hrun], by rw [hrun], ha⟩

theorem Completes.forM {items : List β} {body : β → Program (Faulty σ) ε PUnit}
    (h : ∀ item ∈ items, Completes P (body item) (fun _ => P)) :
    Completes P (items.forM body) (fun _ => P) := by
  induction items with
  | nil => exact Completes.pure fun _ hs => hs
  | cons item rest ih =>
    show Completes P (body item >>= fun _ => rest.forM body) _
    exact (h item List.mem_cons_self).bind fun _ =>
      ih fun other hmem => h other (List.mem_cons_of_mem _ hmem)

theorem Completes.check {f : σ → Bool} {Q : Bool → σ → Prop} (h : ∀ s, P s → Q (f s) s) :
    Completes P (check f : Program (Faulty σ) ε Bool) Q :=
  fun s hs => ⟨f s, s, rfl, rfl, h s hs⟩

theorem Completes.returns (h : Completes P p Q) {s : σ} (hs : P s) :
    ∃ a s', Returns p s s' ∧ Q a s' := by
  obtain ⟨a, s', hresult, hcontents, ha⟩ := h s hs
  refine ⟨a, s', ⟨{ contents := s }, rfl, fun _ hmem => absurd hmem List.not_mem_nil, a, hresult, ?_⟩,
    ha⟩
  rw [hcontents]

end Faulty

end Mpas
