import Mathlib.Logic.Function.Basic
import Mpas.Library.Machine

/-!
# The home lock

Commands of several processes take the lock of one home. A process does one file
operation after another, and those of the others come between any two of them.
The exclusive create and the writing of the record are two operations, and so are
the second read of a lock and its removal.

* `home_lock_exclusive`: the lock is exclusive as long as no `acquireHomeLock`
  removes the lock of a process that is still running, and one that does can be
  followed by two holders;
* `removed_live_lock`: such a removal comes from one of those two pairs.
-/

namespace Mpas.HomeLock

open Machine

/-! ## The lock file -/

abbrev Pid := Nat

structure LockRecord where
  pid : Pid
  startedAt : String
  deriving DecidableEq, Repr

structure LockFile where
  /-- whose exclusive create the file comes from -/
  creator : Pid
  /-- `none` until the record is written -/
  text : Option LockRecord
  deriving DecidableEq, Repr

/-- What a process does next. -/
inductive Phase
  | idle
  /-- crashed, or ended otherwise -/
  | ended
  /-- before the exclusive create -/
  | creating (attempt : Nat) (mine : LockRecord)
  /-- before its record is written -/
  | writing (mine : LockRecord)
  /-- before the first read of a lock that another process has -/
  | reading (attempt : Nat) (mine : LockRecord)
  /-- before the question whether the holder is alive -/
  | checking (attempt : Nat) (mine : LockRecord) (held : Option LockRecord)
  /-- before the second read -/
  | rereading (attempt : Nat) (mine : LockRecord) (held : Option LockRecord)
  /-- before the removal of the lock -/
  | removing (attempt : Nat) (mine : LockRecord) (held : Option LockRecord)
  /-- `acquireHomeLock` has returned -/
  | holding (mine : LockRecord)
  /-- before the read of the release function -/
  | releasing (mine : LockRecord)
  /-- before the removal of the release function -/
  | unlinking (mine : LockRecord)
  deriving DecidableEq, Repr

structure State where
  file : Option LockFile
  phase : Pid → Phase

inductive Event
  /-- calls `acquireHomeLock` -/
  | start (pid : Pid) (startedAt : String)
  /-- the next operation of a process -/
  | run (pid : Pid)
  /-- calls the release function -/
  | release (pid : Pid)
  | crash (pid : Pid)
  deriving DecidableEq, Repr

/-! ## Taking and releasing -/

def State.setPhase (s : State) (p : Pid) (phase : Phase) : State :=
  { s with phase := Function.update s.phase p phase }

@[simp] theorem State.setPhase_file (s : State) (p : Pid) (phase : Phase) :
    (s.setPhase p phase).file = s.file := rfl

@[simp] theorem State.setPhase_self (s : State) (p : Pid) (phase : Phase) :
    (s.setPhase p phase).phase p = phase := Function.update_self ..

theorem State.setPhase_of_ne (s : State) (phase : Phase) {p q : Pid} (h : q ≠ p) :
    (s.setPhase p phase).phase q = s.phase q := Function.update_of_ne h ..

/-- The loop goes round twice. -/
def nextAttempt (attempt : Nat) (mine : LockRecord) : Phase :=
  if attempt + 1 < 2 then .creating (attempt + 1) mine else .idle

/-- A write to the file that `p` has created, wherever that is now. -/
def writeRecord (p : Pid) (mine : LockRecord) : Option LockFile → Option LockFile
  | some f => if f.creator = p then some { f with text := some mine } else some f
  | none => none

def isProcessAlive (s : State) (pid : Pid) : Bool := decide (s.phase pid ≠ .ended)

def acquireStep (s : State) (p : Pid) : Phase → Option State
  | .creating attempt mine =>
    match s.file with
    | none => some ({ s with file := some ⟨p, none⟩ }.setPhase p (.writing mine))
    | some _ => some (s.setPhase p (.reading attempt mine))
  | .writing mine =>
    some ({ s with file := writeRecord p mine s.file }.setPhase p (.holding mine))
  | .reading attempt mine =>
    match s.file with
    | none => some (s.setPhase p (nextAttempt attempt mine))
    | some f => some (s.setPhase p (.checking attempt mine f.text))
  | .checking attempt mine held =>
    match held with
    | some record =>
      if record.pid ≠ p ∧ isProcessAlive s record.pid then some (s.setPhase p .idle)
      else some (s.setPhase p (.rereading attempt mine held))
    | none => some (s.setPhase p (.rereading attempt mine held))
  | .rereading attempt mine held =>
    if s.file.map LockFile.text = some held then some (s.setPhase p (.removing attempt mine held))
    else some (s.setPhase p (nextAttempt attempt mine))
  | .removing attempt mine _ =>
    some ({ s with file := none }.setPhase p (nextAttempt attempt mine))
  | .releasing mine =>
    if s.file.map LockFile.text = some (some mine) then some (s.setPhase p (.unlinking mine))
    else some (s.setPhase p .idle)
  | .unlinking _ => some ({ s with file := none }.setPhase p .idle)
  | .idle | .ended | .holding _ => none

def step (s : State) : Event → Option State
  | .start p startedAt =>
    if s.phase p = .idle then some (s.setPhase p (.creating 0 ⟨p, startedAt⟩)) else none
  | .run p => acquireStep s p (s.phase p)
  | .release p =>
    match s.phase p with
    | .holding mine => some (s.setPhase p (.releasing mine))
    | _ => none
  | .crash p => some (s.setPhase p .ended)

/-! ## Exclusion -/

/-- Between a successful `acquireHomeLock` and the end of its release. -/
def Phase.Holds : Phase → Prop
  | .holding _ | .releasing _ | .unlinking _ => True
  | _ => False

/-- The lock file of a process that has one. -/
def Phase.lock (p : Pid) : Phase → Option LockFile
  | .writing _ => some ⟨p, none⟩
  | .holding mine | .releasing mine | .unlinking mine => some ⟨p, some mine⟩
  | _ => none

def Exclusive (s : State) : Prop :=
  ∀ p q, (s.phase p).Holds → (s.phase q).Holds → p = q

/-- Every process is idle or gone, and a lock file was left by one that is gone. -/
structure Initial (s : State) : Prop where
  phase : ∀ p, s.phase p = .idle ∨ s.phase p = .ended
  file : ∀ f, s.file = some f →
    s.phase f.creator = .ended ∧ ∀ record, f.text = some record → record.pid = f.creator

/-- `acquireHomeLock` is about to remove the lock of a process that is still running. -/
def removesLive (s : State) : Event → Bool
  | .run p =>
    match s.phase p, s.file with
    | .removing _ _ _, some f => isProcessAlive s f.creator
    | _, _ => false
  | _ => false

def SparesLive (s : State) (e : Event) : Prop := removesLive s e = false

/-! ## One operation -/

variable {s t : State} {p q : Pid} {e : Event}

/-- What one operation of a process does. -/
inductive Move (s : State) (p : Pid) : State → Prop
  | take {attempt : Nat} {mine : LockRecord} : s.phase p = .creating attempt mine →
      s.file = none → Move s p ({ s with file := some ⟨p, none⟩ }.setPhase p (.writing mine))
  | taken {attempt : Nat} {mine : LockRecord} : s.phase p = .creating attempt mine →
      Move s p (s.setPhase p (.reading attempt mine))
  | write {mine : LockRecord} : s.phase p = .writing mine →
      Move s p ({ s with file := writeRecord p mine s.file }.setPhase p (.holding mine))
  | gone {attempt : Nat} {mine : LockRecord} : s.phase p = .reading attempt mine →
      Move s p (s.setPhase p (nextAttempt attempt mine))
  | read {attempt : Nat} {mine : LockRecord} {f : LockFile} : s.phase p = .reading attempt mine →
      s.file = some f → Move s p (s.setPhase p (.checking attempt mine f.text))
  | refuse {attempt : Nat} {mine : LockRecord} {held : Option LockRecord} :
      s.phase p = .checking attempt mine held → Move s p (s.setPhase p .idle)
  | stale {attempt : Nat} {mine : LockRecord} {held : Option LockRecord} :
      s.phase p = .checking attempt mine held →
      (∀ record, held = some record → record.pid = p ∨ s.phase record.pid = .ended) →
      Move s p (s.setPhase p (.rereading attempt mine held))
  | again {attempt : Nat} {mine : LockRecord} {held : Option LockRecord} :
      s.phase p = .rereading attempt mine held →
      Move s p (s.setPhase p (.removing attempt mine held))
  | changed {attempt : Nat} {mine : LockRecord} {held : Option LockRecord} :
      s.phase p = .rereading attempt mine held →
      Move s p (s.setPhase p (nextAttempt attempt mine))
  | remove {attempt : Nat} {mine : LockRecord} {held : Option LockRecord} :
      s.phase p = .removing attempt mine held →
      Move s p ({ s with file := none }.setPhase p (nextAttempt attempt mine))
  | keep {mine : LockRecord} : s.phase p = .releasing mine →
      Move s p (s.setPhase p (.unlinking mine))
  | lost {mine : LockRecord} : s.phase p = .releasing mine →
      s.file.map LockFile.text ≠ some (some mine) → Move s p (s.setPhase p .idle)
  | unlink {mine : LockRecord} : s.phase p = .unlinking mine →
      Move s p ({ s with file := none }.setPhase p .idle)

theorem acquireStep_move (h : acquireStep s p (s.phase p) = some t) : Move s p t := by
  unfold acquireStep at h
  split at h
  · rename_i attempt mine hp
    split at h
    · rename_i hfile
      cases h
      exact .take hp hfile
    · cases h
      exact .taken hp
  · rename_i mine hp
    cases h
    exact .write hp
  · rename_i attempt mine hp
    split at h
    · cases h
      exact .gone hp
    · rename_i f hfile
      cases h
      exact .read hp hfile
  · rename_i attempt mine held hp
    split at h
    · rename_i record
      split at h
      · cases h
        exact .refuse hp
      · rename_i hstale
        cases h
        refine .stale hp fun other heq => ?_
        cases heq
        by_cases hpid : record.pid = p
        · exact Or.inl hpid
        · exact Or.inr (by simpa [hpid, isProcessAlive] using hstale)
    · cases h
      exact .stale hp fun record heq => by cases heq
  · rename_i attempt mine held hp
    split at h
    · cases h
      exact .again hp
    · cases h
      exact .changed hp
  · rename_i attempt mine held hp
    cases h
    exact .remove hp
  · rename_i mine hp
    split at h
    · cases h
      exact .keep hp
    · rename_i hlost
      cases h
      exact .lost hp hlost
  · rename_i mine hp
    cases h
    exact .unlink hp
  all_goals cases h

@[simp] theorem nextAttempt_lock (attempt : Nat) (mine : LockRecord) :
    (nextAttempt attempt mine).lock p = none := by
  unfold nextAttempt
  split <;> rfl

theorem Phase.lock_creator {phase : Phase} {f : LockFile} (h : phase.lock p = some f) :
    f.creator = p := by
  cases phase <;> cases h <;> rfl

theorem Phase.Holds.lock {phase : Phase} (h : phase.Holds) (p : Pid) :
    ∃ f, phase.lock p = some f := by
  cases phase with
  | holding mine | releasing mine | unlinking mine => exact ⟨_, rfl⟩
  | _ => exact h.elim

theorem Move.alive (h : Move s p t) : s.phase p ≠ .ended := by
  cases h <;> simp [*]

/-! ## Locks that are kept -/

/-- The lock of a process is the file. -/
def Kept (s : State) : Prop := ∀ p f, (s.phase p).lock p = some f → s.file = some f

theorem Kept.exclusive (h : Kept s) : Exclusive s := by
  intro p q hp hq
  obtain ⟨f, hf⟩ := hp.lock p
  obtain ⟨g, hg⟩ := hq.lock q
  have hsame : some f = some g := (h p f hf).symm.trans (h q g hg)
  cases hsame
  exact (Phase.lock_creator hf).symm.trans (Phase.lock_creator hg)

/-- No other process has a lock beside that of `p`. -/
theorem Kept.others (h : Kept s) {f : LockFile} (hf : (s.phase p).lock p = some f) (hq : q ≠ p) :
    (s.phase q).lock q = none := by
  cases hlock : (s.phase q).lock q with
  | none => rfl
  | some g =>
    have hsame : some f = some g := (h p f hf).symm.trans (h q g hlock)
    cases hsame
    exact absurd ((Phase.lock_creator hlock).symm.trans (Phase.lock_creator hf)) hq

/-- A process moves on with the lock that it has, or loses it. -/
theorem Kept.move (h : Kept s) {phase : Phase}
    (hlock : ∀ f, phase.lock p = some f → (s.phase p).lock p = some f) :
    Kept (s.setPhase p phase) := by
  intro q f hf
  by_cases hq : q = p
  · rw [hq, State.setPhase_self] at hf
    exact h p f (hlock f hf)
  · rw [State.setPhase_of_ne s phase hq] at hf
    exact h q f hf

/-- A process replaces the file, which no other process has as its lock. -/
theorem Kept.replace {phase : Phase} {file : Option LockFile}
    (hothers : ∀ q, q ≠ p → (s.phase q).lock q = none) (hlock : phase.lock p = file) :
    Kept ({ s with file := file }.setPhase p phase) := by
  intro q f hf
  by_cases hq : q = p
  · rw [hq, State.setPhase_self, hlock] at hf
    exact hf
  · rw [State.setPhase_of_ne _ phase hq] at hf
    have hnone : (s.phase q).lock q = none := hothers q hq
    rw [hnone] at hf
    cases hf

theorem Kept.operation (h : Kept s) (hc : SparesLive s (.run p)) (hmove : Move s p t) :
    Kept t := by
  cases hmove with
  | take hp hfile =>
    refine Kept.replace (fun q _ => ?_) rfl
    cases hlock : (s.phase q).lock q with
    | none => rfl
    | some f =>
      have hsome := h q f hlock
      rw [hfile] at hsome
      cases hsome
  | taken hp | refuse hp | stale hp | again hp | lost hp => exact h.move fun f hf => by cases hf
  | read hp hfile => exact h.move fun f hf => by cases hf
  | gone hp | changed hp =>
    refine h.move fun f hf => ?_
    rw [nextAttempt_lock] at hf
    cases hf
  | keep hp =>
    refine h.move fun f hf => ?_
    rw [hp]
    exact hf
  | write hp =>
    have hlock : (s.phase p).lock p = some ⟨p, none⟩ := by rw [hp]; rfl
    refine Kept.replace (fun q hq => h.others hlock hq) ?_
    rw [h p _ hlock]
    simp [writeRecord, Phase.lock]
  | remove hp =>
    refine Kept.replace (fun q _ => ?_) (nextAttempt_lock ..)
    cases hlock : (s.phase q).lock q with
    | none => rfl
    | some f =>
      -- the file of a live lock is not removed
      have hended : s.phase f.creator = .ended := by
        simpa [SparesLive, removesLive, hp, h q f hlock, isProcessAlive] using hc
      rw [Phase.lock_creator hlock] at hended
      rw [hended] at hlock
      cases hlock
  | @unlink mine hp =>
    have hlock : (s.phase p).lock p = some ⟨p, some mine⟩ := by rw [hp]; rfl
    exact Kept.replace (fun q hq => h.others hlock hq) rfl

theorem Kept.step (h : Kept s) (hc : SparesLive s e) (hstep : HomeLock.step s e = some t) :
    Kept t := by
  cases e with
  | start p startedAt =>
    simp only [HomeLock.step] at hstep
    split at hstep
    · cases hstep
      exact h.move fun f hf => by cases hf
    · cases hstep
  | run p => exact h.operation hc (acquireStep_move hstep)
  | release p =>
    simp only [HomeLock.step] at hstep
    split at hstep
    · rename_i mine hp
      cases hstep
      refine h.move fun f hf => ?_
      rw [hp]
      exact hf
    · cases hstep
  | crash p =>
    cases hstep
    exact h.move fun f hf => by cases hf

/-! ## What is known of the file and the processes -/

/-- The record that a process writes. -/
def Phase.mine : Phase → Option LockRecord
  | .creating _ mine | .writing mine | .reading _ mine | .checking _ mine _ |
    .rereading _ mine _ | .removing _ mine _ | .holding mine | .releasing mine |
    .unlinking mine => some mine
  | .idle | .ended => none

/-- The record that a process has found to be stale. -/
def Phase.judged : Phase → Option LockRecord
  | .rereading _ _ held | .removing _ _ held => held
  | _ => none

/-- The file is the lock of its creator, unless that is gone. -/
structure Tracked (s : State) : Prop where
  owner : ∀ f, s.file = some f →
    s.phase f.creator = .ended ∨ (s.phase f.creator).lock f.creator = some f
  record : ∀ f record, s.file = some f → f.text = some record → record.pid = f.creator
  mine : ∀ p record, (s.phase p).mine = some record → record.pid = p
  judged : ∀ p record, (s.phase p).judged = some record →
    record.pid = p ∨ s.phase record.pid = .ended

theorem Initial.tracked (h : Initial s) : Tracked s where
  owner f hf := Or.inl (h.file f hf).1
  record f record hf := (h.file f hf).2 record
  mine p record hp := by rcases h.phase p with hidle | hidle <;> simp [hidle, Phase.mine] at hp
  judged p record hp := by rcases h.phase p with hidle | hidle <;> simp [hidle, Phase.judged] at hp

theorem Initial.kept (h : Initial s) : Kept s := by
  intro p f hf
  rcases h.phase p with hidle | hidle <;> simp [hidle, Phase.lock] at hf

theorem Tracked.update (h : Tracked s) {phase : Phase} {file : Option LockFile}
    (hended : s.phase p = .ended → phase = .ended)
    (hmine : ∀ record, phase.mine = some record → record.pid = p)
    (hjudged : ∀ record, phase.judged = some record →
      record.pid = p ∨ s.phase record.pid = .ended)
    (hrecord : ∀ f record, file = some f → f.text = some record → record.pid = f.creator)
    (hown : ∀ f, file = some f → f.creator = p → phase = .ended ∨ phase.lock p = some f)
    (hother : ∀ f, file = some f → f.creator ≠ p → s.file = some f) :
    Tracked ({ s with file := file }.setPhase p phase) := by
  have hgone : ∀ pid, s.phase pid = .ended →
      ({ s with file := file }.setPhase p phase).phase pid = .ended := by
    intro pid hpid
    by_cases hp : pid = p
    · rw [hp, State.setPhase_self]
      exact hended (by rwa [← hp])
    · rw [State.setPhase_of_ne _ phase hp]
      exact hpid
  constructor
  · intro f hf
    by_cases hcreator : f.creator = p
    · rw [hcreator, State.setPhase_self]
      exact hown f hf hcreator
    · rw [State.setPhase_of_ne _ phase hcreator]
      exact h.owner f (hother f hf hcreator)
  · exact fun f record hf htext => hrecord f record hf htext
  · intro q record hq
    by_cases hp : q = p
    · rw [hp, State.setPhase_self] at hq
      rw [hp]
      exact hmine record hq
    · rw [State.setPhase_of_ne _ phase hp] at hq
      exact h.mine q record hq
  · intro q record hq
    by_cases hp : q = p
    · rw [hp, State.setPhase_self] at hq
      rw [hp]
      exact (hjudged record hq).imp_right (hgone _)
    · rw [State.setPhase_of_ne _ phase hp] at hq
      exact (h.judged q record hq).imp_right (hgone _)

/-- A process moves on and leaves the file as it is. -/
theorem Tracked.move (h : Tracked s) {phase : Phase} (halive : s.phase p ≠ .ended)
    (hlock : ∀ f, s.file = some f → (s.phase p).lock p = some f → phase.lock p = some f)
    (hmine : ∀ record, phase.mine = some record → record.pid = p)
    (hjudged : ∀ record, phase.judged = some record →
      record.pid = p ∨ s.phase record.pid = .ended) : Tracked (s.setPhase p phase) := by
  refine h.update (fun hended => absurd hended halive) hmine hjudged h.record ?_ fun f hf _ => hf
  intro f hf hcreator
  rcases h.owner f hf with hended | howner
  · rw [hcreator] at hended
    exact absurd hended halive
  · rw [hcreator] at howner
    exact Or.inr (hlock f hf howner)

theorem writeRecord_cases {mine : LockRecord} {file : Option LockFile} {f : LockFile}
    (h : writeRecord p mine file = some f) :
    f.creator = p ∧ f.text = some mine ∨ f.creator ≠ p ∧ file = some f := by
  cases file with
  | none => cases h
  | some g =>
    by_cases hcreator : g.creator = p
    · simp only [writeRecord, hcreator, ↓reduceIte, Option.some.injEq] at h
      exact Or.inl ⟨by rw [← h], by rw [← h]⟩
    · simp only [writeRecord, hcreator, ↓reduceIte, Option.some.injEq] at h
      exact Or.inr ⟨by rwa [← h], by rw [h]⟩

theorem nextAttempt_mine {attempt : Nat} {mine record : LockRecord}
    (h : (nextAttempt attempt mine).mine = some record) : record = mine := by
  unfold nextAttempt at h
  split at h
  · cases h
    rfl
  · cases h

theorem nextAttempt_judged (attempt : Nat) (mine : LockRecord) :
    (nextAttempt attempt mine).judged = none := by
  unfold nextAttempt
  split <;> rfl

theorem Tracked.operation (h : Tracked s) (hmove : Move s p t) : Tracked t := by
  have halive := hmove.alive
  have hmine : ∀ record, (s.phase p).mine = some record → record.pid = p := h.mine p
  cases hmove with
  | @take attempt mine hp hfile =>
    rw [hp] at hmine
    refine h.update (fun hended => absurd hended halive) hmine (fun record hj => by cases hj)
      ?_ ?_ ?_
    · intro f record hf htext
      cases hf
      cases htext
    · intro f hf _
      exact Or.inr hf
    · intro f hf hcreator
      cases hf
      exact absurd rfl hcreator
  | @taken attempt mine hp =>
    rw [hp] at hmine
    exact h.move halive (fun f _ hlock => by rw [hp] at hlock; cases hlock) hmine
      fun record hj => by cases hj
  | @write mine hp =>
    rw [hp] at hmine
    refine h.update (fun hended => absurd hended halive) hmine (fun record hj => by cases hj)
      ?_ ?_ ?_
    · intro f record hf htext
      rcases writeRecord_cases hf with ⟨hcreator, hwritten⟩ | ⟨-, hsame⟩
      · rw [hwritten] at htext
        cases htext
        rw [hmine mine rfl, hcreator]
      · exact h.record f record hsame htext
    · intro f hf hcreator
      rcases writeRecord_cases hf with ⟨-, hwritten⟩ | ⟨hne, -⟩
      · right
        rw [← hcreator, Phase.lock, ← hwritten]
      · exact absurd hcreator hne
    · intro f hf hcreator
      rcases writeRecord_cases hf with ⟨hown, -⟩ | ⟨-, hsame⟩
      · exact absurd hown hcreator
      · exact hsame
  | @gone attempt mine hp =>
    rw [hp] at hmine
    refine h.move halive (fun f _ hlock => by rw [hp] at hlock; cases hlock) ?_ ?_
    · intro record hrecord
      rw [nextAttempt_mine hrecord]
      exact hmine mine rfl
    · intro record hj
      rw [nextAttempt_judged] at hj
      cases hj
  | @read attempt mine f hp hfile =>
    rw [hp] at hmine
    exact h.move halive (fun f _ hlock => by rw [hp] at hlock; cases hlock) hmine
      fun record hj => by cases hj
  | @refuse attempt mine held hp =>
    exact h.move halive (fun f _ hlock => by rw [hp] at hlock; cases hlock)
      (fun record hrecord => by cases hrecord) fun record hj => by cases hj
  | @stale attempt mine held hp hstale =>
    rw [hp] at hmine
    exact h.move halive (fun f _ hlock => by rw [hp] at hlock; cases hlock) hmine hstale
  | @again attempt mine held hp =>
    have hjudged := h.judged p
    rw [hp] at hmine hjudged
    exact h.move halive (fun f _ hlock => by rw [hp] at hlock; cases hlock) hmine hjudged
  | @changed attempt mine held hp =>
    rw [hp] at hmine
    refine h.move halive (fun f _ hlock => by rw [hp] at hlock; cases hlock) ?_ ?_
    · intro record hrecord
      rw [nextAttempt_mine hrecord]
      exact hmine mine rfl
    · intro record hj
      rw [nextAttempt_judged] at hj
      cases hj
  | @remove attempt mine held hp =>
    rw [hp] at hmine
    refine h.update (fun hended => absurd hended halive) ?_ ?_ (fun f record hf => by cases hf)
      (fun f hf => by cases hf) fun f hf => by cases hf
    · intro record hrecord
      rw [nextAttempt_mine hrecord]
      exact hmine mine rfl
    · intro record hj
      rw [nextAttempt_judged] at hj
      cases hj
  | @keep mine hp =>
    rw [hp] at hmine
    exact h.move halive (fun f _ hlock => by rw [hp] at hlock; exact hlock) hmine
      fun record hj => by cases hj
  | @lost mine hp hlost =>
    refine h.move halive (fun f hfile hlock => ?_) (fun record hrecord => by cases hrecord)
      fun record hj => by cases hj
    rw [hp] at hlock
    cases hlock
    rw [hfile] at hlost
    exact absurd rfl hlost
  | unlink hp =>
    exact h.update (fun hended => absurd hended halive) (fun record hrecord => by cases hrecord)
      (fun record hj => by cases hj) (fun f record hf => by cases hf) (fun f hf => by cases hf)
      fun f hf => by cases hf

theorem Tracked.step (h : Tracked s) (hstep : HomeLock.step s e = some t) : Tracked t := by
  cases e with
  | start p startedAt =>
    simp only [HomeLock.step] at hstep
    split at hstep
    · rename_i hp
      cases hstep
      refine h.move (by simp [hp]) (fun f _ hlock => by rw [hp] at hlock; cases hlock) ?_
        fun record hj => by cases hj
      intro record hrecord
      cases hrecord
      rfl
    · cases hstep
  | run p => exact h.operation (acquireStep_move hstep)
  | release p =>
    simp only [HomeLock.step] at hstep
    split at hstep
    · rename_i mine hp
      cases hstep
      have hmine := h.mine p
      rw [hp] at hmine
      exact h.move (by simp [hp]) (fun f _ hlock => by rw [hp] at hlock; exact hlock) hmine
        fun record hj => by cases hj
    · cases hstep
  | crash p =>
    cases hstep
    exact h.update (fun _ => rfl) (fun record hrecord => by cases hrecord)
      (fun record hj => by cases hj) h.record (fun _ _ _ => Or.inl rfl) fun f hf _ => hf

/-- A lock that is removed from under a running process had no record when it was
judged, or it has been replaced since. -/
theorem removed_live_lock {es : List Event} {s₀ : State} (h₀ : Initial s₀)
    (hrun : Run HomeLock.step Free s₀ es s) {attempt : Nat} {mine : LockRecord}
    {held : Option LockRecord} (hp : s.phase p = .removing attempt mine held) {f : LockFile}
    (hfile : s.file = some f) (hlive : s.phase f.creator ≠ .ended) :
    held = none ∨ f.text ≠ held := by
  have h : Tracked s := hrun.invariant (fun _ _ _ hs _ hstep => hs.step hstep) h₀.tracked
  cases hheld : held with
  | none => exact Or.inl rfl
  | some record =>
    right
    intro htext
    have hcreator := h.record f record hfile htext
    have hjudged := h.judged p record (by rw [hp, hheld]; rfl)
    rcases hjudged with hown | hended
    · -- `p` itself has no lock while it removes one
      have hlock := (h.owner f hfile).resolve_left hlive
      rw [← hcreator, hown, hp] at hlock
      cases hlock
    · rw [hcreator] at hended
      exact hlive hended

/-! ## Exclusion -/

/-- A process between two attempts, or before a new call, takes a lock that is free. -/
theorem takes_free_lock {attempt : Nat} {mine : LockRecord} (hfile : s.file = none)
    (hp : s.phase p = nextAttempt attempt mine) :
    ∃ es u record, Run HomeLock.step Free s es u ∧ u.phase p = .holding record ∧
      u.file = some ⟨p, some record⟩ ∧ ∀ q, q ≠ p → u.phase q = s.phase q := by
  have hcreating : ∃ es v attempt' record, Run HomeLock.step Free s es v ∧ v.file = none ∧
      v.phase p = .creating attempt' record ∧ ∀ q, q ≠ p → v.phase q = s.phase q := by
    unfold nextAttempt at hp
    split at hp
    · exact ⟨[], s, _, _, .nil s, hfile, hp, fun _ _ => rfl⟩
    · refine ⟨[.start p ""], s.setPhase p (.creating 0 ⟨p, ""⟩), 0, ⟨p, ""⟩,
        .single trivial ?_, hfile, by simp, fun q hq => State.setPhase_of_ne s _ hq⟩
      simp [HomeLock.step, hp]
  obtain ⟨es, v, attempt', record, hrun, hfree, hphase, hothers⟩ := hcreating
  have hcreate : HomeLock.step v (.run p) =
      some ({ v with file := some ⟨p, none⟩ }.setPhase p (.writing record)) := by
    simp [HomeLock.step, acquireStep, hphase, hfree]
  have hwrite : HomeLock.step ({ v with file := some ⟨p, none⟩ }.setPhase p (.writing record))
      (.run p) = some (({ v with file := some ⟨p, some record⟩ } : State).setPhase p
        (.holding record)) := by
    simp [HomeLock.step, acquireStep, writeRecord, State.setPhase]
  refine ⟨es ++ [.run p, .run p], _, record,
    hrun.append (.cons trivial hcreate (.single trivial hwrite)), by simp, rfl, fun q hq => ?_⟩
  rw [State.setPhase_of_ne _ _ hq]
  exact hothers q hq

/-- A process with a lock goes on to hold it, whatever has become of the file. -/
theorem lock_goes_on {f : LockFile} (hlock : (s.phase p).lock p = some f) :
    ∃ es u, Run HomeLock.step Free s es u ∧ (u.phase p).Holds ∧
      ∀ q, q ≠ p → u.phase q = s.phase q := by
  cases hp : s.phase p with
  | writing mine =>
    refine ⟨[.run p], { s with file := writeRecord p mine s.file }.setPhase p (.holding mine),
      .single trivial ?_, ?_, fun q hq => State.setPhase_of_ne _ _ hq⟩
    · simp [HomeLock.step, acquireStep, hp]
    · rw [State.setPhase_self]
      trivial
  | holding mine | releasing mine | unlinking mine =>
    exact ⟨[], s, .nil s, by rw [hp]; trivial, fun _ _ => rfl⟩
  | _ =>
    rw [hp] at hlock
    cases hlock

theorem removesLive_iff : ¬SparesLive s e ↔ ∃ p attempt mine held f, e = .run p ∧
    s.phase p = .removing attempt mine held ∧ s.file = some f ∧ s.phase f.creator ≠ .ended := by
  unfold SparesLive removesLive
  constructor
  · intro h
    cases e with
    | run p =>
      cases hp : s.phase p <;> cases hfile : s.file <;> simp [hp, hfile] at h
      rename_i attempt mine held f
      exact ⟨p, attempt, mine, held, f, rfl, hp, rfl, by simpa [isProcessAlive] using h⟩
    | start | release | crash => exact absurd rfl h
  · rintro ⟨p, attempt, mine, held, f, rfl, hp, hfile, hlive⟩
    simpa [hp, hfile, isProcessAlive] using hlive

/-- After the lock of a running process is removed, two processes come to hold it. -/
theorem removal_admits_two (h : Tracked s) {attempt : Nat} {mine : LockRecord}
    {held : Option LockRecord} (hq : s.phase q = .removing attempt mine held) {f : LockFile}
    (hfile : s.file = some f) (hlive : s.phase f.creator ≠ .ended) :
    ∃ es u, Run HomeLock.step Free s (.run q :: es) u ∧ ¬Exclusive u := by
  have hlock := (h.owner f hfile).resolve_left hlive
  have hne : f.creator ≠ q := by
    intro heq
    rw [heq, hq] at hlock
    cases hlock
  let v : State := { s with file := none }.setPhase q (nextAttempt attempt mine)
  have hremove : HomeLock.step s (.run q) = some v := by
    simp [HomeLock.step, acquireStep, hq, v]
  have hphase : v.phase f.creator = s.phase f.creator := State.setPhase_of_ne _ _ hne
  have hnext : v.phase q = nextAttempt attempt mine := State.setPhase_self ..
  have hfree : v.file = none := rfl
  obtain ⟨es, u, record, hrun, hholds, -, hothers⟩ := takes_free_lock hfree hnext
  have hlock' : (u.phase f.creator).lock f.creator = some f := by
    rw [hothers _ hne, hphase]
    exact hlock
  obtain ⟨es', w, hrun', hholds', hothers'⟩ := lock_goes_on hlock'
  refine ⟨es ++ es', w, .cons trivial hremove (hrun.append hrun'), fun hexclusive => hne ?_⟩
  refine hexclusive _ _ hholds' ?_
  rw [hothers' q (Ne.symm hne), hholds]
  trivial

/-- **The home lock.** As long as no `acquireHomeLock` removes the lock of a running
process, one process at a time holds the lock; and a removal of such a lock can be
followed by two processes that hold it. -/
theorem home_lock_exclusive (s₀ : State) (h₀ : Initial s₀) (es : List Event) (s : State)
    (hrun : Run HomeLock.step SparesLive s₀ es s) :
    Exclusive s ∧ ∀ e, ¬SparesLive s e →
      ∃ es' t, Run HomeLock.step Free s (e :: es') t ∧ ¬Exclusive t := by
  have hkept : Kept s := hrun.invariant (fun _ _ _ hs hc hstep => hs.step hc hstep) h₀.kept
  have htracked : Tracked s :=
    hrun.invariant (fun _ _ _ hs _ hstep => hs.step hstep) h₀.tracked
  refine ⟨hkept.exclusive, fun e he => ?_⟩
  obtain ⟨p, attempt, mine, held, f, rfl, hp, hfile, hlive⟩ := removesLive_iff.mp he
  exact removal_admits_two htracked hp hfile hlive

/-- A home without a lock. -/
def newHome : State := ⟨none, fun _ => .idle⟩

theorem newHome_initial : Initial newHome :=
  ⟨fun _ => Or.inl rfl, fun f hf => by cases hf⟩

/-- A process that crashes leaves its lock, and another one clears it away. -/
def clearsAway : List Event :=
  [.start 1 "t1", .run 1, .run 1, .crash 1,
    .start 2 "t2", .run 2, .run 2, .run 2, .run 2, .run 2, .run 2, .run 2]

theorem home_lock_exclusive_clears :
    ∃ s, Run HomeLock.step SparesLive newHome clearsAway s ∧ (s.phase 2).Holds ∧ Exclusive s := by
  have hrun : ∃ s, Run HomeLock.step (fun s e => (!removesLive s e) = true) newHome clearsAway s ∧
      s.phase 2 = .holding ⟨2, "t2"⟩ := run_of_checked_any (by decide +kernel)
  obtain ⟨s, hrun, hholds⟩ := hrun
  have hsafe : Run HomeLock.step SparesLive newHome clearsAway s :=
    hrun.weaken fun s e hc => by simpa [SparesLive] using hc
  refine ⟨s, hsafe, by rw [hholds]; trivial,
    (home_lock_exclusive newHome newHome_initial clearsAway s hsafe).1⟩

/-! ## The two races -/

/-- The second process finds the lock of the first before its record is written. -/
def readsUnwritten : List Event :=
  [.start 1 "t1", .run 1, .start 2 "t2", .run 2, .run 2, .run 2, .run 2, .run 2, .run 1,
    .run 2, .run 2]

/-- Both find the lock of a process that has crashed, and the first has taken the
lock by the time the second removes it. -/
def removesLate : List Event :=
  [.start 3 "t3", .run 3, .run 3, .crash 3,
    .start 1 "t1", .run 1, .run 1, .run 1, .run 1,
    .start 2 "t2", .run 2, .run 2, .run 2, .run 2,
    .run 1, .run 1, .run 1, .run 2, .run 2, .run 2]

theorem home_lock_shared :
    (∃ s, Run HomeLock.step Free newHome readsUnwritten s ∧ ¬Exclusive s) ∧
      ∃ s, Run HomeLock.step Free newHome removesLate s ∧ ¬Exclusive s := by
  have hboth : ∀ s : State, s.phase 1 = .holding ⟨1, "t1"⟩ ∧ s.phase 2 = .holding ⟨2, "t2"⟩ →
      ¬Exclusive s := by
    rintro s ⟨hone, htwo⟩ hexclusive
    have hsame : 1 = 2 := hexclusive 1 2 (by rw [hone]; trivial) (by rw [htwo]; trivial)
    cases hsame
  have hunwritten : ∃ s, Run HomeLock.step Free newHome readsUnwritten s ∧
      (s.phase 1 = .holding ⟨1, "t1"⟩ ∧ s.phase 2 = .holding ⟨2, "t2"⟩) :=
    run_of_exec_any (by decide +kernel)
  have hlate : ∃ s, Run HomeLock.step Free newHome removesLate s ∧
      (s.phase 1 = .holding ⟨1, "t1"⟩ ∧ s.phase 2 = .holding ⟨2, "t2"⟩) :=
    run_of_exec_any (by decide +kernel)
  obtain ⟨s, hrun, hs⟩ := hunwritten
  obtain ⟨t, hrun', ht⟩ := hlate
  exact ⟨⟨s, hrun, hboth s hs⟩, ⟨t, hrun', hboth t ht⟩⟩

end Mpas.HomeLock
