import Mathlib.Data.List.Count
import Mathlib.Data.List.Pairwise
import Mathlib.Data.List.Sort

/-!
# Pages of an ordered queue

A queue is a list whose entries have ascending keys; a page is what its first
`n` entries are. An entry is on the page if it is one of the `n` first by key.

* `mem_take_iff`: which entries are on the first page;
* `mem_take_of_le`: what comes before an entry of the page is on the page;
* `readOn_ascending`, `readOn_complete`: a growing queue, read on page by page.
-/

namespace Mpas

namespace Pages

variable {α : Type*} {key : α → Nat} {queue : List α} {x y : α} {n : Nat}

def Ascending (key : α → Nat) (queue : List α) : Prop :=
  queue.Pairwise fun a b => key a < key b

theorem Ascending.filter (h : Ascending key queue) (p : α → Bool) :
    Ascending key (queue.filter p) :=
  List.Pairwise.filter p h

theorem Ascending.append_singleton (h : Ascending key queue) (hlast : ∀ y ∈ queue, key y < key x) :
    Ascending key (queue ++ [x]) := by
  refine List.pairwise_append.mpr ⟨h, List.pairwise_singleton _ _, ?_⟩
  intro y hy z hz
  rw [List.mem_singleton.mp hz]
  exact hlast y hy

/-- An entry is on the page if at most `n` entries have a key up to its own. -/
theorem mem_take_iff (h : Ascending key queue) (hx : x ∈ queue) :
    x ∈ queue.take n ↔ queue.countP (fun y => key y ≤ key x) ≤ n := by
  induction queue generalizing n with
  | nil => simp at hx
  | cons first rest ih =>
    obtain ⟨hfirst, hrest⟩ := List.pairwise_cons.mp h
    rcases List.mem_cons.mp hx with rfl | hmem
    · have hnone : rest.countP (fun y => key y ≤ key x) = 0 := by
        rw [List.countP_eq_zero]
        intro y hy
        have := hfirst y hy
        simp
        omega
      cases n with
      | zero => simp [hnone]
      | succ n => simp [hnone]
    · have hlt : key first < key x := hfirst x hmem
      have hne : x ≠ first := by
        rintro rfl
        omega
      have hcount : (first :: rest).countP (fun y => key y ≤ key x) =
          rest.countP (fun y => key y ≤ key x) + 1 := by
        rw [List.countP_cons, if_pos (by simpa using Nat.le_of_lt hlt)]
      cases n with
      | zero =>
        rw [hcount]
        simp
      | succ n =>
        rw [hcount, List.take_succ_cons, List.mem_cons, or_iff_right hne, ih hrest hmem]
        omega

/-- What comes before an entry of the page is on the page. -/
theorem mem_take_of_le (h : Ascending key queue) (hx : x ∈ queue) (hy : y ∈ queue.take n)
    (hle : key x ≤ key y) : x ∈ queue.take n := by
  have hcount := (mem_take_iff h (List.mem_of_mem_take hy)).mp hy
  refine (mem_take_iff h hx).mpr (Nat.le_trans ?_ hcount)
  refine List.countP_mono_left fun z _ hz => ?_
  have hz' : key z ≤ key x := by simpa using hz
  have hzy : key z ≤ key y := by omega
  simpa using hzy

/-- The last entry of the page has the greatest key. -/
theorem le_getLast (h : Ascending key queue) (hx : x ∈ queue) (hlast : queue.getLast? = some y) :
    key x ≤ key y := by
  induction queue with
  | nil => simp at hx
  | cons first rest ih =>
    obtain ⟨hfirst, hrest⟩ := List.pairwise_cons.mp h
    cases rest with
    | nil =>
      obtain rfl : first = y := by simpa using hlast
      obtain rfl : x = first := by simpa using hx
      exact Nat.le_refl _
    | cons second rest =>
      have hlast' : (second :: rest).getLast? = some y := by simpa using hlast
      rcases List.mem_cons.mp hx with rfl | hmem
      · have hy : y ∈ second :: rest := List.mem_of_getLast? hlast'
        exact Nat.le_of_lt (hfirst y hy)
      · exact ih hrest hmem hlast'

/-! ## Reading on, page by page -/

section

variable {after : Nat} {shown : α → Bool}

/-- The first `n` entries after a key, of those that are shown. -/
def page (key : α → Nat) (n : Nat) (shown : α → Bool) (after : Nat) (queue : List α) : List α :=
  (queue.filter fun x => decide (after < key x) && shown x).take n

/-- A reading of the queue: what has arrived before it, and what it shows. -/
structure Reading (α : Type*) where
  arrivals : List α
  shown : α → Bool

/-- The pages of the readings, each after the last entry of the page before it, up
to the first one that is empty. -/
def readOn (key : α → Nat) (n : Nat) : Nat → List α → List (Reading α) → List (List α)
  | _, _, [] => []
  | after, queue, reading :: rest =>
    let entries := page key n reading.shown after (queue ++ reading.arrivals)
    match entries.getLast? with
    | none => [entries]
    | some last => entries :: readOn key n (key last) (queue ++ reading.arrivals) rest

/-- The queue after the readings that gave a page. -/
def queueAfter (queue : List α) (readings : List (Reading α)) (pages : List (List α)) : List α :=
  queue ++ (readings.take pages.length).flatMap Reading.arrivals

theorem page_subset {x : α} (h : x ∈ page key n shown after queue) :
    x ∈ queue ∧ after < key x ∧ shown x = true := by
  have hfilter := List.mem_filter.mp (List.mem_of_mem_take h)
  rw [Bool.and_eq_true, decide_eq_true_eq] at hfilter
  exact hfilter

theorem Ascending.page (h : Ascending key queue) : Ascending key (page key n shown after queue) :=
  List.Pairwise.sublist (List.take_sublist _ _) (h.filter _)

/-- What is shown up to the last entry of a page is on it. -/
theorem mem_page (h : Ascending key queue) (hx : x ∈ queue) (hafter : after < key x)
    (hshown : shown x = true) (hlast : y ∈ page key n shown after queue) (hle : key x ≤ key y) :
    x ∈ page key n shown after queue := by
  refine mem_take_of_le (h.filter _) (List.mem_filter.mpr ⟨hx, ?_⟩) hlast hle
  rw [Bool.and_eq_true, decide_eq_true_eq]
  exact ⟨hafter, hshown⟩

theorem not_shown_of_page_nil (hn : 0 < n) (h : page key n shown after queue = [])
    (hx : x ∈ queue) (hafter : after < key x) : shown x = false := by
  rw [page, List.take_eq_nil_iff, List.filter_eq_nil_iff] at h
  have hnone := h.resolve_left (by omega) x hx
  simpa [hafter] using hnone

theorem Ascending.append_left {later : List α} (h : Ascending key (queue ++ later)) :
    Ascending key queue :=
  (List.pairwise_append.mp h).1

/-- **Reading on** hands out entries of the queue, by ascending keys. -/
theorem readOn_ascending {readings : List (Reading α)}
    (h : Ascending key (queue ++ readings.flatMap Reading.arrivals)) :
    Ascending key (readOn key n after queue readings).flatten ∧
      ∀ x ∈ (readOn key n after queue readings).flatten,
        x ∈ queueAfter queue readings (readOn key n after queue readings) ∧ after < key x ∧
          ∃ reading ∈ readings, reading.shown x = true := by
  induction readings generalizing after queue with
  | nil => exact ⟨List.Pairwise.nil, by simp [readOn]⟩
  | cons reading rest ih =>
    rw [List.flatMap_cons, ← List.append_assoc] at h
    have hpage : Ascending key (page key n reading.shown after (queue ++ reading.arrivals)) :=
      h.append_left.page
    have hsubset : ∀ x ∈ page key n reading.shown after (queue ++ reading.arrivals),
        x ∈ queue ++ reading.arrivals ∧ after < key x ∧ reading.shown x = true :=
      fun _ => page_subset
    rw [readOn]
    generalize page key n reading.shown after (queue ++ reading.arrivals) = entries at hpage hsubset ⊢
    cases hlast : entries.getLast? with
    | none =>
      rw [List.getLast?_eq_none_iff] at hlast
      subst hlast
      exact ⟨List.Pairwise.nil, by simp⟩
    | some last =>
      obtain ⟨hascending, hmem⟩ := ih h
      have hlastMem := hsubset last (List.mem_of_getLast? hlast)
      have hafter : queueAfter (queue ++ reading.arrivals) rest
          (readOn key n (key last) (queue ++ reading.arrivals) rest) =
          queueAfter queue (reading :: rest)
            (entries :: readOn key n (key last) (queue ++ reading.arrivals) rest) := by
        simp [queueAfter]
      rw [List.flatten_cons]
      refine ⟨List.pairwise_append.mpr ⟨hpage, hascending, ?_⟩, ?_⟩
      · intro x hx y hy
        exact Nat.lt_of_le_of_lt (le_getLast hpage hx hlast) (hmem y hy).2.1
      · intro x hx
        rcases List.mem_append.mp hx with hx | hx
        · obtain ⟨hqueue, hlt, hshown⟩ := hsubset x hx
          refine ⟨?_, hlt, reading, List.mem_cons_self, hshown⟩
          rw [← hafter]
          exact List.mem_append_left _ hqueue
        · obtain ⟨hqueue, hlt, other, hother, hshown⟩ := hmem x hx
          rw [hafter] at hqueue
          exact ⟨hqueue, Nat.lt_trans hlastMem.2.1 hlt, other, List.mem_cons_of_mem _ hother, hshown⟩

/-- What every reading up to an empty page shows has been handed out. -/
theorem readOn_complete (hn : 0 < n) {readings : List (Reading α)}
    (h : Ascending key (queue ++ readings.flatMap Reading.arrivals))
    (hempty : [] ∈ readOn key n after queue readings)
    (hx : x ∈ queueAfter queue readings (readOn key n after queue readings))
    (hafter : after < key x)
    (hshown : ∀ reading ∈ readings.take (readOn key n after queue readings).length,
      reading.shown x = true) :
    x ∈ (readOn key n after queue readings).flatten := by
  induction readings generalizing after queue with
  | nil => cases hempty
  | cons reading rest ih =>
    rw [List.flatMap_cons, ← List.append_assoc] at h
    have hnil : page key n reading.shown after (queue ++ reading.arrivals) = [] →
        x ∈ queue ++ reading.arrivals → reading.shown x = false :=
      fun hnil hqueue => not_shown_of_page_nil hn hnil hqueue hafter
    have hmem : ∀ y ∈ page key n reading.shown after (queue ++ reading.arrivals),
        x ∈ queue ++ reading.arrivals → reading.shown x = true → key x ≤ key y →
        x ∈ page key n reading.shown after (queue ++ reading.arrivals) :=
      fun y hy hqueue hshown => mem_page h.append_left hqueue hafter hshown hy
    have hsubset : ∀ y ∈ page key n reading.shown after (queue ++ reading.arrivals),
        y ∈ queue ++ reading.arrivals ∧ after < key y ∧ reading.shown y = true :=
      fun _ => page_subset
    rw [readOn] at hempty hx hshown ⊢
    generalize page key n reading.shown after (queue ++ reading.arrivals) = entries
      at hnil hmem hsubset hempty hx hshown ⊢
    cases hlast : entries.getLast? with
    | none =>
      rw [hlast] at hx hshown
      rw [List.getLast?_eq_none_iff] at hlast
      have hqueue : x ∈ queue ++ reading.arrivals := by simpa [queueAfter] using hx
      have hshownHere := hshown reading (by simp)
      rw [hnil hlast hqueue] at hshownHere
      cases hshownHere
    | some last =>
      rw [hlast] at hempty hx hshown
      have hlastMem := List.mem_of_getLast? hlast
      have hshownHere := hshown reading (by simp)
      have hx' : x ∈ queueAfter (queue ++ reading.arrivals) rest
          (readOn key n (key last) (queue ++ reading.arrivals) rest) := by
        simpa [queueAfter] using hx
      rw [List.flatten_cons, List.mem_append]
      by_cases hle : key x ≤ key last
      · have hqueue : x ∈ queue ++ reading.arrivals := by
          rcases List.mem_append.mp hx' with hqueue | hlater
          · exact hqueue
          · obtain ⟨other, hother, harrived⟩ := List.mem_flatMap.mp hlater
            have hlt := (List.pairwise_append.mp h).2.2 last (hsubset last hlastMem).1 x
              (List.mem_flatMap.mpr ⟨other, List.mem_of_mem_take hother, harrived⟩)
            omega
        exact .inl (hmem last hlastMem hqueue hshownHere hle)
      · refine .inr (ih h ?_ hx' (by omega) ?_)
        · refine (List.mem_cons.mp hempty).resolve_left ?_
          rintro rfl
          cases hlastMem
        · intro other hother
          refine hshown other ?_
          rw [List.length_cons, List.take_succ_cons]
          exact List.mem_cons_of_mem _ hother

/-- The last entries of the pages are among what is handed out, in its order. -/
theorem lasts_sublist (pages : List (List α)) :
    (pages.filterMap List.getLast?).Sublist pages.flatten := by
  induction pages with
  | nil => exact List.Sublist.refl _
  | cons entries rest ih =>
    rw [List.flatten_cons]
    cases hlast : entries.getLast? with
    | none =>
      rw [List.filterMap_cons_none hlast]
      exact ih.trans (List.sublist_append_right _ _)
    | some last =>
      rw [List.filterMap_cons_some hlast]
      exact (List.singleton_sublist.mpr (List.mem_of_getLast? hlast)).append ih

end

/-- Two queues with the same entries are one. -/
theorem Ascending.eq_of_mem_iff {queue' : List α} (h : Ascending key queue)
    (h' : Ascending key queue') (hmem : ∀ x, x ∈ queue ↔ x ∈ queue') : queue = queue' :=
  have : Std.Irrefl fun a b : α => key a < key b := ⟨fun _ => Nat.lt_irrefl _⟩
  have : Std.Antisymm fun a b : α => key a < key b :=
    ⟨fun _ _ hab hba => absurd (Nat.lt_trans hab hba) (Nat.lt_irrefl _)⟩
  List.Pairwise.eq_of_mem_iff h h' hmem

end Pages

end Mpas
