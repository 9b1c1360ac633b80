import Mathlib.Data.List.Nodup

/-!
# Maps in insertion order

A finite map that remembers the order in which its keys were first written, as
the built-in map of many scripting languages does: writing a present key keeps
its place, writing a new one appends it, and removing a key closes the gap.
That no key occurs twice is a field, so every map is well formed.

* `get?_set`, `get?_delete`, `get?_filter`: what each operation does to a lookup;
* `mem_entries_iff`: the listed entries are exactly the lookups that succeed;
* `map_fst_write`: where a write lands in the order;
* `set_eq_map`: writing a present key changes one value in place.
-/

namespace Mpas

structure OrderedMap (κ ν : Type*) where
  entries : List (κ × ν)
  nodup : (entries.map Prod.fst).Nodup

namespace OrderedMap

variable {κ ν : Type*}

theorem ext_entries {m m' : OrderedMap κ ν} (h : m.entries = m'.entries) : m = m' := by
  cases m; cases m'; cases h; rfl

instance [DecidableEq κ] [DecidableEq ν] : DecidableEq (OrderedMap κ ν) := fun m m' =>
  decidable_of_iff (m.entries = m'.entries) ⟨ext_entries, fun h => h ▸ rfl⟩

def empty : OrderedMap κ ν := ⟨[], by simp⟩

instance : EmptyCollection (OrderedMap κ ν) := ⟨empty⟩

def values (m : OrderedMap κ ν) : List ν := m.entries.map Prod.snd

def keys (m : OrderedMap κ ν) : List κ := m.entries.map Prod.fst

/-- Keep the entries that satisfy `p`, in their order. -/
def filter (p : κ → ν → Bool) (m : OrderedMap κ ν) : OrderedMap κ ν :=
  ⟨m.entries.filter fun e => p e.1 e.2,
    (List.filter_sublist.map Prod.fst).nodup m.nodup⟩

/-- Change every value in place. -/
def map (f : κ → ν → ν) (m : OrderedMap κ ν) : OrderedMap κ ν :=
  ⟨m.entries.map fun e => (e.1, f e.1 e.2), by
    simpa [List.map_map, Function.comp_def] using m.nodup⟩

/-- Turn every value into one of another kind. -/
def mapValues {μ : Type*} (f : ν → μ) (m : OrderedMap κ ν) : OrderedMap κ μ :=
  ⟨m.entries.map fun e => (e.1, f e.2), by
    simpa [List.map_map, Function.comp_def] using m.nodup⟩

theorem filter_filter (m : OrderedMap κ ν) (p q : κ → ν → Bool) :
    (m.filter p).filter q = m.filter fun k v => p k v && q k v := by
  apply ext_entries
  simp [filter, List.filter_filter, Bool.and_comm]

theorem mapValues_filter {μ : Type*} (m : OrderedMap κ ν) (f : ν → μ) (p : κ → Bool) :
    (m.filter fun k _ => p k).mapValues f = (m.mapValues f).filter fun k _ => p k := by
  apply ext_entries
  simp [filter, mapValues, List.filter_map, Function.comp_def]

theorem filter_true (m : OrderedMap κ ν) : (m.filter fun _ _ => true) = m := by
  apply ext_entries
  simp [filter]

theorem map_map (m : OrderedMap κ ν) (f g : κ → ν → ν) :
    (m.map f).map g = m.map fun k v => g k (f k v) := by
  apply ext_entries
  simp [map]

theorem map_self (m : OrderedMap κ ν) : (m.map fun _ v => v) = m := by
  apply ext_entries
  simp [map]

variable [DecidableEq κ]

/-! ## Lists of entries -/

/-- The value of the first entry with key `k`. -/
def lookup (k : κ) : List (κ × ν) → Option ν
  | [] => none
  | (k', v) :: rest => if k' = k then some v else lookup k rest

/-- Overwrite the entry with key `k`, or append one. -/
def write (k : κ) (v : ν) : List (κ × ν) → List (κ × ν)
  | [] => [(k, v)]
  | (k', v') :: rest => if k' = k then (k', v) :: rest else (k', v') :: write k v rest

theorem lookup_eq_none_iff (k : κ) (es : List (κ × ν)) :
    lookup k es = none ↔ k ∉ es.map Prod.fst := by
  induction es with
  | nil => simp [lookup]
  | cons e rest ih =>
    obtain ⟨k', v⟩ := e
    by_cases h : k' = k
    · simp [lookup, h]
    · simp [lookup, h, ih, Ne.symm h]

theorem mem_of_lookup {k : κ} {v : ν} {es : List (κ × ν)} (h : lookup k es = some v) :
    (k, v) ∈ es := by
  induction es with
  | nil => simp [lookup] at h
  | cons e rest ih =>
    obtain ⟨k', v'⟩ := e
    by_cases hk : k' = k
    · simp [lookup, hk] at h
      simp [hk, h]
    · simp only [lookup, hk, ↓reduceIte] at h
      exact List.mem_cons_of_mem _ (ih h)

theorem lookup_of_mem {k : κ} {v : ν} {es : List (κ × ν)}
    (hn : (es.map Prod.fst).Nodup) (h : (k, v) ∈ es) : lookup k es = some v := by
  induction es with
  | nil => simp at h
  | cons e rest ih =>
    obtain ⟨k', v'⟩ := e
    obtain ⟨hk', hrest⟩ := List.nodup_cons.mp hn
    rcases List.mem_cons.mp h with heq | hmem
    · cases heq; simp [lookup]
    · have hne : k' ≠ k := by
        intro e
        subst e
        exact hk' (List.mem_map.mpr ⟨(k', v), hmem, rfl⟩)
      simp [lookup, hne, ih hrest hmem]

theorem map_fst_write (k : κ) (v : ν) (es : List (κ × ν)) :
    (write k v es).map Prod.fst =
      if k ∈ es.map Prod.fst then es.map Prod.fst else es.map Prod.fst ++ [k] := by
  induction es with
  | nil => simp [write]
  | cons e rest ih =>
    obtain ⟨k', v'⟩ := e
    by_cases h : k' = k
    · simp [write, h]
    · have hk : ¬ k = k' := Ne.symm h
      simp only [write, h, ↓reduceIte, List.map_cons, ih, List.mem_cons, hk, false_or]
      split <;> simp

theorem write_absent {k : κ} {es : List (κ × ν)} (h : k ∉ es.map Prod.fst) (v : ν) :
    write k v es = es ++ [(k, v)] := by
  induction es with
  | nil => rfl
  | cons e rest ih =>
    obtain ⟨k', v'⟩ := e
    rw [List.map_cons, List.mem_cons, not_or] at h
    rw [write, if_neg (Ne.symm h.1), ih h.2, List.cons_append]

theorem lookup_write (k k' : κ) (v : ν) (es : List (κ × ν)) :
    lookup k (write k' v es) = if k' = k then some v else lookup k es := by
  induction es with
  | nil => simp [write, lookup]
  | cons e rest ih =>
    obtain ⟨q, w⟩ := e
    by_cases hq : q = k'
    · subst hq
      by_cases hk : q = k <;> simp [write, lookup, hk]
    · by_cases hk : q = k
      · subst hk
        simp [write, lookup, hq, Ne.symm hq]
      · simp [write, lookup, hq, hk, ih]

theorem lookup_filter (k : κ) (p : κ → ν → Bool) (es : List (κ × ν))
    (hn : (es.map Prod.fst).Nodup) :
    lookup k (es.filter fun e => p e.1 e.2) = (lookup k es).filter (p k) := by
  induction es with
  | nil => rfl
  | cons e rest ih =>
    obtain ⟨k', v⟩ := e
    obtain ⟨hk', hrest⟩ := List.nodup_cons.mp hn
    by_cases h : k' = k
    · subst h
      have hnone : lookup k' rest = none := (lookup_eq_none_iff _ _).mpr hk'
      cases hp : p k' v
      · simp [hp, lookup, ih hrest, hnone, Option.filter]
      · simp [hp, lookup, Option.filter]
    · cases hp : p k' v <;> simp [hp, lookup, h, ih hrest]

theorem lookup_map (k : κ) (f : κ → ν → ν) (es : List (κ × ν)) :
    lookup k (es.map fun e => (e.1, f e.1 e.2)) = (lookup k es).map (f k) := by
  induction es with
  | nil => rfl
  | cons e rest ih =>
    obtain ⟨k', v⟩ := e
    by_cases h : k' = k
    · subst h; simp [lookup]
    · simp [lookup, h, ih]

/-! ## Operations -/

def get? (m : OrderedMap κ ν) (k : κ) : Option ν := lookup k m.entries

def has (m : OrderedMap κ ν) (k : κ) : Bool := (m.get? k).isSome

def set (m : OrderedMap κ ν) (k : κ) (v : ν) : OrderedMap κ ν :=
  ⟨write k v m.entries, by
    rw [map_fst_write]
    split
    · exact m.nodup
    · rename_i h
      exact List.nodup_append.mpr ⟨m.nodup, by simp, by
        intro a ha b hb
        rw [List.mem_singleton.mp hb]
        rintro rfl
        exact h ha⟩⟩

def delete (m : OrderedMap κ ν) (k : κ) : OrderedMap κ ν :=
  m.filter fun k' _ => decide (k' ≠ k)

@[simp] theorem get?_empty (k : κ) : (∅ : OrderedMap κ ν).get? k = none := rfl

theorem get?_set (m : OrderedMap κ ν) (k k' : κ) (v : ν) :
    (m.set k v).get? k' = if k = k' then some v else m.get? k' :=
  lookup_write k' k v m.entries

@[simp] theorem get?_set_self (m : OrderedMap κ ν) (k : κ) (v : ν) :
    (m.set k v).get? k = some v := by simp [get?_set]

theorem get?_set_ne (m : OrderedMap κ ν) {k k' : κ} (v : ν) (h : k ≠ k') :
    (m.set k v).get? k' = m.get? k' := by simp [get?_set, h]

@[simp] theorem get?_filter (m : OrderedMap κ ν) (p : κ → ν → Bool) (k : κ) :
    (m.filter p).get? k = (m.get? k).filter (p k) :=
  lookup_filter k p m.entries m.nodup

@[simp] theorem get?_map (m : OrderedMap κ ν) (f : κ → ν → ν) (k : κ) :
    (m.map f).get? k = (m.get? k).map (f k) :=
  lookup_map k f m.entries

theorem get?_delete (m : OrderedMap κ ν) (k k' : κ) :
    (m.delete k).get? k' = if k = k' then none else m.get? k' := by
  unfold delete
  rw [get?_filter]
  by_cases h : k = k'
  · subst h
    cases m.get? k <;> simp [Option.filter]
  · cases m.get? k' <;> simp [Option.filter, h, Ne.symm h]

theorem get?_mapValues {μ : Type*} (m : OrderedMap κ ν) (f : ν → μ) (k : κ) :
    (m.mapValues f).get? k = (m.get? k).map f := by
  show lookup k (m.entries.map fun e => (e.1, f e.2)) = (lookup k m.entries).map f
  induction m.entries with
  | nil => rfl
  | cons e rest ih =>
    obtain ⟨k', v⟩ := e
    by_cases h : k' = k
    · simp [lookup, h]
    · simp [lookup, h, ih]

theorem mapValues_set {μ : Type*} (m : OrderedMap κ ν) (f : ν → μ) (k : κ) (v : ν) :
    (m.set k v).mapValues f = (m.mapValues f).set k (f v) := by
  apply ext_entries
  show (write k v m.entries).map (fun e => (e.1, f e.2)) =
    write k (f v) (m.entries.map fun e => (e.1, f e.2))
  induction m.entries with
  | nil => rfl
  | cons e rest ih =>
    obtain ⟨k', v'⟩ := e
    by_cases h : k' = k
    · simp [write, h]
    · simp [write, h, ih]

theorem has_mapValues {μ : Type*} (m : OrderedMap κ ν) (f : ν → μ) (k : κ) :
    (m.mapValues f).has k = m.has k := by
  simp [has, get?_mapValues]

theorem mem_entries_iff (m : OrderedMap κ ν) (k : κ) (v : ν) :
    (k, v) ∈ m.entries ↔ m.get? k = some v :=
  ⟨lookup_of_mem m.nodup, mem_of_lookup⟩

theorem has_iff (m : OrderedMap κ ν) (k : κ) : m.has k = true ↔ ∃ v, m.get? k = some v := by
  simp [has, Option.isSome_iff_exists]

/-! ## Rewriting values in place -/

theorem map_congr {m : OrderedMap κ ν} {f g : κ → ν → ν}
    (h : ∀ k v, m.get? k = some v → f k v = g k v) : m.map f = m.map g := by
  apply ext_entries
  refine List.map_congr_left fun e he => ?_
  rw [h e.1 e.2 ((m.mem_entries_iff _ _).mp he)]

theorem write_eq_map {k : κ} {v : ν} {es : List (κ × ν)} (hn : (es.map Prod.fst).Nodup)
    (h : k ∈ es.map Prod.fst) :
    write k v es = es.map fun e => (e.1, if e.1 = k then v else e.2) := by
  induction es with
  | nil => simp at h
  | cons e rest ih =>
    obtain ⟨k', v'⟩ := e
    obtain ⟨hk', hrest⟩ := List.nodup_cons.mp hn
    by_cases hk : k' = k
    · subst hk
      have hsame : (rest.map fun e => (e.1, if e.1 = k' then v else e.2)) = rest := by
        conv_rhs => rw [← List.map_id rest]
        refine List.map_congr_left fun e he => ?_
        have hne : e.1 ≠ k' := fun heq => hk' (List.mem_map.mpr ⟨e, he, heq⟩)
        simp [hne]
      simp only [write, ↓reduceIte, List.map_cons, hsame]
    · have hmem : k ∈ rest.map Prod.fst := by
        rcases List.mem_cons.mp h with heq | hmem
        · exact absurd heq.symm hk
        · exact hmem
      simp only [write, hk, ↓reduceIte, List.map_cons, ih hrest hmem]

/-- Writing a present key changes one value in place. -/
theorem set_eq_map {m : OrderedMap κ ν} {k : κ} (v : ν) (h : m.has k = true) :
    m.set k v = m.map fun k' v' => if k' = k then v else v' := by
  obtain ⟨v', hv'⟩ := (m.has_iff k).mp h
  apply ext_entries
  exact write_eq_map m.nodup
    (List.mem_map.mpr ⟨(k, v'), (m.mem_entries_iff k v').mpr hv', rfl⟩)

theorem delete_of_absent {m : OrderedMap κ ν} {k : κ} (h : m.get? k = none) : m.delete k = m := by
  apply ext_entries
  refine List.filter_eq_self.mpr fun e he => ?_
  have hne : e.1 ≠ k := by
    intro hk
    have hfound := (m.mem_entries_iff e.1 e.2).mp he
    rw [hk, h] at hfound
    cases hfound
  simp [hne]

end OrderedMap

end Mpas
