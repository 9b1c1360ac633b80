import Mathlib.Data.Finset.Card

/-!
# Quorums

A quorum asks that at least `k` members of a finite set are present.

* `Reached.mono`, `reached_self`: more presence never hurts, and all of the
  members are enough exactly if there are enough of them;
* `reached_iff`: a quorum is a set of `k` members, all of them present;
* `Reached.overlap_le`, `exists_overlap`: what two sets share of a quorum at least;
* `same_quorums_iff`: two sets reach their quorums together, whoever is
  present, exactly if they are the same set or neither can reach its quorum.
-/

namespace Mpas

namespace Quorum

variable {α : Type*} [DecidableEq α]

def Reached (k : Nat) (members present : Finset α) : Prop := k ≤ (members ∩ present).card

instance (k : Nat) (members present : Finset α) : Decidable (Reached k members present) :=
  inferInstanceAs (Decidable (_ ≤ _))

variable {k : Nat} {members members' present present' : Finset α}

theorem Reached.mono (hpresent : present ⊆ present') (h : Reached k members present) :
    Reached k members present' := by
  have hinter : members ∩ present ⊆ members ∩ present' := Finset.inter_subset_inter_left hpresent
  exact h.trans (Finset.card_le_card hinter)

theorem Reached.le_card (h : Reached k members present) : k ≤ members.card :=
  h.trans (Finset.card_le_card Finset.inter_subset_left)

theorem reached_self : Reached k members members ↔ k ≤ members.card := by
  rw [Reached, Finset.inter_self]

theorem reached_iff :
    Reached k members present ↔ ∃ quorum, quorum ⊆ members ∧ quorum ⊆ present ∧ quorum.card = k := by
  rw [Reached, Finset.le_card_iff_exists_subset_card]
  constructor
  · rintro ⟨quorum, hsub, hcard⟩
    have hmembers : quorum ⊆ members := hsub.trans Finset.inter_subset_left
    have hpresent : quorum ⊆ present := hsub.trans Finset.inter_subset_right
    exact ⟨quorum, hmembers, hpresent, hcard⟩
  · rintro ⟨quorum, hmembers, hpresent, hcard⟩
    exact ⟨quorum, Finset.subset_inter hmembers hpresent, hcard⟩

/-- How many of `members'` are at least among any `k` of `members`. -/
def overlap (k : Nat) (members members' : Finset α) : Nat := k - (members \ members').card

theorem Reached.overlap_le (h : Reached k members present) (members' : Finset α) :
    overlap k members members' ≤ (members' ∩ present).card := by
  have hsub : members ∩ present ⊆ (members' ∩ present) ∪ (members \ members') := by
    intro member hmember
    obtain ⟨hin, hpresent⟩ := Finset.mem_inter.mp hmember
    by_cases hother : member ∈ members'
    · exact Finset.mem_union_left _ (Finset.mem_inter.mpr ⟨hother, hpresent⟩)
    · exact Finset.mem_union_right _ (Finset.mem_sdiff.mpr ⟨hin, hother⟩)
  have hcard := (Finset.card_le_card hsub).trans (Finset.card_union_le _ _)
  unfold Reached at h
  unfold overlap
  omega

/-- Some quorum takes as many as it can from outside the other set. -/
theorem exists_overlap (hcard : k ≤ members.card) (members' : Finset α) :
    ∃ quorum, quorum ⊆ members ∧ quorum.card = k ∧
      (members' ∩ quorum).card = overlap k members members' := by
  rcases Nat.le_total k (members \ members').card with hle | hle
  · obtain ⟨quorum, hsub, hquorum⟩ := Finset.exists_subset_card_eq hle
    refine ⟨quorum, hsub.trans Finset.sdiff_subset, hquorum, ?_⟩
    have hdisjoint : members' ∩ quorum = ∅ := by
      refine Finset.eq_empty_of_forall_notMem fun member hmember => ?_
      obtain ⟨hin, hmem⟩ := Finset.mem_inter.mp hmember
      exact (Finset.mem_sdiff.mp (hsub hmem)).2 hin
    rw [hdisjoint, Finset.card_empty, overlap, Nat.sub_eq_zero_of_le hle]
  · obtain ⟨quorum, hin, hsub, hquorum⟩ :=
      Finset.exists_subsuperset_card_eq (Finset.sdiff_subset (t := members')) hle hcard
    refine ⟨quorum, hsub, hquorum, ?_⟩
    have hsame : members' ∩ quorum = quorum \ (members \ members') := by
      ext member
      simp only [Finset.mem_inter, Finset.mem_sdiff]
      constructor
      · rintro ⟨hmem, hquorum⟩
        exact ⟨hquorum, fun hother => hother.2 hmem⟩
      · rintro ⟨hmem, hother⟩
        exact ⟨by_contra fun hout => hother ⟨hsub hmem, hout⟩, hmem⟩
    rw [hsame, Finset.card_sdiff_of_subset hin, hquorum, overlap]

/-- Every member is in some quorum, so a set whose quorums all reach the other
quorum is part of the other set. -/
theorem subset_of_reached (hk : 0 < k) (hcard : k ≤ members.card)
    (h : ∀ present, Reached k members present → Reached k members' present) :
    members ⊆ members' := by
  intro member hmember
  have hsingle : ({member} : Finset α) ⊆ members := Finset.singleton_subset_iff.mpr hmember
  obtain ⟨quorum, hin, hsub, hquorum⟩ :=
    Finset.exists_subsuperset_card_eq hsingle (by rwa [Finset.card_singleton]) hcard
  have hreached : Reached k members quorum := reached_iff.mpr ⟨quorum, hsub, subset_rfl, hquorum⟩
  have hother : quorum.card ≤ (members' ∩ quorum).card := by
    rw [hquorum]
    exact h quorum hreached
  have hall : members' ∩ quorum = quorum :=
    Finset.eq_of_subset_of_card_le Finset.inter_subset_right hother
  have hmem : member ∈ members' ∩ quorum := by
    rw [hall]
    exact hin (Finset.mem_singleton_self member)
  exact (Finset.mem_inter.mp hmem).1

theorem same_quorums_iff (hk : 0 < k) :
    (∀ present, Reached k members present ↔ Reached k members' present) ↔
      members = members' ∨ members.card < k ∧ members'.card < k := by
  constructor
  · intro h
    by_cases hcard : k ≤ members.card
    · have hsub := subset_of_reached hk hcard fun present => (h present).mp
      have hcard' : k ≤ members'.card := hcard.trans (Finset.card_le_card hsub)
      have hsub' := subset_of_reached hk hcard' fun present => (h present).mpr
      exact Or.inl (Finset.Subset.antisymm hsub hsub')
    · have hcard' : ¬k ≤ members'.card := by
        intro hle
        have hreached : Reached k members members' := (h members').mpr (reached_self.mpr hle)
        exact hcard hreached.le_card
      exact Or.inr ⟨by omega, by omega⟩
  · rintro (rfl | ⟨hcard, hcard'⟩) present
    · rfl
    · constructor
      · intro hreached
        have := hreached.le_card
        omega
      · intro hreached
        have := hreached.le_card
        omega

end Quorum

end Mpas
