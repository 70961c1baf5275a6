import Mathlib.Data.Fintype.Card
import Mathlib.Data.Fintype.BigOperators

/-!
# Majorities of a finite membership
-/

namespace Quorum

variable {Member : Type} [Fintype Member] [DecidableEq Member]

/-- More than half of the membership. -/
def Majority (group : Finset Member) : Prop :=
  Fintype.card Member < 2 * group.card

/-- Two majorities share a member. -/
theorem Majority.inter {left right : Finset Member}
    (leftMajority : Majority left) (rightMajority : Majority right) :
    ∃ member, member ∈ left ∧ member ∈ right := by
  have bound := Finset.card_le_univ (left ∪ right)
  have counted := Finset.card_union_add_card_inter left right
  simp only [Majority] at leftMajority rightMajority
  have nonempty : 0 < (left ∩ right).card := by omega
  obtain ⟨member, shared⟩ := Finset.card_pos.mp nonempty
  exact ⟨member, Finset.mem_inter.mp shared⟩

/-- A member together with the members of a duplicate-free list of others is a
majority as soon as the tally passes half of the membership. -/
theorem majority_insert_toFinset (self : Member) {others : List Member}
    (nodup : others.Nodup) (fresh : self ∉ others)
    (tally : Fintype.card Member / 2 + 1 ≤ 1 + others.length) :
    Majority (insert self others.toFinset) := by
  have counted : (insert self others.toFinset).card = others.length + 1 := by
    rw [Finset.card_insert_of_notMem (by simpa using fresh),
      List.toFinset_card_of_nodup nodup]
  simp only [Majority, counted]
  omega

end Quorum
