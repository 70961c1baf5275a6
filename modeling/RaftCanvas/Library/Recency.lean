import Mathlib.Data.List.Dedup
import Mathlib.Data.List.DropRight
import Mathlib.Data.Finset.Card
import Mathlib.Data.Finset.Dedup

/-!
# Bounded tables in order of last use

Touching a key moves it to the end; past the capacity the first key goes.  What is in
such a table after any number of touches are the last `capacity` distinct keys, so
that a key only disappears after `capacity` others.
-/

namespace Recency

variable {Key : Type} [DecidableEq Key]

/-- Move a key to the end and drop the first one if there are too many. -/
def touch (capacity : Nat) (keys : List Key) (key : Key) : List Key :=
  let moved := keys.filter (· ≠ key) ++ [key]
  if capacity < moved.length then moved.tail else moved

/-- The table after a sequence of touches. -/
def keysAfter (capacity : Nat) (touched : List Key) : List Key :=
  touched.foldl (touch capacity) []

@[simp] theorem keysAfter_nil (capacity : Nat) :
    keysAfter capacity ([] : List Key) = [] := rfl

@[simp] theorem keysAfter_concat (capacity : Nat) (touched : List Key) (key : Key) :
    keysAfter capacity (touched ++ [key]) = touch capacity (keysAfter capacity touched) key := by
  simp [keysAfter]

/-- The last occurrence of every key, in order. -/
theorem dedup_concat (touched : List Key) (key : Key) :
    (touched ++ [key]).dedup = touched.dedup.filter (· ≠ key) ++ [key] := by
  induction touched with
  | nil => simp
  | cons first rest ih =>
      rw [List.cons_append]
      by_cases again : first ∈ rest
      · rw [List.dedup_cons_of_mem (by simp [again]), List.dedup_cons_of_mem again, ih]
      · by_cases same : first = key
        · subst same
          rw [List.dedup_cons_of_mem (by simp), List.dedup_cons_of_notMem again, ih]
          simp
        · rw [List.dedup_cons_of_notMem (by simp [again, same]),
            List.dedup_cons_of_notMem again, ih]
          simp [same]

/-- Touching commutes with forgetting all but the last `capacity` keys. -/
theorem touch_rtake (capacity : Nat) {keys : List Key} (nodup : keys.Nodup) (key : Key) :
    touch capacity (keys.rtake capacity) key =
      (keys.filter (· ≠ key) ++ [key]).rtake capacity := by
  obtain ⟨front, back, rfl, shape⟩ : ∃ front back, keys = front ++ back ∧
      front.length = keys.length - capacity :=
    ⟨_, _, (List.take_append_drop (keys.length - capacity) keys).symm, by simp⟩
  rw [List.length_append] at shape
  have recent : (front ++ back).rtake capacity = back := by
    rw [List.rtake, List.length_append, ← shape, List.drop_left]
  rw [recent, List.filter_append, List.append_assoc]
  obtain ⟨_, nodupBack, apart⟩ := List.nodup_append.mp nodup
  by_cases held : key ∈ back
  · -- the key moves within the last ones
    have absent : front.filter (· ≠ key) = front :=
      List.filter_eq_self.mpr fun other member => by simpa using apart other member key held
    have moved : (back.filter (· ≠ key)).length + 1 = back.length := by
      have erased : back.filter (· ≠ key) = back.erase key := by
        rw [nodupBack.erase_eq_filter]
        exact List.filter_congr fun other _ => by
          simp [bne, beq_eq_decide]
      have positive := List.length_pos_of_mem held
      rw [erased, List.length_erase_of_mem held]
      omega
    rw [absent, touch, List.rtake]
    simp only [List.length_append, List.length_singleton]
    rw [if_neg (by omega), show front.length + ((back.filter (· ≠ key)).length + 1) -
      capacity = front.length by omega, List.drop_left]
  · have same : back.filter (· ≠ key) = back :=
      List.filter_eq_self.mpr fun other member => by
        simpa using ne_of_mem_of_not_mem member held
    rw [same, touch, same, List.rtake]
    simp only [List.length_append, List.length_singleton]
    by_cases full : back.length = capacity
    · -- the table is full and its first key goes
      rw [if_pos (by omega), show (front.filter (· ≠ key)).length + (back.length + 1) -
        capacity = (front.filter (· ≠ key)).length + 1 by omega, ← List.drop_drop,
        List.drop_left, List.drop_one]
    · obtain rfl : front = [] := List.length_eq_zero_iff.mp (by omega)
      simp only [List.length_nil] at shape ⊢
      rw [if_neg (by omega), List.filter_nil, List.length_nil,
        show 0 + (back.length + 1) - capacity = 0 by omega]
      rfl

/-- A table holds the last `capacity` distinct keys. -/
theorem keysAfter_eq (capacity : Nat) (touched : List Key) :
    keysAfter capacity touched = touched.dedup.rtake capacity := by
  induction touched using List.reverseRecOn with
  | nil => simp [List.rtake]
  | append_singleton touched key ih =>
      rw [keysAfter_concat, ih, touch_rtake capacity touched.nodup_dedup, dedup_concat]

theorem nodup_keysAfter (capacity : Nat) (touched : List Key) :
    (keysAfter capacity touched).Nodup := by
  rw [keysAfter_eq]
  exact touched.nodup_dedup.sublist (List.drop_sublist _ _)

theorem length_keysAfter_le (capacity : Nat) (touched : List Key) :
    (keysAfter capacity touched).length ≤ capacity := by
  rw [keysAfter_eq, List.rtake, List.length_drop]
  omega

/-- A key that is gone has had `capacity` other keys touched after it. -/
theorem exists_touched_of_gone {capacity : Nat} {earlier later : List Key} {key : Key}
    (gone : key ∉ keysAfter capacity (earlier ++ key :: later)) :
    ∃ group : Finset Key, capacity ≤ group.card ∧
      ∀ other ∈ group, other ≠ key ∧ other ∈ later := by
  have nodup := nodup_keysAfter capacity (earlier ++ key :: later)
  rw [keysAfter_eq] at gone nodup
  have recent : (earlier ++ key :: later).dedup.rtake capacity <:+
      (earlier ++ key :: later).dedup := List.drop_suffix _ _
  have newer : (key :: later).dedup <:+ (earlier ++ key :: later).dedup := by
    rw [List.dedup_append]
    exact List.suffix_union_right _ _
  -- the kept keys are the last ones, and `key` is not among them
  have inside : (earlier ++ key :: later).dedup.rtake capacity <:+ (key :: later).dedup := by
    rcases List.suffix_or_suffix_of_suffix recent newer with inner | outer
    · exact inner
    · exact absurd (outer.subset (List.mem_dedup.mpr List.mem_cons_self)) gone
  refine ⟨((earlier ++ key :: later).dedup.rtake capacity).toFinset, ?_, ?_⟩
  · rw [List.toFinset_card_of_nodup nodup]
    by_contra small
    have whole : (earlier ++ key :: later).dedup.rtake capacity =
        (earlier ++ key :: later).dedup := by
      rw [List.rtake, List.length_drop] at small
      rw [List.rtake, show (earlier ++ key :: later).dedup.length - capacity = 0 by omega,
        List.drop_zero]
    rw [whole] at gone
    exact gone (List.mem_dedup.mpr (by simp))
  · intro other member
    rw [List.mem_toFinset] at member
    have different : other ≠ key := by
      rintro rfl
      exact gone member
    refine ⟨different, ?_⟩
    rcases List.mem_cons.mp (List.mem_dedup.mp (inside.subset member)) with rfl | used
    · exact absurd rfl different
    · exact used

end Recency
