import RaftCanvas.Raft.RaftNode

/-!
# The commit rule

A leader may commit an index whose row is of its current term and of which a majority,
counting itself, holds a copy.  The scan of `_maybeAdvanceCommitIndex` finds the
greatest such index above the commit index.
-/

namespace RaftCanvas.Node

variable {Id : Type} {machine : Machine}

/-- `n` holds an entry of the current term, and enough copies are known of. -/
def Eligible (config : Config Id) (self : Node Id machine) (n : Int) : Prop :=
  (∃ entry, self.db.getEntry n = some entry ∧ entry.term = self.currentTerm) ∧
    config.majority ≤ self.matchCount config n

/-- One round of the scan. -/
theorem commitScan_succ (config : Config Id) (self : Node Id machine) (fuel : Nat)
    (n : Int) :
    self.Eligible config n ∧ commitScan config self (fuel + 1) n = some n ∨
      ¬self.Eligible config n ∧
        commitScan config self (fuel + 1) n = commitScan config self fuel (n - 1) := by
  rw [commitScan]
  split
  next missing => exact Or.inr ⟨fun ⟨⟨_, found, _⟩, _⟩ => by simp [missing] at found, rfl⟩
  next entry found =>
      split
      next other =>
          refine Or.inr ⟨fun ⟨⟨entry', found', same⟩, _⟩ => other ?_, rfl⟩
          obtain rfl : entry = entry' := Option.some.inj (found.symm.trans found')
          exact same
      next current =>
          split
          next enough => exact Or.inl ⟨⟨⟨entry, found, not_not.mp current⟩, enough⟩, rfl⟩
          next few => exact Or.inr ⟨fun ⟨_, enough⟩ => few enough, rfl⟩

/-- The scan returns the greatest eligible index of its range. -/
theorem commitScan_some {config : Config Id} {self : Node Id machine} {fuel : Nat}
    {last found : Int} (scanned : commitScan config self fuel last = some found) :
    last - fuel < found ∧ found ≤ last ∧ self.Eligible config found ∧
      ∀ n, found < n → n ≤ last → ¬self.Eligible config n := by
  induction fuel generalizing last with
  | zero => simp [commitScan] at scanned
  | succ fuel ih =>
      rcases commitScan_succ config self fuel last with ⟨eligible, here⟩ | ⟨not, lower⟩
      · obtain rfl : last = found := Option.some.inj (here.symm.trans scanned)
        exact ⟨by omega, Int.le_refl _, eligible, fun n above below => by omega⟩
      · obtain ⟨above, below, eligible, greatest⟩ := ih (lower.symm.trans scanned)
        refine ⟨by push_cast; omega, by omega, eligible, fun n after upto => ?_⟩
        by_cases first : n = last
        · exact first ▸ not
        · exact greatest n after (by omega)

/-- The scan returns nothing only if nothing in its range is eligible. -/
theorem commitScan_none {config : Config Id} {self : Node Id machine} {fuel : Nat}
    {last : Int} (scanned : commitScan config self fuel last = none) {n : Int}
    (above : last - fuel < n) (below : n ≤ last) : ¬self.Eligible config n := by
  induction fuel generalizing last with
  | zero => omega
  | succ fuel ih =>
      rcases commitScan_succ config self fuel last with ⟨_, here⟩ | ⟨not, lower⟩
      · simp [here] at scanned
      · by_cases first : n = last
        · exact first ▸ not
        · exact ih (lower.symm.trans scanned) (by push_cast at above; omega) (by omega)

end RaftCanvas.Node
