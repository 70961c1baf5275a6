import RaftCanvas.Raft.Frames
import RaftCanvas.Simulation.Matching

/-!
# The conflict scan of `handleAppendEntries`

The scan takes a compacted entry for a missing one; `Clobbers` is the condition under
which the handler then truncates rows that agree with the leader.  Everything else
here is about what the scan does find.
-/

namespace RaftCanvas

open Replication (lastTerm)

variable {Id : Type} {machine : Machine}

/-- The scan stops at an entry the snapshot covers although no row differs from the
request, and the request ends before the log does: truncating there loses rows. -/
def Database.Clobbers (db : Database Id machine.Blob) (entries : List LogEntry) : Prop :=
  0 ≤ Node.writeStart db entries ∧ Node.writeStart db entries ≤ db.lastSnapshotIndex ∧
    (∀ last ∈ entries.getLast?, last.index < db.lastIndex) ∧
    ∀ entry ∈ entries, db.lastSnapshotIndex < entry.index →
      ∃ row ∈ db.getEntry entry.index, row.term = entry.term

/-! ## The conflict scan -/

theorem Node.writeStart_saveTermAndVote (db : Database Id machine.Blob) (era : Nat)
    (votedFor : Option Id) (entries : List LogEntry) :
    Node.writeStart (db.saveTermAndVote era votedFor) entries =
      Node.writeStart db entries := by
  induction entries with
  | nil => rfl
  | cons entry rest ih =>
      rw [Node.writeStart, Node.writeStart, ih]
      rfl

theorem Database.clobbers_saveTermAndVote (db : Database Id machine.Blob) (era : Nat)
    (votedFor : Option Id) (entries : List LogEntry) :
    (db.saveTermAndVote era votedFor).Clobbers entries ↔ db.Clobbers entries := by
  rw [Database.Clobbers, Database.Clobbers, Node.writeStart_saveTermAndVote]
  rfl

/-- Row `i` is present with the term of the entry `whole` has there. -/
def Database.Agrees (db : Database Id machine.Blob) (whole : List LogEntry)
    (position : Nat) : Prop :=
  ∀ entry, whole[position]? = some entry →
    ∃ row, db.getEntry position = some row ∧ row.term = entry.term

/-- The scan over the entries from `start` on either finds all of them, or stops at the
first that is missing or of another term. -/
theorem Node.writeStart_cases (db : Database Id machine.Blob) {whole : List LogEntry}
    (indexed : Indexed whole) (start : Nat) :
    (Node.writeStart db (whole.drop start) = -1 ∧
      ∀ position, start ≤ position → db.Agrees whole position) ∨
    ∃ stop : Nat, start ≤ stop ∧ stop < whole.length ∧
      Node.writeStart db (whole.drop start) = stop ∧
      (∀ position, start ≤ position → position < stop → db.Agrees whole position) ∧
      ¬db.Agrees whole stop := by
  by_cases inside : start < whole.length
  · obtain ⟨entry, found⟩ : ∃ entry, whole[start]? = some entry :=
      ⟨_, List.getElem?_eq_getElem inside⟩
    have split : whole.drop start = entry :: whole.drop (start + 1) := by
      rw [List.drop_eq_getElem_cons inside]
      congr 1
      simpa [List.getElem?_eq_getElem inside] using found
    have index := indexed start entry found
    by_cases agrees : db.Agrees whole start
    · obtain ⟨row, present, sameTerm⟩ := agrees entry found
      have skip : Node.writeStart db (whole.drop start) =
          Node.writeStart db (whole.drop (start + 1)) := by
        rw [split, Node.writeStart, index, present]
        simp [sameTerm]
      rw [skip]
      rcases Node.writeStart_cases db indexed (start + 1) with
        ⟨all, rest⟩ | ⟨stop, after, within, result, rest, differs⟩
      · refine Or.inl ⟨all, fun position above => ?_⟩
        rcases Nat.lt_or_eq_of_le above with later | rfl
        · exact rest position later
        · exact agrees
      · refine Or.inr ⟨stop, by omega, within, result, fun position above below => ?_,
          differs⟩
        rcases Nat.lt_or_eq_of_le above with later | rfl
        · exact rest position later below
        · exact agrees
    · refine Or.inr ⟨start, Nat.le_refl _, inside, ?_, fun _ above below => by omega,
        agrees⟩
      rw [split, Node.writeStart, index]
      split
      next row present =>
          rw [if_neg]
          intro sameTerm
          refine agrees fun other same => ⟨row, present, ?_⟩
          rw [found] at same
          exact Option.some.inj same ▸ sameTerm
      · rfl
  · have empty : whole.drop start = [] := List.drop_eq_nil_of_le (by omega)
    refine Or.inl ⟨by rw [empty, Node.writeStart], fun position above entry found => ?_⟩
    have bound := (List.getElem?_eq_some_iff.mp found).1
    omega
termination_by whole.length - start

variable [Fintype Id]

section Agreement

variable {ideal : Ideal Id} {actor : Id} {db : Database Id machine.Blob} {era : Nat}

/-- A log that agrees with a ledger up to `start`, and in the terms of the rows up to
`stop`, agrees with it up to `stop`. -/
theorem agree_upto (sound : ideal.Sound) (stores : db.Stores (ideal.log actor))
    (led : ideal.elected era ≠ none) {start stop count : Nat}
    (reached : start ≤ (ideal.log actor).length)
    (agreed : (ideal.log actor).take start <+: ideal.ledger era)
    (above : start ≤ stop) (below : stop ≤ count)
    (within : count ≤ (ideal.ledger era).length)
    (rows : ∀ position, start ≤ position → position < stop →
      db.Agrees ((ideal.ledger era).take count) position) :
    stop ≤ (ideal.log actor).length ∧
      (ideal.log actor).take stop = (ideal.ledger era).take stop := by
  rcases Nat.lt_or_eq_of_le above with later | rfl
  · obtain ⟨entry, found⟩ : ∃ entry, (ideal.ledger era)[stop - 1]? = some entry :=
      ⟨_, List.getElem?_eq_getElem (by omega)⟩
    obtain ⟨row, present, sameTerm⟩ := rows (stop - 1) (by omega) (by omega) entry
      (by rw [List.getElem?_take_of_lt (by omega), found])
    obtain ⟨_, inside⟩ := stores.getEntry_some present
    have bound := (List.getElem?_eq_some_iff.mp inside).1
    simp only [Int.toNat_natCast] at inside bound
    have matching := (sound.backed_log actor).matching (sound.backed_ledger era led)
      inside found sameTerm
    rw [Nat.sub_add_cancel (by omega)] at matching
    exact ⟨by omega, matching⟩
  · refine ⟨reached, ?_⟩
    rw [List.prefix_iff_eq_take, List.length_take, Nat.min_eq_left reached] at agreed
    exact agreed

omit [Fintype Id] in
/-- Above the snapshot a stop is where the log ends or departs from the ledger, so
nothing beyond it is shared. -/
theorem shared_below (stores : db.Stores (ideal.log actor)) {stop count : Nat}
    (above : db.lastSnapshotIndex < stop) (inside : stop < count)
    (differs : ¬db.Agrees ((ideal.ledger era).take count) stop) {shared : List LogEntry}
    (own : shared <+: ideal.log actor) (theirs : shared <+: ideal.ledger era) :
    shared.length ≤ stop := by
  by_contra longer
  obtain ⟨entry, found⟩ : ∃ entry, shared[stop]? = some entry :=
    ⟨_, List.getElem?_eq_getElem (by omega)⟩
  have bound : stop < shared.length := by omega
  obtain ⟨rest, ownWhole⟩ := own
  obtain ⟨rest', theirWhole⟩ := theirs
  apply differs
  intro other same
  rw [List.getElem?_take_of_lt inside, ← theirWhole, List.getElem?_append_left bound,
    found] at same
  refine ⟨entry, ?_, by rw [Option.some.inj same]⟩
  rw [stores.getEntry_above above, Int.toNat_natCast, ← ownWhole,
    List.getElem?_append_left bound, found]

/-- A request that passes the consistency check starts where log and ledger agree. -/
theorem prev_agrees (sound : ideal.Sound) (stores : db.Stores (ideal.log actor))
    {src : Id} {body : AppendEntries Id} (replicates : Replicates ideal src body)
    (trust : (ideal.log actor).take (db.lastSnapshotIndex + 1).toNat <+:
      ideal.ledger body.term)
    (matched : Node.matchesPrev db body.prevLogIndex body.prevLogTerm = true) :
    (body.prevLogIndex + 1).toNat ≤ (ideal.log actor).length ∧
      (ideal.log actor).take (body.prevLogIndex + 1).toNat <+: ideal.ledger body.term ∧
      body.count ≤ (ideal.ledger body.term).length ∧
      body.entries = ((ideal.ledger body.term).take body.count).drop
        (body.prevLogIndex + 1).toNat := by
  have led : ideal.elected body.term ≠ none := by simp [replicates.leader]
  have bound := stores.within
  have low := replicates.prev
  -- at or below the snapshot the log agrees with every leader
  have covered : body.prevLogIndex ≤ db.lastSnapshotIndex →
      (body.prevLogIndex + 1).toNat ≤ (ideal.log actor).length ∧
        (ideal.log actor).take (body.prevLogIndex + 1).toNat <+:
          ideal.ledger body.term :=
    fun below => ⟨by omega, (List.take_prefix_take_left (by omega)).trans trust⟩
  have checked : body.prevLogIndex ≤ db.lastSnapshotIndex ∨
      ∃ prev : LogEntry, db.getEntry body.prevLogIndex = some prev ∧
        (prev.term : Int) = body.prevLogTerm := by
    have lowest := stores.low
    rw [Node.matchesPrev] at matched
    split at matched
    · split at matched
      · exact Or.inl (by omega)
      · split at matched
        · exact Or.inl (by omega)
        · split at matched
          next prev found => exact Or.inr ⟨prev, found, by simpa using matched⟩
          next => simp at matched
    · exact Or.inl (by omega)
  rcases replicates.quote with ⟨inside, within, term⟩ | ⟨empty, term, positive⟩
  · have quoted : body.entries = ((ideal.ledger body.term).take body.count).drop
        (body.prevLogIndex + 1).toNat := by
      rw [List.prefix_iff_eq_take] at inside
      rw [List.drop_take, AppendEntries.count, Nat.add_sub_cancel_left]
      exact inside
    rcases checked with below | ⟨prev, found, sameTerm⟩
    · exact ⟨(covered below).1, (covered below).2, within, quoted⟩
    · obtain ⟨positive, own⟩ := stores.getEntry_some found
      have ownBound := (List.getElem?_eq_some_iff.mp own).1
      have start : (body.prevLogIndex + 1).toNat = body.prevLogIndex.toNat + 1 := by omega
      have counted : (body.prevLogIndex + 1).toNat ≤ body.count := Nat.le_add_right _ _
      obtain ⟨entry, theirs⟩ : ∃ entry,
          (ideal.ledger body.term)[body.prevLogIndex.toNat]? = some entry :=
        ⟨_, List.getElem?_eq_getElem (by omega)⟩
      rcases term with none_ | known
      · omega
      · rw [start, List.take_add_one, theirs, Option.toList_some,
          Replication.lastTerm_concat, stamped_term] at known
        have matching := (sound.backed_log actor).matching (sound.backed_ledger _ led)
          own theirs (by rw [stamped_term, stamped_term]; omega)
        refine ⟨by omega, ?_, within, quoted⟩
        rw [start, matching]
        exact List.take_prefix _ _
  · rcases checked with below | ⟨prev, _, sameTerm⟩
    · obtain ⟨reached, agreed⟩ := covered below
      have counted : body.count = (body.prevLogIndex + 1).toNat := by
        simp [AppendEntries.count, empty]
      have length := agreed.length_le
      rw [List.length_take, Nat.min_eq_left reached] at length
      refine ⟨reached, agreed, by omega, ?_⟩
      rw [counted, empty, List.drop_eq_nil_of_le (by simp)]
    · omega

end Agreement

end RaftCanvas
