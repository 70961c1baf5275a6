import RaftCanvas.Cluster.Election
import RaftCanvas.Raft.Applying

/-!
# Dying inside a compaction

`_maybeSnapshot` saves the snapshot before it truncates, `handleInstallSnapshot`
truncates first.  The file is looked at after every number of effects.
-/

namespace RaftCanvas

/-- No index between two rows is missing. -/
def LogTable.Contiguous (table : LogTable) : Prop :=
  ∀ low ∈ table.rows, ∀ high ∈ table.rows, ∀ index,
    low.index ≤ index → index ≤ high.index → ∃ row ∈ table.rows, row.index = index

/-- Below any row every index from the first one on is a row. -/
theorem LogTable.Contiguous.row_below {table : LogTable} (contiguous : table.Contiguous)
    {start : Int} (first : ∀ row ∈ table.rows.head?, row.index ≤ start + 1)
    {row : LogEntry} (member : row ∈ table.rows) {index : Int} (above : start < index)
    (below : index ≤ row.index) : ∃ found ∈ table.rows, found.index = index := by
  cases rows : table.rows.head? with
  | none => simp [List.head?_eq_none_iff.mp rows] at member
  | some head =>
      have bound := first head rows
      exact contiguous head (List.mem_of_mem_head? rows) row member index (by omega) below

namespace Database

variable {Id Blob : Type}

/-- The meta row and the snapshot that `loadLatestSnapshot` finds agree. -/
def MetaAgrees (db : Database Id Blob) : Prop :=
  match db.loadLatestSnapshot with
  | none => db.lastSnapshotIndex = -1
  | some snap => snap.lastIncludedIndex = db.lastSnapshotIndex ∧
      snap.lastIncludedTerm = db.lastSnapshotTerm

/-- Log and snapshot are contiguous. -/
structure Tidy (db : Database Id Blob) : Prop where
  agrees : db.MetaAgrees
  contiguous : db.log.Contiguous
  first : ∀ row ∈ db.log.rows.head?, row.index ≤ db.lastSnapshotIndex + 1
  last : ∀ row ∈ db.log.rows.getLast?, db.lastSnapshotIndex ≤ row.index

/-- What a file must still be after a process died on it. -/
structure Survives (before after : Database Id Blob) (conflicts : Int → Prop) : Prop where
  agrees : after.MetaAgrees
  complete : ∀ index, index ≤ after.lastIndex → after.Holds index
  kept : ∀ index, before.Holds index → ¬conflicts index → after.Holds index

/-- The log conflicts with an incoming snapshot from the snapshot's last index on, if
the row there has another term. -/
def Conflicts (db : Database Id Blob) (body : InstallSnapshot Id Blob) (index : Int) :
    Prop :=
  body.lastIncludedIndex ≤ index ∧ ∃ row, db.getEntry body.lastIncludedIndex = some row ∧
    (row.term : Int) ≠ body.lastIncludedTerm

/-- A row that the old snapshot does not cover and the new one does not contradict. -/
def Exposed (db : Database Id Blob) (body : InstallSnapshot Id Blob) : Prop :=
  ∃ row ∈ db.log.rows, db.lastSnapshotIndex < row.index ∧ ¬db.Conflicts body row.index

theorem holds_iff {db : Database Id Blob} {index : Int} :
    db.Holds index ↔
      (∃ row ∈ db.log.rows, row.index = index) ∨ index ≤ db.lastSnapshotIndex := by
  rw [Holds, getEntry_isSome]

namespace Tidy

variable {db : Database Id Blob} (tidy : db.Tidy)
include tidy

theorem row_below {row : LogEntry} (member : row ∈ db.log.rows) {index : Int}
    (above : db.lastSnapshotIndex < index) (below : index ≤ row.index) :
    ∃ found ∈ db.log.rows, found.index = index :=
  tidy.contiguous.row_below tidy.first member above below

theorem complete {index : Int} (below : index ≤ db.lastIndex) : db.Holds index := by
  rw [holds_iff]
  by_cases covered : index ≤ db.lastSnapshotIndex
  · exact Or.inr covered
  · simp only [lastIndex] at below
    split at below
    next row ends =>
        exact Or.inl (tidy.row_below (List.mem_of_getLast? ends) (by omega) below)
    next => exact absurd below covered

theorem survives (conflicts : Int → Prop) : db.Survives db conflicts where
  agrees := tidy.agrees
  complete _ := tidy.complete
  kept _ held _ := held

theorem saveTermAndVote (term : Nat) (votedFor : Option Id) :
    (db.saveTermAndVote term votedFor).Tidy where
  agrees := tidy.agrees
  contiguous := tidy.contiguous
  first := tidy.first
  last := tidy.last

/-! ## Saving first -/

/-- A snapshot that ends at a row leaves every index held. -/
theorem saved {index : Int} {row : LogEntry} (found : db.getEntry index = some row)
    (snap : Snapshot Blob) (after : Database Id Blob)
    (rows : after.log.rows = db.log.rows ∨
      after.log.rows = db.log.rows.filter fun other => index < other.index)
    (stored : after.snapshot = some snap ∧ after.lastSnapshotIndex = index ∧
      snap.lastIncludedIndex = index ∧ snap.lastIncludedTerm = after.lastSnapshotTerm)
    (conflicts : Int → Prop) : db.Survives after conflicts := by
  obtain ⟨snapshot, last, ends, term⟩ := stored
  obtain ⟨member, own⟩ := getEntry_mem found
  -- a row above the new snapshot is kept by either truncation
  have kept : ∀ {other : LogEntry}, other ∈ db.log.rows → after.Holds other.index := by
    intro other inside
    rw [holds_iff, last]
    by_cases above : index < other.index
    · refine Or.inl ⟨other, ?_, rfl⟩
      rcases rows with same | same <;> rw [same]
      · exact inside
      · exact List.mem_filter.mpr ⟨inside, by simpa using above⟩
    · exact Or.inr (Int.not_lt.mp above)
  have old : ∀ {other : LogEntry}, other ∈ after.log.rows → other ∈ db.log.rows := by
    intro other inside
    rcases rows with same | same <;> rw [same] at inside
    · exact inside
    · exact (List.mem_filter.mp inside).1
  refine ⟨?_, ?_, ?_⟩
  · simp [MetaAgrees, loadLatestSnapshot, snapshot, last, ends, term]
  · intro place below
    by_cases covered : place ≤ index
    · exact Or.inr (last ▸ covered)
    · simp only [lastIndex] at below
      split at below
      next top ends =>
          obtain ⟨other, inside, rfl⟩ := tidy.contiguous row member top
            (old (List.mem_of_getLast? ends)) place (by omega) below
          exact kept inside
      next => omega
  · intro place held _
    rcases holds_iff.mp held with ⟨other, inside, rfl⟩ | covered
    · exact kept inside
    · by_cases below : place ≤ index
      · exact Or.inr (last ▸ below)
      · -- rows reach from the new snapshot to the old one
        obtain ⟨top, ends⟩ := Option.isSome_iff_exists.mp (List.getLast?_isSome.mpr
          (List.ne_nil_of_mem member))
        have reach := tidy.last top ends
        obtain ⟨other, inside, rfl⟩ := tidy.contiguous row member top
          (List.mem_of_getLast? ends) place (by omega) (by omega)
        exact kept inside

/-! ## Truncating first -/

/-- Nothing above a missing row remains. -/
theorem none_above {index : Int} (above : db.lastSnapshotIndex < index)
    (missing : db.getEntry index = none) {row : LogEntry} (member : row ∈ db.log.rows) :
    row.index < index := by
  by_contra beyond
  have found := tidy.row_below member above (Int.not_lt.mp beyond)
  rw [← getEntry_isSome, missing] at found
  simp at found

/-- A wiped log with the incoming snapshot holds all that does not conflict. -/
theorem replaced {body : InstallSnapshot Id Blob}
    (above : db.lastSnapshotIndex < body.lastIncludedIndex)
    (differs : ∀ row, db.getEntry body.lastIncludedIndex = some row →
      (row.term : Int) ≠ body.lastIncludedTerm) :
    db.Survives (db.truncateAll.saveSnapshot body.lastIncludedIndex body.lastIncludedTerm
      body.data) (db.Conflicts body) where
  agrees := ⟨rfl, rfl⟩
  complete index below := Or.inr below
  kept index held allowed := by
    refine Or.inr ?_
    show index ≤ body.lastIncludedIndex
    by_contra beyond
    rcases holds_iff.mp held with ⟨row, member, rfl⟩ | covered
    · cases found : db.getEntry body.lastIncludedIndex with
      | none =>
          have below := tidy.none_above above found member
          omega
      | some other => exact allowed ⟨by omega, other, found, differs other found⟩
    · omega

/-- Between the wiping and the saving nothing but the old snapshot is left. -/
theorem wiped_iff {body : InstallSnapshot Id Blob} :
    db.Survives db.truncateAll (db.Conflicts body) ↔ ¬db.Exposed body := by
  constructor
  · rintro survives ⟨row, member, above, allowed⟩
    rcases holds_iff.mp (survives.kept row.index
      (holds_iff.mpr (Or.inl ⟨row, member, rfl⟩)) allowed) with ⟨_, absent, _⟩ | covered
    · simp [truncateAll, LogTable.empty] at absent
    · exact absurd covered (Int.not_le.mpr above)
  · intro unexposed
    refine ⟨tidy.agrees, fun index below => Or.inr below, fun index held allowed => ?_⟩
    rcases holds_iff.mp held with ⟨row, member, rfl⟩ | covered
    · refine Or.inr ?_
      by_contra above
      exact unexposed ⟨row, member, Int.not_le.mp above, allowed⟩
    · exact Or.inr covered

omit tidy in
/-- Between cutting the log up to a matching row and the saving that row is lost. -/
theorem cut_lost {body : InstallSnapshot Id Blob}
    (above : db.lastSnapshotIndex < body.lastIncludedIndex) {row : LogEntry}
    (found : db.getEntry body.lastIncludedIndex = some row)
    (same : (row.term : Int) = body.lastIncludedTerm) :
    db.Exposed body ∧ ¬db.Survives (db.truncateUpTo body.lastIncludedIndex)
      (db.Conflicts body) := by
  obtain ⟨member, own⟩ := getEntry_mem found
  have allowed : ¬db.Conflicts body body.lastIncludedIndex := by
    rintro ⟨_, other, found', differs⟩
    rw [found, Option.some.injEq] at found'
    exact differs (found' ▸ same)
  refine ⟨⟨row, member, own ▸ above, own ▸ allowed⟩, fun survives => ?_⟩
  rcases holds_iff.mp (survives.kept body.lastIncludedIndex
    (holds_iff.mpr (Or.inl ⟨row, member, own⟩)) allowed) with ⟨other, inside, place⟩ | covered
  · have later := (List.mem_filter.mp inside).2
    simp only [decide_eq_true_eq] at later
    omega
  · exact absurd covered (Int.not_le.mpr above)

end Tidy

end Database

/-- Two transactions and an event, cut off anywhere. -/
theorem Effect.file_take_writes {Id Blob : Type} (db first second : Database Id Blob)
    (event : Event Blob) (effects : Nat) :
    effects = 0 ∧ file db ([.write first, .write second, .event event].take effects) = db ∨
    effects = 1 ∧ file db ([.write first, .write second, .event event].take effects) = first ∨
    2 ≤ effects ∧
      file db ([.write first, .write second, .event event].take effects) = second := by
  rcases effects with _ | _ | _ | effects <;> simp

namespace Node

variable {Id : Type} {machine : Machine}

/-- The file after the process died behind `done` and `start()` ran on it. -/
def reopened (self : Node Id machine) (done : List (Effect Id machine.Blob)) :
    Database Id machine.Blob :=
  (start (Effect.file self.db done) : Node Id machine).db

theorem reopened_eq (self : Node Id machine) (done : List (Effect Id machine.Blob)) :
    self.reopened done = Effect.file self.db done :=
  (World.Electoral.start_quiet _).2.1

/-- The process dies after the log was truncated for an incoming snapshot and before
that snapshot was saved. -/
def DiesDiscarding (self : Node Id machine) (body : InstallSnapshot Id machine.Blob)
    (effects : Nat) : Prop :=
  self.currentTerm ≤ body.term ∧ self.db.lastSnapshotIndex < body.lastIncludedIndex ∧
    effects = (self.began.followLeader body.term body.leaderId).trace.length + 1

/-- Wherever `_maybeSnapshot` is cut off, nothing is lost. -/
theorem maybeSnapshot_survives (self : Node Id machine) (tidy : self.db.Tidy)
    (config : Config Id) (effects : Nat) :
    self.db.Survives (self.reopened ((self.began.maybeSnapshot config).trace.take effects))
      fun _ => False := by
  rw [reopened_eq, maybeSnapshot]
  split
  · simpa [began] using tidy.survives _
  · split
    · simpa [began] using tidy.survives _
    · split
      · simpa [began] using tidy.survives _
      next row found =>
          let snap : Snapshot machine.Blob :=
            ⟨self.lastApplied, row.term, machine.getSnapshot self.stateMachine⟩
          let saved := self.db.saveSnapshot self.lastApplied row.term
            (machine.getSnapshot self.stateMachine)
          show self.db.Survives (Effect.file self.db (List.take effects
            [.write saved, .write (saved.truncateUpTo self.lastApplied),
              .event (.snapshotTaken self.lastApplied
                (machine.getSnapshot self.stateMachine))])) _
          rcases Effect.file_take_writes self.db saved (saved.truncateUpTo self.lastApplied)
            (.snapshotTaken self.lastApplied (machine.getSnapshot self.stateMachine))
            effects with ⟨_, none⟩ | ⟨_, one⟩ | ⟨_, both⟩
          · rw [none]
            exact tidy.survives _
          · rw [one]
            exact tidy.saved found snap saved (Or.inl rfl) ⟨rfl, rfl, rfl, rfl⟩ _
          · rw [both]
            exact tidy.saved found snap (saved.truncateUpTo self.lastApplied) (Or.inr rfl)
              ⟨rfl, rfl, rfl, rfl⟩ _

/-- Receiving the leader writes at most the term and the vote. -/
theorem followLeader_cut (self : Node Id machine) (term : Nat) (leaderId : Id)
    (effects : Nat) :
    ∃ era votedFor, Effect.file self.db
      ((self.began.followLeader term leaderId).trace.take effects) =
        self.db.saveTermAndVote era votedFor := by
  have same : self.db = self.db.saveTermAndVote self.db.currentTerm self.db.votedFor := rfl
  unfold followLeader
  split
  · unfold becomeFollower
    dsimp only
    split
    · rcases effects with _ | _ | effects
      · exact ⟨_, _, same⟩
      · exact ⟨term, none, rfl⟩
      · exact ⟨term, none, by simp [write, emit, began]⟩
    · rcases effects with _ | effects
      · exact ⟨_, _, same⟩
      · exact ⟨_, _, by simpa [emit, began] using same⟩
  · exact ⟨_, _, by simpa [began] using same⟩

/-- Receiving the leader keeps the log and the snapshot. -/
theorem followLeader_db (self : Node Id machine) (term : Nat) (leaderId : Id) :
    ∃ era votedFor, (self.began.followLeader term leaderId).db =
      self.db.saveTermAndVote era votedFor := by
  unfold followLeader
  split
  · unfold becomeFollower
    dsimp only
    split
    · exact ⟨term, none, rfl⟩
    · exact ⟨_, _, rfl⟩
  · exact ⟨_, _, rfl⟩

/-- The second transaction of an installation comes after the log was discarded. -/
theorem installSnapshot_trace (self : Node Id machine)
    (body : InstallSnapshot Id machine.Blob) :
    ∃ discarded : Database Id machine.Blob,
      (self.installSnapshot body).trace = self.trace ++
        [.write discarded, .write (discarded.saveSnapshot body.lastIncludedIndex
          body.lastIncludedTerm body.data),
          .event (.snapshotInstalled body.lastIncludedIndex body.data)] ∧
      ((∃ row, self.db.getEntry body.lastIncludedIndex = some row ∧
          (row.term : Int) = body.lastIncludedTerm ∧
          discarded = self.db.truncateUpTo body.lastIncludedIndex) ∨
        (∀ row, self.db.getEntry body.lastIncludedIndex = some row →
          (row.term : Int) ≠ body.lastIncludedTerm) ∧ discarded = self.db.truncateAll) := by
  unfold installSnapshot discardLog
  dsimp only
  cases found : self.db.getEntry body.lastIncludedIndex with
  | none => exact ⟨_, by simp [write, emit], Or.inr ⟨by simp, rfl⟩⟩
  | some row =>
      dsimp only
      split
      next same => exact ⟨_, by simp [write, emit], Or.inl ⟨row, rfl, same, rfl⟩⟩
      next differs =>
          refine ⟨_, by simp [write, emit], Or.inr ⟨?_, rfl⟩⟩
          rintro _ ⟨⟩
          exact differs

omit machine in
/-- The term and the vote are not looked at. -/
theorem survives_vote {Blob : Type} {before after : Database Id Blob}
    {conflicts : Int → Prop} {term : Nat} {votedFor : Option Id} :
    before.Survives (after.saveTermAndVote term votedFor) conflicts ↔
      before.Survives after conflicts :=
  ⟨fun ⟨agrees, complete, kept⟩ => ⟨agrees, complete, kept⟩,
    fun ⟨agrees, complete, kept⟩ => ⟨agrees, complete, kept⟩⟩

/-- An installation loses something exactly if it is cut off between its two
transactions while only the log holds something. -/
theorem handleInstallSnapshot_survives (self : Node Id machine) (tidy : self.db.Tidy)
    (body : InstallSnapshot Id machine.Blob) (effects : Nat) :
    self.db.Survives
        (self.reopened ((self.began.handleInstallSnapshot body).1.trace.take effects))
        (self.db.Conflicts body) ↔
      ¬(self.DiesDiscarding body effects ∧ self.db.Exposed body) := by
  rw [reopened_eq, handleInstallSnapshot]
  split
  next stale =>
      replace stale : body.term < self.currentTerm := stale
      refine iff_of_true (by simpa [began] using tidy.survives _) ?_
      rintro ⟨⟨recent, -⟩, -⟩
      omega
  next recent =>
  replace recent : self.currentTerm ≤ body.term := Nat.not_lt.mp recent
  dsimp only
  obtain ⟨era, votedFor, same⟩ := self.followLeader_db body.term body.leaderId
  obtain ⟨era', votedFor', cut⟩ := self.followLeader_cut body.term body.leaderId effects
  have quiet : self.db.Survives
      (Effect.file self.db ((self.began.followLeader body.term body.leaderId).trace.take
        effects)) (self.db.Conflicts body) := by
    rw [cut]
    exact survives_vote.mpr (tidy.survives _)
  split
  next old =>
      rw [same] at old
      replace old : body.lastIncludedIndex ≤ self.db.lastSnapshotIndex := old
      refine iff_of_true quiet ?_
      rintro ⟨⟨-, new, -⟩, -⟩
      omega
  next new =>
  rw [same] at new
  replace new : self.db.lastSnapshotIndex < body.lastIncludedIndex := Int.not_le.mp new
  obtain ⟨discarded, trace, branch⟩ :=
    (self.began.followLeader body.term body.leaderId).installSnapshot_trace body
  rw [same] at branch
  rw [trace, List.take_append, Effect.file_append]
  rcases Effect.file_take_writes (Effect.file self.db
      ((self.began.followLeader body.term body.leaderId).trace.take effects)) discarded
      (discarded.saveSnapshot body.lastIncludedIndex body.lastIncludedTerm body.data)
      (.snapshotInstalled body.lastIncludedIndex body.data)
      (effects - (self.began.followLeader body.term body.leaderId).trace.length) with
    ⟨count, none⟩ | ⟨count, one⟩ | ⟨count, both⟩
  · rw [none]
    refine iff_of_true quiet ?_
    rintro ⟨⟨-, -, dies⟩, -⟩
    omega
  · rw [one]
    have dies : self.DiesDiscarding body effects := ⟨recent, new, by omega⟩
    rcases branch with ⟨row, found, agrees, rfl⟩ | ⟨_, rfl⟩
    · obtain ⟨exposed, lost⟩ := Database.Tidy.cut_lost new found agrees
      exact iff_of_false (fun kept => lost (survives_vote.mp kept))
        fun safe => safe ⟨dies, exposed⟩
    · rw [show (self.db.saveTermAndVote era votedFor).truncateAll =
          self.db.truncateAll.saveTermAndVote era votedFor from rfl, survives_vote,
        tidy.wiped_iff]
      simp [dies]
  · rw [both]
    refine iff_of_true ?_ ?_
    · rcases branch with ⟨row, found, agrees, rfl⟩ | ⟨differs, rfl⟩
      · have complete := tidy.saved found
          ⟨body.lastIncludedIndex, body.lastIncludedTerm, body.data⟩
          ((self.db.truncateUpTo body.lastIncludedIndex).saveSnapshot body.lastIncludedIndex
            body.lastIncludedTerm body.data) (Or.inr rfl) ⟨rfl, rfl, rfl, rfl⟩
          (self.db.Conflicts body)
        exact survives_vote.mpr complete
      · exact survives_vote.mpr (tidy.replaced new differs)
    · rintro ⟨⟨-, -, dies⟩, -⟩
      omega

/-- Dying inside a compaction or an installation, at any effect, leaves a file that
still holds everything, except between the discarding and the saving. -/
theorem crash_consistent (self : Node Id machine) (tidy : self.db.Tidy) :
    (∀ config effects, self.db.Survives
      (self.reopened ((self.began.maybeSnapshot config).trace.take effects))
      fun _ => False) ∧
    ∀ body effects, self.db.Survives
        (self.reopened ((self.began.handleInstallSnapshot body).1.trace.take effects))
        (self.db.Conflicts body) ↔
      ¬(self.DiesDiscarding body effects ∧ self.db.Exposed body) :=
  ⟨self.maybeSnapshot_survives tidy, self.handleInstallSnapshot_survives tidy⟩

/-- Rows 0 to 2, nothing compacted. -/
def uncompacted : Node (Fin 3) RaftCanvas.canvas :=
  .start { Database.empty with
    currentTerm := 1
    log := ⟨[⟨0, 1, .noop, .null⟩, ⟨1, 1, .noop, .null⟩, ⟨2, 1, .noop, .null⟩], by decide⟩ }

theorem uncompacted_tidy : uncompacted.db.Tidy where
  agrees := rfl
  contiguous low lowMember high highMember index above below := by
    have bounds : ∀ row ∈ uncompacted.db.log.rows, 0 ≤ row.index ∧ row.index ≤ 2 := by
      decide
    have bottom := (bounds low lowMember).1
    have top := (bounds high highMember).2
    obtain rfl | rfl | rfl : index = 0 ∨ index = 1 ∨ index = 2 := by omega
    all_goals decide
  first := by decide
  last := by decide

/-- A snapshot up to row 1, which that log agrees with. -/
def agreeing : InstallSnapshot (Fin 3) RaftCanvas.canvas.Blob where
  term := 1
  leaderId := 1
  lastIncludedIndex := 1
  lastIncludedTerm := 1
  data := RaftCanvas.canvas.getSnapshot RaftCanvas.canvas.init

theorem crash_consistent_uncompacted :
    (∀ config effects, uncompacted.db.Survives
      (uncompacted.reopened ((uncompacted.began.maybeSnapshot config).trace.take effects))
      fun _ => False) ∧
    ∀ body effects, uncompacted.db.Survives
        (uncompacted.reopened
          ((uncompacted.began.handleInstallSnapshot body).1.trace.take effects))
        (uncompacted.db.Conflicts body) ↔
      ¬(uncompacted.DiesDiscarding body effects ∧ uncompacted.db.Exposed body) :=
  uncompacted.crash_consistent uncompacted_tidy

/-- Dying behind the truncation of `handleInstallSnapshot` loses rows 0 and 1: the file
holds row 2 alone, and no snapshot. -/
theorem crash_consistent_discarding :
    uncompacted.db.Tidy ∧ ∃ effects, ¬uncompacted.db.Survives
      (uncompacted.reopened
        ((uncompacted.began.handleInstallSnapshot agreeing).1.trace.take effects))
      (uncompacted.db.Conflicts agreeing) := by
  refine ⟨uncompacted_tidy, 1, fun survives => ?_⟩
  have held : ¬(uncompacted.reopened
      ((uncompacted.began.handleInstallSnapshot agreeing).1.trace.take 1)).Holds 0 := by
    decide
  exact held (survives.complete 0 (by decide))

end Node

end RaftCanvas
