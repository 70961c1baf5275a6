import RaftCanvas.Raft.Life
import RaftCanvas.Raft.StateMachine
import RaftCanvas.Safety.Compaction
import RaftCanvas.Simulation.Scan

/-!
# Log repair

A leader and one follower exchange requests and replies one at a time.  Every rejected
AppendEntries lowers `nextIndex` by one, until it is accepted or falls behind the first
row; then the snapshot is sent once, and what follows is accepted.
-/

namespace RaftCanvas

namespace Database

variable {Id Blob : Type}

/-- The file of a follower, beside the full log of a leader: contiguous, with Log
Matching, and with a snapshot of the leader's log. -/
structure Trails (db : Database Id Blob) (log : List LogEntry) : Prop where
  contiguous : db.log.Contiguous
  first : ∀ row ∈ db.log.rows.head?, row.index ≤ db.lastSnapshotIndex + 1
  matching : ∀ (position : Nat) (row entry : LogEntry),
    db.getEntry position = some row → log[position]? = some entry → row.term = entry.term →
      ∀ (lower : Nat) (other : LogEntry), lower ≤ position →
        db.getEntry lower = some other → log[lower]? = some other
  within : db.lastSnapshotIndex < log.length
  agrees : db.lastSnapshotTerm =
    Replication.lastTerm (log.take (db.lastSnapshotIndex + 1).toNat)

/-- Above the snapshot and up to `stop` the file has the rows of the log. -/
def Copies (db : Database Id Blob) (log : List LogEntry) (stop : Nat) : Prop :=
  ∀ position : Nat, db.lastSnapshotIndex < position → position < stop →
    db.getEntry position = log[position]?

namespace Trails

variable {db : Database Id Blob} {log : List LogEntry} (trails : db.Trails log)
include trails

theorem saveTermAndVote (term : Nat) (votedFor : Option Id) :
    (db.saveTermAndVote term votedFor).Trails log where
  contiguous := trails.contiguous
  first := trails.first
  matching := trails.matching
  within := trails.within
  agrees := trails.agrees

/-- A row of the leader's term shows that everything before it is the leader's. -/
theorem copies_of_row {position : Nat} {row entry : LogEntry}
    (held : db.getEntry position = some row) (found : log[position]? = some entry)
    (same : row.term = entry.term) : db.Copies log (position + 1) := by
  intro lower above below
  obtain ⟨member, index⟩ := getEntry_mem held
  obtain ⟨other, present⟩ := Option.isSome_iff_exists.mp
    (getEntry_isSome.mpr (trails.contiguous.row_below trails.first member above (by omega)))
  rw [present]
  exact (trails.matching position row entry held found same lower other (by omega)
    present).symm

/-- What the scan finds in place is the leader's. -/
theorem copies_of_agrees {start stop : Nat} (copies : db.Copies log start)
    (rows : ∀ position, start ≤ position → position < stop → ∀ entry,
      log[position]? = some entry →
        ∃ row, db.getEntry position = some row ∧ row.term = entry.term)
    (reaches : stop ≤ log.length) : db.Copies log stop := by
  intro position above below
  by_cases early : position < start
  · exact copies position above early
  · obtain ⟨entry, found⟩ : ∃ entry, log[position]? = some entry :=
      ⟨_, List.getElem?_eq_getElem (by omega)⟩
    obtain ⟨row, held, same⟩ := rows position (by omega) below entry found
    rw [held, trails.matching position row entry held found same position row le_rfl held]

end Trails

/-- Rows that were replaced from `stop` on. -/
theorem getEntry_replaceFrom {db : Database Id Blob} {log : List LogEntry}
    (indexed : Indexed log) (stop position : Nat) :
    ((db.truncateFrom stop).appendEntries (log.drop stop)).getEntry position =
      if position < stop then db.getEntry position else log[position]? := by
  have rows := db.rewrite_rows (fun entry later => ((indexed.drop stop).bounds later).1)
    (indexed.drop stop).sorted
  rw [getEntry, LogTable.get, rows, List.find?_append, (indexed.drop stop).find?_index]
  by_cases early : position < stop
  · rw [if_pos early, if_neg (by omega), Option.or_none, List.find?_filter, getEntry,
      LogTable.get]
    congr 1
    funext row
    by_cases same : row.index = position
    · simp [same, early]
    · simp [same]
  · have none_below : (db.log.rows.filter fun row => row.index < (stop : Int)).find?
        (fun row => row.index = (position : Int)) = none := by
      rw [List.find?_eq_none]
      intro row member same
      have below : row.index < (stop : Int) := by
        simpa using (List.mem_filter.mp member).2
      have index : row.index = (position : Int) := by simpa using same
      omega
    rw [if_neg early, if_pos (by omega), List.getElem?_drop, none_below, Option.none_or]
    congr 1
    omega

/-- Compaction leaves the rows above alone. -/
theorem getEntry_truncateUpTo (db : Database Id Blob) {toIdx index : Int}
    (above : toIdx < index) : (db.truncateUpTo toIdx).getEntry index = db.getEntry index := by
  rw [getEntry, getEntry, truncateUpTo, LogTable.get, LogTable.get, LogTable.retain,
    List.find?_filter]
  congr 1
  funext row
  by_cases same : row.index = index
  · simp [same, above]
  · simp [same]

/-- A new snapshot of the leader's log, over the rows after it or over nothing. -/
theorem Trails.install {db after : Database Id Blob} {log : List LogEntry}
    (trails : db.Trails log)
    (rows : after.log.rows = db.log.rows.filter (fun row => after.lastSnapshotIndex < row.index) ∧
      (db.getEntry after.lastSnapshotIndex).isSome = true ∨ after.log.rows = [])
    (within : after.lastSnapshotIndex < log.length)
    (agrees : after.lastSnapshotTerm =
      Replication.lastTerm (log.take (after.lastSnapshotIndex + 1).toNat)) :
    after.Trails log := by
  have old : ∀ {row : LogEntry}, row ∈ after.log.rows →
      row ∈ db.log.rows ∧ after.lastSnapshotIndex < row.index := by
    intro row member
    rcases rows with ⟨kept, _⟩ | wiped
    · simpa [kept] using member
    · simp [wiped] at member
  have kept : ∀ {row other : LogEntry}, other ∈ after.log.rows → row ∈ db.log.rows →
      after.lastSnapshotIndex < row.index → row ∈ after.log.rows := by
    intro row other some_row member above
    rcases rows with ⟨kept, _⟩ | wiped
    · rw [kept]
      exact List.mem_filter.mpr ⟨member, by simpa using above⟩
    · simp [wiped] at some_row
  refine ⟨?_, ?_, ?_, within, agrees⟩
  · intro low lowest high highest index above below
    obtain ⟨row, member, rfl⟩ := trails.contiguous low (old lowest).1 high (old highest).1
      index above below
    exact ⟨row, kept lowest member ((old lowest).2.trans_le above), rfl⟩
  · intro head first
    have member := List.mem_of_mem_head? first
    rcases rows with ⟨filtered, held⟩ | wiped
    · obtain ⟨last, inside, index⟩ := getEntry_isSome.mp held
      obtain ⟨row, present, next⟩ := trails.contiguous last inside head (old member).1
        (after.lastSnapshotIndex + 1) (by omega) (old member).2
      have later := kept member present (by omega)
      obtain ⟨rest, whole⟩ := List.head?_eq_some_iff.mp first
      have sorted := after.log.sorted
      rw [whole] at sorted later
      rcases List.mem_cons.mp later with rfl | behind
      · omega
      · have ordered := (List.pairwise_cons.mp sorted).1 row behind
        omega
    · simp [wiped] at member
  · intro position row entry found theirs same lower other below foundLower
    have before : ∀ {index : Nat} {row : LogEntry}, after.getEntry index = some row →
        db.getEntry index = some row := by
      intro index row found
      obtain ⟨member, own⟩ := getEntry_mem found
      exact own ▸ getEntry_of_mem (old member).1
    exact trails.matching position row entry (before found) theirs same lower other below
      (before foundLower)

end Database

namespace Node

variable {Id : Type} {machine : Machine} {self : Node Id machine} {log : List LogEntry}

/-- What the handler stores of a request that reaches up to the end of the log. -/
theorem storeEntries_copies (trails : self.db.Trails log) (indexed : Indexed log)
    {start : Nat} (copies : self.db.Copies log start) :
    (self.storeEntries (log.drop start)).db.Copies log log.length ∧
      (self.storeEntries (log.drop start)).db.lastSnapshotIndex =
        self.db.lastSnapshotIndex := by
  rw [storeEntries]
  dsimp only
  rcases writeStart_cases self.db indexed start with
    ⟨nothing, rows⟩ | ⟨stop, above, below, found, rows, _⟩
  · rw [nothing, if_neg (by omega)]
    exact ⟨trails.copies_of_agrees copies (fun position after _ => rows position after)
      le_rfl, rfl⟩
  · have before := trails.copies_of_agrees copies rows below.le
    have selected : (log.drop start).filter (fun entry => (stop : Int) ≤ entry.index) =
        log.drop stop := by
      rw [(indexed.drop start).filter_ge, List.drop_drop]
      congr 1
      omega
    rw [found, if_pos (Int.natCast_nonneg stop)]
    simp only [write, selected]
    refine ⟨fun position higher _ => ?_, rfl⟩
    rw [Database.getEntry_replaceFrom indexed]
    split
    next early => exact before position higher early
    next => rfl

theorem applyLoop_lastApplied (fuel : Nat) (self : Node Id machine)
    (enough : (fuel : Int) ≤ (self.commitIndex - self.lastApplied).toNat) :
    self.lastApplied ≤ (applyLoop fuel self).lastApplied := by
  have raised := machine.lastApplied_stretch self.db self.stateMachine fuel le_rfl
  rw [List.take_length] at raised
  rw [applyLoop_eq fuel self enough]
  exact (Int.le_add_of_nonneg_right (Int.natCast_nonneg _)).trans raised.ge

/-- Applying and compacting keeps the rows above the snapshot. -/
theorem applyCommitted_copies (config : Config Id) {stop : Nat}
    (saved_le : self.db.lastSnapshotIndex ≤ self.lastApplied)
    (copies : self.db.Copies log stop) :
    (self.applyCommitted config).db.Copies log stop := by
  have raised := applyLoop_lastApplied _ self le_rfl
  have loop : (applyLoop (self.commitIndex - self.lastApplied).toNat self).db = self.db := by
    rw [applyLoop_eq _ _ le_rfl]
  rw [applyCommitted, maybeSnapshot]
  split
  · rwa [loop]
  · split
    · rwa [loop]
    · split
      · rwa [loop]
      · intro position above below
        have above' : (applyLoop (self.commitIndex - self.lastApplied).toNat self).lastApplied
            < position := above
        refine (Database.getEntry_truncateUpTo _ above').trans ?_
        have same := copies position (by omega) below
        rwa [← loop] at same

theorem followCommit_copies (config : Config Id) (leaderCommit : Int) {stop : Nat}
    (saved_le : self.db.lastSnapshotIndex ≤ self.lastApplied)
    (copies : self.db.Copies log stop) :
    (self.followCommit config leaderCommit).db.Copies log stop := by
  rw [followCommit]
  split
  · exact applyCommitted_copies config saved_le copies
  · exact copies

/-- A follower that takes over a snapshot of the log. -/
theorem installSnapshot_trails (trails : self.db.Trails log)
    {body : InstallSnapshot Id machine.Blob} (within : body.lastIncludedIndex < log.length)
    (agrees : body.lastIncludedTerm =
      Replication.lastTerm (log.take (body.lastIncludedIndex + 1).toNat)) :
    (self.installSnapshot body).db.Trails log := by
  cases held : self.db.getEntry body.lastIncludedIndex with
  | none =>
      refine trails.install (Or.inr ?_) within agrees
      rw [installSnapshot, discardLog, held]
      rfl
  | some existing =>
      by_cases same : (existing.term : Int) = body.lastIncludedTerm
      · refine trails.install (Or.inl ⟨?_, ?_⟩) within agrees
        · rw [installSnapshot, discardLog, held]
          dsimp only
          rw [if_pos same]
          rfl
        · exact Option.isSome_iff_exists.mpr ⟨existing, held⟩
      · refine trails.install (Or.inr ?_) within agrees
        rw [installSnapshot, discardLog, held]
        dsimp only
        rw [if_neg same]
        rfl

/-! ## One exchange -/

/-- A leader whose file stores `log`. -/
structure Offers (leader : Node Id machine) (log : List LogEntry) : Prop where
  leads : leader.role = .leader
  running : leader.stopped = false
  stores : leader.db.Stores log
  agrees : leader.db.MetaAgrees

/-- A node of no higher term beside it. -/
structure Trails (follower : Node Id machine) (era : Nat) (log : List LogEntry) : Prop where
  term : follower.currentTerm ≤ era
  saved_le : follower.db.lastSnapshotIndex ≤ follower.lastApplied
  file : follower.db.Trails log

section Exchange

variable {leader follower : Node Id machine}

theorem lastTerm_take {position : Nat} {entry : LogEntry}
    (found : log[position]? = some entry) :
    Replication.lastTerm (log.take (position + 1)) = entry.term := by
  rw [List.take_add_one, found, Option.toList_some, Replication.lastTerm_concat,
    stamped_term]

/-- The term that the leader quotes is that of its log, or none. -/
theorem Offers.prevLogTerm (offers : Offers leader log) {position term : Nat}
    (same : (term : Int) = leader.prevLogTerm position) :
    ∃ entry, log[position]? = some entry ∧ entry.term = term := by
  rw [Node.prevLogTerm, if_pos (Int.natCast_nonneg _)] at same
  split at same
  next last =>
      have within := offers.stores.within
      obtain ⟨entry, found⟩ : ∃ entry, log[position]? = some entry :=
        ⟨_, List.getElem?_eq_getElem (by omega)⟩
      have quoted := offers.stores.covered
      rw [← last, show ((position : Int) + 1).toNat = position + 1 by omega,
        lastTerm_take found] at quoted
      exact ⟨entry, found, by omega⟩
  next =>
      split at same
      next entry held =>
          exact ⟨entry, (offers.stores.getEntry_some held).2, by omega⟩
      next => omega

/-- A request that passes the consistency check starts where the file is the leader's. -/
theorem Offers.matched (offers : Offers leader log) {db : Database Id machine.Blob}
    (trails : db.Trails log) {next : Nat}
    (passed : matchesPrev db ((next : Int) - 1) (leader.prevLogTerm ((next : Int) - 1)) =
      true) : next ≤ log.length ∧ db.Copies log next := by
  have within := trails.within
  rcases Nat.eq_zero_or_pos next with rfl | positive
  · exact ⟨Nat.zero_le _, fun position _ below => absurd below (Nat.not_lt_zero position)⟩
  obtain ⟨prev, rfl⟩ : ∃ prev, next = prev + 1 := ⟨next - 1, by omega⟩
  rw [show ((prev + 1 : Nat) : Int) - 1 = prev by push_cast; omega, matchesPrev,
    if_pos (Int.natCast_nonneg _)] at passed
  have covered : (prev : Int) ≤ db.lastSnapshotIndex →
      prev + 1 ≤ log.length ∧ db.Copies log (prev + 1) := fun below =>
    ⟨by omega, fun position above inside => by omega⟩
  split at passed
  next last => exact covered last.le
  next =>
      split at passed
      next below => exact covered below.le
      next =>
          split at passed
          next row held =>
              obtain ⟨entry, found, same⟩ := offers.prevLogTerm (of_decide_eq_true passed)
              have bound := (List.getElem?_eq_some_iff.mp found).1
              exact ⟨by omega, trails.copies_of_row held found same.symm⟩
          next => cases passed

/-- What follows a snapshot is accepted by whoever has the snapshot. -/
theorem Offers.matches_snapshot (offers : Offers leader log) {db : Database Id machine.Blob}
    (trails : db.Trails log) (saved : leader.db.lastSnapshotIndex ≤ db.lastSnapshotIndex) :
    matchesPrev db leader.db.lastSnapshotIndex
      (leader.prevLogTerm leader.db.lastSnapshotIndex) = true := by
  rw [matchesPrev]
  split
  next positive =>
      split
      next same =>
          rw [Node.prevLogTerm, if_pos positive, if_pos rfl, decide_eq_true_eq,
            offers.stores.covered, trails.agrees, same]
      next other => exact if_pos (lt_of_le_of_ne saved other)
  next => rfl

/-- Hearing of a leader changes nothing in how the file trails. -/
theorem Trails.followLeader {era : Nat} (trails : Trails follower era log) (leaderId : Id) :
    Trails (follower.followLeader era leaderId) era log ∧
      (follower.followLeader era leaderId).currentTerm = era := by
  have term := followLeader_currentTerm trails.term leaderId
  obtain ⟨_, now, votedFor, db⟩ := follower.followLeader_frame era leaderId
  have stateMachine := (follower.followLeader_memory era leaderId).1
  refine ⟨⟨term.le, ?_, ?_⟩, term⟩
  · rw [lastApplied, db, stateMachine]
    exact trails.saved_le
  · rw [db]
    exact trails.file.saveTermAndVote now votedFor

/-- The follower stores what is left of the log. -/
theorem Trails.handleAppendEntries (trails : Trails follower leader.currentTerm log)
    (offers : Offers leader log) (config : Config Id) {body : AppendEntries Id} {next : Nat}
    (term : body.term = leader.currentTerm) (prev : body.prevLogIndex = (next : Int) - 1)
    (prevTerm : body.prevLogTerm = leader.prevLogTerm ((next : Int) - 1))
    (entries : next ≤ log.length → body.entries = log.drop next) :
    (follower.handleAppendEntries config body).2.term = leader.currentTerm ∧
      if matchesPrev follower.db body.prevLogIndex body.prevLogTerm = true then
        (follower.handleAppendEntries config body).2.success = true ∧ next ≤ log.length ∧
          (follower.handleAppendEntries config body).1.db.Copies log log.length
      else
        (follower.handleAppendEntries config body).2.success = false ∧
          Trails (follower.handleAppendEntries config body).1 leader.currentTerm log := by
  obtain ⟨hears, era⟩ := trails.followLeader body.leaderId
  have recent : ¬body.term < follower.currentTerm := by
    have below := trails.term
    omega
  obtain ⟨_, now, votedFor, db⟩ :=
    follower.followLeader_frame leader.currentTerm body.leaderId
  have same : matchesPrev (follower.followLeader leader.currentTerm body.leaderId).db
      body.prevLogIndex body.prevLogTerm =
        matchesPrev follower.db body.prevLogIndex body.prevLogTerm := by
    rw [db]
    rfl
  rw [Node.handleAppendEntries, if_neg recent]
  dsimp only
  rw [term, same]
  by_cases matched : matchesPrev follower.db body.prevLogIndex body.prevLogTerm = true
  · rw [if_pos matched, if_pos matched]
    dsimp only
    have passed := matched
    rw [← same, prev, prevTerm] at passed
    obtain ⟨within, copies⟩ := offers.matched hears.file passed
    rw [entries within]
    obtain ⟨stored, saved⟩ := storeEntries_copies hears.file offers.stores.indexed copies
    have works := ((follower.followLeader leader.currentTerm
      body.leaderId).storeEntries_works (log.drop next)).trans
        (followCommit_works config _ body.leaderCommit)
    refine ⟨works.currentTerm.trans era, rfl, within,
      followCommit_copies config _ ?_ stored⟩
    obtain ⟨_, _, frame⟩ := storeEntries_frame
      (follower.followLeader leader.currentTerm body.leaderId) (log.drop next)
    rw [saved, frame]
    exact hears.saved_le
  · rw [if_neg matched, if_neg matched]
    exact ⟨era, rfl, hears⟩

/-- The follower takes the snapshot unless it has one as recent. -/
theorem Trails.handleInstallSnapshot (trails : Trails follower leader.currentTerm log)
    (offers : Offers leader log) {body : InstallSnapshot Id machine.Blob}
    (term : body.term = leader.currentTerm)
    (last : body.lastIncludedIndex = leader.db.lastSnapshotIndex)
    (lastTerm : body.lastIncludedTerm = leader.db.lastSnapshotTerm) :
    (follower.handleInstallSnapshot body).2.term = leader.currentTerm ∧
      Trails (follower.handleInstallSnapshot body).1 leader.currentTerm log ∧
        leader.db.lastSnapshotIndex ≤
          (follower.handleInstallSnapshot body).1.db.lastSnapshotIndex := by
  obtain ⟨hears, era⟩ := trails.followLeader body.leaderId
  have recent : ¬body.term < follower.currentTerm := by
    have below := trails.term
    omega
  rw [Node.handleInstallSnapshot, if_neg recent, term]
  dsimp only
  split
  next older => exact ⟨era, hears, last ▸ older⟩
  next newer =>
      dsimp only
      have works := (follower.followLeader leader.currentTerm
        body.leaderId).installSnapshot_works body
      have term := works.currentTerm.trans era
      have installed := installSnapshot_trails hears.file
        (show body.lastIncludedIndex < log.length from last ▸ offers.stores.within)
        (by rw [last, lastTerm, offers.stores.covered])
      exact ⟨term, ⟨term.le, (machine.lastApplied_restore _ _).ge, installed⟩, last.ge⟩

variable [DecidableEq Id]

/-- One round: `_sendAppendEntriesTo(peer)`, the peer's answer, and its delivery. -/
def exchange (config peerConfig : Config Id) (peer : Id)
    (pair : Node Id machine × Node Id machine) : Node Id machine × Node Id machine :=
  match pair.1.appendEntriesCall config peer with
  | none => pair
  | some call =>
      let handled := pair.2.began.handle peerConfig call.request
      (pair.1.began.resume config call.await [some handled.2], handled.1)

/-- The round is an AppendEntries that the peer answers with `success: true`. -/
def Succeeds (config peerConfig : Config Id) (peer : Id)
    (pair : Node Id machine × Node Id machine) : Prop :=
  ∃ call body, pair.1.appendEntriesCall config peer = some call ∧
    call.request = .appendEntries body ∧
      (pair.2.began.handle peerConfig call.request).2.success = true

omit [DecidableEq Id] in
theorem maybeAdvanceCommitIndex_matchIndex (config : Config Id) (self : Node Id machine) :
    (self.maybeAdvanceCommitIndex config).matchIndex = self.matchIndex := by
  rw [maybeAdvanceCommitIndex]
  split
  · rfl
  · dsimp only
    split
    · rfl
    next n _ =>
        obtain ⟨_, _, same, _⟩ :=
          ({ self with commitIndex := n } : Node Id machine).applyCommitted_eq config
        rw [same]
        rfl

omit [DecidableEq Id] in
/-- The index that an accepted request credits. -/
theorem last_index_drop (indexed : Indexed log) {next : Nat} (within : next ≤ log.length) :
    (log.drop next).getLast?.elim ((next : Int) - 1) LogEntry.index =
      (log.length : Int) - 1 := by
  by_cases beyond : log.length ≤ next
  · rw [List.drop_of_length_le beyond, List.getLast?_nil, Option.elim_none]
    omega
  · obtain ⟨entry, found⟩ : ∃ entry, log[log.length - 1]? = some entry :=
      ⟨_, List.getElem?_eq_getElem (by omega)⟩
    have index := indexed _ _ found
    rw [List.getLast?_drop, if_neg beyond, List.getLast?_eq_getElem?, found, Option.elim_some]
    omega

/-- The leader has only moved its view of the peer. -/
structure Offers.Keeps (before after : Node Id machine) : Prop where
  role : after.role = before.role
  stopped : after.stopped = before.stopped
  db : after.db = before.db
  currentTerm : after.currentTerm = before.currentTerm

omit [DecidableEq Id] in
theorem Offers.keep {after : Node Id machine} (offers : Offers leader log)
    (keeps : Offers.Keeps leader after) : Offers after log where
  leads := keeps.role.trans offers.leads
  running := keeps.stopped.trans offers.running
  stores := keeps.db ▸ offers.stores
  agrees := keeps.db ▸ offers.agrees

omit [DecidableEq Id] in
/-- The snapshot as the leader sends it. -/
theorem Offers.snapshot (offers : Offers leader log) (config : Config Id) (peer : Id)
    {next : Nat} (at_next : (leader.nextIndex peer).getD 0 = next)
    (behind : (next : Int) < leader.db.firstIndex) : ∃ body : InstallSnapshot Id machine.Blob,
      leader.appendEntriesCall config peer = some
        { src := config.replicaId
          targets := [peer]
          request := .installSnapshot body
          await := .installSnapshot peer leader.db.lastSnapshotIndex } ∧
      body.term = leader.currentTerm ∧
      body.lastIncludedIndex = leader.db.lastSnapshotIndex ∧
      body.lastIncludedTerm = leader.db.lastSnapshotTerm := by
  have active : ¬(leader.stopped = true ∨ leader.role ≠ .leader) := by
    simp [offers.running, offers.leads]
  have first := offers.stores.firstIndex_le
  have agrees := offers.agrees
  rw [appendEntriesCall, if_neg active]
  dsimp only
  rw [at_next, if_pos behind, installSnapshotCall]
  cases saved : leader.db.loadLatestSnapshot with
  | none =>
      rw [Database.MetaAgrees, saved] at agrees
      dsimp only at agrees
      omega
  | some snap =>
      rw [Database.MetaAgrees, saved] at agrees
      obtain ⟨index, term⟩ := agrees
      let body : InstallSnapshot Id machine.Blob :=
        { term := leader.currentTerm
          leaderId := config.replicaId
          lastIncludedIndex := snap.lastIncludedIndex
          lastIncludedTerm := snap.lastIncludedTerm
          data := snap.state }
      exact ⟨body, by rw [← index]; rfl, rfl, index, term⟩

omit [DecidableEq Id] in
/-- The rows as the leader sends them. -/
theorem Offers.rows (offers : Offers leader log) (config : Config Id) (peer : Id)
    {next : Nat} (at_next : (leader.nextIndex peer).getD 0 = next)
    (reached : leader.db.firstIndex ≤ next) : ∃ body : AppendEntries Id,
      leader.appendEntriesCall config peer = some
        { src := config.replicaId
          targets := [peer]
          request := .appendEntries body
          await := .appendEntries peer next ((next : Int) - 1) body.entries } ∧
      body.term = leader.currentTerm ∧ body.prevLogIndex = (next : Int) - 1 ∧
      body.prevLogTerm = leader.prevLogTerm ((next : Int) - 1) ∧
      (next ≤ log.length → body.entries = log.drop next) := by
  have active : ¬(leader.stopped = true ∨ leader.role ≠ .leader) := by
    simp [offers.running, offers.leads]
  have last := offers.stores.lastIndex_eq
  rw [appendEntriesCall, if_neg active]
  dsimp only
  rw [at_next, if_neg (not_lt.mpr reached)]
  refine ⟨_, rfl, rfl, rfl, rfl, fun within => ?_⟩
  dsimp only
  split
  next inside => rw [offers.stores.getRange_eq reached inside, Int.toNat_natCast]
  next => rw [List.drop_of_length_le (by omega)]

omit [DecidableEq Id] in
/-- A request from the first index on is not rejected. -/
theorem next_pos_of_differs {db : Database Id machine.Blob} {next : Nat} {prevLogTerm : Int}
    (differs : matchesPrev db ((next : Int) - 1) prevLogTerm = false) : 0 < next := by
  refine Nat.pos_of_ne_zero fun zero => ?_
  rw [zero, matchesPrev, if_neg (by omega)] at differs
  cases differs

/-- A round either succeeds with the whole log, or is rejected and lowers `nextIndex` by
one, or brings the snapshot and moves `nextIndex` behind it. -/
theorem exchange_cases (config peerConfig : Config Id) (peer : Id)
    (offers : Offers leader log) (trails : Trails follower leader.currentTerm log)
    {next : Nat} (at_next : (leader.nextIndex peer).getD 0 = next) :
    let after := exchange config peerConfig peer (leader, follower)
    Succeeds config peerConfig peer (leader, follower) ∧
        after.1.matchIndex peer = some leader.db.lastIndex ∧
        after.2.db.Copies log log.length ∨
      Offers.Keeps leader after.1 ∧ Trails after.2 leader.currentTerm log ∧
        (matchesPrev follower.db ((next : Int) - 1)
              (leader.prevLogTerm ((next : Int) - 1)) = false ∧
            leader.db.firstIndex ≤ next ∧
            (after.1.nextIndex peer).getD 0 = max 0 ((next : Int) - 1) ∨
          (next : Int) < leader.db.firstIndex ∧
            leader.db.lastSnapshotIndex ≤ after.2.db.lastSnapshotIndex ∧
            (after.1.nextIndex peer).getD 0 = leader.db.lastSnapshotIndex + 1) := by
  have active : ¬(leader.began.stopped = true ∨ leader.began.role ≠ .leader) := by
    simp [began, offers.running, offers.leads]
  have current : ¬leader.began.currentTerm < leader.currentTerm := lt_irrefl _
  have last := offers.stores.lastIndex_eq
  have heard : Trails follower.began leader.currentTerm log := { trails with }
  dsimp only
  by_cases behind : (next : Int) < leader.db.firstIndex
  · -- the snapshot is sent
    obtain ⟨body, called, term, index, lastTerm⟩ := offers.snapshot config peer at_next behind
    obtain ⟨answered, installed, saved⟩ :=
      heard.handleInstallSnapshot offers term index lastTerm
    have resumed : exchange config peerConfig peer (leader, follower) =
        ({ leader.began with
            matchIndex := Function.update leader.matchIndex peer
              (some leader.db.lastSnapshotIndex)
            nextIndex := Function.update leader.nextIndex peer
              (some (leader.db.lastSnapshotIndex + 1)) },
          (follower.began.handleInstallSnapshot body).1) := by
      simp only [exchange, called, handle, resume, List.head?_cons, Option.join_some,
        finishInstallSnapshot, answered, if_neg active, if_neg current]
      rfl
    rw [resumed]
    exact Or.inr ⟨⟨rfl, rfl, rfl, rfl⟩, installed, Or.inr ⟨behind, saved, by simp⟩⟩
  · -- the rows are sent
    obtain ⟨body, called, term, prev, prevTerm, entries⟩ :=
      offers.rows config peer at_next (not_lt.mp behind)
    obtain ⟨answered, outcome⟩ :=
      heard.handleAppendEntries offers peerConfig term prev prevTerm entries
    split at outcome
    next matched =>
        obtain ⟨success, within, copies⟩ := outcome
        refine Or.inl ⟨⟨_, body, called, rfl, success⟩, ?_, ?_⟩
        · simp only [exchange, called, handle, resume, List.head?_cons, Option.join_some,
            finishAppendEntries, answered, success, if_neg active, if_neg current, if_true,
            maybeAdvanceCommitIndex_matchIndex, Function.update_self, entries within]
          have index := (last_index_drop offers.stores.indexed within).trans last.symm
          cases ends : (log.drop next).getLast? <;> rw [ends] at index <;>
            exact congrArg some index
        · simp only [exchange, called, handle]
          exact copies
    next differs =>
        obtain ⟨success, stays⟩ := outcome
        have resumed : exchange config peerConfig peer (leader, follower) =
            ({ leader.began with
                nextIndex := Function.update leader.nextIndex peer
                  (some (max 0 ((next : Int) - 1))) },
              (follower.began.handleAppendEntries peerConfig body).1) := by
          simp only [exchange, called, handle, resume, List.head?_cons, Option.join_some,
            finishAppendEntries, answered, success, if_neg active, if_neg current]
          rfl
        rw [resumed]
        refine Or.inr ⟨⟨rfl, rfl, rfl, rfl⟩, stays, Or.inl ⟨?_, not_lt.mp behind, by simp⟩⟩
        rw [← prevTerm, ← prev]
        exact Bool.eq_false_iff.mpr differs

omit [DecidableEq Id] in
theorem Offers.Keeps.trans {mid after : Node Id machine} (left : Offers.Keeps leader mid)
    (right : Offers.Keeps mid after) : Offers.Keeps leader after :=
  ⟨right.role.trans left.role, right.stopped.trans left.stopped, right.db.trans left.db,
    right.currentTerm.trans left.currentTerm⟩

/-- The next round succeeds with the whole log. -/
def Repairs (config peerConfig : Config Id) (peer : Id) (leader : Node Id machine)
    (log : List LogEntry) (before : Node Id machine × Node Id machine) : Prop :=
  Offers.Keeps leader before.1 ∧ Succeeds config peerConfig peer before ∧
    (exchange config peerConfig peer before).1.matchIndex peer = some leader.db.lastIndex ∧
    (exchange config peerConfig peer before).2.db.Copies log log.length

theorem Repairs.of_kept {config peerConfig : Config Id} {peer : Id} {mid : Node Id machine}
    {before : Node Id machine × Node Id machine} (keeps : Offers.Keeps leader mid)
    (repairs : Repairs config peerConfig peer mid log before) :
    Repairs config peerConfig peer leader log before := by
  obtain ⟨keeps', succeeds, credited, copies⟩ := repairs
  exact ⟨keeps.trans keeps', succeeds, credited.trans (by rw [keeps.db]), copies⟩

/-- After the snapshot the next round succeeds. -/
theorem repairs_installed (config peerConfig : Config Id) (peer : Id)
    (offers : Offers leader log) (trails : Trails follower leader.currentTerm log)
    (saved : leader.db.lastSnapshotIndex ≤ follower.db.lastSnapshotIndex)
    (at_next : (leader.nextIndex peer).getD 0 = leader.db.lastSnapshotIndex + 1) :
    Repairs config peerConfig peer leader log (leader, follower) := by
  have low := offers.stores.low
  have first := offers.stores.firstIndex_le
  have next : ((leader.db.lastSnapshotIndex + 1).toNat : Int) =
      leader.db.lastSnapshotIndex + 1 := Int.toNat_of_nonneg (by omega)
  rcases exchange_cases config peerConfig peer offers trails (at_next.trans next.symm) with
    ⟨succeeds, credited, copies⟩ | ⟨_, _, ⟨differs, _⟩ | ⟨behind, _⟩⟩
  · exact ⟨⟨rfl, rfl, rfl, rfl⟩, succeeds, credited, copies⟩
  · rw [next, Int.add_sub_cancel, offers.matches_snapshot trails.file saved] at differs
    cases differs
  · omega

/-- A round succeeds, or it brings the snapshot and the next one does, or it is rejected
and lowers `nextIndex`. -/
theorem round_cases (config peerConfig : Config Id) (peer : Id)
    (offers : Offers leader log) (trails : Trails follower leader.currentTerm log)
    {next : Nat} (at_next : (leader.nextIndex peer).getD 0 = next) :
    let after := exchange config peerConfig peer (leader, follower)
    Repairs config peerConfig peer leader log (leader, follower) ∨
      Repairs config peerConfig peer leader log after ∨
        Offers.Keeps leader after.1 ∧ Trails after.2 leader.currentTerm log ∧
          0 < next ∧ (after.1.nextIndex peer).getD 0 = (next : Int) - 1 := by
  dsimp only
  rcases exchange_cases config peerConfig peer offers trails at_next with
    ⟨succeeds, credited, copies⟩ | ⟨keeps, stays, ⟨differs, _, lowered⟩ | ⟨_, saved, moved⟩⟩
  · exact Or.inl ⟨⟨rfl, rfl, rfl, rfl⟩, succeeds, credited, copies⟩
  · have positive := next_pos_of_differs differs
    exact Or.inr (Or.inr ⟨keeps, stays, positive, lowered.trans (by omega)⟩)
  · refine Or.inr (Or.inl (.of_kept keeps ?_))
    exact repairs_installed config peerConfig peer (offers.keep keeps)
      (keeps.currentTerm ▸ stays) (by rwa [keeps.db]) (by rwa [keeps.db])

/-- The number of rounds before the last: at most one rejection for every step down from
`nextIndex`, or as many as lead behind the first row and then the snapshot. -/
theorem repairs_within (config peerConfig : Config Id) (peer : Id)
    (offers : Offers leader log) (trails : Trails follower leader.currentTerm log)
    {next : Nat} (at_next : (leader.nextIndex peer).getD 0 = next) :
    ∃ rounds ≤ next + 1, Repairs config peerConfig peer leader log
      ((exchange config peerConfig peer)^[rounds] (leader, follower)) := by
  induction next generalizing leader follower with
  | zero =>
      rcases round_cases config peerConfig peer offers trails at_next with
        now | later | ⟨_, _, positive, _⟩
      · exact ⟨0, Nat.zero_le _, now⟩
      · exact ⟨1, le_rfl, later⟩
      · exact absurd positive (Nat.lt_irrefl 0)
  | succ next ih =>
      rcases round_cases config peerConfig peer offers trails at_next with
        now | later | ⟨keeps, stays, _, lowered⟩
      · exact ⟨0, Nat.zero_le _, now⟩
      · exact ⟨1, Nat.succ_le_succ (Nat.zero_le _), later⟩
      · obtain ⟨rounds, bound, repairs⟩ :=
          ih (offers.keep keeps) (keeps.currentTerm ▸ stays) (lowered.trans (by omega))
        refine ⟨rounds + 1, Nat.succ_le_succ bound, ?_⟩
        rw [Function.iterate_succ_apply]
        exact .of_kept keeps repairs

/-- Log repair converges: a leader whose log stays as it is and a follower beside it
come, within `nextIndex + 2` rounds, to an accepted request that credits the follower
with the whole log, and then the follower has it. -/
theorem repair_converges (config peerConfig : Config Id) (peer : Id)
    (offers : Offers leader log) (trails : Trails follower leader.currentTerm log)
    {next : Nat} (at_next : (leader.nextIndex peer).getD 0 = next) :
    ∃ rounds ≤ next + 1,
      let before := (exchange config peerConfig peer)^[rounds] (leader, follower)
      let after := exchange config peerConfig peer before
      Offers.Keeps leader before.1 ∧ Succeeds config peerConfig peer before ∧
        after.1.matchIndex peer = some leader.db.lastIndex ∧
        ∀ index : Nat, after.2.db.lastSnapshotIndex < index →
          (index : Int) ≤ leader.db.lastIndex →
            ∃ entry, log[index]? = some entry ∧ after.2.db.getEntry index = some entry := by
  have last := offers.stores.lastIndex_eq
  obtain ⟨rounds, bound, keeps, succeeds, credited, copies⟩ :=
    repairs_within config peerConfig peer offers trails at_next
  refine ⟨rounds, bound, keeps, succeeds, credited, fun index above below => ?_⟩
  obtain ⟨entry, found⟩ : ∃ entry, log[index]? = some entry :=
    ⟨_, List.getElem?_eq_getElem (by omega)⟩
  exact ⟨entry, found, (copies index above (by omega)).trans found⟩

end Exchange

end Node

/-- A file of term `1` with rows and a snapshot up to `last`. -/
def fileWith (log : LogTable) (last : Int) : Database (Fin 2) canvas.Blob where
  currentTerm := 1
  votedFor := none
  lastSnapshotIndex := last
  lastSnapshotTerm := 1
  log := log
  snapshot := some
    { lastIncludedIndex := last
      lastIncludedTerm := 1
      state := canvas.getSnapshot canvas.init }

/-- A replica on such a file, all of whose snapshot is committed. -/
def replicaWith (log : LogTable) (last : Int) (role : Role) (next credited : Int) :
    Node (Fin 2) canvas where
  db := fileWith log last
  stateMachine := canvas.restoreSnapshot (canvas.getSnapshot canvas.init) last
  role := role
  leaderId := some 0
  commitIndex := last
  currentTerm := 1
  votedFor := none
  nextIndex _ := some next
  matchIndex _ := some credited
  electionTimer := true
  heartbeatTimer := false
  stopped := false
  commitListeners := []
  resumable := []
  reading := []
  trace := []

def noopAt (index : Int) : LogEntry := ⟨index, 1, .noop, .null⟩

/-- A follower without a log is behind a leader that has compacted all but one row. -/
theorem repair_converges_lagging : ∃ rounds ≤ 4,
    ((Node.exchange ((Cluster.ofFin 2 1).config 0) ((Cluster.ofFin 2 1).config 1) 1)^[rounds + 1]
      (replicaWith ⟨[noopAt 2], List.pairwise_singleton _ _⟩ 1 .leader 3 (-1),
        (.start .empty : Node (Fin 2) canvas))).1.matchIndex 1 = some 2 := by
  have indexed : Indexed [noopAt 0, noopAt 1, noopAt 2] :=
    ((Indexed.nil.concat rfl).concat rfl).concat rfl
  have offers : (replicaWith ⟨[noopAt 2], List.pairwise_singleton _ _⟩ 1 .leader 3
      (-1)).Offers [noopAt 0, noopAt 1, noopAt 2] :=
    ⟨rfl, rfl, ⟨indexed, ⟨2, by decide, rfl⟩, by decide, by decide⟩, ⟨rfl, rfl⟩⟩
  have trails : (.start .empty : Node (Fin 2) canvas).Trails 1
      [noopAt 0, noopAt 1, noopAt 2] := by
    refine ⟨by decide, by decide, ?_, ?_, ?_, by decide, by decide⟩
    · intro low member
      cases member
    · intro row member
      cases member
    · intro position row entry found
      cases found
  obtain ⟨rounds, bound, _, _, credited, _⟩ := Node.repair_converges
    ((Cluster.ofFin 2 1).config 0) ((Cluster.ofFin 2 1).config 1) 1 offers trails
    (show _ = ((3 : Nat) : Int) from rfl)
  refine ⟨rounds, bound, ?_⟩
  rw [Function.iterate_succ_apply']
  exact credited

/-- A leader whose only row lies below its snapshot. -/
def sunken : Node (Fin 2) canvas :=
  replicaWith ⟨[noopAt 0], List.pairwise_singleton _ _⟩ 1 .leader 2 1

/-- Its follower has the same snapshot and no row. -/
def level : Node (Fin 2) canvas :=
  replicaWith .empty 1 .follower 0 0

theorem sunken_trails : sunken.db.Trails [noopAt 0, noopAt 1] := by
  refine ⟨?_, by simp [sunken, replicaWith, fileWith, noopAt], ?_, by decide, by decide⟩
  · intro low lowest high highest index above below
    obtain rfl : low = noopAt 0 := List.mem_singleton.mp lowest
    obtain rfl : high = noopAt 0 := List.mem_singleton.mp highest
    exact ⟨noopAt 0, lowest, Int.le_antisymm above below⟩
  · intro position row entry _ _ _ lower other _ found
    obtain ⟨member, index⟩ := Database.getEntry_mem found
    obtain rfl : other = noopAt 0 := List.mem_singleton.mp member
    obtain rfl : lower = 0 := by
      have zero : (0 : Int) = lower := index
      omega
    rfl

/-- With the last row below the snapshot every round is accepted, and credits the
snapshot instead of `lastIndex`. -/
theorem repair_converges_sunken :
    sunken.role = .leader ∧ sunken.db.Trails [noopAt 0, noopAt 1] ∧ sunken.db.MetaAgrees ∧
    level.Trails sunken.currentTerm [noopAt 0, noopAt 1] ∧
    (sunken.nextIndex 1).getD 0 = 2 ∧
    ∀ rounds, ((Node.exchange ((Cluster.ofFin 2 1).config 0) ((Cluster.ofFin 2 1).config 1)
      1)^[rounds] (sunken, level)).1.matchIndex 1 ≠ some sunken.db.lastIndex := by
  have fixed : Node.exchange ((Cluster.ofFin 2 1).config 0) ((Cluster.ofFin 2 1).config 1) 1
      (sunken, level) = (sunken, level) := by
    have round : Node.exchange ((Cluster.ofFin 2 1).config 0) ((Cluster.ofFin 2 1).config 1)
        1 (sunken, level) =
          ({ sunken with
              matchIndex := Function.update sunken.matchIndex 1 (some 1)
              nextIndex := Function.update sunken.nextIndex 1 (some 2) }, level) := rfl
    rw [round, show Function.update sunken.matchIndex 1 (some 1) = sunken.matchIndex from
      Function.update_eq_self 1 sunken.matchIndex, show Function.update sunken.nextIndex 1
        (some 2) = sunken.nextIndex from Function.update_eq_self 1 sunken.nextIndex]
  refine ⟨rfl, sunken_trails, ⟨rfl, rfl⟩, ⟨by decide, by decide, ?_⟩, rfl, fun rounds => ?_⟩
  · refine ⟨?_, ?_, ?_, by decide, by decide⟩
    · intro low member
      cases member
    · intro row member
      cases member
    · intro position row entry found
      cases found
  · rw [Function.iterate_fixed fixed]
    exact by decide

end RaftCanvas
