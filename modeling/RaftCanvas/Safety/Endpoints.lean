import RaftCanvas.Cluster.World
import RaftCanvas.Raft.ReplicaServer
import RaftCanvas.Raft.StateMachine
import RaftCanvas.Raft.Storing

/-!
# The compatibility endpoints and the log

A heartbeat without `prevLogIndex` is checked against the follower's own last entry, and a
slice without it against the follower's own entry before the slice.  Neither check says
anything about the leader's log, so a follower may commit, or build on, entries that the
leader never had.
-/

namespace RaftCanvas

namespace Database

variable {Id Blob : Type}

/-- The entry at an index: a row, or one of those that were `compacted`. -/
def entryAt (db : Database Id Blob) (compacted : List LogEntry) (index : Int) :
    Option LogEntry :=
  (db.getEntry index).or
    (if index ≤ db.lastSnapshotIndex then compacted.find? fun entry => entry.index = index
      else none)

/-- The log and `whole` have entries of one term at `index`. -/
def MatchesAt (db : Database Id Blob) (compacted whole : List LogEntry) (index : Int) :
    Prop :=
  ∃ mine theirs, db.entryAt compacted index = some mine ∧ theirs ∈ whole ∧
    theirs.index = index ∧ mine.term = theirs.term

/-- A row other than the first of all has a matching entry before it. -/
def Joined (compacted whole : List LogEntry) (db : Database Id Blob) (row : LogEntry) :
    Prop :=
  0 < row.index → db.MatchesAt compacted whole (row.index - 1)

end Database

namespace Node

variable {Id : Type} {machine : Machine}

/-- What a request of a leader with the log `whole` may do: newly count its entries as
committed, and store an entry behind one that matches. -/
structure KeepsLogSafe (before after : Node Id machine) (compacted whole : List LogEntry) :
    Prop where
  committed : ∀ index, before.commitIndex < index → index ≤ after.commitIndex →
    ∃ entry ∈ whole, entry.index = index ∧ after.Counts entry
  stored : Effect.AddsOnly (Database.Joined compacted whole) before.db after.trace

/-- The follower's own entries that the leader's commit index would reach, up to the first
entry of the request that it does not know, are the leader's. -/
def TailAgrees (self : Node Id machine) (whole entries : List LogEntry)
    (leaderCommit : Int) : Prop :=
  ∀ index, self.commitIndex < index → index ≤ leaderCommit →
    (index ≤ self.db.lastIndex ∨ ∃ entry ∈ entries, index ≤ entry.index) →
    (∀ entry ∈ entries, entry.index ≤ index → self.db.Knows entry) →
    ∃ entry ∈ whole, entry.index = index ∧ self.db.getEntry index = some entry

/-- The follower knows the first entry of the request, or its entry before it matches. -/
def JointMatches (self : Node Id machine) (compacted whole entries : List LogEntry) : Prop :=
  ∀ first ∈ entries.head?, ¬self.db.Knows first → 0 < first.index →
    self.db.MatchesAt compacted whole (first.index - 1)

section

variable {config : Config Id} {self : Node Id machine} {whole entries : List LogEntry}
  {start : Nat} {leaderCommit : Int}

/-- In terms of the rows when the commit index moves. -/
theorem followCommit_committed_iff
    (fresh : ∀ entry, .event (.applied entry) ∉ self.trace)
    (applied_le : self.lastApplied ≤ self.commitIndex) :
    (∀ index, self.commitIndex < index →
        index ≤ (self.followCommit config leaderCommit).commitIndex →
        ∃ entry ∈ whole, entry.index = index ∧
          (self.followCommit config leaderCommit).Counts entry) ↔
      ∀ index, self.commitIndex < index → index ≤ leaderCommit → index ≤ self.db.lastIndex →
        ∃ entry ∈ whole, entry.index = index ∧ self.db.getEntry index = some entry := by
  have reach : ∀ index, self.commitIndex < index →
      (index ≤ (self.followCommit config leaderCommit).commitIndex ↔
        index ≤ leaderCommit ∧ index ≤ self.db.lastIndex) := by
    intro index above
    rw [followCommit_commitIndex]
    split
    · exact le_min_iff
    · omega
  refine forall_congr' fun index => forall_congr' fun above => ?_
  rw [reach index above, and_imp]
  refine forall_congr' fun below => forall_congr' fun inside => ?_
  refine exists_congr fun entry => and_congr_right fun _ => and_congr_right fun same => ?_
  subst same
  exact followCommit_counts config self leaderCommit fresh applied_le above
    ((reach _ above).mpr ⟨below, inside⟩)

/-- What the log is after a request that replaces it from `entry` on. -/
structure Rewritten (before after : Database Id machine.Blob) (entry : LogEntry)
    (rest : List LogEntry) : Prop where
  snapshot : after.lastSnapshotIndex = before.lastSnapshotIndex
  rows : after.log.rows =
    before.log.rows.filter (fun row => row.index < entry.index) ++ entry :: rest

namespace Rewritten

variable {before after : Database Id machine.Blob} {entry : LogEntry}
  {rest compacted : List LogEntry}

/-- Rows before the first one replaced stay. -/
theorem getEntry_below (rewritten : Rewritten before after entry rest)
    (above : ∀ fresh ∈ entry :: rest, entry.index ≤ fresh.index) {index : Int}
    (below : index < entry.index) : after.getEntry index = before.getEntry index := by
  refine Option.ext fun row => ?_
  rw [Database.getEntry_eq_some, Database.getEntry_eq_some, rewritten.rows,
    List.mem_append, List.mem_filter, decide_eq_true_iff]
  constructor
  · rintro ⟨old | fresh, rfl⟩
    · exact ⟨old.1, rfl⟩
    · exact absurd (above row fresh) (Int.not_le.mpr below)
  · rintro ⟨member, rfl⟩
    exact ⟨Or.inl ⟨member, below⟩, rfl⟩

theorem getEntry_fresh (rewritten : Rewritten before after entry rest) {fresh : LogEntry}
    (member : fresh ∈ entry :: rest) : after.getEntry fresh.index = some fresh :=
  Database.getEntry_of_mem (rewritten.rows ▸ List.mem_append_right _ member)

theorem lastIndex (rewritten : Rewritten before after entry rest) :
    ∃ last ∈ entry :: rest, after.lastIndex = last.index := by
  refine ⟨(entry :: rest).getLast (List.cons_ne_nil _ _), List.getLast_mem _, ?_⟩
  rw [Database.lastIndex, rewritten.rows, List.getLast?_append_of_ne_nil _ (by simp),
    List.getLast?_eq_some_getLast (List.cons_ne_nil _ _)]

/-- From the first new row on, all rows are new. -/
theorem getEntry_above (rewritten : Rewritten before after entry rest)
    (numbered : Numbered start (entry :: rest)) {index : Int} (reached : entry.index ≤ index)
    (inside : index ≤ after.lastIndex) :
    ∃ fresh ∈ entry :: rest, fresh.index = index ∧ after.getEntry index = some fresh := by
  obtain ⟨last, member, ends⟩ := rewritten.lastIndex
  obtain ⟨fresh, brought, rfl⟩ := numbered.exists_between member reached (ends ▸ inside)
  exact ⟨fresh, brought, rfl, rewritten.getEntry_fresh brought⟩

theorem matchesAt_fresh (rewritten : Rewritten before after entry rest)
    {fresh : LogEntry} (member : fresh ∈ entry :: rest)
    (quoted : fresh ∈ whole) : after.MatchesAt compacted whole fresh.index := by
  refine ⟨fresh, fresh, ?_, quoted, rfl, rfl⟩
  rw [Database.entryAt, rewritten.getEntry_fresh member, Option.some_or]

theorem matchesAt_below (rewritten : Rewritten before after entry rest)
    (above : ∀ fresh ∈ entry :: rest, entry.index ≤ fresh.index) {index : Int}
    (below : index < entry.index) :
    after.MatchesAt compacted whole index ↔ before.MatchesAt compacted whole index := by
  rw [Database.MatchesAt, Database.MatchesAt, Database.entryAt, Database.entryAt,
    rewritten.getEntry_below above below, rewritten.snapshot]

/-- The new rows are joined to the log exactly if the first of them is: each other one
stands behind a new one. -/
theorem joined_iff (rewritten : Rewritten before after entry rest)
    (numbered : Numbered start (entry :: rest))
    (quoted : ∀ fresh ∈ entry :: rest, fresh ∈ whole) :
    (∀ fresh ∈ entry :: rest, after.Joined compacted whole fresh) ↔
      before.Joined compacted whole entry := by
  have above := numbered.head_le
  have below : entry.index - 1 < entry.index := Int.sub_one_lt_of_le le_rfl
  constructor
  · intro all positive
    rw [← rewritten.matchesAt_below above below]
    exact all entry List.mem_cons_self positive
  · intro joined fresh member positive
    rcases Int.lt_or_eq_of_le (above fresh member) with behind | first
    · obtain ⟨prev, brought, index⟩ :=
        numbered.exists_between member (Int.le_sub_one_of_lt behind) (by omega)
      rw [← index]
      exact rewritten.matchesAt_fresh brought (quoted prev brought)
    · rw [← first] at positive ⊢
      rw [rewritten.matchesAt_below above below]
      exact joined positive

end Rewritten

/-- A known entry of the leader matches. -/
theorem matchesAt_known {db : Database Id machine.Blob} {entry : LogEntry}
    (known : db.Knows entry) (compacted : List LogEntry) (quoted : entry ∈ whole) :
    db.MatchesAt compacted whole entry.index := by
  obtain ⟨row, found, same⟩ := known
  refine ⟨row, entry, ?_, quoted, rfl, same⟩
  rw [Database.entryAt, found, Option.some_or]

/-- The rows that the commit index passes are the leader's exactly if the tail agrees. -/
theorem storeEntries_tailAgrees_iff (numbered : Numbered start entries)
    (quoted : ∀ entry ∈ entries, entry ∈ whole) :
    (∀ index, self.commitIndex < index → index ≤ leaderCommit →
        index ≤ (self.storeEntries entries).db.lastIndex →
        ∃ entry ∈ whole, entry.index = index ∧
          (self.storeEntries entries).db.getEntry index = some entry) ↔
      self.TailAgrees whole entries leaderCommit := by
  refine forall_congr' fun index => forall_congr' fun _ => forall_congr' fun _ => ?_
  rcases self.storeEntries_split numbered with
    ⟨same, known⟩ | ⟨held, entry, rest, db, rfl, known, differs, snapshot, rows, stored⟩
  · rw [same]
    constructor
    · rintro agrees (inside | ⟨last, member, below⟩) _
      · exact agrees inside
      · exact agrees (below.trans (known last member).le_lastIndex)
    · exact fun agrees inside => agrees (Or.inl inside) fun entry member _ => known entry member
  · have rewritten : Rewritten self.db db entry rest := ⟨snapshot, rows⟩
    obtain ⟨first, consecutive⟩ := numbered.of_infix (List.suffix_append held _).isInfix
    have above := consecutive.head_le
    rw [stored]
    dsimp only
    constructor
    · intro agrees _ passes
      have below : index < entry.index := by
        refine Int.not_le.mp fun reached => differs (passes entry ?_ reached)
        exact List.mem_append_right _ List.mem_cons_self
      have inside : index ≤ db.lastIndex :=
        below.le.trans (Database.getEntry_le (rewritten.getEntry_fresh List.mem_cons_self))
      rw [← rewritten.getEntry_below above below]
      exact agrees inside
    · intro agrees inside
      by_cases below : index < entry.index
      · rw [rewritten.getEntry_below above below]
        refine agrees (Or.inr ⟨entry, List.mem_append_right _ List.mem_cons_self, below.le⟩) ?_
        intro other member reached
        rcases List.mem_append.mp member with old | fresh
        · exact known other old
        · exact absurd (above other fresh) (Int.not_le.mpr (reached.trans_lt below))
      · obtain ⟨fresh, brought, index, found⟩ :=
          rewritten.getEntry_above consecutive (Int.not_lt.mp below) inside
        exact ⟨fresh, quoted fresh (List.mem_append_right held brought), index, found⟩

/-- Behind entries that the follower knows, the first one it does not know is joined. -/
theorem jointMatches_append_iff {held rest compacted : List LogEntry} {entry : LogEntry}
    (numbered : Numbered start (held ++ entry :: rest))
    (quoted : ∀ known ∈ held, known ∈ whole) (known : ∀ known ∈ held, self.db.Knows known)
    (differs : ¬self.db.Knows entry) :
    self.JointMatches compacted whole (held ++ entry :: rest) ↔
      self.db.Joined compacted whole entry := by
  cases held with
  | nil =>
      constructor
      · exact fun joint => joint entry rfl differs
      · intro joined first head _
        obtain rfl := Option.some.inj head
        exact joined
  | cons other others =>
      refine iff_of_true (fun first head unknown => ?_) fun _ => ?_
      · obtain rfl := Option.some.inj head
        exact absurd (known other List.mem_cons_self) unknown
      · have later : entry ∈ others ++ entry :: rest :=
          List.mem_append_right others List.mem_cons_self
        have behind := (List.pairwise_cons.mp numbered.sorted).1 entry later
        obtain ⟨prev, member, index⟩ := numbered.exists_between
          (List.mem_cons_of_mem other later) (Int.le_sub_one_of_lt behind) (by omega)
        have old : prev ∈ other :: others := by
          obtain ⟨_, consecutive⟩ :=
            numbered.of_infix (List.suffix_append (other :: others) _).isInfix
          refine (List.mem_append.mp member).resolve_right fun new => ?_
          have above := consecutive.head_le prev new
          omega
        rw [← index]
        exact matchesAt_known (known prev old) compacted (quoted prev old)

/-- The stored rows stand behind matching ones exactly if the joint matches. -/
theorem storeEntries_jointMatches_iff {compacted : List LogEntry}
    (numbered : Numbered start entries) (quoted : ∀ entry ∈ entries, entry ∈ whole) :
    (∃ more, (self.storeEntries entries).trace = self.trace ++ more ∧
        Effect.AddsOnly (Database.Joined compacted whole) self.db more) ↔
      self.JointMatches compacted whole entries := by
  rcases self.storeEntries_split numbered with
    ⟨same, known⟩ | ⟨held, entry, rest, db, rfl, known, differs, snapshot, rows, stored⟩
  · rw [same]
    refine iff_of_true ⟨[], (List.append_nil _).symm, trivial⟩ fun first head unknown => ?_
    exact absurd (known first (List.mem_of_mem_head? head)) unknown
  · have rewritten : Rewritten self.db db entry rest := ⟨snapshot, rows⟩
    obtain ⟨first, consecutive⟩ := numbered.of_infix (List.suffix_append held _).isInfix
    rw [jointMatches_append_iff numbered
        (fun old member => quoted old (List.mem_append_left _ member)) known differs,
      ← rewritten.joined_iff consecutive
        (fun fresh member => quoted fresh (List.mem_append_right _ member)),
      ← storeEntries_addsOnly self consecutive.head_le rows, stored]
    constructor
    · rintro ⟨more, trace, only⟩
      exact List.append_cancel_left trace ▸ only
    · exact fun only => ⟨_, rfl, only⟩

/-- Following a leader applies nothing. -/
theorem followLeader_quiet (self : Node Id machine) (term : Nat) (leaderId : Id)
    (entry : LogEntry) :
    .event (.applied entry) ∉ (self.began.followLeader term leaderId).trace := by
  rw [followLeader, becomeFollower]
  dsimp only
  split
  · split <;> simp [emit, write, began]
  · simp [began]

theorem storeEntries_trace (self : Node Id machine) (entries : List LogEntry) :
    ∃ more, (self.storeEntries entries).trace = self.trace ++ more ∧
      (self.storeEntries entries).db = Effect.file self.db more ∧
      ∀ entry, .event (.applied entry) ∉ more := by
  rw [storeEntries]
  dsimp only
  split
  · exact ⟨_, List.append_assoc _ _ _, rfl, by simp⟩
  · exact ⟨[], (List.append_nil _).symm, rfl, by simp⟩

/-- What neither moves the commit index nor stores keeps the log safe. -/
theorem KeepsLogSafe.of_still {before after : Node Id machine}
    {compacted : List LogEntry} (still : before.Still after)
    (adds : Effect.AddsOnly (Database.Joined compacted whole) before.db after.trace) :
    before.KeepsLogSafe after compacted whole where
  committed index above below := by
    rw [still.1] at below
    exact absurd below (Int.not_le.mpr above)
  stored := adds

/-- After the node has begun to follow, all depends on what it stores and commits. -/
theorem accept_keepsLogSafe_iff {followed : Node Id machine} {compacted : List LogEntry}
    (numbered : Numbered start entries) (quoted : ∀ entry ∈ entries, entry ∈ whole)
    (fresh : ∀ entry, .event (.applied entry) ∉ followed.trace)
    (applied_le : self.lastApplied ≤ self.commitIndex) (still : self.Still followed)
    (adds : Effect.AddsOnly (Database.Joined compacted whole) self.db followed.trace)
    (file : followed.db = Effect.file self.db followed.trace) :
    self.KeepsLogSafe ((followed.storeEntries entries).followCommit config leaderCommit)
        compacted whole ↔
      followed.TailAgrees whole entries leaderCommit ∧
        followed.JointMatches compacted whole entries := by
  obtain ⟨more, trace, written, silent⟩ := followed.storeEntries_trace entries
  have kept := still.trans (followed.storeEntries_still entries)
  have applied : (followed.storeEntries entries).lastApplied ≤
      (followed.storeEntries entries).commitIndex := by
    rw [lastApplied, kept.1, kept.2]
    exact applied_le
  have committed : (∀ index, self.commitIndex < index →
      index ≤ ((followed.storeEntries entries).followCommit config leaderCommit).commitIndex →
        ∃ entry ∈ whole, entry.index = index ∧
          ((followed.storeEntries entries).followCommit config leaderCommit).Counts entry) ↔
      followed.TailAgrees whole entries leaderCommit := by
    rw [← storeEntries_tailAgrees_iff numbered quoted, still.1, ← kept.1]
    refine followCommit_committed_iff (fun entry member => ?_) applied
    rw [trace, List.mem_append] at member
    exact member.elim (fresh entry) (silent entry)
  have stored : Effect.AddsOnly (Database.Joined compacted whole) self.db
      ((followed.storeEntries entries).followCommit config leaderCommit).trace ↔
        followed.JointMatches compacted whole entries := by
    have storedFile : (followed.storeEntries entries).db =
        Effect.file self.db (followed.storeEntries entries).trace := by
      rw [written, trace, Effect.file_append, ← file]
    rw [(Adds.followCommit config _ leaderCommit).addsOnly_iff storedFile,
      ← storeEntries_jointMatches_iff numbered quoted, trace, Effect.addsOnly_append, ← file]
    constructor
    · rintro ⟨_, only⟩
      exact ⟨more, rfl, only⟩
    · rintro ⟨other, same, only⟩
      exact ⟨adds, List.append_cancel_left same ▸ only⟩
  rw [← committed, ← stored]
  exact ⟨fun safe => ⟨safe.committed, safe.stored⟩, fun both => ⟨both.1, both.2⟩⟩

/-- A request keeps the log safe exactly if it is refused, or the tail agrees and the joint
matches. -/
theorem handleAppendEntries_keepsLogSafe_iff (config : Config Id) (body : AppendEntries Id)
    (compacted : List LogEntry) (applied_le : self.lastApplied ≤ self.commitIndex)
    (indexed : Indexed whole) (slice : body.entries <:+: whole) :
    self.KeepsLogSafe (self.began.handleAppendEntries config body).1 compacted whole ↔
      self.Refuses body.term body.prevLogIndex body.prevLogTerm ∨
        self.TailAgrees whole body.entries body.leaderCommit ∧
          self.JointMatches compacted whole body.entries := by
  obtain ⟨first, numbered⟩ := indexed.numbered.of_infix slice
  obtain ⟨_, era, votedFor, frame⟩ := self.began.followLeader_frame body.term body.leaderId
  have still : self.Still (self.began.followLeader body.term body.leaderId) :=
    self.began.followLeader_still body.term body.leaderId
  obtain ⟨more, trace, file, adds⟩ : Adds (Database.Joined compacted whole) self.began
    (self.began.followLeader body.term body.leaderId) := .followLeader _ _ _
  rw [show self.began.trace = [] from rfl, List.nil_append] at trace
  rw [← trace] at file adds
  by_cases stale : body.term < self.currentTerm
  · rw [handleAppendEntries, if_pos (show body.term < self.began.currentTerm from stale)]
    exact iff_of_true (.of_still (.refl self) trivial) (Or.inl (Or.inl stale))
  rw [handleAppendEntries, if_neg (show ¬body.term < self.began.currentTerm from stale)]
  have check : matchesPrev (self.began.followLeader body.term body.leaderId).db
      body.prevLogIndex body.prevLogTerm =
        matchesPrev self.db body.prevLogIndex body.prevLogTerm := by
    rw [frame]
    rfl
  dsimp only
  rw [check]
  cases matched : matchesPrev self.db body.prevLogIndex body.prevLogTerm with
  | false =>
      rw [if_neg Bool.false_ne_true]
      exact iff_of_true (.of_still still adds) (Or.inl (Or.inr matched))
  | true =>
      rw [if_pos rfl, accept_keepsLogSafe_iff numbered (fun _ => slice.mem)
        (self.followLeader_quiet body.term body.leaderId) applied_le still adds file]
      have accepted : ¬self.Refuses body.term body.prevLogIndex body.prevLogTerm := by
        rw [Refuses, matched]
        simpa using stale
      rw [or_iff_right accepted, TailAgrees, JointMatches, still.1, frame]
      exact Iff.rfl

end

end Node

/-- For a leader with the log `whole`: a heartbeat keeps the follower's log safe exactly if
it is refused or the follower's tail agrees with the leader's log; a slice of that log
exactly if it is empty or refused, or the tail agrees and the entry before the slice
matches. -/
theorem compat_endpoints_safe_iff {Id : Type} {machine : Machine} (config : Config Id)
    (self : Node Id machine) (applied_le : self.lastApplied ≤ self.commitIndex)
    (compacted whole : List LogEntry) (indexed : Indexed whole) (term : Nat)
    (leaderId : Id) (leaderCommit : Int) :
    (self.KeepsLogSafe (self.began.postHeartbeat config
          { term, leaderId, commitIndex := some leaderCommit }).1 compacted whole ↔
        self.Refuses term self.db.lastIndex self.db.lastTerm ∨
          self.TailAgrees whole [] leaderCommit) ∧
      ∀ entries, entries <:+: whole →
        (self.KeepsLogSafe (self.began.postSyncLog config
            { term, leaderId, entries, leaderCommit }).1 compacted whole ↔
          ∀ first ∈ entries.head?,
            self.Refuses term (first.index - 1) (Node.ownTerm self.db (first.index - 1)) ∨
              self.TailAgrees whole entries leaderCommit ∧
                self.JointMatches compacted whole entries) := by
  constructor
  · let body : AppendEntries Id :=
      { term
        leaderId
        prevLogIndex := self.db.lastIndex
        prevLogTerm := self.db.lastTerm
        entries := []
        leaderCommit }
    have safe := Node.handleAppendEntries_keepsLogSafe_iff config body compacted applied_le
      indexed List.nil_infix
    exact safe.trans (or_congr_right (and_iff_left nofun))
  · intro entries slice
    cases entries with
    | nil => exact iff_of_true (.of_still (.refl self) trivial) nofun
    | cons first rest =>
        let body : AppendEntries Id :=
          { term
            leaderId
            prevLogIndex := first.index - 1
            prevLogTerm := Node.ownTerm self.db (first.index - 1)
            entries := first :: rest
            leaderCommit }
        have safe := Node.handleAppendEntries_keepsLogSafe_iff config body compacted
          applied_le indexed slice
        refine safe.trans ⟨fun holds other same => ?_, fun all => all first rfl⟩
        obtain rfl := Option.some.inj same
        exact holds

def noop (index : Int) (term : Nat) : LogEntry := ⟨index, term, .noop, .null⟩

/-- A follower that holds the leader's first entry, not yet committed. -/
def trailing : Node (Fin 3) canvas :=
  .start (Database.empty.appendEntries [noop 0 1])

/-- It commits its entry on a heartbeat, and stores the leader's second one behind it. -/
theorem compat_endpoints_safe_iff_trailing :
    trailing.KeepsLogSafe (trailing.began.postHeartbeat ((Cluster.ofFin 3 100).config 1)
        { term := 1, leaderId := 0, commitIndex := some 0 }).1 [] [noop 0 1, noop 1 1] ∧
      trailing.KeepsLogSafe (trailing.began.postSyncLog ((Cluster.ofFin 3 100).config 1)
        { term := 1, leaderId := 0, entries := [noop 1 1], leaderCommit := 0 }).1
          [] [noop 0 1, noop 1 1] := by
  have indexed : Indexed [noop 0 1, noop 1 1] := by
    intro position entry found
    match position, found with
    | 0, rfl => rfl
    | 1, rfl => rfl
  have tail : ∀ entries, trailing.TailAgrees [noop 0 1, noop 1 1] entries 0 := by
    intro entries index above below _ _
    have low : -1 < index := above
    obtain rfl : index = 0 := by omega
    exact ⟨noop 0 1, List.mem_cons_self, rfl, rfl⟩
  obtain ⟨heartbeat, syncLog⟩ := compat_endpoints_safe_iff ((Cluster.ofFin 3 100).config 1)
    trailing (by decide) [] [noop 0 1, noop 1 1] indexed 1 0 0
  refine ⟨heartbeat.mpr (Or.inr (tail [])),
    (syncLog [noop 1 1] ⟨[noop 0 1], [], rfl⟩).mpr ?_⟩
  rintro first ⟨⟩
  refine Or.inr ⟨tail _, ?_⟩
  rintro other ⟨⟩ _ _
  exact ⟨noop 0 1, noop 0 1, rfl, List.mem_cons_self, rfl, rfl⟩

/-- Replica 0 has led term 1 alone.  Replica 1 leads term 2, has committed its first entry
with replica 2, and has another one. -/
def divergent : List (Action (Fin 3)) :=
  [.electionTimeout 0, .deliver 0 1,
    .resume 0 [some { term := 1, voteGranted := true }, none],
    .electionTimeout 1, .deliver 3 0, .deliver 3 2,
    .resume 3 [none, some { term := 2, voteGranted := true }],
    .deliver 5 2, .resume 5 [some { term := 2, success := true }], .submit 1 .stroke .null]

namespace Effect

variable {Id Blob : Type}

/-- An entry that is applied passes the test. -/
def appliesOnly (test : LogEntry → Bool) : Effect Id Blob → Bool
  | .event (.applied entry) => test entry
  | _ => true

/-- The first two effects, if they are writes. -/
def firstWrites : List (Effect Id Blob) → Option (Database Id Blob × Database Id Blob)
  | .write first :: .write second :: _ => some (first, second)
  | _ => none

theorem firstWrites_eq_some {effects : List (Effect Id Blob)}
    {written : Database Id Blob × Database Id Blob}
    (found : firstWrites effects = some written) :
    ∃ rest, effects = .write written.1 :: .write written.2 :: rest := by
  unfold firstWrites at found
  split at found
  · obtain rfl := Option.some.inj found
    exact ⟨_, rfl⟩
  · cases found

end Effect

/-- Replica 0, still with its own first entry, commits it on a heartbeat of replica 1, and
stores the second entry of replica 1 behind it. -/
theorem compat_endpoints_diverge : ∃ world : World (Fin 3) canvas,
    ((Cluster.ofFin 3 100).system canvas).Reach (fun _ _ => True) world ∧
      (world.node 0).role = .follower ∧ (world.node 1).role = .leader ∧
      (world.node 1).db.lastSnapshotIndex = -1 ∧
      ¬(world.node 0).KeepsLogSafe
        ((world.node 0).began.postHeartbeat ((Cluster.ofFin 3 100).config 0)
          { term := (world.node 1).currentTerm
            leaderId := 1
            commitIndex := some (world.node 1).commitIndex }).1
        [] (world.node 1).db.log.rows ∧
      ¬Effect.AddsOnly (Database.Joined [] (world.node 1).db.log.rows) (world.node 0).db
        ((world.node 0).began.postSyncLog ((Cluster.ofFin 3 100).config 0)
          { term := (world.node 1).currentTerm
            leaderId := 1
            entries := (world.node 1).db.log.rows.drop 1
            leaderCommit := (world.node 1).commitIndex }).1.trace := by
  obtain ⟨world, reached, passed⟩ :=
    ((Cluster.ofFin 3 100).system canvas).exists_reach_of_run (fun _ _ => True) divergent
      (fun world =>
        let beaten := ((world.node 0).began.postHeartbeat ((Cluster.ofFin 3 100).config 0)
          { term := (world.node 1).currentTerm
            leaderId := 1
            commitIndex := some (world.node 1).commitIndex }).1
        let synced := ((world.node 0).began.postSyncLog ((Cluster.ofFin 3 100).config 0)
          { term := (world.node 1).currentTerm
            leaderId := 1
            entries := (world.node 1).db.log.rows.drop 1
            leaderCommit := (world.node 1).commitIndex }).1
        decide (((world.node 0).role = .follower ∧ (world.node 1).role = .leader ∧
            (world.node 1).db.lastSnapshotIndex = -1) ∧
          (∀ row ∈ (world.node 1).db.log.rows, row.index = 0 → row.term = 2) ∧
          (world.node 0).commitIndex = -1 ∧ beaten.commitIndex = 0 ∧
          (∀ row ∈ beaten.db.log.rows, row.index = 0 → row.term = 1)) &&
        beaten.trace.all (Effect.appliesOnly fun entry => entry.term = 1) &&
        (Effect.firstWrites synced.trace).any fun
            written : Database (Fin 3) canvas.Blob × Database (Fin 3) canvas.Blob => decide
            ((∀ row ∈ written.1.log.rows, row.index ≠ 1) ∧
              (∃ row ∈ written.2.log.rows, row.index = 1) ∧
              (∃ row ∈ written.2.log.rows, row.index = 0 ∧ row.term = 1)))
      (by decide +kernel)
  rw [Bool.and_eq_true, Bool.and_eq_true, decide_eq_true_iff] at passed
  obtain ⟨⟨⟨roles, theirs, behind, raised, rows⟩, applied⟩, joined⟩ := passed
  refine ⟨world, reached, roles.1, roles.2.1, roles.2.2, fun safe => ?_, fun only => ?_⟩
  · obtain ⟨entry, member, index, row | event⟩ :=
      safe.committed 0 (by rw [behind]; decide) raised.ge
    · have own := rows entry (Database.getEntry_mem row).1 index
      rw [theirs entry member index] at own
      cases own
    · have own : entry.term = 1 := of_decide_eq_true (List.all_eq_true.mp applied _ event)
      rw [theirs entry member index] at own
      cases own
  · obtain ⟨written, trace, joined⟩ := (Option.any_eq_true _ _).mp joined
    obtain ⟨below, ⟨row, member, index⟩, mine, first, start, term⟩ := of_decide_eq_true joined
    obtain ⟨rest, trace⟩ := Effect.firstWrites_eq_some trace
    rw [trace] at only
    obtain ⟨other, entry, found, quoted, same, terms⟩ :=
      only.2.1 row member (fun old => below row old index) (by omega)
    rw [index, show (1 : Int) - 1 = mine.index by omega, Database.entryAt,
      Database.getEntry_of_mem first, Option.some_or, Option.some.injEq] at found
    rw [index] at same
    rw [← found, term, theirs entry quoted (by omega)] at terms
    cases terms

end RaftCanvas
