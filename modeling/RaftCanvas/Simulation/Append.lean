import RaftCanvas.Simulation.Commit
import RaftCanvas.Simulation.Scan

/-!
# Handling AppendEntries
-/

namespace RaftCanvas

open Replication.State (Steps)

variable {Id : Type} {machine : Machine} [Fintype Id]

/-! ## Accepting entries -/

/-- What accepting `count` entries of the current term's ledger leaves alone, and what
it adds. -/
structure Accepted (ideal next : Ideal Id) (actor : Id) (count : Nat) : Prop where
  current : next.current = ideal.current
  elected : next.elected = ideal.elected
  base : next.base = ideal.base
  ledger : next.ledger = ideal.ledger
  decided : next.decided = ideal.decided
  acked : count ≤ next.acked actor (ideal.current actor)
  covers : (ideal.ledger (ideal.current actor)).take count <+: next.log actor

variable [DecidableEq Id]

omit [Fintype Id] in
theorem accept_file {ideal : Ideal Id} {actor : Id} {db : Database Id machine.Blob}
    {count : Nat} {log : List LogEntry} (current : db.currentTerm = ideal.current actor)
    (stores : db.Stores log) (unsaved : db.snapshot = none → db.lastSnapshotIndex = -1)
    (saved : ∀ snap, db.snapshot = some snap → 0 ≤ db.lastSnapshotIndex ∧
      snap.lastIncludedIndex = db.lastSnapshotIndex ∧
        snap.lastIncludedTerm = db.lastSnapshotTerm) :
    FileMatches (ideal.accept actor count log) actor db :=
  ⟨current, by simpa [Replication.State.accept] using stores, unsaved, saved⟩

omit [Fintype Id] in
theorem accepted {ideal : Ideal Id} {actor : Id} {count : Nat} {log : List LogEntry}
    (covers : (ideal.ledger (ideal.current actor)).take count <+: log) :
    Accepted ideal (ideal.accept actor count log) actor count where
  current := rfl
  elected := rfl
  base := rfl
  ledger := rfl
  decided := rfl
  acked := by simp [Replication.State.accept]
  covers := by simpa [Replication.State.accept] using covers

/-- A request that quotes the ledger of the term its receiver runs in, from a start
where the receiver's log agrees with it. -/
structure Quotes (ideal : Ideal Id) (actor : Id) (db : Database Id machine.Blob)
    (start count : Nat) (entries : List LogEntry) : Prop where
  led : ideal.elected (ideal.current actor) ≠ none
  rival : ideal.elected (ideal.current actor) ≠ some actor
  indexed : Indexed (ideal.ledger (ideal.current actor))
  trust : (ideal.log actor).take (db.lastSnapshotIndex + 1).toNat <+:
    ideal.ledger (ideal.current actor)
  reached : start ≤ (ideal.log actor).length
  agreed : (ideal.log actor).take start <+: ideal.ledger (ideal.current actor)
  bounded : start ≤ count
  within : count ≤ (ideal.ledger (ideal.current actor)).length
  quoted : entries = ((ideal.ledger (ideal.current actor)).take count).drop start

namespace Course

variable {stage : Stage Id machine} {ideal next : Ideal Id} {node after : Node Id machine}

/-- What a snapshot covers agrees with the ledgers of all terms to come. -/
theorem trust (course : Course stage ideal node)
    (trusted : ¬stage.tier.strict → node.db.lastSnapshotIndex = -1) {era : Nat}
    (led : ideal.elected era ≠ none) (ordered : ideal.current stage.actor ≤ era) :
    (ideal.log stage.actor).take (node.db.lastSnapshotIndex + 1).toNat <+:
      ideal.ledger era := by
  by_cases strict : stage.tier.strict
  · have safe := course.safe strict
    have below := safe.saved_le.trans safe.applied_le
    have covered := safe.certified.restrict (List.take_prefix_take_left
      (i := (node.db.lastSnapshotIndex + 1).toNat) (by omega))
    exact course.sound.certified_inside (covered.mono ordered) led
  · simp [trusted strict]

/-- One transaction of a follower that makes its log `log`. -/
theorem writeLog (course : Course stage ideal node) (role : node.role = .follower)
    {db : Database Id machine.Blob} {count : Nat} {log : List LogEntry}
    (steps : Steps stage.actor ideal (ideal.accept stage.actor count log))
    (stores : db.Stores log) (current : db.currentTerm = node.db.currentTerm)
    (index : db.lastSnapshotIndex = node.db.lastSnapshotIndex)
    (term : db.lastSnapshotTerm = node.db.lastSnapshotTerm)
    (snapshot : db.snapshot = node.db.snapshot) :
    Course stage (ideal.accept stage.actor count log)
      { node with db, trace := node.trace ++ [.write db] } := by
  refine course.write rfl rfl steps ?_ rfl course.cut.indexed ?_
    (fun compacted => index.symm ▸ compacted) fun _ _ => index.ge
  · exact {
      file := accept_file (current.trans course.matching.file.current) stores
        (by rw [index, snapshot]; exact course.matching.file.unsaved)
        (by rw [index, term, snapshot]; exact course.matching.file.saved)
      term := course.matching.term.trans current.symm
      leads := fun leader => by simp [role] at leader
      stands := fun candidate => by simp [role] at candidate }
  · intro _ safe
    have carried := safe.carry course.sound steps fun leader => by simp [role] at leader
    exact { carried with
      saved_le := index.le.trans carried.saved_le
      saved := by rw [index, snapshot]; exact carried.saved }

section Store

variable {start count : Nat} {entries : List LogEntry}

omit [Fintype Id] [DecidableEq Id] in
/-- The handler's two transactions once the scan has stopped at `stop`. -/
theorem store_rewritten (quotes : Quotes ideal stage.actor node.db start count entries)
    {stop : Nat} (above : start ≤ stop)
    (result : Node.writeStart node.db entries = stop) :
    node.storeEntries entries =
      (node.write fun db => db.truncateFrom stop).write fun db => db.appendEntries
        (((ideal.ledger (ideal.current stage.actor)).take count).drop stop) := by
  have suffix : entries.filter (fun entry => (stop : Int) ≤ entry.index) =
      ((ideal.ledger (ideal.current stage.actor)).take count).drop stop := by
    rw [quotes.quoted, ((quotes.indexed.take count).drop start).filter_ge, List.drop_drop]
    congr 1
    omega
  rw [Node.storeEntries, result]
  simp only [Int.natCast_nonneg, if_true, suffix]

/-- The scan found everything in place. -/
theorem store_present (course : Course stage ideal node) (role : node.role = .follower)
    (quotes : Quotes ideal stage.actor node.db start count entries)
    (rows : ∀ position, start ≤ position → node.db.Agrees
      ((ideal.ledger (ideal.current stage.actor)).take count) position) :
    ∃ next, Course stage next node ∧ Accepted ideal next stage.actor count := by
  obtain ⟨_, agrees⟩ := agree_upto course.sound course.matching.file.log quotes.led
    quotes.reached quotes.agreed quotes.bounded (Nat.le_refl count) quotes.within
    fun position from_ _ => rows position from_
  have covers : (ideal.ledger (ideal.current stage.actor)).take count <+:
      ideal.log stage.actor := agrees ▸ List.take_prefix _ _
  have steps : Steps stage.actor ideal
      (ideal.accept stage.actor count (ideal.log stage.actor)) :=
    .single (.accept count _ quotes.led quotes.rival quotes.within covers
      (Or.inl List.prefix_rfl) fun _ own _ => own)
  refine ⟨_, course.silent rfl rfl steps ?_ rfl course.cut.indexed fun _ safe =>
    safe.carry course.sound steps fun leader => by simp [role] at leader, accepted covers⟩
  exact {
    file := accept_file course.matching.file.current course.matching.file.log
      course.matching.file.unsaved course.matching.file.saved
    term := course.matching.term
    leads := fun leader => by simp [role] at leader
    stands := fun candidate => by simp [role] at candidate }

/-- Above the snapshot the scan stops where the log ends or departs from the leader's. -/
theorem store_diverging (course : Course stage ideal node) (role : node.role = .follower)
    (quotes : Quotes ideal stage.actor node.db start count entries) {stop : Nat}
    (above : start ≤ stop) (inside : stop < count)
    (rows : ∀ position, start ≤ position → position < stop → node.db.Agrees
      ((ideal.ledger (ideal.current stage.actor)).take count) position)
    (differs : ¬node.db.Agrees
      ((ideal.ledger (ideal.current stage.actor)).take count) stop)
    (uncovered : node.db.lastSnapshotIndex < stop) :
    ∃ next, Course stage next
        ((node.write fun db => db.truncateFrom stop).write fun db => db.appendEntries
          (((ideal.ledger (ideal.current stage.actor)).take count).drop stop)) ∧
      Accepted ideal next stage.actor count := by
  have stores := course.matching.file.log
  obtain ⟨reached, agrees⟩ := agree_upto course.sound stores quotes.led quotes.reached
    quotes.agreed above inside.le quotes.within rows
  have truncating : Steps stage.actor ideal
      (ideal.accept stage.actor 0 ((ideal.log stage.actor).take stop)) := by
    refine .single (.accept 0 _ quotes.led quotes.rival (Nat.zero_le _) (by simp)
      (Or.inl (List.take_prefix _ _)) fun shared own theirs => ?_)
    have short := shared_below stores uncovered inside differs own theirs
    rw [List.prefix_iff_eq_take] at own
    rw [own]
    exact List.take_prefix_take_left short
  have truncated := course.writeLog role truncating
    (show (node.db.truncateFrom stop).Stores _ from stores.truncateFrom uncovered)
    rfl rfl rfl rfl
  have whole : (ideal.log stage.actor).take stop ++
      ((ideal.ledger (ideal.current stage.actor)).take count).drop stop =
        (ideal.ledger (ideal.current stage.actor)).take count := by
    have firstPart : (ideal.log stage.actor).take stop =
        ((ideal.ledger (ideal.current stage.actor)).take count).take stop := by
      rw [agrees, List.take_take, Nat.min_eq_left inside.le]
    rw [firstPart, List.take_append_drop]
  have extending : Steps stage.actor
      (ideal.accept stage.actor 0 ((ideal.log stage.actor).take stop))
      ((ideal.accept stage.actor 0 ((ideal.log stage.actor).take stop)).accept
        stage.actor count ((ideal.ledger (ideal.current stage.actor)).take count)) := by
    refine .single (.accept count _ quotes.led quotes.rival quotes.within List.prefix_rfl
      (Or.inr rfl) fun shared own theirs => ?_)
    have inTruncated : shared <+: (ideal.log stage.actor).take stop := by
      simpa [Replication.State.accept] using own
    have inLedger : shared <+: ideal.ledger (ideal.current stage.actor) := theirs
    have short := inTruncated.length_le
    rw [List.length_take] at short
    rw [List.prefix_iff_eq_take] at inLedger
    rw [inLedger]
    exact List.take_prefix_take_left (by omega)
  have stored : ((node.db.truncateFrom stop).appendEntries
      (((ideal.ledger (ideal.current stage.actor)).take count).drop stop)).Stores
        ((ideal.ledger (ideal.current stage.actor)).take count) := by
    have appended := (stores.truncateFrom uncovered).appendEntries
      (((ideal.ledger (ideal.current stage.actor)).take count).drop stop)
      (by rw [Int.toNat_natCast, whole]; exact quotes.indexed.take count)
    rwa [Int.toNat_natCast, whole] at appended
  refine ⟨_, truncated.writeLog role extending stored rfl rfl rfl rfl, ?_⟩
  exact {
    current := rfl
    elected := rfl
    base := rfl
    ledger := rfl
    decided := rfl
    acked := by simp [Replication.State.accept]
    covers := by simp [Replication.State.accept] }

/-- A stop at a compacted entry clobbers the log unless the request reaches past
whatever the log shares with the ledger. -/
theorem reaches_past (course : Course stage ideal node)
    (quotes : Quotes ideal stage.actor node.db start count entries) {stop : Nat}
    (result : Node.writeStart node.db entries = stop)
    (covered : (stop : Int) ≤ node.db.lastSnapshotIndex)
    (unharmed : ¬node.db.Clobbers entries) :
    node.db.lastSnapshotIndex < count ∧ ∀ shared,
      shared <+: ideal.log stage.actor →
      shared <+: ideal.ledger (ideal.current stage.actor) → shared.length ≤ count := by
  have stores := course.matching.file.log
  have bound := stores.within
  have indexed := quotes.indexed.take count
  have ending : ∀ entry ∈ entries, entry.index < count := by
    intro entry member
    rw [quotes.quoted] at member
    have bounds := (indexed.drop start).bounds member
    rw [List.length_drop, List.length_take] at bounds
    have bounded := quotes.bounded
    omega
  by_contra short
  refine unharmed ⟨by rw [result]; omega, by rw [result]; exact covered,
    fun last ends => ?_, fun entry member fresh => ?_⟩
  · by_contra reaching
    have final := ending last (List.mem_of_getLast? ends)
    have lastIndex := stores.lastIndex_eq
    refine short ⟨by omega, fun shared own _ => ?_⟩
    have ownLength := own.length_le
    omega
  · by_contra absent
    have below := ending entry member
    rw [quotes.quoted] at member
    obtain ⟨position, found⟩ := List.mem_iff_getElem?.mp member
    rw [List.getElem?_drop] at found
    have index := indexed _ _ found
    have departs : ¬node.db.Agrees
        ((ideal.ledger (ideal.current stage.actor)).take count) (start + position) := by
      intro agrees
      obtain ⟨row, present, sameTerm⟩ := agrees entry found
      exact absent ⟨row, index ▸ present, sameTerm⟩
    refine short ⟨by omega, fun shared own theirs => ?_⟩
    have limited := shared_below stores (by omega) (by omega) departs own theirs
    omega

/-- At a compacted entry the handler empties the table and writes the rest of the
request; that is the leader's log if the request reaches far enough. -/
theorem store_compacted (course : Course stage ideal node) (role : node.role = .follower)
    (quotes : Quotes ideal stage.actor node.db start count entries) {stop : Nat}
    (inside : stop < count)
    (differs : ¬node.db.Agrees
      ((ideal.ledger (ideal.current stage.actor)).take count) stop)
    (covered : (stop : Int) ≤ node.db.lastSnapshotIndex)
    (longEnough : node.db.lastSnapshotIndex < count)
    (limited : ∀ shared, shared <+: ideal.log stage.actor →
      shared <+: ideal.ledger (ideal.current stage.actor) → shared.length ≤ count)
    (rough : ¬stage.calm) :
    ∃ next, Course stage next
        ((node.write fun db => db.truncateFrom stop).write fun db => db.appendEntries
          (((ideal.ledger (ideal.current stage.actor)).take count).drop stop)) ∧
      Accepted ideal next stage.actor count := by
  have stores := course.matching.file.log
  have bound := stores.within
  have within := quotes.within
  have trust := quotes.trust
  rw [List.prefix_iff_eq_take, List.length_take, Nat.min_eq_left (by omega)] at trust
  have missing : node.db.getEntry stop = none := by
    by_contra present
    obtain ⟨row, found⟩ := Option.ne_none_iff_exists'.mp present
    obtain ⟨_, own⟩ := stores.getEntry_some found
    refine differs fun entry theirs => ⟨row, found, ?_⟩
    have same : ((ideal.log stage.actor).take
        (node.db.lastSnapshotIndex + 1).toNat)[stop]? = some row := by
      rw [List.getElem?_take_of_lt (by omega)]
      exact own
    rw [List.getElem?_take_of_lt inside] at theirs
    rw [trust, List.getElem?_take_of_lt (by omega), theirs] at same
    rw [Option.some.inj same]
  have replacing : Steps stage.actor ideal (ideal.accept stage.actor count
      ((ideal.ledger (ideal.current stage.actor)).take count)) := by
    refine .single (.accept count _ quotes.led quotes.rival within List.prefix_rfl
      (Or.inr rfl) fun shared own theirs => ?_)
    have short := limited shared own theirs
    rw [List.prefix_iff_eq_take] at theirs
    rw [theirs]
    exact List.take_prefix_take_left short
  have stored : ((node.db.truncateFrom stop).appendEntries
      (((ideal.ledger (ideal.current stage.actor)).take count).drop stop)).Stores
        ((ideal.ledger (ideal.current stage.actor)).take count) := by
    refine stores.replaceFrom (by omega) covered missing (quotes.indexed.take count)
      (by rw [List.length_take]; omega) ?_
    rw [List.take_take, Nat.min_eq_left (by omega)]
    exact trust.symm
  have cut : Cut stage.actor ideal node.db
      [.write (node.db.truncateFrom stop),
        .write ((node.db.truncateFrom stop).appendEntries
          (((ideal.ledger (ideal.current stage.actor)).take count).drop stop))]
      (ideal.accept stage.actor count
        ((ideal.ledger (ideal.current stage.actor)).take count)) :=
    { steps := replacing
      file := accept_file course.matching.file.current stored
        course.matching.file.unsaved course.matching.file.saved
      calls := by simp
      elected := fun _ led => Or.inl led
      indexed := course.cut.indexed
      kept := id
      installs := by simp }
  have follower : ∀ {other : Role}, other ≠ .follower → node.role ≠ other :=
    fun different same => different (same ▸ role)
  refine ⟨_, course.extend _ (List.append_assoc _ _ _) rfl ?_ cut
    (fun dying => absurd dying rough) fun _ safe => ?_, accepted List.prefix_rfl⟩
  · exact {
      file := cut.file
      term := course.matching.term
      leads := fun leader => absurd leader (follower (by simp))
      stands := fun candidate => absurd candidate (follower (by simp)) }
  · have carried := safe.carry course.sound replacing fun leader => by
      simp [role] at leader
    exact {
      safe := { carried with }
      events := by simp
      requests := by simp
      grows := Int.le_refl _
      installs := by simp }

/-- Storing the entries of a request whose start agrees with the leader. -/
theorem storeEntries (course : Course stage ideal node) (role : node.role = .follower)
    (quotes : Quotes ideal stage.actor node.db start count entries)
    (unharmed : ¬node.db.Clobbers entries)
    (calm : stage.calm → node.db.lastSnapshotIndex = -1) :
    ∃ next, Course stage next (node.storeEntries entries) ∧
      Accepted ideal next stage.actor count := by
  have length : ((ideal.ledger (ideal.current stage.actor)).take count).length = count := by
    rw [List.length_take, Nat.min_eq_left quotes.within]
  rcases Node.writeStart_cases node.db (quotes.indexed.take count) start with
    ⟨result, rows⟩ | ⟨stop, above, inside, result, rows, differs⟩
  · have idle : node.storeEntries entries = node := by
      rw [Node.storeEntries, quotes.quoted, result]
      rfl
    rw [idle]
    exact course.store_present role quotes rows
  · rw [length] at inside
    rw [← quotes.quoted] at result
    rw [store_rewritten quotes above result]
    by_cases covered : node.db.lastSnapshotIndex < stop
    · exact course.store_diverging role quotes above inside rows differs covered
    · have compacted : (stop : Int) ≤ node.db.lastSnapshotIndex := Int.not_lt.mp covered
      obtain ⟨longEnough, limited⟩ := course.reaches_past quotes result compacted unharmed
      refine course.store_compacted role quotes inside differs compacted longEnough limited
        fun dying => ?_
      have uncompacted := calm dying
      omega

end Store

/-! ## AppendEntries -/

theorem followLeader (course : Course stage ideal node) (term : Nat) (leaderId : Id) :
    Course stage (heard ideal stage.actor term) (node.followLeader term leaderId) := by
  rw [Node.followLeader]
  split
  · exact course.becomeFollower term (some leaderId)
  next settled =>
      simp only [not_or, not_lt, not_not] at settled
      have same : heard ideal stage.actor term = ideal :=
        if_neg (by rw [course.matching.current]; exact Nat.not_lt.mpr settled.1)
      rw [same]
      exact course.memory rfl rfl { course.matching with } fun _ safe => { safe with }

/-- A follower's commit index follows the leader's. -/
theorem followCommit (course : Course stage ideal node) (role : node.role = .follower)
    (config : Config Id) {leaderCommit : Int}
    (inside : ideal.log stage.actor <+: ideal.ledger (ideal.current stage.actor))
    (decided : stage.tier.strict → ideal.Certified (ideal.current stage.actor)
      ((ideal.ledger (ideal.current stage.actor)).take (leaderCommit + 1).toNat)) :
    Course stage ideal (node.followCommit config leaderCommit) := by
  rw [Node.followCommit]
  split
  next behind =>
      refine Course.applyCommitted ?_ config
      refine course.memory rfl rfl { course.matching with } fun strict safe => ?_
      have last := course.matching.lastIndex
      have bound := safe.bound
      have raised : node.commitIndex ≤ min leaderCommit node.db.lastIndex := by omega
      exact { safe with
        bound := by
          show min leaderCommit node.db.lastIndex < _
          omega
        certified := by
          refine (decided strict).restrict ((inside.take _).trans ?_)
          exact List.take_prefix_take_left (by
            show (min leaderCommit node.db.lastIndex + 1).toNat ≤ _
            omega)
        applied_le := safe.applied_le.trans raised
        matched := fun leader => by simp [role] at leader
        decided := fun leader => by simp [role] at leader
        resumed := fun waiter member =>
          ⟨(safe.resumed waiter member).1.trans raised, (safe.resumed waiter member).2⟩ }
  · exact course

/-- What the handler reports as accepted is acknowledged, and the log that acknowledges it
is the one the entries were stored in. -/
theorem handleAppendEntries (course : Course stage ideal node) (config : Config Id)
    {src : Id} {body : AppendEntries Id} (replicates : Replicates ideal src body)
    (other : src ≠ stage.actor)
    (prudent : stage.tier.strict →
      RequestSafe ideal (.appendEntries body : Request Id machine.Blob))
    (trusted : ¬stage.tier.strict → node.db.lastSnapshotIndex = -1)
    (unharmed : node.currentTerm ≤ body.term →
      Node.matchesPrev node.db body.prevLogIndex body.prevLogTerm = true →
        ¬node.db.Clobbers body.entries)
    (calm : stage.calm → node.db.lastSnapshotIndex = -1) :
    ∃ next, Course stage next (node.handleAppendEntries config body).1 ∧
      ReplyMatches next stage.actor (node.handleAppendEntries config body).2
        (.appendEntries body : Request Id machine.Blob) ∧
      ((node.handleAppendEntries config body).2.success = true →
        ((node.followLeader body.term body.leaderId).storeEntries body.entries).db.Stores
          (next.log stage.actor)) := by
  rw [Node.handleAppendEntries]
  split
  · exact ⟨ideal, course, fun success => by simp at success, fun success => by simp at success⟩
  next fresh =>
      have followed := course.followLeader body.term body.leaderId
      obtain ⟨role, era, votedFor, file⟩ :=
        Node.followLeader_frame node body.term body.leaderId
      obtain ⟨_, extended, _⟩ := (heard_steps ideal stage.actor body.term).sound course.sound
      have current : (heard ideal stage.actor body.term).current stage.actor =
          body.term := by
        rw [heard_current, course.matching.current]
        exact Nat.max_eq_right (Nat.le_of_not_lt fresh)
      have ledger := heard_ledger ideal stage.actor body.term
      have decided := heard_decided ideal stage.actor body.term
      dsimp only
      generalize heard ideal stage.actor body.term = mid at *
      generalize node.followLeader body.term body.leaderId = follower at *
      split
      next matched =>
          have quoting := replicates.extends extended
          have led : mid.elected body.term ≠ none := by simp [quoting.leader]
          have trust := followed.trust (fun lax => by rw [file]; exact trusted lax) led
            current.le
          obtain ⟨reached, agreed, within, quoted⟩ :=
            prev_agrees followed.sound followed.matching.file.log quoting trust matched
          rw [← current] at trust agreed within quoted
          have quotes : Quotes mid stage.actor follower.db
              (body.prevLogIndex + 1).toNat body.count body.entries :=
            { led := by rw [current]; exact led
              rival := by rw [current]; simpa [quoting.leader] using other
              indexed := followed.cut.indexed _ (by rw [current]; exact led)
              trust, reached, agreed, within, quoted
              bounded := Nat.le_add_right _ _ }
          obtain ⟨next, stored, accepted⟩ := followed.storeEntries role quotes
            (by rw [file, Database.clobbers_saveTermAndVote]
                exact unharmed (Nat.le_of_not_lt fresh) (by rw [file] at matched; exact matched))
            fun dying => by rw [file]; exact calm dying
          have own : next.current stage.actor = body.term := by
            rw [accepted.current, current]
          have inside : next.log stage.actor <+:
              next.ledger (next.current stage.actor) := by
            have covers := accepted.covers
            have above := quoting.own
            rw [← accepted.ledger, ← accepted.current] at covers
            rw [← accepted.base, ← own] at above
            rw [← accepted.ledger, ← accepted.current] at within
            refine stored.sound.log_inside_ledger ?_ above within covers
            rw [own, accepted.elected]
            exact led
          refine ⟨next, stored.followCommit ?_ config inside ?_, fun _ => ?_,
            fun _ => stored.matching.file.log⟩
          · obtain ⟨_, _, frame⟩ := Node.storeEntries_frame follower body.entries
            rw [frame]
            exact role
          · intro strict
            obtain ⟨_, era, bounded, covers⟩ := prudent strict
            refine ⟨era, by rw [own]; exact bounded, ?_⟩
            rw [own, accepted.ledger, accepted.decided, ledger, decided]
            exact covers
          · have acked := accepted.acked
            rwa [current] at acked
      next => exact ⟨_, followed, fun success => by simp at success,
          fun success => by simp at success⟩

end Course

end RaftCanvas
