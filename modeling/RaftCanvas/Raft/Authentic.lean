import RaftCanvas.Raft.Life
import RaftCanvas.Raft.Provenance

/-!
# Authentic contents

What a node stores, applies, sends and shows is made of the entries it was given: those of
the requests it receives, those a client submits, and its own no-ops.  A standard says
which entries are authentic, and which states and snapshots are made of them.
-/

namespace RaftCanvas

/-- Authentic entries, and the states and snapshots that contain nothing else. -/
structure Standard (machine : Machine) where
  entry : LogEntry → Prop
  state : machine.State → Prop
  blob : machine.Blob → Prop
  noop : ∀ index term, entry { index, term, type := .noop, payload := .null }
  init : state machine.init
  apply : ∀ {before : machine.State} {row : LogEntry}, state before → entry row →
    state (machine.apply before row)
  getSnapshot : ∀ {before : machine.State}, state before → blob (machine.getSnapshot before)
  restoreSnapshot : ∀ {snap : machine.Blob} (index : Int), blob snap →
    state (machine.restoreSnapshot snap index)

variable {Id : Type} {machine : Machine}

namespace Standard

structure Database (standard : Standard machine) (db : Database Id machine.Blob) : Prop where
  rows : ∀ row ∈ db.log.rows, standard.entry row
  snapshot : ∀ snap ∈ db.snapshot, standard.blob snap.state

def Event (standard : Standard machine) : Event machine.Blob → Prop
  | .applied entry => standard.entry entry
  | .snapshotTaken _ blob | .snapshotInstalled _ blob => standard.blob blob
  | _ => True

def Request (standard : Standard machine) : Request Id machine.Blob → Prop
  | .requestVote _ => True
  | .appendEntries body => ∀ entry ∈ body.entries, standard.entry entry
  | .installSnapshot body => standard.blob body.data

def Effect (standard : Standard machine) : Effect Id machine.Blob → Prop
  | .write db => standard.Database db
  | .event event => standard.Event event
  | .send call => standard.Request call.request

end Standard

namespace Node

/-- In the course of a handler: everything the node holds and has done is authentic. -/
structure Authentic (standard : Standard machine) (node : Node Id machine) : Prop where
  db : standard.Database node.db
  state : standard.state node.stateMachine
  effects : ∀ effect ∈ node.trace, standard.Effect effect

namespace Authentic

variable {standard : Standard machine} {config : Config Id} {self after : Node Id machine}

theorem more (authentic : Authentic standard self) {more : List (Effect Id machine.Blob)}
    (trace : after.trace = self.trace ++ more) (db : standard.Database after.db)
    (state : standard.state after.stateMachine)
    (effects : ∀ effect ∈ more, standard.Effect effect) : Authentic standard after where
  db := db
  state := state
  effects effect member := by
    rw [trace, List.mem_append] at member
    exact member.elim (authentic.effects effect) (effects effect)

/-- Other parts of the memory change. -/
theorem memory (authentic : Authentic standard self) (db : after.db = self.db)
    (state : after.stateMachine = self.stateMachine) (trace : after.trace = self.trace) :
    Authentic standard after where
  db := db ▸ authentic.db
  state := state ▸ authentic.state
  effects := trace ▸ authentic.effects

theorem write (authentic : Authentic standard self)
    {transaction : Database Id machine.Blob → Database Id machine.Blob}
    (written : standard.Database (transaction self.db)) :
    Authentic standard (self.write transaction) :=
  authentic.more rfl written authentic.state (by simpa [Standard.Effect] using written)

theorem emit (authentic : Authentic standard self) {event : Event machine.Blob}
    (told : standard.Event event) : Authentic standard (self.emit event) :=
  authentic.more rfl authentic.db authentic.state (by simpa [Standard.Effect] using told)

theorem send (authentic : Authentic standard self) {call : Call Id machine.Blob}
    (asked : standard.Request call.request) : Authentic standard (self.send call) :=
  authentic.more rfl authentic.db authentic.state (by simpa [Standard.Effect] using asked)

theorem getEntry (authentic : Authentic standard self) {index : Int} {entry : LogEntry}
    (found : self.db.getEntry index = some entry) : standard.entry entry :=
  authentic.db.rows entry (Database.getEntry_mem found).1

/-- A transaction that only leaves entries out. -/
theorem shrink (authentic : Authentic standard self)
    {transaction : Database Id machine.Blob → Database Id machine.Blob}
    (rows : ∀ row ∈ (transaction self.db).log.rows, row ∈ self.db.log.rows)
    (snapshot : (transaction self.db).snapshot = self.db.snapshot) :
    Authentic standard (self.write transaction) :=
  authentic.write ⟨fun row member => authentic.db.rows row (rows row member),
    snapshot ▸ authentic.db.snapshot⟩

/-! ## Role transitions -/

theorem becomeFollower (authentic : Authentic standard self) (term : Nat)
    (leaderId : Option Id) : Authentic standard (self.becomeFollower term leaderId) := by
  rw [Node.becomeFollower]
  refine Authentic.emit ?_ trivial
  dsimp only
  split
  · exact authentic.more rfl ⟨authentic.db.rows, authentic.db.snapshot⟩ authentic.state
      (by simpa [Standard.Effect] using ⟨authentic.db.rows, authentic.db.snapshot⟩)
  · exact { authentic with }

theorem followLeader (authentic : Authentic standard self) (term : Nat) (leaderId : Id) :
    Authentic standard (self.followLeader term leaderId) := by
  rw [Node.followLeader]
  split
  · exact authentic.becomeFollower term _
  · exact { authentic with }

theorem startElection (authentic : Authentic standard self) :
    Authentic standard (self.startElection config) := by
  have saved : standard.Database (self.db.saveTermAndVote (self.currentTerm + 1)
      (some config.replicaId)) := ⟨authentic.db.rows, authentic.db.snapshot⟩
  have stood : Authentic standard (self.becomeCandidate config) := by
    refine authentic.more (List.append_assoc _ _ _) saved authentic.state ?_
    simpa [Standard.Effect, Standard.Event] using saved
  have armed : Authentic standard { self.becomeCandidate config with electionTimer := true } :=
    { stood with }
  exact armed.send trivial

/-! ## Sending -/

theorem sendAppendEntriesTo (authentic : Authentic standard self) (peer : Id) :
    Authentic standard (self.sendAppendEntriesTo config peer) := by
  rw [Node.sendAppendEntriesTo]
  split
  next call asked =>
      rw [appendEntriesCall] at asked
      split at asked
      · cases asked
      · dsimp only at asked
        split at asked
        · obtain ⟨snap, held, rfl⟩ := Option.map_eq_some_iff.mp asked
          exact authentic.send (authentic.db.snapshot snap held)
        · obtain rfl := Option.some.inj asked
          refine authentic.send fun entry member => authentic.db.rows entry ?_
          dsimp only at member
          rw [Database.getRange] at member
          split at member
          · split at member
            · cases member
            · exact List.mem_of_mem_filter member
          · cases member
  · exact authentic

theorem sendAppendEntriesToAll (authentic : Authentic standard self) :
    Authentic standard (self.sendAppendEntriesToAll config) := by
  rw [Node.sendAppendEntriesToAll]
  split
  · exact authentic
  next leads =>
    clear leads
    generalize config.peers = peers
    induction peers generalizing self with
    | nil => exact authentic
    | cons peer rest ih => exact ih (authentic.sendAppendEntriesTo peer)

theorem startReadIndex (authentic : Authentic standard self) (id : Nat) :
    Authentic standard (self.startReadIndex config id) := by
  have called : Authentic standard (self.emit (.readCalled id)) := authentic.emit trivial
  rw [Node.startReadIndex]
  split
  · exact called.emit trivial
  · split
    · exact called.emit trivial
    · exact called.send (by rintro _ ⟨⟩)

theorem awaitApplied (authentic : Authentic standard self) (read : Reading) :
    Authentic standard (self.awaitApplied read) := by
  rw [Node.awaitApplied]
  split
  · exact { authentic with }
  · exact authentic.emit trivial

/-! ## Committing -/

theorem applyLoop (authentic : Authentic standard self) (fuel : Nat) :
    Authentic standard (Node.applyLoop fuel self) := by
  induction fuel generalizing self with
  | zero => exact authentic
  | succ fuel ih =>
      rw [Node.applyLoop]
      split
      · split
        · exact authentic
        next entry found =>
          have held := authentic.getEntry found
          refine ih (Authentic.emit ?_ held)
          exact ⟨authentic.db, standard.apply authentic.state held, authentic.effects⟩
      · exact authentic

theorem maybeSnapshot (authentic : Authentic standard self) (config : Config Id) :
    Authentic standard (self.maybeSnapshot config) := by
  rw [Node.maybeSnapshot]
  split
  · exact authentic
  · split
    · exact authentic
    · split
      · exact authentic
      · have taken := standard.getSnapshot authentic.state
        refine Authentic.emit (Authentic.shrink (Authentic.write authentic ?_) ?_ rfl) taken
        · exact ⟨authentic.db.rows, fun snap held => Option.some.inj held ▸ taken⟩
        · exact fun row member => List.mem_of_mem_filter member

theorem applyCommitted (authentic : Authentic standard self) (config : Config Id) :
    Authentic standard (self.applyCommitted config) :=
  (authentic.applyLoop _).maybeSnapshot config

theorem emitCommit (authentic : Authentic standard self) (n : Int) :
    Authentic standard (self.emitCommit n) := by
  refine authentic.more rfl authentic.db authentic.state fun effect member => ?_
  rcases List.mem_cons.mp member with rfl | rejected
  · trivial
  · obtain ⟨waiter, _, rfl⟩ := List.mem_map.mp rejected
    trivial

theorem maybeAdvanceCommitIndex (authentic : Authentic standard self) (config : Config Id) :
    Authentic standard (self.maybeAdvanceCommitIndex config) := by
  rw [Node.maybeAdvanceCommitIndex]
  split
  · exact authentic
  · dsimp only
    split
    · exact authentic
    · refine Authentic.emitCommit (Authentic.applyCommitted ?_ config) _
      exact authentic.memory rfl rfl rfl

theorem followCommit (authentic : Authentic standard self) (config : Config Id)
    (leaderCommit : Int) : Authentic standard (self.followCommit config leaderCommit) := by
  rw [Node.followCommit]
  split
  · refine Authentic.applyCommitted ?_ config
    exact authentic.memory rfl rfl rfl
  · exact authentic

/-! ## Requests -/

theorem storeEntries (authentic : Authentic standard self) {entries : List LogEntry}
    (brought : ∀ entry ∈ entries, standard.entry entry) :
    Authentic standard (self.storeEntries entries) := by
  rw [Node.storeEntries]
  dsimp only
  split
  · refine Authentic.write (Authentic.shrink authentic ?_ rfl) ⟨?_, authentic.db.snapshot⟩
    · exact fun row member => List.mem_of_mem_filter member
    · exact fun row member =>
        (Passing.mem_appended member).elim (brought row) (authentic.db.rows row)
  · exact authentic

theorem installSnapshot (authentic : Authentic standard self)
    {body : InstallSnapshot Id machine.Blob} (brought : standard.blob body.data) :
    Authentic standard (self.installSnapshot body) := by
  have emptied : Authentic standard (self.write Database.truncateAll) :=
    authentic.shrink (fun row member => nomatch member) rfl
  have discarded : Authentic standard
      (self.discardLog body.lastIncludedIndex body.lastIncludedTerm) := by
    rw [Node.discardLog]
    split
    · split
      · exact authentic.shrink (fun row member => List.mem_of_mem_filter member) rfl
      · exact emptied
    · exact emptied
  have saved : Authentic standard
      ((self.discardLog body.lastIncludedIndex body.lastIncludedTerm).write fun db =>
        db.saveSnapshot body.lastIncludedIndex body.lastIncludedTerm body.data) :=
    discarded.write ⟨discarded.db.rows, fun snap held => Option.some.inj held ▸ brought⟩
  refine Authentic.emit ?_ brought
  exact ⟨saved.db, standard.restoreSnapshot _ brought, saved.effects⟩

variable [DecidableEq Id]

theorem handleRequestVote (authentic : Authentic standard self) (body : RequestVote Id) :
    Authentic standard (self.handleRequestVote body).1 := by
  have raised : Authentic standard
      (if self.currentTerm < body.term then self.becomeFollower body.term none else self) := by
    split
    · exact authentic.becomeFollower _ none
    · exact authentic
  rw [Node.handleRequestVote]
  dsimp only
  generalize (if self.currentTerm < body.term then self.becomeFollower body.term none
    else self) = follower at *
  split
  · exact raised
  · split
    · exact raised
    · split
      · exact raised
      · have saved : Authentic standard
            (Node.write { follower with votedFor := some body.candidateId } fun db =>
              db.saveTermAndVote follower.currentTerm (some body.candidateId)) := by
          refine Authentic.write ?_ ⟨raised.db.rows, raised.db.snapshot⟩
          exact raised.memory rfl rfl rfl
        exact { saved with }

theorem handle (authentic : Authentic standard self) (config : Config Id)
    {request : Request Id machine.Blob} (brought : standard.Request request) :
    Authentic standard (self.handle config request).1 := by
  cases request with
  | requestVote body => exact authentic.handleRequestVote body
  | appendEntries body =>
      have followed := authentic.followLeader body.term body.leaderId
      simp only [Node.handle, handleAppendEntries]
      split
      · exact authentic
      · split
        · exact (followed.storeEntries brought).followCommit config _
        · exact followed
  | installSnapshot body =>
      have followed := authentic.followLeader body.term body.leaderId
      simp only [Node.handle, handleInstallSnapshot]
      split
      · exact authentic
      · split
        · exact followed
        · exact followed.installSnapshot brought

/-! ## Client writes and elections -/

omit [DecidableEq Id] in
theorem appendLocal (authentic : Authentic standard self) {type : EntryType} {payload : Json}
    (submitted : ∀ index term, standard.entry { index, term, type, payload }) :
    Authentic standard (self.appendLocal type payload).1 := by
  let entry : LogEntry :=
    { index := self.db.lastIndex + 1, term := self.currentTerm, type, payload }
  show Authentic standard (self.write fun db => db.appendEntries [entry])
  refine authentic.write ⟨fun row member => ?_, authentic.db.snapshot⟩
  rcases LogTable.mem_foldl_replace member with new | old
  · rw [List.mem_singleton.mp new]
    exact submitted _ _
  · exact authentic.db.rows row old

omit [DecidableEq Id] in
theorem submit (authentic : Authentic standard self) (id : Nat) {type : EntryType}
    {payload : Json} (submitted : ∀ index term, standard.entry { index, term, type, payload }) :
    Authentic standard (self.submit config id type payload) := by
  rw [Node.submit]
  split
  · exact authentic.emit trivial
  · split
    · exact authentic.emit trivial
    · have sent : Authentic standard
          ((self.appendLocal type payload).1.sendAppendEntriesToAll config) :=
        (authentic.appendLocal submitted).sendAppendEntriesToAll
      dsimp only
      split
      · exact sent.memory rfl rfl rfl
      · exact sent.emit trivial
      · exact sent.memory rfl rfl rfl

theorem becomeLeader (authentic : Authentic standard self) :
    Authentic standard (self.becomeLeader config) := by
  have elected : Authentic standard (Node.emit
      { self with
        electionTimer := false
        role := .leader
        leaderId := some config.replicaId
        nextIndex := fun peer =>
          if peer ∈ config.peers then some (self.db.lastIndex + 1) else none
        matchIndex := fun peer => if peer ∈ config.peers then some (-1) else none }
      (.role .leader self.currentTerm)) := by
    refine Authentic.emit ?_ trivial
    exact { authentic with }
  have sent : Authentic standard
      (Node.sendAppendEntriesToAll config (Node.appendLocal _ .noop .null).1) :=
    (elected.appendLocal standard.noop).sendAppendEntriesToAll
  exact { sent with }

/-! ## Resumed operations -/

theorem finishElection (authentic : Authentic standard self) (config : Config Id)
    (termAtStart : Nat) (results : List (Option Reply)) :
    Authentic standard (self.finishElection config termAtStart results) := by
  rw [Node.finishElection]
  split
  · exact authentic
  · split
    · exact authentic.becomeFollower _ none
    · split
      · exact authentic.becomeLeader
      · exact authentic

theorem finishAppendEntries (authentic : Authentic standard self) (config : Config Id)
    (peer : Id) (next prevLogIndex : Int) (entries : List LogEntry) (result : Option Reply) :
    Authentic standard
      (self.finishAppendEntries config peer next prevLogIndex entries result) := by
  cases result with
  | none => exact authentic
  | some body =>
      simp only [Node.finishAppendEntries]
      split
      · exact authentic
      · split
        · exact authentic.becomeFollower _ none
        · split
          · refine Authentic.maybeAdvanceCommitIndex ?_ config
            exact authentic.memory rfl rfl rfl
          · exact authentic.memory rfl rfl rfl

theorem finishInstallSnapshot (authentic : Authentic standard self) (peer : Id)
    (lastIncludedIndex : Int) (result : Option Reply) :
    Authentic standard (self.finishInstallSnapshot peer lastIncludedIndex result) := by
  cases result with
  | none => exact authentic
  | some body =>
      simp only [Node.finishInstallSnapshot]
      split
      · exact authentic
      · split
        · exact authentic.becomeFollower _ none
        · exact authentic.memory rfl rfl rfl

omit [DecidableEq Id] in
theorem finishReadIndex (authentic : Authentic standard self) (config : Config Id)
    (id : Nat) (readIdx : Int) (termAtStart : Nat) (results : List (Option Reply)) :
    Authentic standard (self.finishReadIndex config id readIdx termAtStart results) := by
  rw [Node.finishReadIndex]
  split
  · exact (authentic.becomeFollower _ none).emit trivial
  · split
    · exact authentic.emit trivial
    · split
      · exact authentic.emit trivial
      · exact authentic.awaitApplied _

omit [DecidableEq Id] in
theorem resumeSubmit (authentic : Authentic standard self) (id : Nat) :
    Authentic standard (self.resumeSubmit id) := by
  rw [Node.resumeSubmit]
  split
  · exact authentic
  · have taken : Authentic standard { self with
        resumable := self.resumable.filter fun other => other.id ≠ id } :=
      authentic.memory rfl rfl rfl
    dsimp only
    split
    · split <;> exact taken.emit trivial
    · exact taken.emit trivial

omit [DecidableEq Id] in
theorem submitTimeout (authentic : Authentic standard self) (id : Nat) :
    Authentic standard (self.submitTimeout id) := by
  rw [Node.submitTimeout]
  split
  · exact authentic
  · have taken : Authentic standard { self with
        commitListeners := self.commitListeners.filter fun other => other.id ≠ id } :=
      authentic.memory rfl rfl rfl
    dsimp only
    split
    · exact taken.emit trivial
    · exact taken

omit [DecidableEq Id] in
theorem pollRead (authentic : Authentic standard self) (id : Nat) :
    Authentic standard (self.pollRead id) := by
  rw [Node.pollRead]
  split
  · exact authentic
  · refine Authentic.awaitApplied ?_ _
    exact authentic.memory rfl rfl rfl

omit [DecidableEq Id] in
theorem start {db : Database Id machine.Blob} (held : standard.Database db) :
    Authentic standard (.start db : Node Id machine) := by
  rw [Node.start]
  refine Authentic.becomeFollower ?_ _ none
  split
  next snap found =>
      exact ⟨held, standard.restoreSnapshot _ (held.snapshot snap found), by simp⟩
  next => exact ⟨held, standard.init, by simp⟩

/-- Whatever reaches a node, it stays authentic if what it is brought is. -/
theorem respond (authentic : Authentic standard self) {stimulus : Stimulus Id machine.Blob}
    (submitted : ∀ id type payload, stimulus = .submit id type payload →
      ∀ index term, standard.entry { index, term, type, payload })
    (brought : ∀ request, stimulus = .request request → standard.Request request)
    (restarts : ∀ db, stimulus = .restart db → standard.Database db) :
    Authentic standard (self.respond config stimulus) := by
  cases stimulus with
  | electionTimeout => exact authentic.startElection
  | heartbeat => exact authentic.sendAppendEntriesToAll
  | submit id type payload => exact authentic.submit id (submitted id type payload rfl)
  | readIndex id => exact authentic.startReadIndex id
  | request request => exact authentic.handle config (brought request rfl)
  | resume await results =>
      cases await with
      | election => exact authentic.finishElection config _ _
      | appendEntries => exact authentic.finishAppendEntries config _ _ _ _ _
      | installSnapshot => exact authentic.finishInstallSnapshot _ _ _
      | readIndex => exact authentic.finishReadIndex config _ _ _ _
  | resumeSubmit id => exact authentic.resumeSubmit id
  | submitTimeout id => exact authentic.submitTimeout id
  | pollRead id => exact authentic.pollRead id
  | restart db => exact .start (restarts db rfl)

end Authentic

end Node

end RaftCanvas
