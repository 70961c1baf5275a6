import RaftCanvas.Raft.Life
import RaftCanvas.Raft.Sqlite

/-!
# What a node does to the world

Whatever reaches it, a node changes its own memory, runs transactions of `Persistence` on
its file, emits events and sends calls; now and then it changes its role or follows a
leader.  A property that survives each of these survives every handler.
-/

namespace RaftCanvas

/-- No change of role. -/
def Event.Ordinary {Blob : Type} : Event Blob → Prop
  | .role _ _ => False
  | _ => True

namespace Node

variable {Id : Type} {machine : Machine}

/-- A node as it takes office. -/
def office (config : Config Id) (self : Node Id machine) (nextIndex matchIndex : Id → Option Int) :
    Node Id machine :=
  { self with
    electionTimer := false
    role := .leader
    leaderId := some config.replicaId
    nextIndex
    matchIndex }.emit (.role .leader self.currentTerm)

/-- The property survives what a node does as a matter of routine. -/
structure Routine (property : Node Id machine → Prop) : Prop where
  memory : ∀ {self after : Node Id machine}, property self → after.db = self.db →
    after.trace = self.trace → after.role = self.role → after.leaderId = self.leaderId →
    property after
  emit : ∀ {self : Node Id machine} {event : Event machine.Blob}, event.Ordinary →
    property self → property (self.emit event)
  send : ∀ {self : Node Id machine} (call : Call Id machine.Blob), property self →
    property (self.send call)
  perform : ∀ {self : Node Id machine} (operation : Operation Id machine.Blob),
    property self → property (self.write fun db => db.perform operation)

/-- It also survives the changes of role, with which handlers begin. -/
structure Steady (config : Config Id) (property : Node Id machine → Prop) : Prop
    extends Routine property where
  becomeFollower : ∀ {self : Node Id machine} (term : Nat), self.trace = [] → property self →
    property (self.becomeFollower term none)
  becomeCandidate : ∀ {self : Node Id machine}, self.trace = [] → property self →
    property (self.becomeCandidate config)
  office : ∀ {self : Node Id machine} (nextIndex matchIndex : Id → Option Int),
    self.trace = [] → self.role = .candidate → property self →
    property (self.office config nextIndex matchIndex)

namespace Routine

variable {property : Node Id machine → Prop} {config : Config Id} {self : Node Id machine}

/-! ## Sending -/

theorem sendAppendEntriesToAll (routine : Routine property) (kept : property self) :
    property (self.sendAppendEntriesToAll config) := by
  rw [Node.sendAppendEntriesToAll]
  split
  · exact kept
  next leads =>
    clear leads
    generalize config.peers = peers
    induction peers generalizing self with
    | nil => exact kept
    | cons peer rest ih =>
        refine ih ?_
        rw [Node.sendAppendEntriesTo]
        split
        · exact routine.send _ kept
        · exact kept

theorem startReadIndex (routine : Routine property) (kept : property self) (id : Nat) :
    property (self.startReadIndex config id) := by
  have called : property (self.emit (.readCalled id)) := routine.emit trivial kept
  rw [Node.startReadIndex]
  split
  · exact routine.emit trivial called
  · split
    · exact routine.emit trivial called
    · exact routine.send _ called

theorem awaitApplied (routine : Routine property) (kept : property self) (read : Reading) :
    property (self.awaitApplied read) := by
  rw [Node.awaitApplied]
  split
  · exact routine.memory kept rfl rfl rfl rfl
  · exact routine.emit trivial kept

/-! ## Committing -/

theorem applyLoop (routine : Routine property) (kept : property self) (fuel : Nat) :
    property (Node.applyLoop fuel self) := by
  induction fuel generalizing self with
  | zero => exact kept
  | succ fuel ih =>
      rw [Node.applyLoop]
      split
      · split
        · exact kept
        · exact ih (routine.emit trivial (routine.memory kept rfl rfl rfl rfl))
      · exact kept

theorem maybeSnapshot (routine : Routine property) (kept : property self)
    (config : Config Id) : property (self.maybeSnapshot config) := by
  rw [Node.maybeSnapshot]
  split
  · exact kept
  · split
    · exact kept
    · split
      · exact kept
      next entry found =>
        have saved := routine.perform (.saveSnapshot self.lastApplied entry.term
          (machine.getSnapshot self.stateMachine)) kept
        exact routine.emit trivial (routine.perform (.truncateUpTo self.lastApplied) saved)

theorem applyCommitted (routine : Routine property) (kept : property self)
    (config : Config Id) : property (self.applyCommitted config) :=
  routine.maybeSnapshot (routine.applyLoop kept _) config

theorem emits (routine : Routine property) (kept : property self)
    {events : List (Event machine.Blob)} (ordinary : ∀ event ∈ events, event.Ordinary) :
    property { self with trace := self.trace ++ events.map .event } := by
  induction events generalizing self with
  | nil => exact routine.memory kept rfl (List.append_nil _) rfl rfl
  | cons event rest ih =>
      have told := routine.emit (ordinary event List.mem_cons_self) kept
      have others := ih told fun other member => ordinary other (List.mem_cons_of_mem _ member)
      exact routine.memory others rfl (by simp [Node.emit]) rfl rfl

theorem emitCommit (routine : Routine property) (kept : property self) (n : Int) :
    property (self.emitCommit n) := by
  let rejected : List (Event machine.Blob) :=
    (self.commitListeners.filter fun waiter => self.check waiter = .lostLeadership).map
      fun waiter => .submitRejected waiter.id .lostLeadership
  have ordinary : ∀ event ∈ .commit n :: rejected, event.Ordinary := by
    intro event member
    rcases List.mem_cons.mp member with rfl | member
    · trivial
    · obtain ⟨waiter, _, rfl⟩ := List.mem_map.mp member
      trivial
  refine routine.memory (routine.emits kept ordinary) rfl ?_ rfl rfl
  rw [List.map_cons, List.map_map]
  rfl

theorem maybeAdvanceCommitIndex (routine : Routine property) (kept : property self)
    (config : Config Id) : property (self.maybeAdvanceCommitIndex config) := by
  rw [Node.maybeAdvanceCommitIndex]
  split
  · exact kept
  · dsimp only
    split
    · exact kept
    · refine routine.emitCommit (routine.applyCommitted ?_ config) _
      exact routine.memory kept rfl rfl rfl rfl

theorem followCommit (routine : Routine property) (kept : property self) (config : Config Id)
    (leaderCommit : Int) : property (self.followCommit config leaderCommit) := by
  rw [Node.followCommit]
  split
  · refine routine.applyCommitted ?_ config
    exact routine.memory kept rfl rfl rfl rfl
  · exact kept

/-! ## Requests and client writes -/

theorem storeEntries (routine : Routine property) (kept : property self)
    (entries : List LogEntry) : property (self.storeEntries entries) := by
  rw [Node.storeEntries]
  dsimp only
  split
  · have cut := routine.perform (.truncateFrom (writeStart self.db entries)) kept
    exact routine.perform (.appendEntries _) cut
  · exact kept

theorem installSnapshot (routine : Routine property) (kept : property self)
    (body : InstallSnapshot Id machine.Blob) : property (self.installSnapshot body) := by
  have discarded : property
      (self.discardLog body.lastIncludedIndex body.lastIncludedTerm) := by
    rw [Node.discardLog]
    split
    · split
      · exact routine.perform (.truncateUpTo body.lastIncludedIndex) kept
      · exact routine.perform .truncateAll kept
    · exact routine.perform .truncateAll kept
  have saved := routine.perform (.saveSnapshot body.lastIncludedIndex body.lastIncludedTerm
    body.data) discarded
  exact routine.emit trivial (routine.memory saved rfl rfl rfl rfl)

theorem appendLocal (routine : Routine property) (kept : property self) (type : EntryType)
    (payload : Json) : property (self.appendLocal type payload).1 :=
  routine.perform (.appendEntries
    [{ index := self.db.lastIndex + 1, term := self.currentTerm, type, payload }]) kept

theorem submit (routine : Routine property) (kept : property self) (id : Nat)
    (type : EntryType) (payload : Json) : property (self.submit config id type payload) := by
  rw [Node.submit]
  split
  · exact routine.emit trivial kept
  · split
    · exact routine.emit trivial kept
    · have sent : property ((self.appendLocal type payload).1.sendAppendEntriesToAll config) :=
        routine.sendAppendEntriesToAll (routine.appendLocal kept type payload)
      dsimp only
      split
      · exact routine.memory sent rfl rfl rfl rfl
      · exact routine.emit trivial sent
      · exact routine.memory sent rfl rfl rfl rfl

theorem resumeSubmit (routine : Routine property) (kept : property self) (id : Nat) :
    property (self.resumeSubmit id) := by
  rw [Node.resumeSubmit]
  split
  · exact kept
  · have taken : property { self with
        resumable := self.resumable.filter fun other => other.id ≠ id } :=
      routine.memory kept rfl rfl rfl rfl
    dsimp only
    split
    · split <;> exact routine.emit trivial taken
    · exact routine.emit trivial taken

theorem submitTimeout (routine : Routine property) (kept : property self) (id : Nat) :
    property (self.submitTimeout id) := by
  rw [Node.submitTimeout]
  split
  · exact kept
  · have taken : property { self with
        commitListeners := self.commitListeners.filter fun other => other.id ≠ id } :=
      routine.memory kept rfl rfl rfl rfl
    dsimp only
    split
    · exact routine.emit trivial taken
    · exact taken

theorem pollRead (routine : Routine property) (kept : property self) (id : Nat) :
    property (self.pollRead id) := by
  rw [Node.pollRead]
  split
  · exact kept
  · refine routine.awaitApplied ?_ _
    exact routine.memory kept rfl rfl rfl rfl

end Routine

namespace Steady

variable {config : Config Id} {property : Node Id machine → Prop} {self : Node Id machine}

theorem startElection (steady : Steady config property) (fresh : self.trace = [])
    (kept : property self) : property (self.startElection config) := by
  have stood := steady.becomeCandidate fresh kept
  refine steady.send _ ?_
  exact steady.memory stood rfl rfl rfl rfl

theorem finishReadIndex (steady : Steady config property) (fresh : self.trace = [])
    (kept : property self) (id : Nat) (readIdx : Int) (termAtStart : Nat) (results : List (Option Reply)) :
    property (self.finishReadIndex config id readIdx termAtStart results) := by
  rw [Node.finishReadIndex]
  split
  · exact steady.emit trivial (steady.becomeFollower _ fresh kept)
  · split
    · exact steady.emit trivial kept
    · split
      · exact steady.emit trivial kept
      · exact steady.awaitApplied kept _

variable [DecidableEq Id]

theorem becomeLeader (steady : Steady config property) (fresh : self.trace = [])
    (stands : self.role = .candidate) (kept : property self) :
    property (self.becomeLeader config) := by
  have elected := steady.office
    (fun peer => if peer ∈ config.peers then some (self.db.lastIndex + 1) else none)
    (fun peer => if peer ∈ config.peers then some (-1) else none) fresh stands kept
  have sent : property (Node.sendAppendEntriesToAll config (Node.appendLocal _ .noop .null).1) :=
    steady.sendAppendEntriesToAll (steady.appendLocal elected .noop .null)
  exact steady.memory sent rfl rfl rfl rfl

theorem finishElection (steady : Steady config property) (fresh : self.trace = [])
    (kept : property self) (termAtStart : Nat) (results : List (Option Reply)) :
    property (self.finishElection config termAtStart results) := by
  rw [Node.finishElection]
  split
  · exact kept
  next active =>
    simp only [not_or, not_not] at active
    split
    · exact steady.becomeFollower _ fresh kept
    · split
      · exact steady.becomeLeader fresh active.2.1 kept
      · exact kept

theorem finishAppendEntries (steady : Steady config property) (fresh : self.trace = [])
    (kept : property self) (peer : Id) (next prevLogIndex : Int) (entries : List LogEntry)
    (result : Option Reply) :
    property (self.finishAppendEntries config peer next prevLogIndex entries result) := by
  cases result with
  | none => exact kept
  | some body =>
      simp only [Node.finishAppendEntries]
      split
      · exact kept
      · split
        · exact steady.becomeFollower _ fresh kept
        · split
          · refine steady.maybeAdvanceCommitIndex ?_ config
            exact steady.memory kept rfl rfl rfl rfl
          · exact steady.memory kept rfl rfl rfl rfl

theorem finishInstallSnapshot (steady : Steady config property) (fresh : self.trace = [])
    (kept : property self) (peer : Id) (lastIncludedIndex : Int) (result : Option Reply) :
    property (self.finishInstallSnapshot peer lastIncludedIndex result) := by
  cases result with
  | none => exact kept
  | some body =>
      simp only [Node.finishInstallSnapshot]
      split
      · exact kept
      · split
        · exact steady.becomeFollower _ fresh kept
        · exact steady.memory kept rfl rfl rfl rfl

theorem handleRequestVote (steady : Steady config property) (fresh : self.trace = [])
    (kept : property self) (body : RequestVote Id) : property (self.handleRequestVote body).1 := by
  have raised : property
      (if self.currentTerm < body.term then self.becomeFollower body.term none else self) := by
    split
    · exact steady.becomeFollower _ fresh kept
    · exact kept
  rw [Node.handleRequestVote]
  dsimp only
  generalize (if self.currentTerm < body.term then self.becomeFollower body.term none
    else self) = follower at *
  split
  · exact raised
  · split
    · exact raised
    · split
      · exact raised
      · have voting : property { follower with votedFor := some body.candidateId } :=
          steady.memory raised rfl rfl rfl rfl
        have saved := steady.perform
          (.saveTermAndVote follower.currentTerm (some body.candidateId)) voting
        exact steady.memory saved rfl rfl rfl rfl

/-- A request of a leader makes the node follow that leader. -/
theorem handle (steady : Steady config property) (fresh : self.trace = [])
    (kept : property self) {request : Request Id machine.Blob}
    (follows : ∀ term leader, request.leader? = some (term, leader) →
      property (self.followLeader term leader)) :
    property (self.handle config request).1 := by
  cases request with
  | requestVote body => exact steady.handleRequestVote fresh kept body
  | appendEntries body =>
      have followed := follows body.term body.leaderId rfl
      simp only [Node.handle, handleAppendEntries]
      split
      · exact kept
      · split
        · exact steady.followCommit (steady.storeEntries followed _) config _
        · exact followed
  | installSnapshot body =>
      have followed := follows body.term body.leaderId rfl
      simp only [Node.handle, handleInstallSnapshot]
      split
      · exact kept
      · split
        · exact followed
        · exact steady.installSnapshot followed _

/-- Whatever reaches a running node, the property survives. -/
theorem respond (steady : Steady config property) (fresh : self.trace = [])
    (kept : property self) {stimulus : Stimulus Id machine.Blob} (lives : ∀ db, stimulus ≠ .restart db)
    (follows : ∀ request, stimulus = .request request → ∀ term leader,
      request.leader? = some (term, leader) → property (self.followLeader term leader)) :
    property (self.respond config stimulus) := by
  cases stimulus with
  | electionTimeout => exact steady.startElection fresh kept
  | heartbeat => exact steady.sendAppendEntriesToAll kept
  | submit id type payload => exact steady.submit kept id type payload
  | readIndex id => exact steady.startReadIndex kept id
  | request request => exact steady.handle fresh kept (follows request rfl)
  | resume await results =>
      cases await with
      | election => exact steady.finishElection fresh kept _ _
      | appendEntries => exact steady.finishAppendEntries fresh kept _ _ _ _ _
      | installSnapshot => exact steady.finishInstallSnapshot fresh kept _ _ _
      | readIndex => exact steady.finishReadIndex fresh kept _ _ _ _
  | resumeSubmit id => exact steady.resumeSubmit kept id
  | submitTimeout id => exact steady.submitTimeout kept id
  | pollRead id => exact steady.pollRead kept id
  | restart db => exact absurd rfl (lives db)

end Steady

/-- The property is one of the file and the effects alone. -/
structure Effective (property : Node Id machine → Prop) : Prop where
  memory : ∀ {self after : Node Id machine}, property self → after.db = self.db →
    after.trace = self.trace → property after
  emit : ∀ {self : Node Id machine} (event : Event machine.Blob), property self →
    property (self.emit event)
  send : ∀ {self : Node Id machine} (call : Call Id machine.Blob), property self →
    property (self.send call)
  perform : ∀ {self : Node Id machine} (operation : Operation Id machine.Blob),
    property self → property (self.write fun db => db.perform operation)

namespace Effective

variable {property : Node Id machine → Prop} {config : Config Id} {self : Node Id machine}

theorem becomeFollower (effective : Effective property) (kept : property self) (term : Nat)
    (leaderId : Option Id) : property (self.becomeFollower term leaderId) := by
  rw [Node.becomeFollower]
  refine effective.emit _ ?_
  dsimp only
  split
  · have raised : property
        { self with
          heartbeatTimer := false
          role := .follower
          currentTerm := term
          votedFor := none } := effective.memory kept rfl rfl
    exact effective.memory (effective.perform (.saveTermAndVote term none) raised) rfl rfl
  · exact effective.memory kept rfl rfl

theorem followLeader (effective : Effective property) (kept : property self) (term : Nat)
    (leaderId : Id) : property (self.followLeader term leaderId) := by
  rw [Node.followLeader]
  split
  · exact effective.becomeFollower kept term _
  · exact effective.memory kept rfl rfl

/-- Then no change of role matters. -/
theorem steady (effective : Effective property) : Steady config property where
  memory kept db trace _ _ := effective.memory kept db trace
  emit _ kept := effective.emit _ kept
  send := effective.send
  perform := effective.perform
  becomeFollower term _ kept := effective.becomeFollower kept term none
  becomeCandidate {self} _ kept := by
    have standing : property
        { self with
          role := .candidate
          currentTerm := self.currentTerm + 1
          votedFor := some config.replicaId } := effective.memory kept rfl rfl
    have saved := effective.perform
      (.saveTermAndVote (self.currentTerm + 1) (some config.replicaId)) standing
    exact effective.emit _ (effective.memory saved rfl rfl)
  office nextIndex matchIndex _ _ kept := effective.emit _ (effective.memory kept rfl rfl)

end Effective

end Node

end RaftCanvas
