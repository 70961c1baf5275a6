import RaftCanvas.Raft.Forward

/-!
# What a handler does about reads

A `readIndex` call sends a probe, waits until a majority has answered it, and then until
the state machine has caught up.  Only the method itself touches any of this.
-/

namespace RaftCanvas

/-- The effect calls no read and sends no probe, and a read that returns is `known` and
reports `applied`. -/
def Effect.Serves {Id Blob : Type} (known : Reading → Prop) (applied : Int) :
    Effect Id Blob → Prop
  | .event (.readCalled _) => False
  | .event (.readReturned id readIdx term lastApplied) =>
      known { id, readIdx, term } ∧ readIdx ≤ lastApplied ∧ lastApplied = applied
  | .event _ | .write _ => True
  | .send call => ∀ id readIdx term, call.await ≠ .readIndex id readIdx term

namespace Node

variable {Id : Type} {machine : Machine}

/-- In the course of a handler: the reads that wait are `known`, and so are those that
have returned. -/
structure Attending (known : Reading → Prop) (applied : Int) (node : Node Id machine) :
    Prop where
  reading : ∀ read ∈ node.reading, known read
  effects : ∀ effect ∈ node.trace, effect.Serves known applied

namespace Attending

variable {config : Config Id} {known : Reading → Prop} {applied : Int}
  {self after : Node Id machine}

theorem more (attending : Attending known applied self)
    {more : List (Effect Id machine.Blob)} (reading : after.reading = self.reading)
    (trace : after.trace = self.trace ++ more)
    (serves : ∀ effect ∈ more, effect.Serves known applied) :
    Attending known applied after where
  reading := reading ▸ attending.reading
  effects effect member := by
    rw [trace, List.mem_append] at member
    exact member.elim (attending.effects effect) (serves effect)

/-- Other parts of the memory change. -/
theorem memory (attending : Attending known applied self)
    (reading : after.reading = self.reading) (trace : after.trace = self.trace) :
    Attending known applied after :=
  ⟨reading ▸ attending.reading, trace ▸ attending.effects⟩

theorem write (attending : Attending known applied self)
    (transaction : Database Id machine.Blob → Database Id machine.Blob) :
    Attending known applied (self.write transaction) :=
  attending.more rfl rfl (by simp [Effect.Serves])

theorem emit (attending : Attending known applied self) {event : Event machine.Blob}
    (serves : (.event event : Effect Id machine.Blob).Serves known applied) :
    Attending known applied (self.emit event) :=
  attending.more rfl rfl (by simpa using serves)

theorem send (attending : Attending known applied self) {call : Call Id machine.Blob}
    (quiet : ∀ id readIdx term, call.await ≠ .readIndex id readIdx term) :
    Attending known applied (self.send call) :=
  attending.more rfl rfl (by simpa [Effect.Serves] using quiet)

/-! ## Role transitions -/

theorem becomeFollower (attending : Attending known applied self) (term : Nat)
    (leaderId : Option Id) : Attending known applied (self.becomeFollower term leaderId) := by
  rw [Node.becomeFollower]
  refine Attending.emit ?_ trivial
  dsimp only
  split
  · exact attending.more rfl rfl (by simp [Effect.Serves])
  · exact { attending with }

theorem followLeader (attending : Attending known applied self) (term : Nat) (leaderId : Id) :
    Attending known applied (self.followLeader term leaderId) := by
  rw [Node.followLeader]
  split
  · exact attending.becomeFollower term _
  · exact { attending with }

theorem startElection (attending : Attending known applied self) :
    Attending known applied (self.startElection config) := by
  have stood : Attending known applied (self.becomeCandidate config) :=
    attending.more rfl (List.append_assoc _ _ _) (by simp [Effect.Serves])
  have armed : Attending known applied
      { self.becomeCandidate config with electionTimer := true } := { stood with }
  exact armed.send nofun

/-! ## Sending -/

theorem sendAppendEntriesTo (attending : Attending known applied self) (peer : Id) :
    Attending known applied (self.sendAppendEntriesTo config peer) := by
  rw [Node.sendAppendEntriesTo]
  split
  next call asked =>
      refine attending.send fun id readIdx term => ?_
      simp only [appendEntriesCall, installSnapshotCall] at asked
      split at asked
      · simp at asked
      · split at asked
        · obtain ⟨snap, _, rfl⟩ := Option.map_eq_some_iff.mp asked
          exact fun leaves => by cases leaves
        · obtain rfl := Option.some.inj asked
          exact fun leaves => by cases leaves
  · exact attending

theorem sendAppendEntriesToAll (attending : Attending known applied self) :
    Attending known applied (self.sendAppendEntriesToAll config) := by
  rw [Node.sendAppendEntriesToAll]
  split
  · exact attending
  · suffices each : ∀ (peers : List Id) (node : Node Id machine),
        Attending known applied node →
          Attending known applied (peers.foldl (Node.sendAppendEntriesTo config) node) from
      each config.peers self attending
    intro peers
    induction peers with
    | nil => exact fun _ kept => kept
    | cons peer rest ih => exact fun node kept => ih _ (kept.sendAppendEntriesTo peer)

theorem submit (attending : Attending known applied self) (id : Nat) (type : EntryType)
    (payload : Json) : Attending known applied (self.submit config id type payload) := by
  rw [Node.submit]
  split
  · exact attending.emit trivial
  · split
    · exact attending.emit trivial
    · have sent : Attending known applied
          ((self.appendLocal type payload).1.sendAppendEntriesToAll config) :=
        (attending.write fun db => db.appendEntries [_]).sendAppendEntriesToAll
      dsimp only
      split
      · exact sent.memory rfl rfl
      · exact sent.emit trivial
      · exact sent.memory rfl rfl

/-! ## Committing -/

theorem applyLoop (attending : Attending known applied self) (fuel : Nat) :
    Attending known applied (Node.applyLoop fuel self) := by
  induction fuel generalizing self with
  | zero => exact attending
  | succ fuel ih =>
      rw [Node.applyLoop]
      split
      · split
        · exact attending
        · refine ih (Attending.emit ?_ trivial)
          exact attending.memory rfl rfl
      · exact attending

theorem maybeSnapshot (attending : Attending known applied self) (config : Config Id) :
    Attending known applied (self.maybeSnapshot config) := by
  rw [Node.maybeSnapshot]
  split
  · exact attending
  · split
    · exact attending
    · split
      · exact attending
      · exact ((attending.write _).write _).emit trivial

theorem applyCommitted (attending : Attending known applied self) (config : Config Id) :
    Attending known applied (self.applyCommitted config) :=
  (attending.applyLoop _).maybeSnapshot config

theorem emitCommit (attending : Attending known applied self) (n : Int) :
    Attending known applied (self.emitCommit n) := by
  refine attending.more rfl rfl fun effect member => ?_
  rcases List.mem_cons.mp member with rfl | rejected
  · trivial
  · obtain ⟨waiter, _, rfl⟩ := List.mem_map.mp rejected
    trivial

theorem maybeAdvanceCommitIndex (attending : Attending known applied self)
    (config : Config Id) : Attending known applied (self.maybeAdvanceCommitIndex config) := by
  rw [Node.maybeAdvanceCommitIndex]
  split
  · exact attending
  · dsimp only
    split
    · exact attending
    · refine Attending.emitCommit (Attending.applyCommitted ?_ config) _
      exact attending.memory rfl rfl

theorem followCommit (attending : Attending known applied self) (config : Config Id)
    (leaderCommit : Int) : Attending known applied (self.followCommit config leaderCommit) := by
  rw [Node.followCommit]
  split
  · refine Attending.applyCommitted ?_ config
    exact attending.memory rfl rfl
  · exact attending

/-! ## Requests -/

theorem storeEntries (attending : Attending known applied self) (entries : List LogEntry) :
    Attending known applied (self.storeEntries entries) := by
  rw [Node.storeEntries]
  dsimp only
  split
  · exact (attending.write _).write _
  · exact attending

theorem installSnapshot (attending : Attending known applied self)
    (body : InstallSnapshot Id machine.Blob) :
    Attending known applied (self.installSnapshot body) := by
  have discarded : Attending known applied
      (self.discardLog body.lastIncludedIndex body.lastIncludedTerm) := by
    rw [Node.discardLog]
    split
    · split <;> exact attending.write _
    · exact attending.write _
  refine Attending.emit ?_ trivial
  exact (discarded.write fun db => db.saveSnapshot body.lastIncludedIndex
    body.lastIncludedTerm body.data).memory rfl rfl

variable [DecidableEq Id]

theorem handleRequestVote (attending : Attending known applied self) (body : RequestVote Id) :
    Attending known applied (self.handleRequestVote body).1 := by
  have raised : Attending known applied
      (if self.currentTerm < body.term then self.becomeFollower body.term none else self) := by
    split
    · exact attending.becomeFollower _ none
    · exact attending
  rw [Node.handleRequestVote]
  dsimp only
  generalize (if self.currentTerm < body.term then self.becomeFollower body.term none
    else self) = follower at *
  split
  · exact raised
  · split
    · exact raised
    · split
      · exact raised
      · exact raised.more rfl rfl (by simp [Effect.Serves])

theorem handle (attending : Attending known applied self) (config : Config Id)
    (request : Request Id machine.Blob) :
    Attending known applied (self.handle config request).1 := by
  cases request with
  | requestVote body => exact attending.handleRequestVote body
  | appendEntries body =>
      have followed := attending.followLeader body.term body.leaderId
      simp only [Node.handle, handleAppendEntries]
      split
      · exact attending
      · split
        · exact (followed.storeEntries body.entries).followCommit config _
        · exact followed
  | installSnapshot body =>
      have followed := attending.followLeader body.term body.leaderId
      simp only [Node.handle, handleInstallSnapshot]
      split
      · exact attending
      · split
        · exact followed
        · exact followed.installSnapshot body

/-! ## Resumed operations -/

theorem becomeLeader (attending : Attending known applied self) :
    Attending known applied (self.becomeLeader config) := by
  have announced : Attending known applied (Node.emit { self with
      electionTimer := false
      role := .leader
      leaderId := some config.replicaId
      nextIndex := fun peer => if peer ∈ config.peers then some (self.db.lastIndex + 1)
        else none
      matchIndex := fun peer => if peer ∈ config.peers then some (-1) else none
      } (.role .leader self.currentTerm)) :=
    attending.more rfl rfl (by simp [Effect.Serves])
  have appended := announced.write fun db => db.appendEntries
    [{ index := self.db.lastIndex + 1, term := self.currentTerm, type := .noop,
       payload := .null }]
  rw [Node.becomeLeader]
  exact (sendAppendEntriesToAll appended).memory rfl rfl

theorem finishElection (attending : Attending known applied self) (termAtStart : Nat)
    (results : List (Option Reply)) :
    Attending known applied (self.finishElection config termAtStart results) := by
  rw [Node.finishElection]
  split
  · exact attending
  · split
    · exact attending.becomeFollower _ none
    · split
      · exact attending.becomeLeader
      · exact attending

theorem finishAppendEntries (attending : Attending known applied self) (config : Config Id)
    (peer : Id) (next prevLogIndex : Int) (entries : List LogEntry) (result : Option Reply) :
    Attending known applied
      (self.finishAppendEntries config peer next prevLogIndex entries result) := by
  cases result with
  | none => exact attending
  | some body =>
      simp only [Node.finishAppendEntries]
      split
      · exact attending
      · split
        · exact attending.becomeFollower _ none
        · split
          · refine Attending.maybeAdvanceCommitIndex ?_ config
            exact attending.memory rfl rfl
          · exact attending.memory rfl rfl

theorem finishInstallSnapshot (attending : Attending known applied self) (peer : Id)
    (lastIncludedIndex : Int) (result : Option Reply) :
    Attending known applied (self.finishInstallSnapshot peer lastIncludedIndex result) := by
  cases result with
  | none => exact attending
  | some body =>
      simp only [Node.finishInstallSnapshot]
      split
      · exact attending
      · split
        · exact attending.becomeFollower _ none
        · exact attending.memory rfl rfl

omit [DecidableEq Id] in
theorem resumeSubmit (attending : Attending known applied self) (id : Nat) :
    Attending known applied (self.resumeSubmit id) := by
  have taken : ∀ event, (.event event : Effect Id machine.Blob).Serves known applied →
      Attending known applied (Node.emit { self with
        resumable := self.resumable.filter fun other => other.id ≠ id } event) := by
    intro event serves
    refine Attending.emit ?_ serves
    exact attending.memory rfl rfl
  rw [Node.resumeSubmit]
  split
  · exact attending
  · dsimp only
    split
    · split <;> exact taken _ trivial
    · exact taken _ trivial

omit [DecidableEq Id] in
theorem submitTimeout (attending : Attending known applied self) (id : Nat) :
    Attending known applied (self.submitTimeout id) := by
  rw [Node.submitTimeout]
  split
  · exact attending
  · dsimp only
    split
    · refine Attending.emit ?_ trivial
      exact attending.memory rfl rfl
    · exact attending.memory rfl rfl

/-! ## Reads -/

omit [DecidableEq Id] in
theorem awaitApplied (attending : Attending known self.lastApplied self) {read : Reading}
    (answers : known read) : Attending known self.lastApplied (self.awaitApplied read) := by
  rw [Node.awaitApplied]
  split
  · refine ⟨fun other member => ?_, attending.effects⟩
    rcases List.mem_append.mp member with old | new
    · exact attending.reading other old
    · exact List.mem_singleton.mp new ▸ answers
  next caught => exact attending.emit ⟨answers, Int.not_lt.mp caught, rfl⟩

omit [DecidableEq Id] in
theorem pollRead (attending : Attending known self.lastApplied self) (id : Nat) :
    Attending known self.lastApplied (self.pollRead id) := by
  rw [Node.pollRead]
  split
  · exact attending
  next read found =>
      have rest : Attending known
          ({ self with reading := self.reading.filter fun other => other.id ≠ id } : Node Id
            machine).lastApplied
          { self with reading := self.reading.filter fun other => other.id ≠ id } :=
        ⟨fun other member => attending.reading other (List.mem_of_mem_filter member),
          attending.effects⟩
      exact rest.awaitApplied (attending.reading read (List.mem_of_find?_eq_some found))

end Attending

/-! ## The steps of a read -/

section Steps

variable {config : Config Id} {self : Node Id machine}

/-- The node still leads in the term the read began in, and a majority that includes it
has answered the probe with success. -/
structure Confirms (config : Config Id) (node : Node Id machine) (termAtStart : Nat)
    (results : List (Option Reply)) : Prop where
  leads : node.role = .leader
  current : node.currentTerm = termAtStart
  counted : ∃ acks, tally Reply.success node.currentTerm results 1 = .count acks ∧
    config.majority ≤ acks

/-- The warm-up check passed, and the probe asks all peers. -/
structure Probes (config : Config Id) (node : Node Id machine) (id : Nat)
    (call : Call Id machine.Blob) : Prop where
  leads : node.role = .leader
  warm : node.commitInSnapshot = true ∨ node.commitIsCurrent = true
  src : call.src = config.replicaId
  targets : call.targets = config.peers
  await : call.await = .readIndex id node.commitIndex node.currentTerm

/-- A read is called: it is turned down at once, or it sends its probe. -/
def Asks (config : Config Id) (node : Node Id machine) (id : Nat)
    (done : List (Effect Id machine.Blob)) : Prop :=
  (∃ code, done = [.event (.readCalled id), .event (.readRejected id code)]) ∨
    ∃ call, Probes config node id call ∧ done = [.event (.readCalled id), .send call]

theorem Asks.events {id : Nat} {done : List (Effect Id machine.Blob)}
    (asks : Asks config self id done) {event : Event machine.Blob}
    (member : event ∈ Effect.events done) :
    event = .readCalled id ∨ ∃ code, event = .readRejected id code := by
  rcases asks with ⟨code, rfl⟩ | ⟨call, _, rfl⟩
  · simp only [Effect.events_cons_event, Effect.events_nil, List.mem_cons,
      List.not_mem_nil, or_false] at member
    exact member.imp_right fun same => ⟨code, same⟩
  · simp only [Effect.events_cons_event, Effect.events_cons_send, Effect.events_nil,
      List.mem_singleton] at member
    exact Or.inl member

theorem startReadIndex_asks (fresh : self.trace = []) (id : Nat) :
    (self.startReadIndex config id).reading = self.reading ∧
      Asks config self id (self.startReadIndex config id).trace := by
  rw [startReadIndex]
  split
  · exact ⟨rfl, Or.inl ⟨.notLeader, by simp [emit, fresh]⟩⟩
  next leads =>
      split
      · exact ⟨rfl, Or.inl ⟨.leaderWarmingUp, by simp [emit, fresh]⟩⟩
      next cold =>
          have warm : self.commitInSnapshot = true ∨ self.commitIsCurrent = true := by
            have checked : ¬((!self.commitInSnapshot && !self.commitIsCurrent) = true) := cold
            simp only [Bool.and_eq_true, Bool.not_eq_true', not_and_or,
              Bool.not_eq_false] at checked
            exact checked
          refine ⟨rfl, Or.inr ⟨_, ?_, by simp only [emit, send, fresh]; rfl⟩⟩
          exact ⟨not_not.mp leads, warm, rfl, rfl, rfl⟩

theorem Attending.finishReadIndex {known : Reading → Prop}
    (attending : Attending known self.lastApplied self) (id : Nat) (readIdx : Int)
    (termAtStart : Nat) (results : List (Option Reply))
    (answers : Confirms config self termAtStart results →
      known { id, readIdx, term := termAtStart }) :
    Attending known self.lastApplied
      (self.finishReadIndex config id readIdx termAtStart results) := by
  rw [Node.finishReadIndex]
  split
  · exact (attending.becomeFollower _ none).emit trivial
  next acks counted =>
      split
      · exact attending.emit trivial
      next enough =>
          split
          · exact attending.emit trivial
          next settled =>
              obtain ⟨leads, current⟩ : self.role = .leader ∧ self.currentTerm = termAtStart := by
                simpa using settled
              exact attending.awaitApplied
                (answers ⟨leads, current, acks, counted, Nat.not_lt.mp enough⟩)

variable [DecidableEq Id]

/-- Whatever reaches a node but a call of `readIndex`, only reads that were waiting and
the one that is confirmed wait afterwards or return. -/
theorem respond_attending (fresh : self.trace = []) {known : Reading → Prop}
    (waiting : ∀ read ∈ self.reading, known read) {stimulus : Stimulus Id machine.Blob}
    (other : ∀ id, stimulus ≠ .readIndex id)
    (confirmed : ∀ id readIdx termAtStart results,
      stimulus = .resume (.readIndex id readIdx termAtStart) results →
        Confirms config self termAtStart results →
          known { id, readIdx, term := termAtStart }) :
    Attending known (self.respond config stimulus).lastApplied
      (self.respond config stimulus) := by
  have began : ∀ applied, Attending known applied self := fun applied =>
    ⟨waiting, fun effect member => by simp [fresh] at member⟩
  cases stimulus with
  | electionTimeout => exact (began _).startElection
  | heartbeat => exact (began _).sendAppendEntriesToAll
  | submit id type payload => exact (began _).submit id type payload
  | readIndex id => exact absurd rfl (other id)
  | request request => exact (began _).handle config request
  | resume await results =>
      cases await with
      | election termAtStart => exact (began _).finishElection termAtStart results
      | appendEntries => exact (began _).finishAppendEntries config _ _ _ _ _
      | installSnapshot => exact (began _).finishInstallSnapshot _ _ _
      | readIndex id readIdx termAtStart =>
          have still := finishReadIndex_still config self id readIdx termAtStart results
          have same : (self.finishReadIndex config id readIdx termAtStart results).lastApplied =
              self.lastApplied := congrArg machine.lastApplied still.2
          simp only [respond, resume]
          rw [same]
          exact (began _).finishReadIndex id readIdx termAtStart results
            (confirmed _ _ _ _ rfl)
  | resumeSubmit id => exact (began _).resumeSubmit id
  | submitTimeout id => exact (began _).submitTimeout id
  | pollRead id =>
      have same : (self.pollRead id).lastApplied = self.lastApplied :=
        congrArg machine.lastApplied (self.pollRead_still id).2
      simp only [respond]
      rw [same]
      exact (began _).pollRead id
  | restart db =>
      have started : (Node.start db : Node Id machine).reading = [] ∧
          ∃ term, (Node.start db : Node Id machine).trace =
            [.event (.role .follower term)] := by
        rw [Node.start]
        dsimp only
        split <;> simp [becomeFollower, emit]
      obtain ⟨empty, term, trace⟩ := started
      exact ⟨fun read member => by simp [respond, empty] at member,
        fun effect member => by simp_all [respond, Effect.Serves]⟩

/-- A request of a stale term is not answered with success. -/
theorem handle_stale {body : AppendEntries Id} (stale : body.term < self.currentTerm) :
    (self.handle config (.appendEntries body)).2.success = false := by
  rw [handle, handleAppendEntries, if_pos stale]

end Steps

end Node

end RaftCanvas
