import RaftCanvas.Raft.RaftNode

/-!
# What a handler does to a node's vote

Of all the methods only three write the term and the vote, and one announces a
leader.  `Canvass` collects what holds of the votes at every point of a handler; the
methods that do not vote keep it because they only append harmless effects.
-/

namespace RaftCanvas

namespace Database

variable {Id Blob : Type}

/-- The file records the vote for `choice` in `era`, or a later term. -/
def Voted (db : Database Id Blob) (era : Nat) (choice : Id) : Prop :=
  era < db.currentTerm ∨ era = db.currentTerm ∧ db.votedFor = some choice

/-- Terms only grow and a vote is never changed within its term. -/
def VoteLe (before after : Database Id Blob) : Prop :=
  before.currentTerm < after.currentTerm ∨
    before.currentTerm = after.currentTerm ∧
      (before.votedFor = none ∨ after.votedFor = before.votedFor)

theorem VoteLe.of_eq {before after : Database Id Blob}
    (term : after.currentTerm = before.currentTerm)
    (vote : after.votedFor = before.votedFor) : before.VoteLe after :=
  Or.inr ⟨term.symm, Or.inr vote⟩

theorem VoteLe.refl (db : Database Id Blob) : db.VoteLe db :=
  .of_eq rfl rfl

theorem VoteLe.trans {first second third : Database Id Blob}
    (left : first.VoteLe second) (right : second.VoteLe third) :
    first.VoteLe third := by
  simp only [VoteLe] at *
  grind

theorem VoteLe.current_le {before after : Database Id Blob}
    (forward : before.VoteLe after) : before.currentTerm ≤ after.currentTerm := by
  rcases forward with later | ⟨same, _⟩ <;> omega

theorem Voted.mono {before after : Database Id Blob} (forward : before.VoteLe after)
    {era : Nat} {choice : Id} (voted : before.Voted era choice) :
    after.Voted era choice := by
  simp only [VoteLe, Voted] at *
  grind

/-- Within one term a file records one vote. -/
theorem Voted.unique {db : Database Id Blob} {left right : Id}
    (leftVoted : db.Voted db.currentTerm left)
    (rightVoted : db.Voted db.currentTerm right) : left = right := by
  simp only [Voted] at *
  grind

end Database

/-- The terms for which a list of events announces a leader. -/
def leaderTerms {Blob : Type} (events : List (Event Blob)) : List Nat :=
  events.filterMap fun
    | .role .leader term => some term
    | _ => none

namespace Event

variable {Blob : Type}

/-- Neither a candidacy nor an election. -/
def Neutral : Event Blob → Prop
  | .role .candidate _ | .role .leader _ => False
  | _ => True

end Event

@[simp] theorem leaderTerms_append {Blob : Type} (left right : List (Event Blob)) :
    leaderTerms (left ++ right) = leaderTerms left ++ leaderTerms right :=
  List.filterMap_append

@[simp] theorem leaderTerms_nil {Blob : Type} :
    leaderTerms ([] : List (Event Blob)) = [] := rfl

@[simp] theorem leaderTerms_cons_leader {Blob : Type} (term : Nat)
    (rest : List (Event Blob)) :
    leaderTerms (.role .leader term :: rest) = term :: leaderTerms rest := rfl

@[simp] theorem leaderTerms_cons_candidate {Blob : Type} (term : Nat)
    (rest : List (Event Blob)) :
    leaderTerms (.role .candidate term :: rest) = leaderTerms rest := rfl

theorem leaderTerms_neutral {Blob : Type} {event : Event Blob}
    (neutral : event.Neutral) : leaderTerms [event] = [] := by
  cases event with
  | role role term => cases role <;> simp_all [Event.Neutral, leaderTerms]
  | _ => rfl

/-- A call that awaits an election asks all peers to vote for its sender. -/
def Solicits {Id Blob : Type} (config : Config Id) (call : Call Id Blob) : Prop :=
  ∀ era, call.await = .election era → ∃ body,
    call.request = .requestVote body ∧ body.term = era ∧
      body.candidateId = config.replicaId ∧ call.targets = config.peers

namespace Node

variable {Id : Type} {machine : Machine}

/-- What the effects so far, begun on `before`, have done to the vote. -/
def Ballots (config : Config Id) (before : Database Id machine.Blob)
    (done : List (Effect Id machine.Blob)) : Prop :=
  before.VoteLe (Effect.file before done) ∧
    ∀ era, .role .candidate era ∈ Effect.events done →
      before.currentTerm < era ∧ (Effect.file before done).Voted era config.replicaId

/-- The votes in the course of a handler begun in `before`; `wins` lists the terms
it has announced itself leader of. -/
structure Canvass (config : Config Id) (before : Node Id machine) (wins : List Nat)
    (after : Node Id machine) : Prop where
  term : after.currentTerm = after.db.currentTerm
  vote : after.votedFor = after.db.votedFor
  file : after.db = Effect.file before.db after.trace
  cuts : Effect.Always (Ballots config before.db) after.trace
  role : after.role = .candidate → wins = [] ∧
    (before.role = .candidate ∧ after.currentTerm = before.currentTerm ∨
      .role .candidate after.currentTerm ∈ Effect.events after.trace)
  wins : leaderTerms (Effect.events after.trace) = wins
  solicits : ∀ call ∈ Effect.sends after.trace,
    call.src = config.replicaId ∧ Solicits config call

/-- What an election that was won has counted. -/
def Won (config : Config Id) (self : Node Id machine) (termAtStart : Nat)
    (results : List (Option Reply)) : Prop :=
  self.role = .candidate ∧ self.currentTerm = termAtStart ∧
    ∃ votes, tally Reply.voteGranted self.currentTerm results 1 = .count votes ∧
      config.majority ≤ votes

namespace Canvass

variable {config : Config Id} {before self : Node Id machine} {wins : List Nat}

theorem start (term : before.currentTerm = before.db.currentTerm)
    (vote : before.votedFor = before.db.votedFor) (fresh : before.trace = []) :
    Canvass config before [] before where
  term := term
  vote := vote
  file := by simp [fresh]
  cuts := by simp [fresh, Ballots, Database.VoteLe.refl]
  role running := ⟨rfl, Or.inl ⟨running, rfl⟩⟩
  wins := by simp [fresh]
  solicits := by simp [fresh]

/-- A transaction on the log or the snapshot. -/
theorem write (canvass : Canvass config before wins self)
    (transaction : Database Id machine.Blob → Database Id machine.Blob)
    (term : (transaction self.db).currentTerm = self.db.currentTerm)
    (vote : (transaction self.db).votedFor = self.db.votedFor) :
    Canvass config before wins (self.write transaction) where
  term := canvass.term.trans term.symm
  vote := canvass.vote.trans vote.symm
  file := by simp [Node.write]
  cuts := by
    obtain ⟨forward, candidacy⟩ := canvass.cuts.self
    rw [← canvass.file] at forward candidacy
    have step : self.db.VoteLe (transaction self.db) := .of_eq term vote
    refine Effect.always_concat.mpr ⟨canvass.cuts, ?_⟩
    simp only [Ballots, Effect.file_append, Effect.file_cons_write, Effect.file_nil]
    refine ⟨forward.trans step, fun era seen => ?_⟩
    obtain ⟨later, voted⟩ := candidacy era (by simpa using seen)
    exact ⟨later, voted.mono step⟩
  role running := by simpa [Node.write] using canvass.role running
  wins := by simpa [Node.write] using canvass.wins
  solicits := by simpa [Node.write] using canvass.solicits

theorem emit (canvass : Canvass config before wins self) {event : Event machine.Blob}
    (neutral : event.Neutral) : Canvass config before wins (self.emit event) where
  term := canvass.term
  vote := canvass.vote
  file := by simpa [Node.emit] using canvass.file
  cuts := by
    obtain ⟨forward, candidacy⟩ := canvass.cuts.self
    refine Effect.always_concat.mpr ⟨canvass.cuts, ?_⟩
    simp only [Ballots, Effect.file_append, Effect.file_cons_event, Effect.file_nil]
    refine ⟨forward, fun era seen => candidacy era ?_⟩
    simp only [Effect.events_append, Effect.events_cons_event, Effect.events_nil, List.mem_append,
      List.mem_singleton] at seen
    rcases seen with seen | rfl
    · exact seen
    · exact neutral.elim
  role running := by
    obtain ⟨none_won, origin⟩ := canvass.role running
    exact ⟨none_won, origin.imp id fun seen => by simp [Node.emit, seen]⟩
  wins := by simp [Node.emit, leaderTerms_neutral neutral, canvass.wins]
  solicits := by simpa [Node.emit] using canvass.solicits

theorem send (canvass : Canvass config before wins self)
    {call : Call Id machine.Blob} (src : call.src = config.replicaId)
    (solicits : Solicits config call) : Canvass config before wins (self.send call) where
  term := canvass.term
  vote := canvass.vote
  file := by simpa [Node.send] using canvass.file
  cuts := by
    obtain ⟨forward, candidacy⟩ := canvass.cuts.self
    refine Effect.always_concat.mpr ⟨canvass.cuts, ?_⟩
    simp only [Ballots, Effect.file_append, Effect.file_cons_send, Effect.file_nil]
    exact ⟨forward, fun era seen => candidacy era (by simpa using seen)⟩
  role running := by simpa [Node.send] using canvass.role running
  wins := by simpa [Node.send] using canvass.wins
  solicits asked member := by
    simp only [Node.send, Effect.sends_append, Effect.sends_cons_send, Effect.sends_nil, List.mem_append,
      List.mem_singleton] at member
    rcases member with member | rfl
    · exact canvass.solicits asked member
    · exact ⟨src, solicits⟩

/-- Recording a vote together with its term, in memory and in the file. -/
theorem save (canvass : Canvass config before wins self) (term : Nat)
    (votedFor : Option Id) (kept : self.role = .candidate → term = self.currentTerm)
    (forward : self.db.VoteLe (self.db.saveTermAndVote term votedFor)) :
    Canvass config before wins
      (Node.write { self with currentTerm := term, votedFor }
        fun db => db.saveTermAndVote term votedFor) where
  term := rfl
  vote := rfl
  file := by simp [Node.write]
  cuts := by
    obtain ⟨soFar, candidacy⟩ := canvass.cuts.self
    rw [← canvass.file] at soFar candidacy
    refine Effect.always_concat.mpr ⟨canvass.cuts, ?_⟩
    simp only [Ballots, Effect.file_append, Effect.file_cons_write, Effect.file_nil]
    refine ⟨soFar.trans forward, fun era seen => ?_⟩
    obtain ⟨later, voted⟩ := candidacy era (by simpa using seen)
    exact ⟨later, voted.mono forward⟩
  role running := by
    obtain rfl := kept running
    simpa [Node.write] using canvass.role running
  wins := by simpa [Node.write] using canvass.wins
  solicits := by simpa [Node.write] using canvass.solicits

/-! ## Methods that do not vote -/

theorem becomeFollower (canvass : Canvass config before wins self) (term : Nat)
    (leaderId : Option Id) :
    Canvass config before wins (self.becomeFollower term leaderId) := by
  have follower : Canvass config before wins
      { self with heartbeatTimer := false, role := .follower } :=
    { canvass with role := fun running => nomatch running }
  rw [Node.becomeFollower]
  refine Canvass.emit ?_ trivial
  split
  next higher =>
      have saved := follower.save term none
        (fun running => nomatch running) (Or.inl (canvass.term ▸ higher))
      exact { saved with }
  next => exact { follower with }

theorem appendLocal (canvass : Canvass config before wins self) (type : EntryType)
    (payload : Json) : Canvass config before wins (self.appendLocal type payload).1 :=
  canvass.write (fun db => db.appendEntries [_]) rfl rfl

theorem sendAppendEntriesTo (canvass : Canvass config before wins self) (peer : Id) :
    Canvass config before wins (self.sendAppendEntriesTo config peer) := by
  rw [Node.sendAppendEntriesTo]
  split
  next call asked =>
      suffices shape : call.src = config.replicaId ∧ ∀ era, call.await ≠ .election era from
        canvass.send shape.1 fun era awaits => absurd awaits (shape.2 era)
      simp only [Node.appendEntriesCall, Node.installSnapshotCall] at asked
      split at asked
      · simp at asked
      · split at asked
        · obtain ⟨snap, _, rfl⟩ := Option.map_eq_some_iff.mp asked
          simp
        · obtain rfl := Option.some.inj asked
          simp
  next => exact canvass

theorem sendAppendEntriesToAll (canvass : Canvass config before wins self) :
    Canvass config before wins (self.sendAppendEntriesToAll config) := by
  rw [Node.sendAppendEntriesToAll]
  split
  next => exact canvass
  next =>
      suffices each : ∀ peers : List Id, ∀ node, Canvass config before wins node →
          Canvass config before wins (peers.foldl (Node.sendAppendEntriesTo config) node) from
        each config.peers self canvass
      intro peers
      induction peers with
      | nil => exact fun _ kept => kept
      | cons peer rest ih => exact fun node kept => ih _ (kept.sendAppendEntriesTo peer)

theorem applyLoop (canvass : Canvass config before wins self) (fuel : Nat) :
    Canvass config before wins (Node.applyLoop fuel self) := by
  induction fuel generalizing self with
  | zero => exact canvass
  | succ fuel ih =>
      rw [Node.applyLoop]
      split
      · split
        · exact canvass
        next entry _ =>
            have applied : Canvass config before wins
                { self with stateMachine := machine.apply self.stateMachine entry } :=
              { canvass with }
            exact ih (applied.emit trivial)
      · exact canvass

theorem maybeSnapshot (canvass : Canvass config before wins self) :
    Canvass config before wins (self.maybeSnapshot config) := by
  rw [Node.maybeSnapshot]
  split
  · exact canvass
  · split
    · exact canvass
    · split
      · exact canvass
      · exact ((canvass.write _ rfl rfl).write _ rfl rfl).emit trivial

theorem applyCommitted (canvass : Canvass config before wins self) :
    Canvass config before wins (self.applyCommitted config) :=
  (canvass.applyLoop _).maybeSnapshot

/-- Emitting several events in a row. -/
theorem emits (canvass : Canvass config before wins self)
    (events : List (Event machine.Blob)) (neutral : ∀ event ∈ events, event.Neutral) :
    Canvass config before wins
      { self with trace := self.trace ++ events.map .event } := by
  induction events generalizing self with
  | nil => simpa using canvass
  | cons event rest ih =>
      have first := canvass.emit (neutral event (by simp))
      have others := ih first fun later member => neutral later (by simp [member])
      simpa [Node.emit] using others

theorem emitCommit (canvass : Canvass config before wins self) (n : Int) :
    Canvass config before wins (self.emitCommit n) := by
  have emitted := canvass.emits
    (.commit n :: (self.commitListeners.filter fun waiter =>
      self.check waiter = .lostLeadership).map fun waiter =>
        .submitRejected waiter.id .lostLeadership)
    (by
      intro event member
      simp only [List.mem_cons, List.mem_map] at member
      rcases member with rfl | ⟨waiter, _, rfl⟩ <;> trivial)
  simp only [List.map_cons, List.map_map] at emitted
  exact { emitted with }

theorem maybeAdvanceCommitIndex (canvass : Canvass config before wins self) :
    Canvass config before wins (self.maybeAdvanceCommitIndex config) := by
  rw [Node.maybeAdvanceCommitIndex]
  split
  · exact canvass
  · dsimp only
    split
    · exact canvass
    next n _ =>
        have raised : Canvass config before wins { self with commitIndex := n } :=
          { canvass with }
        exact raised.applyCommitted.emitCommit n

theorem resumeSubmit (canvass : Canvass config before wins self) (id : Nat) :
    Canvass config before wins (self.resumeSubmit id) := by
  rw [Node.resumeSubmit]
  split
  · exact canvass
  · have taken : Canvass config before wins { self with
        resumable := self.resumable.filter fun other => other.id ≠ id } :=
      { canvass with }
    dsimp only
    split
    · split <;> exact taken.emit trivial
    · exact taken.emit trivial

theorem submitTimeout (canvass : Canvass config before wins self) (id : Nat) :
    Canvass config before wins (self.submitTimeout id) := by
  rw [Node.submitTimeout]
  split
  · exact canvass
  · have removed : Canvass config before wins { self with
        commitListeners := self.commitListeners.filter fun other => other.id ≠ id } :=
      { canvass with }
    dsimp only
    split
    · exact removed.emit trivial
    · exact removed

theorem submit (canvass : Canvass config before wins self) (id : Nat)
    (type : EntryType) (payload : Json) :
    Canvass config before wins (self.submit config id type payload) := by
  rw [Node.submit]
  split
  · exact canvass.emit trivial
  · split
    · exact canvass.emit trivial
    · have sent := (canvass.appendLocal type payload).sendAppendEntriesToAll
      dsimp only
      split
      · exact { sent with }
      · exact sent.emit trivial
      · exact { sent with }

theorem followLeader (canvass : Canvass config before wins self) (term : Nat)
    (leaderId : Id) : Canvass config before wins (self.followLeader term leaderId) := by
  rw [Node.followLeader]
  split
  · exact canvass.becomeFollower term (some leaderId)
  · exact { canvass with }

theorem storeEntries (canvass : Canvass config before wins self)
    (entries : List LogEntry) :
    Canvass config before wins (self.storeEntries entries) := by
  rw [Node.storeEntries]
  dsimp only
  split
  · exact (canvass.write _ rfl rfl).write _ rfl rfl
  · exact canvass

theorem followCommit (canvass : Canvass config before wins self) (leaderCommit : Int) :
    Canvass config before wins (self.followCommit config leaderCommit) := by
  rw [Node.followCommit]
  split
  · have raised : Canvass config before wins
        { self with commitIndex := min leaderCommit self.db.lastIndex } :=
      { canvass with }
    exact raised.applyCommitted
  · exact canvass

theorem handleAppendEntries (canvass : Canvass config before wins self)
    (body : AppendEntries Id) :
    Canvass config before wins (self.handleAppendEntries config body).1 := by
  have followed := canvass.followLeader body.term body.leaderId
  rw [Node.handleAppendEntries]
  split
  · exact canvass
  · dsimp only
    split
    · exact (followed.storeEntries _).followCommit _
    · exact followed

theorem discardLog (canvass : Canvass config before wins self)
    (lastIncludedIndex lastIncludedTerm : Int) :
    Canvass config before wins (self.discardLog lastIncludedIndex lastIncludedTerm) := by
  rw [Node.discardLog]
  split
  · split <;> exact canvass.write _ rfl rfl
  · exact canvass.write _ rfl rfl

theorem installSnapshot (canvass : Canvass config before wins self)
    (body : InstallSnapshot Id machine.Blob) :
    Canvass config before wins (self.installSnapshot body) := by
  have saved := (canvass.discardLog body.lastIncludedIndex body.lastIncludedTerm).write
    (fun db => db.saveSnapshot body.lastIncludedIndex body.lastIncludedTerm body.data) rfl rfl
  rw [Node.installSnapshot]
  refine Canvass.emit ?_ trivial
  exact { saved with }

theorem handleInstallSnapshot (canvass : Canvass config before wins self)
    (body : InstallSnapshot Id machine.Blob) :
    Canvass config before wins (self.handleInstallSnapshot body).1 := by
  have followed := canvass.followLeader body.term body.leaderId
  rw [Node.handleInstallSnapshot]
  split
  · exact canvass
  · dsimp only
    split
    · exact followed
    · exact followed.installSnapshot body

theorem startReadIndex (canvass : Canvass config before wins self) (id : Nat) :
    Canvass config before wins (self.startReadIndex config id) := by
  have called : Canvass config before wins (self.emit (.readCalled id)) :=
    canvass.emit trivial
  rw [Node.startReadIndex]
  split
  · exact called.emit trivial
  · split
    · exact called.emit trivial
    · exact called.send rfl fun era awaits => nomatch awaits

theorem awaitApplied (canvass : Canvass config before wins self) (read : Reading) :
    Canvass config before wins (self.awaitApplied read) := by
  rw [Node.awaitApplied]
  split
  · exact { canvass with }
  · exact canvass.emit trivial

theorem finishReadIndex (canvass : Canvass config before wins self) (id : Nat)
    (readIdx : Int) (termAtStart : Nat) (results : List (Option Reply)) :
    Canvass config before wins
      (self.finishReadIndex config id readIdx termAtStart results) := by
  rw [Node.finishReadIndex]
  split
  · exact (canvass.becomeFollower _ none).emit trivial
  · split
    · exact canvass.emit trivial
    · split
      · exact canvass.emit trivial
      · exact canvass.awaitApplied _

theorem pollRead (canvass : Canvass config before wins self) (id : Nat) :
    Canvass config before wins (self.pollRead id) := by
  rw [Node.pollRead]
  split
  · exact canvass
  next read _ =>
      have removed : Canvass config before wins { self with
          reading := self.reading.filter fun other => other.id ≠ id } :=
        { canvass with }
      exact removed.awaitApplied read

section Peers

variable [DecidableEq Id]

theorem finishAppendEntries (canvass : Canvass config before wins self) (peer : Id)
    (next prevLogIndex : Int) (entries : List LogEntry) (result : Option Reply) :
    Canvass config before wins
      (self.finishAppendEntries config peer next prevLogIndex entries result) := by
  cases result with
  | none => exact canvass
  | some body =>
      simp only [Node.finishAppendEntries]
      split
      · exact canvass
      · split
        · exact canvass.becomeFollower _ none
        · split
          · refine Canvass.maybeAdvanceCommitIndex ?_
            exact { canvass with }
          · exact { canvass with }

theorem finishInstallSnapshot (canvass : Canvass config before wins self) (peer : Id)
    (lastIncludedIndex : Int) (result : Option Reply) :
    Canvass config before wins
      (self.finishInstallSnapshot peer lastIncludedIndex result) := by
  cases result with
  | none => exact canvass
  | some body =>
      simp only [Node.finishInstallSnapshot]
      split
      · exact canvass
      · split
        · exact canvass.becomeFollower _ none
        · exact { canvass with }

/-! ## Methods that vote -/

omit [DecidableEq Id] in
theorem becomeCandidate (canvass : Canvass config before [] self) :
    Canvass config before [] (self.becomeCandidate config) := by
  have shadow : Canvass config before [] { self with role := .follower } :=
    { canvass with role := fun running => nomatch running }
  have saved := shadow.save (self.currentTerm + 1) (some config.replicaId) (fun running => nomatch running)
    (Or.inl (by simp [Database.saveTermAndVote, ← canvass.term]))
  have reached : before.db.currentTerm < self.currentTerm + 1 := by
    have bound := canvass.cuts.self.1.current_le
    rw [← canvass.file, ← canvass.term] at bound
    omega
  exact {
    term := rfl
    vote := rfl
    file := by simp [Node.becomeCandidate, Node.write, Node.emit]
    cuts := by
      obtain ⟨forward, candidacy⟩ := saved.cuts.self
      refine Effect.always_concat.mpr ⟨saved.cuts, ?_⟩
      simp only [Ballots, Effect.file_append, Effect.file_cons_event, Effect.file_nil]
      refine ⟨forward, fun era seen => ?_⟩
      simp only [Effect.events_append, Effect.events_cons_event, Effect.events_nil, List.mem_append,
        List.mem_singleton, Event.role.injEq, true_and] at seen
      rcases seen with seen | rfl
      · exact candidacy era seen
      · refine ⟨reached, Or.inr ?_⟩
        simp [Node.write, Database.saveTermAndVote]
    role := fun _ => ⟨rfl, Or.inr (by simp [Node.becomeCandidate, Node.write, Node.emit])⟩
    wins := by
      simpa [Node.becomeCandidate, Node.write, Node.emit] using canvass.wins
    solicits := by
      simpa [Node.becomeCandidate, Node.write, Node.emit] using canvass.solicits }

omit [DecidableEq Id] in
theorem startElection (canvass : Canvass config before [] self) :
    Canvass config before [] (self.startElection config) := by
  have campaigning := canvass.becomeCandidate
  have armed : Canvass config before []
      { self.becomeCandidate config with electionTimer := true } :=
    { campaigning with }
  refine armed.send rfl fun era awaits => ?_
  simp only [Await.election.injEq] at awaits
  exact ⟨_, rfl, awaits, rfl, rfl⟩

omit [DecidableEq Id] in
/-- Announcing oneself leader. -/
theorem announce (canvass : Canvass config before [] self)
    (idle : self.role ≠ .candidate) :
    Canvass config before [self.currentTerm]
      (self.emit (.role .leader self.currentTerm)) where
  term := canvass.term
  vote := canvass.vote
  file := by simpa [Node.emit] using canvass.file
  cuts := by
    obtain ⟨forward, candidacy⟩ := canvass.cuts.self
    refine Effect.always_concat.mpr ⟨canvass.cuts, ?_⟩
    simp only [Ballots, Effect.file_append, Effect.file_cons_event, Effect.file_nil]
    exact ⟨forward, fun era seen => candidacy era (by simpa using seen)⟩
  role running := absurd running idle
  wins := by simp [Node.emit, canvass.wins]
  solicits := by simpa [Node.emit] using canvass.solicits

theorem becomeLeader (canvass : Canvass config before [] self) :
    Canvass config before [self.currentTerm] (self.becomeLeader config) := by
  have inOffice : Canvass config before [] { self with
      electionTimer := false
      role := .leader
      leaderId := some config.replicaId
      nextIndex := fun peer =>
        if peer ∈ config.peers then some (self.db.lastIndex + 1) else none
      matchIndex := fun peer => if peer ∈ config.peers then some (-1) else none } :=
    { canvass with role := fun running => nomatch running }
  have sent := ((inOffice.announce (by simp)).appendLocal .noop .null).sendAppendEntriesToAll
  exact { sent with }

theorem finishElection (canvass : Canvass config before [] self) (termAtStart : Nat)
    (results : List (Option Reply)) :
    Canvass config before [] (self.finishElection config termAtStart results) ∨
      self.Won config termAtStart results ∧
        Canvass config before [self.currentTerm]
          (self.finishElection config termAtStart results) := by
  rw [Node.finishElection]
  split
  · exact Or.inl canvass
  next active =>
      simp only [not_or, not_not] at active
      split
      · exact Or.inl (canvass.becomeFollower _ none)
      next votes counted =>
          split
          next enough =>
              exact Or.inr ⟨⟨active.2.1, active.2.2, votes, counted, enough⟩,
                canvass.becomeLeader⟩
          next => exact Or.inl canvass

theorem handleRequestVote (canvass : Canvass config before wins self)
    (body : RequestVote Id) :
    Canvass config before wins (self.handleRequestVote body).1 := by
  have heard : Canvass config before wins
      (if self.currentTerm < body.term then self.becomeFollower body.term none
        else self) := by
    split
    · exact canvass.becomeFollower _ none
    · exact canvass
  rw [Node.handleRequestVote]
  dsimp only
  generalize (if self.currentTerm < body.term then self.becomeFollower body.term none
    else self) = node at heard ⊢
  split
  · exact heard
  · split
    · exact heard
    next free =>
        split
        · exact heard
        · have unbound : node.db.votedFor = none ∨
              some body.candidateId = node.db.votedFor := by
            rw [← heard.vote]
            grind
          have saved := heard.save node.currentTerm (some body.candidateId) (fun _ => rfl)
            (Or.inr ⟨heard.term.symm, unbound⟩)
          exact { saved with }

theorem handle (canvass : Canvass config before wins self)
    (request : Request Id machine.Blob) :
    Canvass config before wins (self.handle config request).1 := by
  cases request with
  | requestVote body => exact canvass.handleRequestVote body
  | appendEntries body => exact canvass.handleAppendEntries body
  | installSnapshot body => exact canvass.handleInstallSnapshot body

theorem resume (canvass : Canvass config before [] self) (await : Await Id)
    (results : List (Option Reply)) :
    Canvass config before [] (self.resume config await results) ∨
      ∃ termAtStart, await = .election termAtStart ∧
        self.Won config termAtStart results ∧
        Canvass config before [self.currentTerm] (self.resume config await results) := by
  cases await with
  | election termAtStart =>
      exact (canvass.finishElection termAtStart results).imp id
        fun won => ⟨termAtStart, rfl, won⟩
  | appendEntries peer next prevLogIndex entries =>
      exact Or.inl (canvass.finishAppendEntries _ _ _ _ _)
  | installSnapshot peer lastIncludedIndex =>
      exact Or.inl (canvass.finishInstallSnapshot _ _ _)
  | readIndex id readIdx termAtStart =>
      exact Or.inl (canvass.finishReadIndex _ _ _ _)

end Peers

end Canvass

/-! ## Granted votes and their count -/

section Granted

variable [DecidableEq Id]

/-- A vote is granted only once it is in the file. -/
theorem handleRequestVote_granted {self : Node Id machine} {body : RequestVote Id}
    (granted : (self.handleRequestVote body).2.voteGranted = true) :
    (self.handleRequestVote body).1.db.currentTerm = body.term ∧
      (self.handleRequestVote body).1.db.votedFor = some body.candidateId := by
  have heard_term : (if self.currentTerm < body.term then
      self.becomeFollower body.term none else self).currentTerm =
        max self.currentTerm body.term := by
    split
    next higher => simp [becomeFollower, emit, write, higher]; omega
    next low => simp [Nat.le_of_not_lt low]
  rw [handleRequestVote] at granted ⊢
  dsimp only at granted ⊢
  generalize (if self.currentTerm < body.term then self.becomeFollower body.term none
    else self) = node at heard_term granted ⊢
  split at granted
  · simp at granted
  · split at granted
    · simp at granted
    · split at granted
      · simp at granted
      next current free recent =>
          rw [if_neg current, if_neg free, if_neg recent]
          simp only [write, Database.saveTermAndVote, and_true]
          omega

theorem handle_granted {config : Config Id} {self : Node Id machine}
    {request : Request Id machine.Blob}
    (granted : (self.handle config request).2.voteGranted = true) :
    ∃ body, request = .requestVote body ∧
      (self.handle config request).1.db.currentTerm = body.term ∧
      (self.handle config request).1.db.votedFor = some body.candidateId := by
  cases request with
  | requestVote body => exact ⟨body, rfl, handleRequestVote_granted granted⟩
  | appendEntries body =>
      simp only [handle, handleAppendEntries] at granted
      split at granted
      · simp at granted
      · split at granted <;> simp at granted
  | installSnapshot body =>
      simp only [handle, handleInstallSnapshot] at granted
      split at granted
      · simp at granted
      · split at granted <;> simp at granted

end Granted

/-- A tally that is not cut short counts the replies that count. -/
theorem tally_count {counts : Reply → Bool} {currentTerm total result : Nat}
    {results : List (Option Reply)}
    (counted : tally counts currentTerm results total = .count result) :
    result = total + results.countP fun reply => reply.any counts := by
  induction results generalizing total with
  | nil =>
      simp only [tally, Tally.count.injEq] at counted
      simp [counted]
  | cons reply rest ih =>
      cases reply with
      | none => simpa [tally] using ih (by simpa [tally] using counted)
      | some body =>
          simp only [tally] at counted
          split at counted
          · simp at counted
          · rw [ih counted, List.countP_cons]
            by_cases agrees : counts body = true
            · simp [agrees]; omega
            · simp [agrees]

end Node

end RaftCanvas
