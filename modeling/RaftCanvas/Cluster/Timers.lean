import RaftCanvas.Cluster.Turns
import RaftCanvas.Raft.StateMachine

/-!
# Timers

A leader sends heartbeats and does not wait for an election; everyone else waits for an
election and sends none.  A vote arms the election timer, and a leader casts none: it has
voted for itself in its term.
-/

namespace RaftCanvas

namespace Node

variable {Id : Type} {machine : Machine}

/-- Exactly the timer that belongs to the role is armed. -/
def TimersMatchRole (self : Node Id machine) : Prop :=
  self.heartbeatTimer = decide (self.role = .leader) ∧
    self.electionTimer = decide (self.role ≠ .leader)

/-- Whoever asks for votes asks the others, for its own. -/
def Canvasses (config : Config Id) (node : Node Id machine) : Prop :=
  ∀ call ∈ Effect.sends node.trace, ∀ body, call.request = .requestVote body →
    body.candidateId = config.replicaId ∧ call.targets = config.peers

/-- In the course of a handler: the timers match the role, and whoever stands or leads has
voted for itself. -/
structure Timed (config : Config Id) (node : Node Id machine) : Prop where
  timers : node.TimersMatchRole
  vote : node.role ≠ .follower → node.votedFor = some config.replicaId
  asks : node.Canvasses config

/-- What fires was armed, and nobody else asks for votes under the node's own name. -/
def Genuine (config : Config Id) (self : Node Id machine) :
    Stimulus Id machine.Blob → Prop
  | .electionTimeout => self.electionTimer = true
  | .request (.requestVote body) => body.candidateId ≠ config.replicaId
  | _ => True

section

variable {config : Config Id} {self after : Node Id machine}

theorem Canvasses.sendAppendEntriesToAll (asks : self.Canvasses config) :
    (self.sendAppendEntriesToAll config).Canvasses config := by
  obtain ⟨calls, sent, shapes⟩ := self.sendAppendEntriesToAll_sends config
  rw [sent]
  intro call member body asked
  rw [Effect.sends_append, List.mem_append] at member
  rcases member with before | fresh
  · exact asks call before body asked
  · have listed : call ∈ calls := by
      simpa [Effect.sends, List.filterMap_map, Function.comp_def] using fresh
    have quoted := (shapes call listed).2.2.1
    rw [asked] at quoted
    cases quoted

theorem becomeFollower_sends (self : Node Id machine) (term : Nat) (leaderId : Option Id) :
    Effect.sends (self.becomeFollower term leaderId).trace = Effect.sends self.trace := by
  rw [becomeFollower]
  dsimp only
  split <;> simp [Node.write, emit]

theorem becomeFollower_timers (self : Node Id machine) (term : Nat)
    (leaderId : Option Id) : (self.becomeFollower term leaderId).TimersMatchRole := by
  rw [becomeFollower]
  dsimp only
  split <;> exact ⟨rfl, rfl⟩

end

namespace Timed

variable {config : Config Id} {self after : Node Id machine}

/-- A change of nothing that `Timed` looks at. -/
theorem carry (timed : Timed config self) (role : after.role = self.role)
    (heartbeat : after.heartbeatTimer = self.heartbeatTimer)
    (election : after.electionTimer = self.electionTimer)
    (vote : after.votedFor = self.votedFor)
    (quiet : Effect.sends after.trace = Effect.sends self.trace) : Timed config after where
  timers := by
    rw [TimersMatchRole, heartbeat, election, role]
    exact timed.timers
  vote := role ▸ vote ▸ timed.vote
  asks := by
    rw [Canvasses, quiet]
    exact timed.asks

theorem works (timed : Timed config self) (works : self.Works after) : Timed config after := by
  obtain ⟨_, _, _, _, rfl, quiet⟩ := works
  exact timed.carry rfl rfl rfl rfl (by simp [quiet])

theorem sendAppendEntriesToAll (timed : Timed config self) :
    Timed config (self.sendAppendEntriesToAll config) := by
  have asks := timed.asks.sendAppendEntriesToAll
  obtain ⟨calls, sent, _⟩ := self.sendAppendEntriesToAll_sends config
  rw [sent] at asks ⊢
  exact ⟨timed.timers, timed.vote, asks⟩

/-! ## Changes of role -/

/-- Whatever the timers were, a follower has the right ones. -/
theorem becomeFollower (timed : Timed config self) (term : Nat) (leaderId : Option Id) :
    Timed config (self.becomeFollower term leaderId) where
  timers := self.becomeFollower_timers term leaderId
  vote stands := absurd (self.becomeFollower_role term leaderId) stands
  asks := by
    rw [Canvasses, becomeFollower_sends]
    exact timed.asks

theorem followLeader (timed : Timed config self) (term : Nat) (leaderId : Id) :
    Timed config (self.followLeader term leaderId) := by
  rw [Node.followLeader]
  split
  · exact timed.becomeFollower term _
  next settled =>
      have follows : self.role = .follower := not_not.mp (not_or.mp settled).2
      have waits : self.electionTimer = true := by
        rw [timed.timers.2, follows]
        rfl
      exact timed.carry rfl rfl waits.symm rfl rfl

/-- Only whoever is not leading is timed out. -/
theorem startElection (timed : Timed config self) (armed : self.electionTimer = true) :
    Timed config (self.startElection config) := by
  have idle : self.heartbeatTimer = false := by
    have waits := timed.timers.2
    rw [armed] at waits
    rw [timed.timers.1]
    simpa using waits
  refine ⟨⟨idle, rfl⟩, fun _ => rfl, fun call member body asked => ?_⟩
  simp only [Node.startElection, becomeCandidate, Node.write, emit, send,
    Effect.sends_append, Effect.sends_cons_write, Effect.sends_cons_event,
    Effect.sends_cons_send, Effect.sends_nil, List.append_nil, List.mem_append,
    List.mem_singleton] at member
  rcases member with before | rfl
  · exact timed.asks call before body asked
  · obtain rfl := Request.requestVote.inj asked
    exact ⟨rfl, rfl⟩

theorem becomeLeader [DecidableEq Id] (timed : Timed config self)
    (stands : self.role = .candidate) : Timed config (self.becomeLeader config) := by
  have voted := timed.vote (by simp [stands])
  -- the interval is armed when everything has been sent
  have armed : ∀ node : Node Id machine, node.role = .leader → node.electionTimer = false →
      node.votedFor = self.votedFor → Effect.sends node.trace = Effect.sends self.trace →
      Timed config { node.sendAppendEntriesToAll config with heartbeatTimer := true } := by
    intro node leads idle vote quiet
    have asks : node.Canvasses config := by
      rw [Canvasses, quiet]
      exact timed.asks
    have sent := asks.sendAppendEntriesToAll
    obtain ⟨calls, same, _⟩ := node.sendAppendEntriesToAll_sends config
    rw [same] at sent ⊢
    exact ⟨⟨by simp [leads], by simp [leads, idle]⟩, fun _ => vote.trans voted, sent⟩
  rw [Node.becomeLeader]
  exact armed _ rfl rfl rfl (by simp [appendLocal, Node.write, emit])

/-! ## Methods that leave the role alone -/

theorem maybeAdvanceCommitIndex (timed : Timed config self) :
    Timed config (self.maybeAdvanceCommitIndex config) := by
  rw [Node.maybeAdvanceCommitIndex]
  split
  · exact timed
  · dsimp only
    split
    · exact timed
    next n _ =>
        have raised : Timed config { self with commitIndex := n } := { timed with }
        have worked := raised.works (applyCommitted_works config _)
        obtain ⟨_, trace, quiet⟩ :=
          ({ self with commitIndex := n }.applyCommitted config).emitCommit_trace n
        exact worked.carry rfl rfl rfl rfl (by simp [trace, quiet])

theorem submit (timed : Timed config self) (id : Nat) (type : EntryType) (payload : Json) :
    Timed config (self.submit config id type payload) := by
  rw [Node.submit]
  split
  · exact timed.works (emit_works _ _)
  · split
    · exact timed.works (emit_works _ _)
    · have sent := (timed.works (appendLocal_works _ type payload)).sendAppendEntriesToAll
      dsimp only
      split
      · exact { sent with }
      · exact sent.works (emit_works _ _)
      · exact { sent with }

theorem resumeSubmit (timed : Timed config self) (id : Nat) :
    Timed config (self.resumeSubmit id) := by
  rw [Node.resumeSubmit]
  split
  · exact timed
  · have taken : Timed config { self with
        resumable := self.resumable.filter fun other => other.id ≠ id } := { timed with }
    dsimp only
    split
    · split <;> exact taken.works (emit_works _ _)
    · exact taken.works (emit_works _ _)

theorem submitTimeout (timed : Timed config self) (id : Nat) :
    Timed config (self.submitTimeout id) := by
  rw [Node.submitTimeout]
  split
  · exact timed
  · have removed : Timed config { self with
        commitListeners := self.commitListeners.filter fun other => other.id ≠ id } :=
      { timed with }
    dsimp only
    split
    · exact removed.works (emit_works _ _)
    · exact removed

theorem startReadIndex (timed : Timed config self) (id : Nat) :
    Timed config (self.startReadIndex config id) := by
  have called := timed.works (self.emit_works (.readCalled id))
  rw [Node.startReadIndex]
  split
  · exact called.works (emit_works _ _)
  · split
    · exact called.works (emit_works _ _)
    · refine ⟨called.timers, called.vote, fun call member body asked => ?_⟩
      simp only [send, Effect.sends_append, Effect.sends_cons_send, Effect.sends_nil,
        List.mem_append, List.mem_singleton] at member
      rcases member with before | rfl
      · exact called.asks call before body asked
      · cases asked

theorem awaitApplied (timed : Timed config self) (read : Reading) :
    Timed config (self.awaitApplied read) := by
  rw [Node.awaitApplied]
  split
  · exact { timed with }
  · exact timed.works (emit_works _ _)

theorem pollRead (timed : Timed config self) (id : Nat) :
    Timed config (self.pollRead id) := by
  rw [Node.pollRead]
  split
  · exact timed
  next read _ =>
      have removed : Timed config { self with
          reading := self.reading.filter fun other => other.id ≠ id } := { timed with }
      exact removed.awaitApplied read

theorem finishReadIndex (timed : Timed config self) (id : Nat) (readIdx : Int)
    (termAtStart : Nat) (results : List (Option Reply)) :
    Timed config (self.finishReadIndex config id readIdx termAtStart results) := by
  rw [Node.finishReadIndex]
  split
  · exact (timed.becomeFollower _ none).works (emit_works _ _)
  · split
    · exact timed.works (emit_works _ _)
    · split
      · exact timed.works (emit_works _ _)
      · exact timed.awaitApplied _

/-! ## Handlers -/

variable [DecidableEq Id]

/-- Whoever stands or leads has its vote in its own hands, and gives it to nobody else. -/
theorem handleRequestVote (timed : Timed config self) {body : RequestVote Id}
    (other : body.candidateId ≠ config.replicaId) :
    Timed config (self.handleRequestVote body).1 := by
  have raised : Timed config
      (if self.currentTerm < body.term then self.becomeFollower body.term none else self) := by
    split
    · exact timed.becomeFollower _ none
    · exact timed
  rw [Node.handleRequestVote]
  dsimp only
  generalize (if self.currentTerm < body.term then self.becomeFollower body.term none
    else self) = follower at *
  split
  · exact raised
  · split
    · exact raised
    next free =>
        split
        · exact raised
        · have follows : follower.role = .follower := by
            by_contra stands
            refine free ?_
            rw [raised.vote stands]
            exact ⟨Option.some_ne_none _, fun same => other (Option.some.inj same).symm⟩
          refine ⟨⟨?_, ?_⟩, fun stands => absurd follows stands, ?_⟩
          · exact raised.timers.1
          · show true = decide (follower.role ≠ .leader)
            rw [follows]
            rfl
          · intro call member
            exact raised.asks call (by simpa [Node.write] using member)

theorem handle (timed : Timed config self) {request : Request Id machine.Blob}
    (genuine : self.Genuine config (.request request)) :
    Timed config (self.handle config request).1 := by
  cases request with
  | requestVote body => exact timed.handleRequestVote genuine
  | appendEntries body =>
      by_cases stale : body.term < self.currentTerm
      · rw [Node.handle, handleAppendEntries, if_pos stale]
        exact timed
      · exact (timed.followLeader body.term body.leaderId).works
          (handleAppendEntries_works config self body (Nat.not_lt.mp stale))
  | installSnapshot body =>
      by_cases stale : body.term < self.currentTerm
      · rw [Node.handle, handleInstallSnapshot, if_pos stale]
        exact timed
      · exact (timed.followLeader body.term body.leaderId).works
          (handleInstallSnapshot_works self body (Nat.not_lt.mp stale))

theorem resume (timed : Timed config self) (await : Await Id)
    (results : List (Option Reply)) : Timed config (self.resume config await results) := by
  cases await with
  | election termAtStart =>
      simp only [Node.resume, finishElection]
      split
      · exact timed
      next active =>
          have stands : self.role = .candidate := by
            by_contra other
            exact active (Or.inr (Or.inl other))
          split
          · exact timed.becomeFollower _ none
          · split
            · exact timed.becomeLeader stands
            · exact timed
  | appendEntries peer next prevLogIndex entries =>
      cases answered : results.head?.join with
      | none => simpa only [Node.resume, finishAppendEntries, answered] using timed
      | some body =>
          simp only [Node.resume, finishAppendEntries, answered]
          split
          · exact timed
          · split
            · exact timed.becomeFollower _ none
            · split
              · exact maybeAdvanceCommitIndex { timed with }
              · exact { timed with }
  | installSnapshot peer lastIncludedIndex =>
      cases answered : results.head?.join with
      | none => simpa only [Node.resume, finishInstallSnapshot, answered] using timed
      | some body =>
          simp only [Node.resume, finishInstallSnapshot, answered]
          split
          · exact timed
          · split
            · exact timed.becomeFollower _ none
            · exact { timed with }
  | readIndex id readIdx termAtStart => exact timed.finishReadIndex id readIdx termAtStart results

omit [DecidableEq Id] in
theorem start (config : Config Id) (db : Database Id machine.Blob) :
    Timed config (Node.start db) := by
  have quiet : Effect.sends (Node.start db : Node Id machine).trace = [] := by
    rw [Node.start]
    dsimp only
    split <;> simp [becomeFollower_sends]
  refine ⟨?_, fun stands => absurd ?_ stands, fun call member => ?_⟩
  · rw [Node.start]
    exact becomeFollower_timers _ _ _
  · rw [Node.start]
    exact becomeFollower_role _ _ _
  · simp [quiet] at member

/-- Whatever genuine reaches a node, its timers match its role afterwards. -/
theorem respond (timed : Timed config self) {stimulus : Stimulus Id machine.Blob}
    (genuine : self.Genuine config stimulus) :
    Timed config (self.respond config stimulus) := by
  cases stimulus with
  | electionTimeout => exact timed.startElection genuine
  | heartbeat => exact timed.sendAppendEntriesToAll
  | submit id type payload => exact timed.submit id type payload
  | readIndex id => exact timed.startReadIndex id
  | request request => exact timed.handle genuine
  | resume await results => exact timed.resume await results
  | resumeSubmit id => exact timed.resumeSubmit id
  | submitTimeout id => exact timed.submitTimeout id
  | pollRead id => exact timed.pollRead id
  | restart db => exact .start config db

end Timed

end Node

/-! ## The cluster -/

section Runs

variable {Id : Type} {machine : Machine} [DecidableEq Id] {cluster : Cluster Id}
  {world next : World Id machine} {action : Action Id}

/-- The timers of all nodes match their roles, and nobody asks itself for its vote. -/
structure World.Punctual (cluster : Cluster Id) (world : World Id machine) : Prop where
  nodes : ∀ self, (world.node self).began.Timed (cluster.config self)
  calls : ∀ call ∈ world.calls, ∀ body, call.request = .requestVote body →
    body.candidateId ∉ call.targets

theorem World.Punctual.turn (punctual : world.Punctual cluster)
    {turn : Turn Id machine} (taken : world.turn cluster action = some turn) :
    turn.after.Timed (cluster.config turn.self) := by
  obtain ⟨stimulus, prompts, same, _⟩ := turn_prompts taken
  rw [same]
  refine (punctual.nodes turn.self).respond ?_
  cases stimulus with
  | electionTimeout => exact prompts.armed
  | request request =>
      obtain ⟨_, call, _, issued, asked, rfl⟩ := prompts.request
      cases request : call.request with
      | requestVote body =>
          intro own
          refine punctual.calls call (List.mem_of_getElem? issued) body request ?_
          rw [own]
          exact asked
      | appendEntries | installSnapshot => trivial
  | heartbeat | submit | readIndex | resume | resumeSubmit | submitTimeout | pollRead
  | restart => trivial

/-- What a step leaves of the acting node, and the votes that it asks for. -/
theorem World.Punctual.progress (punctual : world.Punctual cluster) {actor : Id}
    {node : Node Id machine} {done : List (Effect Id machine.Blob)}
    {reply : Option (Delivery Id)}
    (progress : world.Progress cluster action actor node done reply) :
    node.began.Timed (cluster.config actor) ∧
      ∀ call ∈ Effect.sends done, ∀ body, call.request = .requestVote body →
        body.candidateId = actor ∧ call.targets = cluster.peers actor := by
  have rested : ∀ {node : Node Id machine}, node.Timed (cluster.config actor) →
      node.began.Timed (cluster.config actor) := fun timed =>
    ⟨timed.timers, timed.vote, fun call member => nomatch member⟩
  cases progress with
  | handled turn taken =>
      have timed := punctual.turn taken
      exact ⟨rested timed, timed.asks⟩
  | interrupted inner effects turn _ taken =>
      have timed := punctual.turn taken
      exact ⟨rested (.start _ _), fun call member => timed.asks call
        ((Effect.sends_prefix (List.take_prefix effects _)).subset member)⟩
  | crashed self _ => exact ⟨rested (.start _ _), fun call member => nomatch member⟩

theorem World.Punctual.step (punctual : world.Punctual cluster)
    (stepped : world.step cluster action = some next) : next.Punctual cluster := by
  obtain ⟨actor, node, done, reply, progress, advances⟩ := World.step_progress stepped
  obtain ⟨timed, asks⟩ := punctual.progress progress
  constructor
  · intro self
    by_cases acting : self = actor
    · subst acting
      rw [advances.node_actor]
      exact timed
    · rw [advances.node_other acting]
      exact punctual.nodes self
  · intro call member body request
    rcases advances.mem_calls.mp member with old | fresh
    · exact punctual.calls call old body request
    · obtain ⟨own, targets⟩ := asks call fresh body request
      rw [own, targets, cluster.mem_peers]
      exact fun others => others rfl

theorem World.Punctual.of_reach {allowed : World Id machine → Action Id → Prop}
    (reached : (cluster.system machine).Reach allowed world) : world.Punctual cluster := by
  induction reached with
  | init =>
      refine ⟨fun self => ⟨⟨rfl, rfl⟩, fun stands => absurd rfl stands, ?_⟩, ?_⟩
      · exact fun call member => nomatch member
      · exact fun call member => nomatch member
  | step _ _ stepped punctual => exact punctual.step stepped

end Runs

/-- In every run, with crashes between any two writes, a node between two steps has the
timer armed that belongs to its role, and not the other one. -/
theorem timers_match_role {Id : Type} [DecidableEq Id] (cluster : Cluster Id)
    (machine : Machine) (world : World Id machine)
    (reached : (cluster.system machine).Reach (fun _ _ => True) world) (self : Id) :
    ((world.node self).role = .leader →
      (world.node self).heartbeatTimer = true ∧ (world.node self).electionTimer = false) ∧
    ((world.node self).role ≠ .leader →
      (world.node self).electionTimer = true ∧ (world.node self).heartbeatTimer = false) := by
  obtain ⟨heartbeat, election⟩ := ((World.Punctual.of_reach reached).nodes self).timers
  have heartbeat' : (world.node self).heartbeatTimer =
      decide ((world.node self).role = .leader) := heartbeat
  have election' : (world.node self).electionTimer =
      decide ((world.node self).role ≠ .leader) := election
  constructor
  · intro leads
    simp [heartbeat', election', leads]
  · intro other
    simp [heartbeat', election', other]

/-- A leader is deposed and elected again. -/
theorem timers_match_role_reelected : ∃ world : World (Fin 3) canvas,
    (world.node 0).role = .leader ∧ (world.node 0).heartbeatTimer = true ∧
      (world.node 0).electionTimer = false := by
  obtain ⟨world, reached, passed⟩ :=
    ((Cluster.ofFin 3 1).system canvas).exists_reach_of_run (fun _ _ => True)
      [.electionTimeout 0, .deliver 0 1,
        .resume 0 [some { term := 1, voteGranted := true }, none],
        .electionTimeout 1, .deliver 3 0, .electionTimeout 0, .deliver 4 2,
        .resume 4 [none, some { term := 3, voteGranted := true }]]
      (fun world => decide ((world.node 0).role = .leader)) (by decide +kernel)
  have leads := of_decide_eq_true passed
  exact ⟨world, leads, (timers_match_role _ _ world reached 0).1 leads⟩

end RaftCanvas
