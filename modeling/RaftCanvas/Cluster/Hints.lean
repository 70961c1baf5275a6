import RaftCanvas.Cluster.Election
import RaftCanvas.Raft.Frames

/-!
# Leader hints

`leaderId` is where a node sends clients that it cannot serve.  A hint is right if the
node it names has won the election of the current term.
-/

namespace RaftCanvas

namespace Node

variable {Id : Type} {machine : Machine}

/-- A leader that is running hears of a higher term in a reply. -/
def deposes (self : Node Id machine) : Option Reply → Bool
  | none => false
  | some reply => decide
      (self.stopped = false ∧ self.role = .leader ∧ self.currentTerm < reply.term)

/-- Resuming makes the node adopt a higher term.  A candidate may, it names nobody. -/
def hearsTerm (self : Node Id machine) : Await Id → List (Option Reply) → Bool
  | .election _, _ => false
  | .appendEntries _ _ _ _, results | .installSnapshot _ _, results =>
      self.deposes results.head?.join
  | .readIndex _ _ _, results =>
      match tally Reply.success self.currentTerm results 1 with
      | .stepDown _ => true
      | .count _ => false

/-- The effects begin with announcing the leader of `era`. -/
def Announces {Blob : Type} (trace : List (Effect Id Blob)) (era : Nat) : Prop :=
  ∃ rest, trace = .event (.role .leader era) :: rest

theorem Announces.append {Blob : Type} {trace : List (Effect Id Blob)} {era : Nat}
    (announced : Announces trace era) (more : List (Effect Id Blob)) :
    Announces (trace ++ more) era := by
  obtain ⟨rest, rfl⟩ := announced
  exact ⟨rest ++ more, rfl⟩

/-- In the course of a handler: the hint names a winner, `known` before the handler
began or announced by it, and so does every request of a leader that was sent.  The
hint itself is right if the handler is `told` whom to follow. -/
structure Hinting (config : Config Id) (known : Id → Nat → Prop) (told : Prop)
    (node : Node Id machine) : Prop where
  hint : told → ∀ leader, node.leaderId = some leader → known leader node.currentTerm ∨
    leader = config.replicaId ∧ Announces node.trace node.currentTerm
  own : told → node.leaderId = some config.replicaId → node.role = .leader
  leads : node.role = .leader → node.leaderId = some config.replicaId ∧
    (known config.replicaId node.currentTerm ∨ Announces node.trace node.currentTerm)
  stands : node.role = .candidate → node.leaderId = none
  quotes : ∀ call ∈ Effect.sends node.trace, call.src = config.replicaId ∧
    call.src ∉ call.targets ∧
      ∀ era leader, call.request.leader? = some (era, leader) →
        leader = config.replicaId ∧ (known leader era ∨ Announces node.trace era)

namespace Hinting

variable {config : Config Id} {known : Id → Nat → Prop} {told : Prop}
  {self after : Node Id machine}

/-- What was sent so far stays justified when nothing else is sent. -/
theorem quiet (hinting : Hinting config known told self)
    {more : List (Effect Id machine.Blob)} (trace : after.trace = self.trace ++ more)
    (quiet : Effect.sends more = [])
    (hint : told → ∀ leader, after.leaderId = some leader →
      known leader after.currentTerm ∨
        leader = config.replicaId ∧ Announces after.trace after.currentTerm)
    (own : told → after.leaderId = some config.replicaId → after.role = .leader)
    (leads : after.role = .leader → after.leaderId = some config.replicaId ∧
      (known config.replicaId after.currentTerm ∨
        Announces after.trace after.currentTerm))
    (stands : after.role = .candidate → after.leaderId = none) :
    Hinting config known told after where
  hint := hint
  own := own
  leads := leads
  stands := stands
  quotes call member := by
    rw [trace, Effect.sends_append, quiet, List.append_nil] at member
    obtain ⟨src, others, quoted⟩ := hinting.quotes call member
    refine ⟨src, others, fun era leader asked => ?_⟩
    obtain ⟨own, won⟩ := quoted era leader asked
    exact ⟨own, won.imp id fun announced => trace ▸ announced.append more⟩

/-- A change of nothing that `Hinting` looks at. -/
theorem carry (hinting : Hinting config known told self) (role : after.role = self.role)
    (leaderId : after.leaderId = self.leaderId)
    (currentTerm : after.currentTerm = self.currentTerm)
    {more : List (Effect Id machine.Blob)} (trace : after.trace = self.trace ++ more)
    (quiet : Effect.sends more = []) : Hinting config known told after := by
  refine hinting.quiet trace quiet ?_ ?_ ?_ ?_
  · rw [leaderId, currentTerm, trace]
    exact fun told leader named => (hinting.hint told leader named).imp id
      fun ⟨own, announced⟩ => ⟨own, announced.append more⟩
  · rw [leaderId, role]
    exact hinting.own
  · rw [leaderId, role, currentTerm, trace]
    exact fun office => (hinting.leads office).imp id fun won =>
      won.imp id (·.append more)
  · rw [leaderId, role]
    exact hinting.stands

theorem works (hinting : Hinting config known told self) (works : self.Works after) :
    Hinting config known told after := by
  obtain ⟨_, _, _, _, rfl, quiet⟩ := works
  exact hinting.carry rfl rfl rfl rfl quiet

/-- A leader sends requests in its own name. -/
theorem send (hinting : Hinting config known told self) {call : Call Id machine.Blob}
    (src : call.src = config.replicaId) (others : config.replicaId ∉ call.targets)
    (quoted : ∀ era leader, call.request.leader? = some (era, leader) →
      self.role = .leader ∧ leader = config.replicaId ∧ era = self.currentTerm) :
    Hinting config known told (self.send call) where
  hint told leader named := (hinting.hint told leader named).imp id
    fun ⟨own, announced⟩ => ⟨own, announced.append _⟩
  own := hinting.own
  leads office := (hinting.leads office).imp id fun won => won.imp id (·.append _)
  stands := hinting.stands
  quotes asked member := by
    simp only [Node.send, Effect.sends_append, Effect.sends_cons_send, Effect.sends_nil,
      List.mem_append, List.mem_singleton] at member
    rcases member with before | rfl
    · obtain ⟨src, others, quoted⟩ := hinting.quotes asked before
      refine ⟨src, others, fun era leader named => ?_⟩
      obtain ⟨own, won⟩ := quoted era leader named
      exact ⟨own, won.imp id (·.append _)⟩
    · refine ⟨src, by rwa [src], fun era leader named => ?_⟩
      obtain ⟨office, rfl, rfl⟩ := quoted era leader named
      exact ⟨rfl, (hinting.leads office).2.imp id (·.append _)⟩

theorem sends (hinting : Hinting config known told self) {calls : List (Call Id machine.Blob)}
    (shapes : ∀ call ∈ calls, call.src = config.replicaId ∧
      config.replicaId ∉ call.targets ∧
        ∀ era leader, call.request.leader? = some (era, leader) →
          self.role = .leader ∧ leader = config.replicaId ∧ era = self.currentTerm) :
    Hinting config known told { self with trace := self.trace ++ calls.map .send } := by
  induction calls generalizing self with
  | nil => simpa using hinting
  | cons call rest ih =>
      obtain ⟨src, others, quoted⟩ := shapes call List.mem_cons_self
      have sent := ih (hinting.send src others quoted) fun other member =>
        shapes other (List.mem_cons_of_mem _ member)
      simpa [Node.send] using sent

theorem sendAppendEntriesToAll (hinting : Hinting config known told self)
    (others : config.replicaId ∉ config.peers) :
    Hinting config known told (self.sendAppendEntriesToAll config) := by
  obtain ⟨calls, sent, shapes⟩ := self.sendAppendEntriesToAll_sends config
  rw [sent]
  refine hinting.sends fun call member => ?_
  obtain ⟨office, src, quoted, peer, inside, targets⟩ := shapes call member
  refine ⟨src, ?_, fun era leader named => ?_⟩
  · rw [targets, List.mem_singleton]
    rintro rfl
    exact others inside
  · obtain ⟨rfl, rfl⟩ : self.currentTerm = era ∧ config.replicaId = leader := by
      simpa [quoted] using named
    exact ⟨office, rfl, rfl⟩

/-! ## Changes of role -/

theorem becomeFollower (hinting : Hinting config known told self)
    (unnamed : told → self.leaderId = none) (term : Nat) :
    Hinting config known told (self.becomeFollower term none) := by
  have named : (self.becomeFollower term none).leaderId = self.leaderId := by
    rw [Node.becomeFollower]
    dsimp only
    split <;> rfl
  have role := self.becomeFollower_role term none
  obtain ⟨more, trace, quiet⟩ : ∃ more,
      (self.becomeFollower term none).trace = self.trace ++ more ∧
        Effect.sends more = [] := by
    rw [Node.becomeFollower]
    dsimp only
    split
    · exact ⟨_, List.append_assoc _ _ _, rfl⟩
    · exact ⟨_, rfl, rfl⟩
  refine hinting.quiet trace quiet ?_ ?_ (by simp [role]) (by simp [role])
  · intro told leader names
    rw [named, unnamed told] at names
    cases names
  · intro told names
    rw [named, unnamed told] at names
    cases names

/-- Following a leader of a term that is not stale. -/
theorem followLeader (hinting : Hinting config known told self) {term : Nat} {leaderId : Id}
    (recent : self.currentTerm ≤ term) (won : known leaderId term)
    (other : leaderId ≠ config.replicaId) :
    Hinting config known told (self.followLeader term leaderId) := by
  obtain ⟨role, named, same⟩ : (self.followLeader term leaderId).role = .follower ∧
      (self.followLeader term leaderId).leaderId = some leaderId ∧
        (self.followLeader term leaderId).currentTerm = term := by
    rw [Node.followLeader]
    split
    · rw [Node.becomeFollower]
      dsimp only
      split
      · exact ⟨rfl, rfl, rfl⟩
      next settled => exact ⟨rfl, rfl, Nat.le_antisymm recent (Nat.not_lt.mp settled)⟩
    next settled =>
        simp only [not_or, not_not] at settled
        exact ⟨settled.2, rfl, Nat.le_antisymm recent (Nat.not_lt.mp settled.1)⟩
  obtain ⟨more, trace, quiet⟩ : ∃ more,
      (self.followLeader term leaderId).trace = self.trace ++ more ∧
        Effect.sends more = [] := by
    rw [Node.followLeader]
    split
    · rw [Node.becomeFollower]
      dsimp only
      split
      · exact ⟨_, List.append_assoc _ _ _, rfl⟩
      · exact ⟨_, rfl, rfl⟩
    · exact ⟨[], (List.append_nil _).symm, rfl⟩
  refine hinting.quiet trace quiet ?_ ?_ (by simp [role]) (by simp [role])
  · rw [named, same]
    rintro _ leader ⟨⟩
    exact Or.inl won
  · rw [named]
    rintro _ ⟨⟩
    exact absurd rfl other

theorem startElection (hinting : Hinting config known told self)
    (others : config.replicaId ∉ config.peers) :
    Hinting config known told (self.startElection config) := by
  have standing : Hinting config known told
      { self.becomeCandidate config with electionTimer := true } :=
    hinting.quiet (List.append_assoc _ _ _) rfl (fun _ _ named => nomatch named)
      (fun _ named => nomatch named) (fun leader => nomatch leader) fun _ => rfl
  exact standing.send rfl others fun _ _ asked => nomatch asked

/-! ## Methods that leave the role alone -/

theorem maybeAdvanceCommitIndex (hinting : Hinting config known told self) :
    Hinting config known told (self.maybeAdvanceCommitIndex config) := by
  rw [Node.maybeAdvanceCommitIndex]
  split
  · exact hinting
  · dsimp only
    split
    · exact hinting
    next n _ =>
        have raised : Hinting config known told { self with commitIndex := n } := { hinting with }
        obtain ⟨_, trace, quiet⟩ :=
          ({ self with commitIndex := n }.applyCommitted config).emitCommit_trace n
        exact (raised.works (applyCommitted_works config _)).carry rfl rfl rfl trace quiet

theorem submit (hinting : Hinting config known told self)
    (others : config.replicaId ∉ config.peers) (id : Nat) (type : EntryType)
    (payload : Json) : Hinting config known told (self.submit config id type payload) := by
  rw [Node.submit]
  split
  · exact hinting.works (emit_works _ _)
  · split
    · exact hinting.works (emit_works _ _)
    · have sent := (hinting.works (appendLocal_works _ type payload)).sendAppendEntriesToAll
        others
      dsimp only
      split
      · exact { sent with }
      · exact sent.works (emit_works _ _)
      · exact { sent with }

theorem resumeSubmit (hinting : Hinting config known told self) (id : Nat) :
    Hinting config known told (self.resumeSubmit id) := by
  rw [Node.resumeSubmit]
  split
  · exact hinting
  next waiter _ =>
      have taken : Hinting config known told { self with
          resumable := self.resumable.filter fun other => other.id ≠ id } :=
        { hinting with }
      dsimp only
      split
      · split <;> exact taken.works (emit_works _ _)
      · exact taken.works (emit_works _ _)

theorem submitTimeout (hinting : Hinting config known told self) (id : Nat) :
    Hinting config known told (self.submitTimeout id) := by
  rw [Node.submitTimeout]
  split
  · exact hinting
  next waiter _ =>
      have removed : Hinting config known told { self with
          commitListeners := self.commitListeners.filter fun other => other.id ≠ id } :=
        { hinting with }
      dsimp only
      split
      · exact removed.works (emit_works _ _)
      · exact removed

theorem startReadIndex (hinting : Hinting config known told self)
    (others : config.replicaId ∉ config.peers) (id : Nat) :
    Hinting config known told (self.startReadIndex config id) := by
  have called := hinting.works (self.emit_works (.readCalled id))
  rw [Node.startReadIndex]
  split
  · exact called.works (emit_works _ _)
  next office =>
      split
      · exact called.works (emit_works _ _)
      · refine called.send rfl others ?_
        rintro era leader ⟨⟩
        exact ⟨not_not.mp office, rfl, rfl⟩

theorem awaitApplied (hinting : Hinting config known told self) (read : Reading) :
    Hinting config known told (self.awaitApplied read) := by
  rw [Node.awaitApplied]
  split
  · exact { hinting with }
  · exact hinting.works (emit_works _ _)

theorem pollRead (hinting : Hinting config known told self) (id : Nat) :
    Hinting config known told (self.pollRead id) := by
  rw [Node.pollRead]
  split
  · exact hinting
  next read _ =>
      have removed : Hinting config known told { self with
          reading := self.reading.filter fun other => other.id ≠ id } :=
        { hinting with }
      exact removed.awaitApplied read

/-- A tally that is cut short has heard of a higher term. -/
theorem finishReadIndex (hinting : Hinting config known told self) (id : Nat) (readIdx : Int)
    (termAtStart : Nat) (results : List (Option Reply))
    (unnamed : ∀ term, tally Reply.success self.currentTerm results 1 = .stepDown term →
      told → self.leaderId = none) :
    Hinting config known told
      (self.finishReadIndex config id readIdx termAtStart results) := by
  rw [Node.finishReadIndex]
  split
  next term deposed =>
      exact (hinting.becomeFollower (unnamed term deposed) term).works (emit_works _ _)
  · split
    · exact hinting.works (emit_works _ _)
    · split
      · exact hinting.works (emit_works _ _)
      · exact hinting.awaitApplied _

/-! ## Handlers -/

section Peers

variable [DecidableEq Id]

/-- The announcement comes before anything is sent. -/
theorem becomeLeader (fresh : self.trace = [])
    (others : config.replicaId ∉ config.peers) :
    Hinting config known told (self.becomeLeader config) := by
  have announced : Hinting config known told ({ self with
      electionTimer := false
      role := .leader
      leaderId := some config.replicaId
      nextIndex := fun peer =>
        if peer ∈ config.peers then some (self.db.lastIndex + 1) else none
      matchIndex := fun peer =>
        if peer ∈ config.peers then some (-1) else none }.emit
          (.role .leader self.currentTerm)) := by
    constructor
    case hint =>
      rintro _ leader ⟨⟩
      exact Or.inr ⟨rfl, [], by simp [emit, fresh]⟩
    case own => exact fun _ _ => rfl
    case leads => exact fun _ => ⟨rfl, Or.inr ⟨[], by simp [emit, fresh]⟩⟩
    case stands => exact fun candidate => by cases candidate
    case quotes => simp [emit, fresh]
  have sent := (announced.works (appendLocal_works _ .noop .null)).sendAppendEntriesToAll
    others
  exact { sent with }

theorem finishElection (hinting : Hinting config known told self) (fresh : self.trace = [])
    (others : config.replicaId ∉ config.peers) (termAtStart : Nat)
    (results : List (Option Reply)) :
    Hinting config known told (self.finishElection config termAtStart results) := by
  rw [Node.finishElection]
  split
  · exact hinting
  next active =>
      simp only [not_or, not_not] at active
      split
      · exact hinting.becomeFollower (fun _ => hinting.stands active.2.1) _
      · split
        · exact becomeLeader fresh others
        · exact hinting

theorem handleRequestVote (hinting : Hinting config known told self) (body : RequestVote Id)
    (unnamed : self.currentTerm < body.term → told → self.leaderId = none) :
    Hinting config known told (self.handleRequestVote body).1 := by
  have heard : Hinting config known told
      (if self.currentTerm < body.term then self.becomeFollower body.term none
        else self) := by
    split
    next higher => exact hinting.becomeFollower (unnamed higher) body.term
    next => exact hinting
  rw [Node.handleRequestVote]
  dsimp only
  generalize (if self.currentTerm < body.term then self.becomeFollower body.term none
    else self) = node at heard ⊢
  split
  · exact heard
  · split
    · exact heard
    · split
      · exact heard
      · exact heard.carry rfl rfl rfl rfl rfl

theorem handle (hinting : Hinting config known told self)
    (request : Request Id machine.Blob)
    (unnamed : ∀ body, request = .requestVote body → self.currentTerm < body.term →
      told → self.leaderId = none)
    (won : ∀ era leader, request.leader? = some (era, leader) →
      leader ≠ config.replicaId ∧ known leader era) :
    Hinting config known told (self.handle config request).1 := by
  cases request with
  | requestVote body => exact hinting.handleRequestVote body (unnamed body rfl)
  | appendEntries body =>
      obtain ⟨other, announced⟩ := won body.term body.leaderId rfl
      by_cases recent : self.currentTerm ≤ body.term
      · exact (hinting.followLeader recent announced other).works
          (self.handleAppendEntries_works config body recent)
      · rw [Node.handle, Node.handleAppendEntries, if_pos (Nat.not_le.mp recent)]
        exact hinting
  | installSnapshot body =>
      obtain ⟨other, announced⟩ := won body.term body.leaderId rfl
      by_cases recent : self.currentTerm ≤ body.term
      · exact (hinting.followLeader recent announced other).works
          (self.handleInstallSnapshot_works body recent)
      · rw [Node.handle, Node.handleInstallSnapshot, if_pos (Nat.not_le.mp recent)]
        exact hinting

theorem finishAppendEntries (hinting : Hinting config known told self) (peer : Id)
    (next prevLogIndex : Int) (entries : List LogEntry) (result : Option Reply)
    (unnamed : self.deposes result = true → told → self.leaderId = none) :
    Hinting config known told
      (self.finishAppendEntries config peer next prevLogIndex entries result) := by
  cases result with
  | none => exact hinting
  | some body =>
      simp only [Node.finishAppendEntries]
      split
      · exact hinting
      next active =>
          simp only [not_or, not_not] at active
          split
          next higher =>
              exact hinting.becomeFollower (unnamed (by simp [deposes, active, higher])) _
          · split
            · refine maybeAdvanceCommitIndex ?_
              exact { hinting with }
            · exact { hinting with }

theorem finishInstallSnapshot (hinting : Hinting config known told self) (peer : Id)
    (lastIncludedIndex : Int) (result : Option Reply)
    (unnamed : self.deposes result = true → told → self.leaderId = none) :
    Hinting config known told (self.finishInstallSnapshot peer lastIncludedIndex result) := by
  cases result with
  | none => exact hinting
  | some body =>
      simp only [Node.finishInstallSnapshot]
      split
      · exact hinting
      next active =>
          simp only [not_or, not_not] at active
          split
          next higher =>
              exact hinting.becomeFollower (unnamed (by simp [deposes, active, higher])) _
          · exact { hinting with }

theorem resume (hinting : Hinting config known told self) (fresh : self.trace = [])
    (others : config.replicaId ∉ config.peers) (await : Await Id)
    (results : List (Option Reply))
    (unnamed : self.hearsTerm await results = true → told → self.leaderId = none) :
    Hinting config known told (self.resume config await results) := by
  cases await with
  | election termAtStart => exact hinting.finishElection fresh others _ _
  | appendEntries peer next prevLogIndex entries =>
      exact hinting.finishAppendEntries _ _ _ _ _ unnamed
  | installSnapshot peer lastIncludedIndex =>
      exact hinting.finishInstallSnapshot _ _ _ unnamed
  | readIndex id readIdx termAtStart =>
      refine hinting.finishReadIndex _ _ _ _ fun term deposed => unnamed ?_
      rw [hearsTerm, deposed]

end Peers

end Hinting

end Node

/-! ## The cluster -/

namespace World

variable {Id : Type} {machine : Machine} [DecidableEq Id]

/-- A node that names a leader adopts a higher term from a vote request or from a
reply, and neither tells it who leads in that term. -/
def keepsHint (world : World Id machine) : Action Id → Bool
  | .deliver id target =>
      match (world.calls[id]?).map Call.request with
      | some (.requestVote body) => decide ((world.node target).leaderId ≠ none ∧
          (world.node target).currentTerm < body.term)
      | _ => false
  | .resume id results =>
      match world.calls[id]? with
      | some call => decide ((world.node call.src).leaderId ≠ none) &&
          (world.node call.src).hearsTerm call.await results
      | none => false
  | _ => false

/-- `leader` has won the election of `era`. -/
def Leads (world : World Id machine) (leader : Id) (era : Nat) : Prop :=
  (leader, .role .leader era) ∈ world.history

/-- The invariant of hints: they are right, and so are the requests of leaders. -/
structure Hinted (world : World Id machine) : Prop where
  hint : ∀ self leader, (world.node self).leaderId = some leader →
    world.Leads leader (world.node self).currentTerm
  own : ∀ self, (world.node self).leaderId = some self → (world.node self).role = .leader
  leads : ∀ self, (world.node self).role = .leader → (world.node self).leaderId = some self
  stands : ∀ self, (world.node self).role = .candidate → (world.node self).leaderId = none
  quotes : ∀ call ∈ world.calls, call.src ∉ call.targets ∧
    ∀ era leader, call.request.leader? = some (era, leader) →
      leader = call.src ∧ world.Leads leader era

namespace Hinted

variable {cluster : Cluster Id} {world next : World Id machine} {actor : Id}
  {node : Node Id machine} {done : List (Effect Id machine.Blob)}
  {reply : Option (Delivery Id)}

omit [DecidableEq Id] in
theorem fresh (hinted : world.Hinted) (told : Prop) (self : Id) :
    Node.Hinting (cluster.config self) world.Leads told (world.fresh self) where
  hint _ leader named := Or.inl (hinted.hint self leader named)
  own _ := hinted.own self
  leads office := ⟨hinted.leads self office,
    Or.inl (hinted.hint self self (hinted.leads self office))⟩
  stands := hinted.stands self
  quotes := by simp [World.fresh]

theorem turn (hinted : world.Hinted) {action : Action Id} {turn : Turn Id machine}
    (taken : world.turn cluster action = some turn) :
    Node.Hinting (cluster.config turn.self) world.Leads (world.keepsHint action = false)
      turn.after := by
  obtain ⟨self, after, reply, resumed⟩ := turn
  obtain ⟨stimulus, prompts, same, _⟩ := turn_prompts taken
  dsimp only at prompts same ⊢
  rw [same]
  have others : (cluster.config self).replicaId ∉ (cluster.config self).peers :=
    fun inside => (cluster.mem_peers self self).mp inside rfl
  have fresh : Node.Hinting (cluster.config self) world.Leads
      (world.keepsHint action = false) (world.fresh self) := hinted.fresh _ self
  cases prompts with
  | electionTimeout => exact fresh.startElection others
  | heartbeat => exact fresh.sendAppendEntriesToAll others
  | submit _ type payload => exact fresh.submit others _ type payload
  | readIndex => exact fresh.startReadIndex others _
  | @deliver id _ call issued asked =>
      obtain ⟨apart, quoted⟩ := hinted.quotes call (List.mem_of_getElem? issued)
      refine fresh.handle call.request ?_ ?_
      · intro body request higher told
        by_contra named
        have names : (world.node self).leaderId ≠ none := named
        have raises : (world.node self).currentTerm < body.term := higher
        simp [keepsHint, issued, request, names, raises] at told
      · intro era leader request
        obtain ⟨rfl, won⟩ := quoted era leader request
        exact ⟨fun same => apart (same ▸ asked), won⟩
  | @resume id results call issued answers =>
      refine fresh.resume rfl others call.await results ?_
      intro hears told
      by_contra named
      have names : (world.node call.src).leaderId ≠ none := named
      have raises : (world.node call.src).hearsTerm call.await results = true := hears
      simp [keepsHint, issued, names, raises] at told
  | resumeSubmit _ id => exact fresh.resumeSubmit id
  | submitTimeout _ id => exact fresh.submitTimeout id
  | pollRead _ id => exact fresh.pollRead id

/-- An announcement that begins a handler's effects is seen as soon as any is. -/
theorem announced (advances : world.Advances next actor node done reply)
    {trace : List (Effect Id machine.Blob)} {era : Nat} (begun : Node.Announces trace era)
    (cut : done <+: trace) (some_done : done ≠ []) : next.Leads actor era := by
  obtain ⟨rest, rfl⟩ := begun
  rcases List.prefix_cons_iff.mp cut with nothing | ⟨others, rfl, _⟩
  · exact absurd nothing some_done
  · exact advances.mem_history.mpr (Or.inl ⟨rfl, by simp⟩)

omit [DecidableEq Id] in
theorem start_nameless (db : Database Id machine.Blob) :
    (Node.start db).role = .follower ∧ (Node.start db).leaderId = none := by
  unfold Node.start
  cases db.loadLatestSnapshot <;> simp [Node.becomeFollower, Node.emit]

/-- A step keeps the hints right if the acting node ends up with a right one. -/
theorem advance (hinted : world.Hinted)
    (advances : world.Advances next actor node done reply)
    (hint : ∀ leader, node.leaderId = some leader → next.Leads leader node.currentTerm)
    (own : node.leaderId = some actor → node.role = .leader)
    (leads : node.role = .leader → node.leaderId = some actor)
    (stands : node.role = .candidate → node.leaderId = none)
    (quotes : ∀ call ∈ Effect.sends done, call.src = actor ∧ call.src ∉ call.targets ∧
      ∀ era leader, call.request.leader? = some (era, leader) →
        leader = actor ∧ next.Leads leader era) : next.Hinted := by
  have kept : ∀ {leader era}, world.Leads leader era → next.Leads leader era :=
    fun won => advances.mem_history.mpr (Or.inr won)
  constructor
  case hint =>
    intro self leader named
    by_cases acting : self = actor
    · subst acting
      rw [advances.node_actor] at named ⊢
      exact hint leader named
    · rw [advances.node_other acting] at named ⊢
      exact kept (hinted.hint self leader named)
  case own =>
    intro self
    by_cases acting : self = actor
    · subst acting
      rwa [advances.node_actor]
    · rw [advances.node_other acting]
      exact hinted.own self
  case leads =>
    intro self
    by_cases acting : self = actor
    · subst acting
      rwa [advances.node_actor]
    · rw [advances.node_other acting]
      exact hinted.leads self
  case stands =>
    intro self
    by_cases acting : self = actor
    · subst acting
      rwa [advances.node_actor]
    · rw [advances.node_other acting]
      exact hinted.stands self
  case quotes =>
    intro call member
    rcases advances.mem_calls.mp member with old | fresh
    · obtain ⟨apart, quoted⟩ := hinted.quotes call old
      exact ⟨apart, fun era leader request => (quoted era leader request).imp id kept⟩
    · obtain ⟨rfl, apart, quoted⟩ := quotes call fresh
      exact ⟨apart, quoted⟩

theorem step (hinted : world.Hinted) {action : Action Id}
    (told : world.keepsHint action = false)
    (stepped : world.step cluster action = some next) : next.Hinted := by
  obtain ⟨actor, node, done, reply, progress, advances⟩ := step_progress stepped
  have kept : ∀ {leader era}, world.Leads leader era → next.Leads leader era :=
    fun won => advances.mem_history.mpr (Or.inr won)
  cases progress with
  | handled turn taken =>
      have hinting := hinted.turn taken
      refine hinted.advance advances ?_ (hinting.own told) (fun office =>
        (hinting.leads office).1) hinting.stands fun call member => ?_
      · intro leader named
        rcases hinting.hint told leader named with won | ⟨rfl, rest, begun⟩
        · exact kept won
        · exact announced advances ⟨rest, begun⟩ List.prefix_rfl (by simp [begun])
      · obtain ⟨src, apart, quoted⟩ := hinting.quotes call member
        refine ⟨src, apart, fun era leader request => ?_⟩
        obtain ⟨rfl, won | ⟨rest, begun⟩⟩ := quoted era leader request
        · exact ⟨rfl, kept won⟩
        · exact ⟨rfl, announced advances ⟨rest, begun⟩ List.prefix_rfl (by simp [begun])⟩
  | interrupted inner effects turn _ taken =>
      have hinting := hinted.turn taken
      obtain ⟨role, named⟩ := start_nameless
        (Effect.file (world.node turn.self).db (turn.after.trace.take effects))
      have cut := List.take_prefix effects turn.after.trace
      refine hinted.advance advances (by simp [named]) (by simp [named]) (by simp [role])
        (by simp [role]) fun call member => ?_
      obtain ⟨src, apart, quoted⟩ :=
        hinting.quotes call ((Effect.sends_prefix cut).subset member)
      refine ⟨src, apart, fun era leader request => ?_⟩
      obtain ⟨rfl, won | begun⟩ := quoted era leader request
      · exact ⟨rfl, kept won⟩
      · refine ⟨rfl, announced advances begun cut fun nothing => ?_⟩
        rw [nothing] at member
        cases member
  | crashed self _ =>
      obtain ⟨role, named⟩ := start_nameless (world.node actor).db
      exact hinted.advance advances (by simp [named]) (by simp [named]) (by simp [role])
        (by simp [role]) (by simp)

omit [DecidableEq Id] in
theorem initial : (init : World Id machine).Hinted where
  hint _ _ named := nomatch named
  own _ named := nomatch named
  leads _ office := nomatch office
  stands _ standing := nomatch standing
  quotes _ member := nomatch member

theorem of_reach {allowed : World Id machine → Action Id → Prop}
    (told : ∀ world action, allowed world action → world.keepsHint action = false)
    (reached : (cluster.system machine).Reach allowed world) : world.Hinted :=
  reached.invariant initial fun _ _ _ _ hinted permitted stepped =>
    hinted.step (told _ _ permitted) stepped

end Hinted

/-- Nobody wins a term that somebody else has won. -/
theorem Electoral.winner_unique [Fintype Id] {cluster : Cluster Id}
    {world : World Id machine} (electoral : Electoral cluster world) {left right : Id}
    {era : Nat} (leftWon : world.Leads left era) (rightWon : world.Leads right era) :
    left = right := by
  obtain ⟨_, majority, _, ballots⟩ := electoral.led left era leftWon
  obtain ⟨_, majority', _, ballots'⟩ := electoral.led right era rightWon
  obtain ⟨voter, inLeft, inRight⟩ := majority.inter majority'
  exact electoral.single voter era left right (ballots voter inLeft) (ballots' voter inRight)

end World

/-- As long as no node adopts a term behind its hint's back, every hint names the node
that won the election of the current term, and nobody but a leader names itself. -/
theorem leader_hint_current {Id : Type} [DecidableEq Id] [Fintype Id]
    (cluster : Cluster Id) (machine : Machine) (world : World Id machine)
    (reached : (cluster.system machine).Reach
      (fun world action => world.keepsHint action = false) world) (self : Id) :
    (∀ leader, (world.node self).leaderId = some leader → ∀ winner,
      world.Leads winner (world.node self).currentTerm ↔ winner = leader) ∧
    ((world.node self).role ≠ .leader → (world.node self).leaderId ≠ some self) := by
  have hinted := World.Hinted.of_reach (fun _ _ => id) reached
  refine ⟨fun leader named winner => ?_, fun idle named => idle (hinted.own self named)⟩
  have right := hinted.hint self leader named
  constructor
  · exact fun won => (World.Electoral.of_reach reached).winner_unique won right
  · rintro rfl
    exact right

/-- Replica 0 wins term `1` and tells replica 1. -/
def introduction : List (Action (Fin 3)) :=
  [.electionTimeout 0, .deliver 0 1,
    .resume 0 [some { term := 1, voteGranted := true }, none], .deliver 1 1]

theorem leader_hint_current_introduced : ∃ world : World (Fin 3) canvas,
    (world.node 1).leaderId = some 0 ∧ (world.node 1).currentTerm = 1 ∧
      (∀ winner, world.Leads winner 1 ↔ winner = 0) := by
  obtain ⟨world, reached, passed⟩ :=
    ((Cluster.ofFin 3 1).system canvas).exists_reach_of_run
      (fun world action => world.keepsHint action = false) introduction
      (fun world => decide ((world.node 1).leaderId = some 0) &&
        decide ((world.node 1).currentTerm = 1))
      (by decide +kernel)
  simp only [Bool.and_eq_true, decide_eq_true_eq] at passed
  refine ⟨world, passed.1, passed.2, fun winner => ?_⟩
  have current := (leader_hint_current _ _ world reached 1).1 0 passed.1 winner
  rwa [passed.2] at current

/-- Replica 0 leads term `1` when the vote request of replica 1 for term `2` reaches it. -/
def deposition : List (Action (Fin 3)) :=
  [.electionTimeout 0, .deliver 0 1,
    .resume 0 [some { term := 1, voteGranted := true }, none],
    .electionTimeout 1, .deliver 3 0]

/-- The deposed leader goes on naming itself, in a term that nobody has won. -/
theorem leader_hint_deposed : ∃ world : World (Fin 3) canvas,
    ((Cluster.ofFin 3 1).system canvas).Reach (fun _ _ => True) world ∧
      (world.node 0).role = .follower ∧ (world.node 0).leaderId = some 0 ∧
        ∀ winner, ¬world.Leads winner (world.node 0).currentTerm := by
  obtain ⟨world, reached, passed⟩ :=
    ((Cluster.ofFin 3 1).system canvas).exists_reach_of_run (fun _ _ => True) deposition
      (fun world => decide ((world.node 0).role = .follower) &&
        (decide ((world.node 0).leaderId = some 0) &&
          decide ((world.node 0).currentTerm ∉ leaderTerms (world.history.map Prod.snd))))
      (by decide +kernel)
  simp only [Bool.and_eq_true, decide_eq_true_eq] at passed
  obtain ⟨role, named, vacant⟩ := passed
  exact ⟨world, reached, role, named, fun winner won =>
    vacant (mem_leaderTerms.mpr (List.mem_map.mpr ⟨_, won, rfl⟩))⟩

end RaftCanvas
