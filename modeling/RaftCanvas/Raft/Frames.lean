import RaftCanvas.Raft.RaftNode

/-!
# What the methods leave alone

Most methods work on the file, the state machine and the commit index only.  `Works`
says so of one of them, and any fact about another field carries over at once.
-/

namespace RaftCanvas

/-- The term and the sender of a request that only leaders send. -/
def Request.leader? {Id Blob : Type} : Request Id Blob → Option (Nat × Id)
  | .requestVote _ => none
  | .appendEntries body => some (body.term, body.leaderId)
  | .installSnapshot body => some (body.term, body.leaderId)

namespace Node

variable {Id : Type} {machine : Machine}

/-- From `self` to `after` the file, the state machine and the commit index may have
changed, and nothing was sent. -/
def Works (self after : Node Id machine) : Prop :=
  ∃ db stateMachine commitIndex more,
    after = { self with db, stateMachine, commitIndex, trace := self.trace ++ more } ∧
      Effect.sends more = []

namespace Works

variable {self mid after : Node Id machine}

theorem refl (self : Node Id machine) : self.Works self :=
  ⟨self.db, self.stateMachine, self.commitIndex, [], by simp, rfl⟩

theorem trans (left : self.Works mid) (right : mid.Works after) : self.Works after := by
  obtain ⟨_, _, _, more, rfl, quiet⟩ := left
  obtain ⟨db, stateMachine, commitIndex, more', rfl, quiet'⟩ := right
  exact ⟨db, stateMachine, commitIndex, more ++ more', by simp, by simp [quiet, quiet']⟩

theorem role (works : self.Works after) : after.role = self.role := by
  obtain ⟨_, _, _, _, rfl, _⟩ := works
  rfl

theorem leaderId (works : self.Works after) : after.leaderId = self.leaderId := by
  obtain ⟨_, _, _, _, rfl, _⟩ := works
  rfl

theorem currentTerm (works : self.Works after) : after.currentTerm = self.currentTerm := by
  obtain ⟨_, _, _, _, rfl, _⟩ := works
  rfl

theorem commitListeners (works : self.Works after) :
    after.commitListeners = self.commitListeners := by
  obtain ⟨_, _, _, _, rfl, _⟩ := works
  rfl

theorem resumable (works : self.Works after) : after.resumable = self.resumable := by
  obtain ⟨_, _, _, _, rfl, _⟩ := works
  rfl

theorem sends (works : self.Works after) :
    Effect.sends after.trace = Effect.sends self.trace := by
  obtain ⟨_, _, _, more, rfl, quiet⟩ := works
  simp [quiet]

end Works

theorem write_works (self : Node Id machine)
    (transaction : Database Id machine.Blob → Database Id machine.Blob) :
    self.Works (self.write transaction) :=
  ⟨_, _, _, _, rfl, rfl⟩

theorem emit_works (self : Node Id machine) (event : Event machine.Blob) :
    self.Works (self.emit event) :=
  ⟨_, _, _, _, rfl, rfl⟩

theorem appendLocal_works (self : Node Id machine) (type : EntryType) (payload : Json) :
    self.Works (self.appendLocal type payload).1 :=
  self.write_works fun db => db.appendEntries [_]

theorem applyLoop_works (fuel : Nat) (self : Node Id machine) :
    self.Works (applyLoop fuel self) := by
  induction fuel generalizing self with
  | zero => exact .refl self
  | succ fuel ih =>
      rw [applyLoop]
      split
      · split
        · exact .refl self
        next entry _ =>
            have applied : self.Works
                ({ self with stateMachine := machine.apply self.stateMachine entry }.emit
                  (.applied entry)) :=
              ⟨_, _, _, _, rfl, rfl⟩
            exact applied.trans (ih _)
      · exact .refl self

theorem maybeSnapshot_works (config : Config Id) (self : Node Id machine) :
    self.Works (self.maybeSnapshot config) := by
  rw [maybeSnapshot]
  split
  · exact .refl self
  · split
    · exact .refl self
    · split
      · exact .refl self
      · exact ((self.write_works _).trans (write_works _ _)).trans (emit_works _ _)

theorem applyCommitted_works (config : Config Id) (self : Node Id machine) :
    self.Works (self.applyCommitted config) :=
  (applyLoop_works _ self).trans (maybeSnapshot_works config _)

theorem storeEntries_works (self : Node Id machine) (entries : List LogEntry) :
    self.Works (self.storeEntries entries) := by
  rw [storeEntries]
  dsimp only
  split
  · exact (self.write_works _).trans (write_works _ _)
  · exact .refl self

theorem followCommit_works (config : Config Id) (self : Node Id machine)
    (leaderCommit : Int) : self.Works (self.followCommit config leaderCommit) := by
  rw [followCommit]
  split
  · have raised : self.Works
        { self with commitIndex := min leaderCommit self.db.lastIndex } :=
      ⟨self.db, self.stateMachine, min leaderCommit self.db.lastIndex, [], by simp, rfl⟩
    exact raised.trans (applyCommitted_works config _)
  · exact .refl self

theorem installSnapshot_works (self : Node Id machine)
    (body : InstallSnapshot Id machine.Blob) : self.Works (self.installSnapshot body) := by
  have discarded : self.Works
      (self.discardLog body.lastIncludedIndex body.lastIncludedTerm) := by
    rw [discardLog]
    split
    · split <;> exact self.write_works _
    · exact self.write_works _
  refine (discarded.trans (write_works _ fun db =>
    db.saveSnapshot body.lastIncludedIndex body.lastIncludedTerm body.data)).trans ?_
  exact ⟨_, _, _, _, rfl, rfl⟩

theorem becomeFollower_frame (self : Node Id machine) (term : Nat) (leaderId : Option Id) :
    (self.becomeFollower term leaderId).role = .follower ∧
      ∃ era votedFor, (self.becomeFollower term leaderId).db =
        self.db.saveTermAndVote era votedFor := by
  rw [becomeFollower]
  dsimp only
  split
  · exact ⟨rfl, _, _, rfl⟩
  · exact ⟨rfl, _, _, rfl⟩

theorem becomeFollower_role (self : Node Id machine) (term : Nat) (leaderId : Option Id) :
    (self.becomeFollower term leaderId).role = .follower :=
  (self.becomeFollower_frame term leaderId).1

theorem followLeader_frame (self : Node Id machine) (term : Nat) (leaderId : Id) :
    (self.followLeader term leaderId).role = .follower ∧
      ∃ era votedFor, (self.followLeader term leaderId).db =
        self.db.saveTermAndVote era votedFor := by
  rw [followLeader]
  split
  · exact self.becomeFollower_frame term (some leaderId)
  next settled =>
      simp only [not_or, not_not] at settled
      exact ⟨settled.2, _, _, rfl⟩

theorem followLeader_currentTerm {self : Node Id machine} {term : Nat}
    (recent : self.currentTerm ≤ term) (leaderId : Id) :
    (self.followLeader term leaderId).currentTerm = term := by
  rw [followLeader]
  split
  next =>
      rw [becomeFollower]
      dsimp only
      split
      · rfl
      next same => exact Nat.le_antisymm recent (Nat.not_lt.mp same)
  next same => exact Nat.le_antisymm recent (Nat.not_lt.mp (not_or.mp same).1)

theorem followLeader_memory (self : Node Id machine) (term : Nat) (leaderId : Id) :
    (self.followLeader term leaderId).stateMachine = self.stateMachine ∧
      (self.followLeader term leaderId).commitIndex = self.commitIndex := by
  rw [followLeader, becomeFollower]
  split
  · dsimp only
    split <;> exact ⟨rfl, rfl⟩
  · exact ⟨rfl, rfl⟩

theorem storeEntries_frame (self : Node Id machine) (entries : List LogEntry) :
    ∃ db trace, self.storeEntries entries = { self with db, trace } := by
  rw [storeEntries]
  dsimp only
  split <;> exact ⟨_, _, rfl⟩

theorem emitCommit_trace (self : Node Id machine) (n : Int) :
    ∃ more, (self.emitCommit n).trace = self.trace ++ more ∧ Effect.sends more = [] := by
  refine ⟨_, rfl, ?_⟩
  rw [Effect.sends_cons_event, Effect.sends, List.filterMap_map]
  exact List.filterMap_eq_nil_iff.mpr fun _ _ => rfl

/-! ## The handlers of a leader's requests -/

/-- What is not turned down for its term makes the node follow, and work. -/
theorem handleAppendEntries_works (config : Config Id) (self : Node Id machine)
    (body : AppendEntries Id) (recent : self.currentTerm ≤ body.term) :
    (self.followLeader body.term body.leaderId).Works
      (self.handleAppendEntries config body).1 := by
  rw [handleAppendEntries, if_neg (Nat.not_lt.mpr recent)]
  dsimp only
  split
  · exact (storeEntries_works _ body.entries).trans (followCommit_works config _ _)
  · exact .refl _

theorem handleInstallSnapshot_works (self : Node Id machine)
    (body : InstallSnapshot Id machine.Blob) (recent : self.currentTerm ≤ body.term) :
    (self.followLeader body.term body.leaderId).Works
      (self.handleInstallSnapshot body).1 := by
  rw [handleInstallSnapshot, if_neg (Nat.not_lt.mpr recent)]
  dsimp only
  split
  · exact .refl _
  · exact installSnapshot_works _ body

/-- Sending changes nothing but the trace, and only a leader sends. -/
theorem sendAppendEntriesToAll_sends (config : Config Id) (self : Node Id machine) :
    ∃ calls : List (Call Id machine.Blob),
      self.sendAppendEntriesToAll config =
        { self with trace := self.trace ++ calls.map .send } ∧
      ∀ call ∈ calls, self.role = .leader ∧ call.src = config.replicaId ∧
        call.request.leader? = some (self.currentTerm, config.replicaId) ∧
          ∃ peer ∈ config.peers, call.targets = [peer] := by
  rw [sendAppendEntriesToAll]
  split
  · exact ⟨[], by simp, by simp⟩
  next leader =>
  suffices each : ∀ peers : List Id, (∀ peer ∈ peers, peer ∈ config.peers) →
      ∀ start : Node Id machine, start.role = self.role →
        start.currentTerm = self.currentTerm →
        ∃ calls : List (Call Id machine.Blob),
          peers.foldl (sendAppendEntriesTo config) start =
            { start with trace := start.trace ++ calls.map .send } ∧
          ∀ call ∈ calls, self.role = .leader ∧ call.src = config.replicaId ∧
            call.request.leader? = some (self.currentTerm, config.replicaId) ∧
              ∃ peer ∈ config.peers, call.targets = [peer] from
    each config.peers (fun _ => id) self rfl rfl
  intro peers
  induction peers with
  | nil => exact fun _ start _ _ => ⟨[], by simp, by simp⟩
  | cons peer rest ih =>
      intro inside start role term
      have others := ih fun other member => inside other (List.mem_cons_of_mem _ member)
      cases asked : start.appendEntriesCall config peer with
      | none =>
          rw [List.foldl_cons, sendAppendEntriesTo, asked]
          exact others start role term
      | some call =>
          obtain ⟨calls, sent, shapes⟩ := others (start.send call) role term
          refine ⟨call :: calls, ?_, ?_⟩
          · rw [List.foldl_cons, sendAppendEntriesTo, asked]
            dsimp only
            rw [sent]
            simp [send]
          · intro other member
            rcases List.mem_cons.mp member with rfl | later
            · have shape : other.src = config.replicaId ∧
                  other.request.leader? = some (start.currentTerm, config.replicaId) ∧
                    other.targets = [peer] := by
                simp only [appendEntriesCall, installSnapshotCall] at asked
                split at asked
                · simp at asked
                · split at asked
                  · obtain ⟨snap, _, rfl⟩ := Option.map_eq_some_iff.mp asked
                    exact ⟨rfl, rfl, rfl⟩
                  · obtain rfl := Option.some.inj asked
                    exact ⟨rfl, rfl, rfl⟩
              exact ⟨by simpa using leader, shape.1, by rw [shape.2.1, term],
                peer, inside peer List.mem_cons_self, shape.2.2⟩
            · exact shapes other later

end Node

end RaftCanvas
