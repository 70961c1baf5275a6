import RaftCanvas.Raft.Life

/-!
# A node that goes on

No handler stops a node.  Only what a leader learns from a reply, or writes as it takes
office, changes the index from which it sends to a peer.
-/

namespace RaftCanvas

namespace Node

variable {Id : Type} {machine : Machine} {config : Config Id}

/-- The node is not stopped, and sends to its peers from the same indexes. -/
structure Undisturbed (before after : Node Id machine) : Prop where
  stopped : after.stopped = before.stopped
  nextIndex : after.nextIndex = before.nextIndex

namespace Undisturbed

variable {before mid after : Node Id machine}

theorem refl (self : Node Id machine) : self.Undisturbed self :=
  ⟨rfl, rfl⟩

theorem trans (left : before.Undisturbed mid) (right : mid.Undisturbed after) :
    before.Undisturbed after :=
  ⟨right.stopped.trans left.stopped, right.nextIndex.trans left.nextIndex⟩

end Undisturbed

theorem Works.undisturbed {self after : Node Id machine} (works : self.Works after) :
    self.Undisturbed after := by
  obtain ⟨_, _, _, _, rfl, _⟩ := works
  exact ⟨rfl, rfl⟩

theorem becomeFollower_undisturbed (self : Node Id machine) (term : Nat)
    (leaderId : Option Id) : self.Undisturbed (self.becomeFollower term leaderId) := by
  rw [becomeFollower]
  dsimp only
  split <;> exact ⟨rfl, rfl⟩

theorem followLeader_undisturbed (self : Node Id machine) (term : Nat) (leaderId : Id) :
    self.Undisturbed (self.followLeader term leaderId) := by
  rw [followLeader]
  split
  · exact self.becomeFollower_undisturbed term (some leaderId)
  · exact ⟨rfl, rfl⟩

theorem sendAppendEntriesToAll_undisturbed (self : Node Id machine) (config : Config Id) :
    self.Undisturbed (self.sendAppendEntriesToAll config) := by
  obtain ⟨calls, sent, _⟩ := self.sendAppendEntriesToAll_sends config
  rw [sent]
  exact ⟨rfl, rfl⟩

theorem maybeAdvanceCommitIndex_undisturbed (self : Node Id machine) :
    self.Undisturbed (self.maybeAdvanceCommitIndex config) := by
  rw [maybeAdvanceCommitIndex]
  split
  · exact .refl self
  · dsimp only
    split
    · exact .refl self
    next n _ =>
        have works := (applyCommitted_works config { self with commitIndex := n }).undisturbed
        exact ⟨works.stopped, works.nextIndex⟩

theorem submit_undisturbed (self : Node Id machine) (id : Nat) (type : EntryType)
    (payload : Json) : self.Undisturbed (self.submit config id type payload) := by
  have sent := (appendLocal_works self type payload).undisturbed.trans
    (sendAppendEntriesToAll_undisturbed _ config)
  rw [submit]
  split
  · exact ⟨rfl, rfl⟩
  · split
    · exact ⟨rfl, rfl⟩
    · dsimp only
      split <;> exact sent.trans ⟨rfl, rfl⟩

theorem awaitApplied_undisturbed (self : Node Id machine) (read : Reading) :
    self.Undisturbed (self.awaitApplied read) := by
  rw [awaitApplied]
  split <;> exact ⟨rfl, rfl⟩

theorem finishReadIndex_undisturbed (self : Node Id machine) (id : Nat) (readIdx : Int)
    (termAtStart : Nat) (results : List (Option Reply)) :
    self.Undisturbed (self.finishReadIndex config id readIdx termAtStart results) := by
  rw [finishReadIndex]
  split
  · exact (self.becomeFollower_undisturbed _ none).trans ⟨rfl, rfl⟩
  · split
    · exact ⟨rfl, rfl⟩
    · split
      · exact ⟨rfl, rfl⟩
      · exact self.awaitApplied_undisturbed _

/-- Indexes from which a leader sends are of a kind. -/
def Poised (fits : Int → Prop) (self : Node Id machine) : Prop :=
  self.stopped = false ∧ ∀ peer next, self.nextIndex peer = some next → fits next

/-- What a node is about to write into `nextIndex`. -/
def Suits (fits : Int → Prop) (self : Node Id machine) : Stimulus Id machine.Blob → Prop
  | .resume (.election _) _ => fits (self.db.lastIndex + 1)
  | .resume (.appendEntries _ next prevLogIndex entries) _ =>
      fits (entries.getLast?.elim prevLogIndex LogEntry.index + 1) ∧ fits (max 0 (next - 1))
  | .resume (.installSnapshot _ lastIncludedIndex) _ => fits (lastIncludedIndex + 1)
  | _ => True

theorem suits_any (self : Node Id machine) (stimulus : Stimulus Id machine.Blob) :
    self.Suits (fun _ => True) stimulus := by
  cases stimulus with
  | resume await results => cases await <;> simp [Suits]
  | _ => trivial

variable {fits : Int → Prop}

theorem Undisturbed.poised {self after : Node Id machine} (undisturbed : self.Undisturbed after)
    (poised : self.Poised fits) : after.Poised fits :=
  ⟨undisturbed.stopped.trans poised.1, undisturbed.nextIndex ▸ poised.2⟩

variable [DecidableEq Id]

theorem Poised.update {self : Node Id machine} (poised : self.Poised fits) {peer : Id}
    {next : Int} (suits : fits next) (matchIndex : Id → Option Int) :
    ({ self with
      matchIndex
      nextIndex := Function.update self.nextIndex peer (some next) } :
        Node Id machine).Poised fits := by
  refine ⟨poised.1, fun other value known => ?_⟩
  dsimp only at known
  by_cases same : other = peer
  · subst same
    rw [Function.update_self] at known
    exact Option.some.inj known ▸ suits
  · rw [Function.update_of_ne same] at known
    exact poised.2 other value known

theorem becomeLeader_poised {self : Node Id machine} (poised : self.Poised fits)
    (suits : fits (self.db.lastIndex + 1)) : (self.becomeLeader config).Poised fits := by
  rw [becomeLeader]
  dsimp only
  generalize sent : sendAppendEntriesToAll config _ = node
  obtain ⟨calls, same, _⟩ := sendAppendEntriesToAll_sends config _
  rw [same] at sent
  subst sent
  refine ⟨poised.1, fun peer next known => ?_⟩
  have known : (if peer ∈ config.peers then some (self.db.lastIndex + 1) else none) =
      some next := known
  split at known
  · exact Option.some.inj known ▸ suits
  · cases known

theorem handleRequestVote_undisturbed (self : Node Id machine) (body : RequestVote Id) :
    self.Undisturbed (self.handleRequestVote body).1 := by
  have raised : self.Undisturbed (if self.currentTerm < body.term then
      self.becomeFollower body.term none else self) := by
    split
    · exact self.becomeFollower_undisturbed _ none
    · exact .refl self
  rw [handleRequestVote]
  dsimp only
  generalize (if self.currentTerm < body.term then self.becomeFollower body.term none
    else self) = follower at raised ⊢
  split
  · exact raised
  · split
    · exact raised
    · split <;> exact raised.trans ⟨rfl, rfl⟩

theorem handle_undisturbed (self : Node Id machine) (request : Request Id machine.Blob) :
    self.Undisturbed (self.handle config request).1 := by
  cases request with
  | requestVote body => exact self.handleRequestVote_undisturbed body
  | appendEntries body =>
      by_cases stale : body.term < self.currentTerm
      · rw [handle, handleAppendEntries, if_pos stale]
        exact .refl self
      · exact (self.followLeader_undisturbed body.term body.leaderId).trans
          (handleAppendEntries_works config self body (Nat.not_lt.mp stale)).undisturbed
  | installSnapshot body =>
      by_cases stale : body.term < self.currentTerm
      · rw [handle, handleInstallSnapshot, if_pos stale]
        exact .refl self
      · exact (self.followLeader_undisturbed body.term body.leaderId).trans
          (handleInstallSnapshot_works self body (Nat.not_lt.mp stale)).undisturbed

theorem resume_poised {self : Node Id machine} (poised : self.Poised fits) {await : Await Id}
    {results : List (Option Reply)} (suits : self.Suits fits (.resume await results)) :
    (self.resume config await results).Poised fits := by
  have deposed (term : Nat) : (self.becomeFollower term none).Poised fits :=
    (self.becomeFollower_undisturbed term none).poised poised
  cases await with
  | election termAtStart =>
      simp only [resume, finishElection]
      split
      · exact poised
      · split
        · exact deposed _
        · split
          · exact becomeLeader_poised poised suits
          · exact poised
  | appendEntries peer next prevLogIndex entries =>
      cases answered : results.head?.join with
      | none => simpa only [resume, finishAppendEntries, answered] using poised
      | some body =>
          simp only [resume, finishAppendEntries, answered]
          split
          · exact poised
          · split
            · exact deposed _
            · split
              · refine (maybeAdvanceCommitIndex_undisturbed _).poised (poised.update ?_ _)
                have credited := suits.1
                cases last : entries.getLast? <;> rwa [last] at credited
              · exact poised.update suits.2 _
  | installSnapshot peer lastIncludedIndex =>
      cases answered : results.head?.join with
      | none => simpa only [resume, finishInstallSnapshot, answered] using poised
      | some body =>
          simp only [resume, finishInstallSnapshot, answered]
          split
          · exact poised
          · split
            · exact deposed _
            · exact poised.update suits _
  | readIndex id readIdx termAtStart =>
      exact (self.finishReadIndex_undisturbed id readIdx termAtStart results).poised poised

omit [DecidableEq Id] in
theorem start_poised (db : Database Id machine.Blob) :
    (start db : Node Id machine).Poised fits := by
  rw [start]
  refine (becomeFollower_undisturbed _ _ none).poised ?_
  dsimp only
  split <;> exact ⟨rfl, by rintro _ _ ⟨⟩⟩

theorem respond_poised {self : Node Id machine} (poised : self.Poised fits)
    {stimulus : Stimulus Id machine.Blob} (suits : self.Suits fits stimulus) :
    (self.respond config stimulus).Poised fits := by
  cases stimulus with
  | electionTimeout => exact poised
  | heartbeat => exact (self.sendAppendEntriesToAll_undisturbed config).poised poised
  | submit id type payload => exact (self.submit_undisturbed id type payload).poised poised
  | readIndex id =>
      rw [respond, startReadIndex]
      split
      · exact poised
      · split <;> exact poised
  | request request => exact (self.handle_undisturbed request).poised poised
  | resume await results => exact resume_poised poised suits
  | resumeSubmit id =>
      rw [respond, resumeSubmit]
      split
      · exact poised
      · dsimp only
        split
        · split <;> exact poised
        · exact poised
  | submitTimeout id =>
      rw [respond, submitTimeout]
      split
      · exact poised
      · dsimp only
        split <;> exact poised
  | pollRead id =>
      rw [respond, pollRead]
      split
      · exact poised
      next read _ =>
          have rest : Node.Poised fits
            { self with reading := self.reading.filter fun other => other.id ≠ id } := poised
          exact (awaitApplied_undisturbed _ read).poised rest
  | restart db => exact start_poised db

end Node

end RaftCanvas
