import RaftCanvas.Library.Transition
import RaftCanvas.Raft.Applying
import RaftCanvas.Raft.Committing
import RaftCanvas.Raft.Frames

/-!
# One node by itself

A node answers whatever reaches it, whoever sent it: nothing is assumed of requests and
replies, and it may restart on any file.  `respond_leader` says what a node that leads
after a stimulus can have done.
-/

namespace RaftCanvas

/-- What reaches a node. -/
inductive Stimulus (Id Blob : Type) where
  | electionTimeout
  | heartbeat
  | submit (id : Nat) (type : EntryType) (payload : Json)
  | readIndex (id : Nat)
  | request (request : Request Id Blob)
  | resume (await : Await Id) (results : List (Option Reply))
  | resumeSubmit (id : Nat)
  | submitTimeout (id : Nat)
  | pollRead (id : Nat)
  | restart (db : Database Id Blob)

/-- Appending one row leaves the rows below alone. -/
theorem Database.getEntry_appendEntries {Id Blob : Type} {db : Database Id Blob}
    {entry : LogEntry} (next : entry.index = db.lastIndex + 1) (index : Int) :
    (db.appendEntries [entry]).getEntry index =
      if index = entry.index then some entry else db.getEntry index := by
  have appended : (db.appendEntries [entry]).log.rows = db.log.rows ++ [entry] := by
    refine LogTable.foldl_replace (fun row member other same => ?_) (List.pairwise_singleton _ _)
    obtain rfl := List.mem_singleton.mp same
    obtain ⟨found, held⟩ := Option.isSome_iff_exists.mp
      (getEntry_isSome.mpr ⟨row, member, rfl⟩)
    have below := getEntry_le held
    omega
  have fresh : db.getEntry entry.index = none := by
    cases held : db.getEntry entry.index with
    | none => rfl
    | some row =>
        have below := getEntry_le held
        omega
  rw [getEntry, LogTable.get, appended, List.find?_append]
  split
  next same =>
      subst same
      have absent : (db.log.rows.find? fun row => row.index = entry.index) = none := fresh
      simp [absent]
  next other => simp [Ne.symm other, getEntry, LogTable.get]

namespace Node

variable {Id : Type} {machine : Machine}

/-- The parts of a node that the commit rule looks at are the same. -/
structure Alike (before after : Node Id machine) : Prop where
  role : after.role = before.role
  log : after.db.log = before.db.log
  currentTerm : after.currentTerm = before.currentTerm
  commitIndex : after.commitIndex = before.commitIndex
  matchIndex : after.matchIndex = before.matchIndex

theorem Alike.refl (self : Node Id machine) : self.Alike self :=
  ⟨rfl, rfl, rfl, rfl, rfl⟩

variable [DecidableEq Id]

def respond (config : Config Id) (self : Node Id machine) :
    Stimulus Id machine.Blob → Node Id machine
  | .electionTimeout => self.startElection config
  | .heartbeat => self.heartbeat config
  | .submit id type payload => self.submit config id type payload
  | .readIndex id => self.startReadIndex config id
  | .request request => (self.handle config request).1
  | .resume await results => self.resume config await results
  | .resumeSubmit id => self.resumeSubmit id
  | .submitTimeout id => self.submitTimeout id
  | .pollRead id => self.pollRead id
  | .restart db => .start db

/-- A node as a transition system. -/
def life (config : Config Id) (machine : Machine) :
    Transition.System (Node Id machine) (Stimulus Id machine.Blob) where
  init := .start .empty
  step self stimulus := some (self.began.respond config stimulus)

/-- `peer` is known to hold everything up to `index`. -/
def credit (self : Node Id machine) (peer : Id) (index : Int) : Node Id machine :=
  { self with matchIndex := Function.update self.matchIndex peer (some index) }

/-- A node answers a stimulus and leads then: how it came to. -/
inductive Led (config : Config Id) (self : Node Id machine) :
    Stimulus Id machine.Blob → Node Id machine → Prop where
  | idle {stimulus after} (alike : self.Alike after) : Led config self stimulus after
  | elected {termAtStart results} (stands : self.role = .candidate)
      (current : self.currentTerm = termAtStart) :
      Led config self (.resume (.election termAtStart) results) (self.becomeLeader config)
  | appended {id type payload after} (leads : self.role = .leader)
      (new : self.dedupeIndex payload = none)
      (alike : (self.appendLocal type payload).1.Alike after) :
      Led config self (.submit id type payload) after
  | acknowledged {peer next prevLogIndex entries results index nextIndex}
      (leads : self.role = .leader) :
      Led config self (.resume (.appendEntries peer next prevLogIndex entries) results)
        ({ self.credit peer index with nextIndex }.maybeAdvanceCommitIndex config)
  | installed {peer lastIncludedIndex results nextIndex} {body : Reply}
      (leads : self.role = .leader) (answered : results.head?.join = some body)
      (recent : body.term ≤ self.currentTerm) :
      Led config self (.resume (.installSnapshot peer lastIncludedIndex) results)
        { self.credit peer lastIncludedIndex with nextIndex }

variable {config : Config Id} {self : Node Id machine}

theorem Led.submit {id : Nat} {type : EntryType} {payload : Json} :
    Led config self (.submit id type payload) (self.submit config id type payload) := by
  rw [Node.submit]
  split
  · exact .idle ⟨rfl, rfl, rfl, rfl, rfl⟩
  next leads =>
      cases known : self.dedupeIndex payload with
      | some cached => exact .idle ⟨rfl, rfl, rfl, rfl, rfl⟩
      | none =>
          obtain ⟨calls, sent, _⟩ :=
            (self.appendLocal type payload).1.sendAppendEntriesToAll_sends config
          refine .appended (not_not.mp leads) known ?_
          dsimp only
          rw [sent]
          split <;> exact ⟨rfl, rfl, rfl, rfl, rfl⟩

omit [DecidableEq Id] in
theorem awaitApplied_alike (self : Node Id machine) (read : Reading) :
    self.Alike (self.awaitApplied read) := by
  rw [awaitApplied]
  split <;> exact ⟨rfl, rfl, rfl, rfl, rfl⟩

theorem Led.handle {request : Request Id machine.Blob}
    (led : (self.handle config request).1.role = .leader) :
    Led config self (.request request) (self.handle config request).1 := by
  -- who follows a leader's request does not lead
  have deposed : ∀ {after : Node Id machine}, after.role = .leader → ∀ {term leaderId},
      ¬(self.followLeader term leaderId).Works after := fun leads _ _ works => by
    have follows := works.role.trans (followLeader_frame _ _ _).1
    exact absurd (leads.symm.trans follows) (by decide)
  cases request with
  | requestVote body =>
      have raised : ¬self.currentTerm < body.term := fun raised => by
        refine absurd (led.symm.trans ?_) (show (Role.leader ≠ .follower) by decide)
        simp only [Node.handle, handleRequestVote, if_pos raised]
        have follows := self.becomeFollower_role body.term none
        split
        · exact follows
        · split
          · exact follows
          · split <;> exact follows
      refine .idle ?_
      simp only [Node.handle, handleRequestVote, if_neg raised]
      split
      · exact .refl self
      · split
        · exact .refl self
        · split
          · exact .refl self
          · exact ⟨rfl, rfl, rfl, rfl, rfl⟩
  | appendEntries body =>
      by_cases stale : body.term < self.currentTerm
      · refine .idle ?_
        rw [Node.handle, handleAppendEntries, if_pos stale]
        exact .refl self
      · exact absurd (handleAppendEntries_works config self body (Nat.not_lt.mp stale))
          (deposed led)
  | installSnapshot body =>
      by_cases stale : body.term < self.currentTerm
      · refine .idle ?_
        rw [Node.handle, handleInstallSnapshot, if_pos stale]
        exact .refl self
      · exact absurd (handleInstallSnapshot_works self body (Nat.not_lt.mp stale))
          (deposed led)

theorem Led.resume {await : Await Id} {results : List (Option Reply)}
    (led : (self.resume config await results).role = .leader) :
    Led config self (.resume await results) (self.resume config await results) := by
  have deposed : ∀ term, (self.becomeFollower term none).role ≠ .leader := fun term leads => by
    rw [becomeFollower_role] at leads
    cases leads
  cases await with
  | election termAtStart =>
      simp only [Node.resume, finishElection] at led ⊢
      split
      · exact .idle (.refl self)
      next active =>
          rw [if_neg active] at led
          obtain ⟨_, stands, current⟩ : ¬self.stopped = true ∧ self.role = .candidate ∧
            self.currentTerm = termAtStart := by simpa using active
          cases counted : tally Reply.voteGranted self.currentTerm results 1 with
          | stepDown term =>
              rw [counted] at led
              exact absurd led (deposed _)
          | count votes =>
              dsimp only
              split
              · exact .elected stands current
              · exact .idle (.refl self)
  | appendEntries peer next prevLogIndex entries =>
      simp only [Node.resume, finishAppendEntries] at led ⊢
      cases answered : results.head?.join with
      | none => exact .idle (.refl self)
      | some body =>
          rw [answered] at led
          dsimp only at led ⊢
          split
          · exact .idle (.refl self)
          next active =>
              rw [if_neg active] at led
              have leads : self.role = .leader := not_not.mp (not_or.mp active).2
              split at led
              · exact absurd led (deposed _)
              next recent =>
                  rw [if_neg recent]
                  split
                  · exact .acknowledged leads
                  · exact .idle ⟨rfl, rfl, rfl, rfl, rfl⟩
  | installSnapshot peer lastIncludedIndex =>
      simp only [Node.resume, finishInstallSnapshot] at led ⊢
      cases answered : results.head?.join with
      | none => exact .idle (.refl self)
      | some body =>
          rw [answered] at led
          dsimp only at led ⊢
          split
          · exact .idle (.refl self)
          next active =>
              rw [if_neg active] at led
              split at led
              · exact absurd led (deposed _)
              next recent =>
                  rw [if_neg recent]
                  exact .installed (not_not.mp (not_or.mp active).2) answered
                    (Nat.not_lt.mp recent)
  | readIndex id readIdx termAtStart =>
      simp only [Node.resume, finishReadIndex] at led ⊢
      cases counted : tally Reply.success self.currentTerm results 1 with
      | stepDown term =>
          rw [counted] at led
          exact absurd led (deposed _)
      | count acks =>
          refine .idle ?_
          dsimp only
          split
          · exact ⟨rfl, rfl, rfl, rfl, rfl⟩
          · split
            · exact ⟨rfl, rfl, rfl, rfl, rfl⟩
            · exact awaitApplied_alike self _

/-- A node that leads after a stimulus has come to it in one of the ways of `Led`. -/
theorem respond_leader {stimulus : Stimulus Id machine.Blob}
    (led : (self.respond config stimulus).role = .leader) :
    Led config self stimulus (self.respond config stimulus) := by
  cases stimulus with
  | electionTimeout => cases led
  | heartbeat =>
      obtain ⟨calls, sent, _⟩ := self.sendAppendEntriesToAll_sends config
      refine .idle ?_
      rw [respond, heartbeat, sent]
      exact ⟨rfl, rfl, rfl, rfl, rfl⟩
  | submit id type payload => exact .submit
  | readIndex id =>
      refine .idle ?_
      rw [respond, startReadIndex]
      split
      · exact ⟨rfl, rfl, rfl, rfl, rfl⟩
      · split <;> exact ⟨rfl, rfl, rfl, rfl, rfl⟩
  | request request => exact .handle led
  | resume await results => exact .resume led
  | resumeSubmit id =>
      refine .idle ?_
      rw [respond, resumeSubmit]
      split
      · exact .refl self
      · dsimp only
        split
        · split <;> exact ⟨rfl, rfl, rfl, rfl, rfl⟩
        · exact ⟨rfl, rfl, rfl, rfl, rfl⟩
  | submitTimeout id =>
      refine .idle ?_
      rw [respond, submitTimeout]
      split
      · exact .refl self
      · dsimp only
        split <;> exact ⟨rfl, rfl, rfl, rfl, rfl⟩
  | pollRead id =>
      refine .idle ?_
      rw [respond, pollRead]
      split
      · exact .refl self
      next read _ =>
          obtain ⟨role, log, currentTerm, commitIndex, matchIndex⟩ := awaitApplied_alike
            { self with reading := self.reading.filter fun other => other.id ≠ id } read
          exact ⟨role, log, currentTerm, commitIndex, matchIndex⟩
  | restart db =>
      have follows : (Node.start db : Node Id machine).role = .follower := by
        rw [Node.start]
        exact becomeFollower_role _ _ _
      exact absurd (led.symm.trans follows) (by decide)

end Node

end RaftCanvas
