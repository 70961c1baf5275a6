import RaftCanvas.Cluster.World
import RaftCanvas.Simulation.Course

/-!
# Role transitions and what a leader sends
-/

namespace RaftCanvas

open Replication.State (Steps)

variable {Id : Type} {machine : Machine} [DecidableEq Id]

/-! ## Hearing of a term -/

/-- The abstract state once `member` has heard of `term`. -/
def heard (ideal : Ideal Id) (member : Id) (term : Nat) : Ideal Id :=
  if ideal.current member < term then ideal.raise member term else ideal

section Heard

variable (ideal : Ideal Id) (member : Id) (term : Nat)

@[simp] theorem heard_log : (heard ideal member term).log = ideal.log := by
  unfold heard; split <;> rfl

@[simp] theorem heard_elected : (heard ideal member term).elected = ideal.elected := by
  unfold heard; split <;> rfl

@[simp] theorem heard_base : (heard ideal member term).base = ideal.base := by
  unfold heard; split <;> rfl

@[simp] theorem heard_ledger : (heard ideal member term).ledger = ideal.ledger := by
  unfold heard; split <;> rfl

@[simp] theorem heard_acked : (heard ideal member term).acked = ideal.acked := by
  unfold heard; split <;> rfl

@[simp] theorem heard_decided : (heard ideal member term).decided = ideal.decided := by
  unfold heard; split <;> rfl

@[simp] theorem heard_campaign : (heard ideal member term).campaign = ideal.campaign := by
  unfold heard; split <;> rfl

theorem heard_current :
    (heard ideal member term).current member = max (ideal.current member) term := by
  unfold heard
  split
  next higher => simp [Replication.State.raise, Nat.max_eq_right higher.le]
  next low => rw [Nat.max_eq_left (Nat.le_of_not_lt low)]

theorem heard_steps [Fintype Id] : Steps member ideal (heard ideal member term) := by
  unfold heard
  split
  next higher => exact .single (.raise term higher)
  next => exact .refl _

end Heard

variable [Fintype Id]

/-- The entry `_appendLocal` creates next. -/
def Node.nextEntry (node : Node Id machine) (type : EntryType) (payload : Json) :
    LogEntry :=
  { index := node.db.lastIndex + 1, term := node.currentTerm, type, payload }

namespace Course

variable {stage : Stage Id machine} {ideal next : Ideal Id} {node after : Node Id machine}

theorem becomeFollower (course : Course stage ideal node) (term : Nat)
    (leaderId : Option Id) :
    Course stage (heard ideal stage.actor term) (node.becomeFollower term leaderId) := by
  have current := course.matching.current
  have follower : Course stage ideal
      { node with heartbeatTimer := false, role := .follower } := by
    refine course.memory rfl rfl ?_ fun _ safe => ?_
    · exact { course.matching with
        leads := fun leader => by cases leader
        stands := fun candidate => by cases candidate }
    · exact { safe with
        matched := fun leader => by cases leader
        decided := fun leader => by cases leader }
  rw [Node.becomeFollower]
  refine Course.emit ?_ fun _ _ => trivial
  dsimp only
  split
  next higher =>
      have steps := heard_steps ideal stage.actor term
      have raised : heard ideal stage.actor term = ideal.raise stage.actor term :=
        if_pos (current.trans_lt higher)
      have saved : Course stage (heard ideal stage.actor term)
          (Node.write { node with
              heartbeatTimer := false
              role := .follower
              currentTerm := term
              votedFor := none } fun db => db.saveTermAndVote term none) := by
        refine follower.write rfl rfl steps ?_ (heard_elected ..) ?_ ?_ id
          fun _ _ => Int.le_refl _
        · exact {
            file := {
              current := by
                rw [raised]
                simp [Node.write, Database.saveTermAndVote, Replication.State.raise]
              log := by
                rw [heard_log]
                exact course.matching.file.log.saveTermAndVote term none
              unsaved := course.matching.file.unsaved
              saved := course.matching.file.saved }
            term := rfl
            leads := fun leader => by cases leader
            stands := fun candidate => by cases candidate }
        · rw [heard_elected, heard_ledger]
          exact course.cut.indexed
        · intro _ safe
          have carried := safe.carry course.sound steps fun leader => by cases leader
          exact { carried with
            matched := fun leader => by cases leader
            decided := fun leader => by cases leader }
      refine saved.memory rfl rfl { saved.matching with } fun _ safe => { safe with }
  next low =>
      have same : heard ideal stage.actor term = ideal := if_neg (current ▸ low)
      rw [same]
      refine follower.memory rfl rfl { follower.matching with } fun _ safe => { safe with }

theorem startElection (course : Course stage ideal node) (cluster : Cluster Id) :
    Course stage (ideal.stand stage.actor (node.currentTerm + 1))
      (node.startElection (cluster.config stage.actor)) := by
  have current := course.matching.current
  have steps : Steps stage.actor ideal (ideal.stand stage.actor (node.currentTerm + 1)) :=
    .single (.stand _ (current.trans_lt (Nat.lt_succ_self _)))
  have saved : Course stage (ideal.stand stage.actor (node.currentTerm + 1))
      (Node.write { node with
          role := .candidate
          currentTerm := node.currentTerm + 1
          votedFor := some stage.actor }
        fun db => db.saveTermAndVote (node.currentTerm + 1) (some stage.actor)) := by
    refine course.write rfl rfl steps ?_ rfl course.cut.indexed ?_ id
      fun _ _ => Int.le_refl _
    · exact {
        file := {
          current := by
            simp [Node.write, Database.saveTermAndVote, Replication.State.stand]
          log := course.matching.file.log.saveTermAndVote _ _
          unsaved := course.matching.file.unsaved
          saved := course.matching.file.saved }
        term := rfl
        leads := fun leader => by cases leader
        stands := fun _ => by simp [Node.write, Replication.State.stand] }
    · intro _ safe
      have carried := safe.carry course.sound steps fun _ => rfl
      exact { carried with
        matched := fun leader => by cases leader
        decided := fun leader => by cases leader }
  have stood : Course stage (ideal.stand stage.actor (node.currentTerm + 1))
      (node.becomeCandidate (cluster.config stage.actor)) := by
    refine Course.emit ?_ fun _ _ => trivial
    exact saved.memory rfl rfl { saved.matching with } fun _ safe => { safe with }
  have armed : Course stage (ideal.stand stage.actor (node.currentTerm + 1))
      { node.becomeCandidate (cluster.config stage.actor) with electionTimer := true } :=
    stood.memory rfl rfl { stood.matching with } fun _ safe => { safe with }
  refine armed.send rfl ?_ (fun _ _ => trivial) fun body request => by cases request
  exact {
    request := ⟨rfl, _, (stood.matching.stands rfl).1, stood.matching.lastIndex,
      stood.matching.file.log.lastTerm_eq⟩
    shape := rfl
    others := by simp [Cluster.config, cluster.mem_peers] }

/-! ## A leader's log -/

omit [DecidableEq Id] [Fintype Id] in
/-- An entry with the next index continues the log. -/
theorem next_indexed (matching : NodeMatches ideal stage.actor node) {entry : LogEntry}
    (numbered : entry.index = node.db.lastIndex + 1) :
    Indexed (ideal.log stage.actor ++ [entry]) := by
  have last := matching.lastIndex
  exact matching.file.log.indexed.concat (by omega)

omit [Fintype Id] in
theorem append_file (matching : NodeMatches ideal stage.actor node) {entry : LogEntry}
    (numbered : entry.index = node.db.lastIndex + 1) :
    FileMatches (ideal.append stage.actor entry) stage.actor
      (node.db.appendEntries [entry]) where
  current := matching.file.current
  log := by
    simp only [Replication.State.append, Function.update_self]
    exact matching.file.log.appendEntries _ (next_indexed matching numbered)
  unsaved := matching.file.unsaved
  saved := matching.file.saved

omit [Fintype Id] in
theorem append_indexed (matching : NodeMatches ideal stage.actor node) {entry : LogEntry}
    (numbered : entry.index = node.db.lastIndex + 1)
    (indexed : ∀ era, ideal.elected era ≠ none → Indexed (ideal.ledger era)) :
    ∀ era, (ideal.append stage.actor entry).elected era ≠ none →
      Indexed ((ideal.append stage.actor entry).ledger era) := by
  intro era led
  by_cases same : era = ideal.current stage.actor
  · subst same
    simpa [Replication.State.append] using next_indexed matching numbered
  · simpa [Replication.State.append, Function.update_of_ne same] using indexed era led

/-- A leader appends to the ledger of its term. -/
theorem appendLocal (course : Course stage ideal node) (leader : node.role = .leader)
    (type : EntryType) (payload : Json) :
    Course stage (ideal.append stage.actor (node.appendLocal type payload).2)
      (node.appendLocal type payload).1 := by
  have numbered : (node.appendLocal type payload).2.index = node.db.lastIndex + 1 := rfl
  have office := course.matching.leads leader
  have steps : Steps stage.actor ideal
      (ideal.append stage.actor (node.appendLocal type payload).2) := by
    refine .single (.append _ ?_ ?_)
    · rw [course.matching.current]
      exact office.1
    · rw [course.matching.current]
      rfl
  refine course.write rfl rfl steps ?_ rfl
    (append_indexed course.matching numbered course.cut.indexed) ?_ id
    fun _ _ => Int.le_refl _
  · exact {
      file := append_file course.matching numbered
      term := course.matching.term
      leads := fun _ => by
        refine ⟨office.1, ?_⟩
        simp only [Replication.State.append, Function.update_self, List.length_append]
        exact office.2.trans_le (Nat.le_add_right _ _)
      stands := fun candidate => by
        have same : node.role = .candidate := candidate
        simp [leader] at same }
  · intro _ safe
    exact { safe.carry course.sound steps fun _ => rfl with }

/-! ## Requests -/

/-- The commit index a leader sends is decided in its term. -/
theorem commit_safe (course : Course stage ideal node) (leader : node.role = .leader)
    (safe : NodeSafe stage.tier ideal stage.actor node) :
    node.commitIndex < (ideal.ledger node.currentTerm).length ∧
      ideal.Certified node.currentTerm
        ((ideal.ledger node.currentTerm).take (node.commitIndex + 1).toNat) := by
  rw [← course.matching.ledger course.sound leader, ← course.matching.current]
  exact ⟨safe.bound, safe.certified⟩

theorem installSnapshotCall (course : Course stage ideal node)
    (leader : node.role = .leader) {cluster : Cluster Id} {peer : Id}
    (other : peer ≠ stage.actor) {call : Call Id machine.Blob}
    (asked : node.installSnapshotCall (cluster.config stage.actor) peer = some call) :
    Course stage ideal (node.send call) := by
  have ledger := course.matching.ledger course.sound leader
  have stores := course.matching.file.log
  obtain ⟨snap, found, rfl⟩ := Option.map_eq_some_iff.mp asked
  obtain ⟨positive, index, term⟩ := course.matching.file.saved snap found
  have within := stores.within
  refine course.send rfl ⟨?_, ⟨rfl, rfl⟩, ?_⟩ ?_ ?_
  · refine ⟨(course.matching.leads leader).1, ?_, ?_, ?_⟩
    · rw [index]
      exact positive
    · rw [← ledger, index]
      exact within
    · rw [← ledger, index, term]
      exact stores.covered
  · simpa using other.symm
  · intro _ safe
    have below := safe.saved_le.trans safe.applied_le
    simp only [RequestSafe]
    rw [← ledger, index, safe.saved snap found, ← course.matching.current]
    exact ⟨safe.certified.restrict (List.take_prefix_take_left (by omega)), rfl⟩
  · intro body request
    obtain rfl := Request.installSnapshot.inj request
    exact index.le

theorem sendAppendEntriesTo (course : Course stage ideal node) {cluster : Cluster Id}
    {peer : Id} (other : peer ≠ stage.actor) :
    Course stage ideal (node.sendAppendEntriesTo (cluster.config stage.actor) peer) := by
  rw [Node.sendAppendEntriesTo]
  split
  next call asked =>
      rw [Node.appendEntriesCall] at asked
      split at asked
      · simp at asked
      next active =>
          simp only [not_or, not_not] at active
          have leader := active.2
          dsimp only at asked
          split at asked
          · exact course.installSnapshotCall leader other asked
          next available =>
              have stores := course.matching.file.log
              have positive := stores.firstIndex_nonneg
              obtain rfl := Option.some.inj asked
              refine course.send rfl ⟨?_, ⟨rfl, rfl, rfl⟩, by simpa using other.symm⟩
                (fun _ safe => course.commit_safe leader safe) fun body request => by cases request
              refine course.matching.replicates course.sound leader (by omega) ?_
              split
              next present => exact Or.inl ⟨present, stores.getRange_eq (by omega) present⟩
              next beyond => exact Or.inr ⟨by omega, rfl⟩
  next => exact course

theorem sendAppendEntriesToAll (course : Course stage ideal node) (cluster : Cluster Id) :
    Course stage ideal (node.sendAppendEntriesToAll (cluster.config stage.actor)) := by
  rw [Node.sendAppendEntriesToAll]
  split
  · exact course
  · suffices each : ∀ peers : List Id, (∀ peer ∈ peers, peer ≠ stage.actor) →
        ∀ start, Course stage ideal start → Course stage ideal
          (peers.foldl (Node.sendAppendEntriesTo (cluster.config stage.actor)) start) from
      each _ (fun peer => (cluster.mem_peers stage.actor peer).mp) node course
    intro peers
    induction peers with
    | nil => exact fun _ _ kept => kept
    | cons peer rest ih =>
        intro others start kept
        exact ih (fun later member => others later (by simp [member])) _
          (kept.sendAppendEntriesTo (others peer (by simp)))

/-! ## Winning an election -/

omit [Fintype Id] in
/-- The winner's log is the ledger of its term. -/
theorem elect_indexed (matching : NodeMatches ideal stage.actor node)
    (indexed : ∀ era, ideal.elected era ≠ none → Indexed (ideal.ledger era)) :
    ∀ era, (ideal.elect stage.actor).elected era ≠ none →
      Indexed ((ideal.elect stage.actor).ledger era) := by
  intro era led
  by_cases same : era = ideal.current stage.actor
  · subst same
    simpa [Replication.State.elect] using matching.file.log.indexed
  · simp only [Replication.State.elect, Function.update_of_ne same] at led ⊢
    exact indexed era led

/-- A candidate with a majority of ballots in a vacant term becomes its leader. -/
theorem becomeLeader (course : Course stage ideal node) (cluster : Cluster Id)
    (candidate : node.role = .candidate)
    (vacant : ideal.elected node.currentTerm = none) {group : Finset Id}
    (majority : Quorum.Majority group)
    (voted : ∀ voter ∈ group, ideal.ballot voter node.currentTerm stage.actor) :
    ∃ next, Course stage next (node.becomeLeader (cluster.config stage.actor)) := by
  have current := course.matching.current
  have campaigned := (course.matching.stands candidate).1
  rw [← current] at vacant voted campaigned
  have electing : Replication.State.Step stage.actor ideal (ideal.elect stage.actor) :=
    .elect group vacant campaigned majority voted
  have elected : (ideal.elect stage.actor).elected (ideal.current stage.actor) =
      some stage.actor := by simp [Replication.State.elect]
  have indexed := elect_indexed course.matching course.cut.indexed
  -- the node before its first effect, standing for the state after the election
  have matching : NodeMatches (ideal.elect stage.actor) stage.actor
      { node with role := .follower } :=
    { file := { course.matching.file with }
      term := course.matching.term
      leads := fun leader => by cases leader
      stands := fun standing => by cases standing }
  let entry : LogEntry := node.nextEntry .noop .null
  have numbered : entry.index = node.db.lastIndex + 1 := rfl
  have appending : Replication.State.Step stage.actor (ideal.elect stage.actor)
      ((ideal.elect stage.actor).append stage.actor entry) :=
    .append entry elected current.symm
  have steps : Steps stage.actor ideal
      ((ideal.elect stage.actor).append stage.actor entry) :=
    (Steps.single electing).trans (.single appending)
  have announced : Cut stage.actor ideal node.db
      [.event (.role .leader node.currentTerm)] (ideal.elect stage.actor) :=
    { steps := .single electing
      file := matching.file
      calls := by simp
      elected := fun era led => by
        by_cases same : era = ideal.current stage.actor
        · exact Or.inr (by simp [same, current])
        · refine Or.inl ?_
          simpa [Replication.State.elect, Function.update_of_ne same] using led
      indexed
      kept := id
      installs := by simp }
  have written : Cut stage.actor ideal node.db
      [.event (.role .leader node.currentTerm), .write (node.db.appendEntries [entry])]
      ((ideal.elect stage.actor).append stage.actor entry) :=
    { steps
      file := append_file matching numbered
      calls := by simp
      elected := fun era led => announced.elected era led
      indexed := append_indexed matching numbered indexed
      kept := id
      installs := by simp }
  have inOffice : Course stage ((ideal.elect stage.actor).append stage.actor entry)
      (({ node with
        electionTimer := false
        role := .leader
        leaderId := some (cluster.config stage.actor).replicaId
        nextIndex := fun peer => if peer ∈ (cluster.config stage.actor).peers then
          some (node.db.lastIndex + 1) else none
        matchIndex := fun peer => if peer ∈ (cluster.config stage.actor).peers then
          some (-1) else none } : Node Id machine).emit
            (.role .leader node.currentTerm) |>.appendLocal .noop .null).1 := by
    refine course.extend
      [.event (.role .leader node.currentTerm), .write (node.db.appendEntries [entry])]
      (List.append_assoc _ _ _) rfl ?_ written (fun _ => ?_) fun strict safe => ?_
    · exact {
        file := append_file matching numbered
        term := course.matching.term
        leads := fun _ => by
          refine ⟨current ▸ elected, ?_⟩
          show (Function.update ideal.base (ideal.current stage.actor)
            (ideal.log stage.actor) node.currentTerm).length < _
          simp [← current, Replication.State.append, Replication.State.elect]
        stands := fun standing => by cases standing }
    · rw [show ∀ first second : Effect Id machine.Blob,
        [first, second] = [first] ++ [second] from fun _ _ => rfl, Effect.always_append,
        Effect.always_singleton, Effect.always_singleton]
      exact ⟨⟨⟨ideal, course.cut_nil⟩, ⟨_, announced⟩⟩, ⟨_, announced⟩, ⟨_, written⟩⟩
    · have carried := { safe with
        matched := fun leader => by simp [candidate] at leader
        decided := fun leader => by simp [candidate] at leader :
          NodeSafe stage.tier ideal stage.actor node }.carry course.sound steps
            fun leader => by simp [candidate] at leader
      exact {
        safe := { carried with
          matched := fun _ peer index found => by
            simp only [Node.appendLocal, Node.write, Node.emit] at found
            split at found
            · obtain rfl := Option.some.inj found
              exact Or.inl (Nat.zero_le _)
            · simp at found
          decided := fun _ => by
            have idle : ideal.decided node.currentTerm = 0 :=
              course.sound.undecided (current ▸ vacant)
            have low := course.matching.file.log.low
            have saved_le := safe.saved_le
            have applied_le := safe.applied_le
            show (ideal.decided node.currentTerm : Int) ≤ node.commitIndex + 1
            omega }
        events := by simp [EventSafe]
        requests := by simp
        grows := Int.le_refl _
        installs := by simp }
  have sent := inOffice.sendAppendEntriesToAll cluster
  refine ⟨_, sent.memory rfl rfl { sent.matching with } fun _ safe => { safe with }⟩

end Course

end RaftCanvas
