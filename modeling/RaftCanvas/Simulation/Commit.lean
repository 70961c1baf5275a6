import RaftCanvas.Cluster.Progress
import RaftCanvas.Raft.Committing
import RaftCanvas.Simulation.Roles

/-!
# Committing, applying and compacting
-/

namespace RaftCanvas

open Replication.State (Steps)

variable {Id : Type} {machine : Machine}

/-! ## Applying -/

section Apply

variable {tier : Tier} {ideal : Ideal Id} {self : Id} {node : Node Id machine}

theorem NodeSafe.lastApplied_low (safe : NodeSafe tier ideal self node)
    (matching : NodeMatches ideal self node) : -1 ≤ node.lastApplied :=
  matching.file.log.low.trans safe.saved_le

/-- Applying the next entry of the log. -/
theorem NodeSafe.apply (safe : NodeSafe tier ideal self node)
    (matching : NodeMatches ideal self node)
    (behind : node.lastApplied < node.commitIndex) {entry : LogEntry}
    (found : node.db.getEntry (node.lastApplied + 1) = some entry) :
    NodeSafe tier ideal self
      { node with stateMachine := machine.apply node.stateMachine entry } := by
  have low := safe.lastApplied_low matching
  have index := matching.file.log.getEntry_index found
  obtain ⟨_, inside⟩ := matching.file.log.getEntry_some found
  have applied : machine.lastApplied (machine.apply node.stateMachine entry) =
      node.lastApplied + 1 := by
    rw [machine.lastApplied_apply _ _ (by rw [index]; exact Int.lt_succ _), index]
  exact { safe with
    saved_le := by
      have saved_le := safe.saved_le
      show node.db.lastSnapshotIndex ≤
        machine.lastApplied (machine.apply node.stateMachine entry)
      omega
    applied_le := by
      show machine.lastApplied (machine.apply node.stateMachine entry) ≤ node.commitIndex
      omega
    state := by
      show machine.apply node.stateMachine entry =
        machine.replay ((ideal.log self).take (machine.lastApplied _ + 1).toNat)
      rw [applied,
        show (node.lastApplied + 1 + 1).toNat = (node.lastApplied + 1).toNat + 1 by omega,
        List.take_add_one, inside, Option.toList_some, machine.replay_concat, ← safe.state] }

/-- The next entry to apply is decided. -/
theorem NodeSafe.next_settled (safe : NodeSafe tier ideal self node)
    (matching : NodeMatches ideal self node)
    (behind : node.lastApplied < node.commitIndex) {entry : LogEntry}
    (found : node.db.getEntry (node.lastApplied + 1) = some entry) :
    Settled ideal entry := by
  have low := safe.lastApplied_low matching
  obtain ⟨_, inside⟩ := matching.file.log.getEntry_some found
  exact .of_take safe.certified matching.file.log.indexed inside (by omega)

/-- The state machine's snapshot is the snapshot of a decided log. -/
theorem NodeSafe.captures (safe : NodeSafe tier ideal self node)
    (matching : NodeMatches ideal self node) :
    Captures machine ideal node.lastApplied (machine.getSnapshot node.stateMachine) := by
  have low := safe.lastApplied_low matching
  have applied_le := safe.applied_le
  have bound := safe.bound
  refine ⟨_, _, safe.certified.restrict (List.take_prefix_take_left
    (i := (node.lastApplied + 1).toNat) (by omega)), matching.file.log.indexed.take _, ?_,
    by rw [← safe.state]⟩
  rw [List.length_take]
  omega

end Apply

variable [DecidableEq Id] [Fintype Id]

namespace Course

variable {stage : Stage Id machine} {ideal next : Ideal Id} {node after : Node Id machine}

theorem applyLoop (course : Course stage ideal node) (fuel : Nat) :
    Course stage ideal (Node.applyLoop fuel node) := by
  induction fuel generalizing node with
  | zero => exact course
  | succ fuel ih =>
      rw [Node.applyLoop]
      split
      next behind =>
          split
          · exact course
          next entry found =>
              -- the event is recorded before the state machine moves on
              have noted : Course stage ideal (node.emit (.applied entry)) :=
                course.emit fun _ safe => safe.next_settled course.matching behind found
              refine ih (noted.memory rfl rfl { noted.matching with } fun _ safe => ?_)
              exact { safe.apply noted.matching behind found with }
      · exact course

theorem maybeSnapshot (course : Course stage ideal node) (config : Config Id) :
    Course stage ideal (node.maybeSnapshot config) := by
  rw [Node.maybeSnapshot]
  split
  · exact course
  · split
    · exact course
    next positive =>
        split
        · exact course
        next entry found =>
            have stores := course.matching.file.log
            have saved : Course stage ideal (node.write fun db =>
                db.saveSnapshot node.lastApplied entry.term
                  (machine.getSnapshot node.stateMachine)) := by
              refine course.write rfl rfl (.refl ideal) ?_ rfl course.cut.indexed ?_
                (fun _ => Int.not_lt.mp positive) fun _ safe => safe.saved_le
              · exact { course.matching with
                  file := {
                    current := course.matching.file.current
                    log := stores.saveSnapshot _ found
                    unsaved := fun absent => by
                      simp [Node.write, Database.saveSnapshot] at absent
                    saved := fun snap present => by
                      obtain rfl := Option.some.inj present
                      exact ⟨Int.not_lt.mp positive, rfl, rfl⟩ } }
              · intro _ safe
                exact { safe with
                  saved_le := Int.le_refl _
                  saved := fun snap present => by
                    obtain rfl := Option.some.inj present
                    exact congrArg machine.getSnapshot safe.state }
            have truncated : Course stage ideal ((node.write fun db =>
                db.saveSnapshot node.lastApplied entry.term
                  (machine.getSnapshot node.stateMachine)).write fun db =>
                    db.truncateUpTo node.lastApplied) := by
              refine saved.write rfl rfl (.refl ideal) ?_ rfl saved.cut.indexed
                (fun _ safe => { safe with }) id fun _ _ => Int.le_refl _
              exact { saved.matching with
                file := { saved.matching.file with
                  log := saved.matching.file.log.truncateUpTo (Int.le_refl _) } }
            exact truncated.emit fun _ safe => safe.captures truncated.matching

theorem applyCommitted (course : Course stage ideal node) (config : Config Id) :
    Course stage ideal (node.applyCommitted config) :=
  (course.applyLoop _).maybeSnapshot config

/-! ## Committing -/

theorem emits (course : Course stage ideal node) (events : List (Event machine.Blob))
    (safe : stage.tier.strict → NodeSafe stage.tier ideal stage.actor node →
      ∀ event ∈ events, EventSafe stage.tier ideal stage.actor event) :
    Course stage ideal { node with trace := node.trace ++ events.map .event } := by
  induction events generalizing node with
  | nil => simpa using course
  | cons event rest ih =>
      have first := course.emit fun strict before => safe strict before event (by simp)
      have others := ih first fun strict before later member =>
        safe strict { before with } later (by simp [member])
      simpa [Node.emit] using others

theorem emitCommit (course : Course stage ideal node) {n : Int}
    (decided : stage.tier.strict → NodeSafe stage.tier ideal stage.actor node →
      0 ≤ n ∧ ∃ era, ideal.elected era = some stage.actor ∧ n + 1 ≤ ideal.decided era) :
    Course stage ideal (node.emitCommit n) := by
  have emitted := course.emits
    (.commit n :: (node.commitListeners.filter fun waiter =>
      node.check waiter = .lostLeadership).map fun waiter =>
        .submitRejected waiter.id .lostLeadership)
    (by
      intro strict safe event member
      simp only [List.mem_cons, List.mem_map] at member
      rcases member with rfl | ⟨waiter, _, rfl⟩
      · exact decided strict safe
      · trivial)
  simp only [List.map_cons, List.map_map] at emitted
  refine emitted.memory rfl rfl { emitted.matching with } fun _ safe => ?_
  exact { safe with
    listening := fun waiter member => safe.listening waiter (List.mem_of_mem_filter member)
    resumed := fun waiter member => by
      rcases List.mem_append.mp member with old | woken
      · exact safe.resumed waiter old
      · obtain ⟨listening, resolved⟩ := List.mem_filter.mp woken
        have reached : waiter.entry.index ≤ node.commitIndex := by
          simp only [Node.check] at resolved
          split at resolved
          next reached => exact reached
          next => split at resolved <;> simp at resolved
        exact ⟨reached, safe.listening waiter listening⟩ }

/-- An index with enough copies, in an entry of the leader's own term, is committed. -/
theorem committed_of_scan (course : Course stage ideal node) {cluster : Cluster Id}
    (leader : node.role = .leader) (safe : NodeSafe stage.tier ideal stage.actor node)
    {n : Int} (above : node.commitIndex < n)
    (enough : (cluster.config stage.actor).majority ≤
      node.matchCount (cluster.config stage.actor) n) {entry : LogEntry}
    (found : node.db.getEntry n = some entry) (own : entry.term = node.currentTerm) :
    ideal.Committed node.currentTerm (n + 1).toNat := by
  have sound := course.sound
  have ledger := course.matching.ledger sound leader
  have office := course.matching.leads leader
  have led : ideal.elected node.currentTerm ≠ none := by simp [office.1]
  obtain ⟨positive, inside⟩ := course.matching.file.log.getEntry_some found
  rw [ledger] at inside
  have bound := (List.getElem?_eq_some_iff.mp inside).1
  refine ⟨led, ?_, by omega, ?_⟩
  · by_contra short
    obtain ⟨suffix, grown⟩ := sound.base_prefix _ led
    rw [← grown, List.getElem?_append_left (by omega)] at inside
    have old := sound.base_old _ led entry (List.mem_of_getElem? inside)
    rw [stamped_term] at old
    omega
  · let copies := (cluster.peers stage.actor).filter fun peer =>
      n ≤ (node.matchIndex peer).getD (-1)
    refine ⟨insert stage.actor copies.toFinset, ?_, ?_⟩
    · refine Quorum.majority_insert_toFinset stage.actor
        ((cluster.peers_nodup stage.actor).filter _) ?_ ?_
      · simp [copies, cluster.mem_peers]
      · rw [cluster.card_eq stage.actor, ← List.countP_eq_length_filter]
        exact enough
    · intro member inGroup
      rw [Finset.mem_insert, List.mem_toFinset, List.mem_filter] at inGroup
      rcases inGroup with rfl | ⟨_, copied⟩
      · rw [(sound.winner _ _ office.1).2.2]
        omega
      · cases known : node.matchIndex member with
        | none => simp [known] at copied; omega
        | some index =>
            simp only [known, Option.getD_some, decide_eq_true_eq] at copied
            rcases safe.matched leader member index known with acked | ⟨_, low⟩
            · exact Nat.le_trans (by omega) acked
            · omega

/-- Raising the commit index of a leader to a committed index. -/
theorem raiseCommit (course : Course stage ideal node) {cluster : Cluster Id}
    (leader : node.role = .leader) {n : Int}
    (scanned : Node.commitScan (cluster.config stage.actor) node
      (node.db.lastIndex - node.commitIndex).toNat node.db.lastIndex = some n) :
    ∃ next, Course stage next { node with commitIndex := n } ∧
      (stage.tier.strict → 0 ≤ n ∧
        next.elected node.currentTerm = some stage.actor ∧
        n + 1 ≤ next.decided node.currentTerm) := by
  obtain ⟨above, below, ⟨⟨entry, found, own⟩, enough⟩, _⟩ := Node.commitScan_some scanned
  by_cases strict : stage.tier.strict
  · have safe := course.safe strict
    have bound := safe.bound
    have last := course.matching.lastIndex
    have higher : node.commitIndex < n := by omega
    have committed := course.committed_of_scan leader safe higher enough found own
    have current := course.matching.current
    have office := (course.matching.leads leader).1
    have ledger := course.matching.ledger course.sound leader
    have decided := safe.decided leader
    have steps : Steps stage.actor ideal (ideal.commit stage.actor (n + 1).toNat) :=
      .single (.commit _ (by rw [current, office]) (by rw [current]; omega)
        (by rw [current]; exact committed))
    obtain ⟨_, extended, _⟩ := steps.sound course.sound
    have positive := (course.matching.file.log.getEntry_some found).1
    have grown : (ideal.commit stage.actor (n + 1).toNat).decided node.currentTerm =
        (n + 1).toNat := by
      simp [Replication.State.commit, current]
    refine ⟨ideal.commit stage.actor (n + 1).toNat, ?_, fun _ =>
      ⟨positive, office, by rw [grown]; omega⟩⟩
    refine course.silent rfl rfl steps
      { course.matching with file := { course.matching.file with } } rfl
      course.cut.indexed fun _ _ => ?_
    exact {
      bound := by
        show n < (ideal.log stage.actor).length
        omega
      certified := by
        refine ⟨node.currentTerm, current.ge, ?_⟩
        rw [grown]
        show (ideal.log stage.actor).take _ <+: (ideal.ledger node.currentTerm).take _
        rw [ledger]
      saved_le := safe.saved_le
      applied_le := safe.applied_le.trans higher.le
      state := safe.state
      saved := safe.saved
      matched := fun leader peer index known =>
        (safe.matched leader peer index known).imp id fun low => ⟨low.1, low.2.trans higher.le⟩
      decided := fun _ => by
        show ((ideal.commit stage.actor (n + 1).toNat).decided node.currentTerm : Int) ≤ n + 1
        rw [grown]
        omega
      listening := fun waiter member => (safe.listening waiter member).extends extended
      resumed := fun waiter member => by
        obtain ⟨reached, recorded⟩ := safe.resumed waiter member
        exact ⟨reached.trans higher.le, recorded.extends extended⟩ }
  · exact ⟨ideal, course.memory rfl rfl { course.matching with }
      fun required => absurd required strict, fun required => absurd required strict⟩

theorem maybeAdvanceCommitIndex (course : Course stage ideal node) (cluster : Cluster Id) :
    ∃ next, Course stage next
      (node.maybeAdvanceCommitIndex (cluster.config stage.actor)) := by
  rw [Node.maybeAdvanceCommitIndex]
  split
  · exact ⟨ideal, course⟩
  next leader =>
      dsimp only
      split
      · exact ⟨ideal, course⟩
      next n scanned =>
          obtain ⟨next, raised, decided⟩ := course.raiseCommit (not_not.mp leader) scanned
          refine ⟨next, (raised.applyCommitted _).emitCommit fun strict _ => ?_⟩
          obtain ⟨positive, elected, covered⟩ := decided strict
          exact ⟨positive, _, elected, covered⟩

end Course

end RaftCanvas
