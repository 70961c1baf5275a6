import RaftCanvas.Raft.Frames
import RaftCanvas.Simulation.Commit

/-!
# Client operations and resumed calls
-/

namespace RaftCanvas

open Replication.State (Steps)

variable {Id : Type} {machine : Machine}

/-! ## Dedupe answers -/

section Dedupe

variable {tier : Tier} {ideal : Ideal Id} {self : Id} {node : Node Id machine}

theorem NodeSafe.dedupe_le (safe : NodeSafe tier ideal self node) {payload : Json}
    {index : Int} (cached : node.dedupeIndex payload = some index) :
    index ≤ node.lastApplied := by
  have answers := machine.dedupe_le
    ((ideal.log self).take (node.lastApplied + 1).toNat)
  rw [← Machine.replay, ← safe.state] at answers
  simp only [Node.dedupeIndex] at cached
  split at cached
  · exact answers _ _ _ cached
  · simp at cached

/-- Everything up to the commit index is decided. -/
theorem NodeSafe.reaches (safe : NodeSafe tier ideal self node) {index : Int}
    (below : index ≤ node.commitIndex) : Reaches ideal index := by
  have bound := safe.bound
  refine ⟨_, _, safe.certified, ?_⟩
  rw [List.length_take]
  omega

end Dedupe

/-- A `submit` call about to resume still finds its entry in the log. -/
def OwnEntry (ideal : Ideal Id) (actor : Id) (node : Node Id machine) (id : Nat) : Prop :=
  ∀ waiter, node.resumable.find? (fun waiter => waiter.id = id) = some waiter →
    (ideal.log actor)[waiter.entry.index.toNat]? = some waiter.entry

variable [DecidableEq Id] [Fintype Id]

namespace Course

variable {stage : Stage Id machine} {ideal next : Ideal Id} {node after : Node Id machine}

/-! ## Writes -/

theorem submit (course : Course stage ideal node) (cluster : Cluster Id) (id : Nat)
    (type : EntryType) (payload : Json) :
    ∃ next, Course stage next
      (node.submit (cluster.config stage.actor) id type payload) := by
  rw [Node.submit]
  split
  · exact ⟨ideal, course.emit fun _ _ => trivial⟩
  next leader =>
      split
      next cached answered =>
          refine ⟨ideal, course.emit fun _ safe => ⟨?_, fun _ entry own => ?_⟩⟩
          · exact safe.reaches ((safe.dedupe_le answered).trans safe.applied_le)
          · simp at own
      next =>
          have leads := not_not.mp leader
          have sent := (course.appendLocal leads type payload).sendAppendEntriesToAll cluster
          obtain ⟨_, frame, _⟩ := Node.sendAppendEntriesToAll_sends
            (cluster.config stage.actor) (node.appendLocal type payload).1
          have numbered : (node.appendLocal type payload).2.index =
              (ideal.log stage.actor).length := by
            have last := course.matching.lastIndex
            show node.db.lastIndex + 1 = _
            omega
          have recorded : Recorded
              (ideal.append stage.actor (node.appendLocal type payload).2)
              (node.appendLocal type payload).2 := by
            have own : (node.appendLocal type payload).2.term =
                ideal.current stage.actor := course.matching.current.symm
            refine ⟨?_, by omega, ?_⟩
            · show ideal.elected node.currentTerm ≠ none
              simp [(course.matching.leads leads).1]
            · rw [numbered, own]
              simp [Replication.State.append]
          dsimp only
          split
          next resolved =>
              -- the new entry lies above everything the node has committed
              refine ⟨_, sent.memory rfl rfl { sent.matching with } fun strict _ => ?_⟩
              have bound := (course.safe strict).bound
              simp only [Node.check, frame] at resolved
              split at resolved
              next reached =>
                  have same : (node.appendLocal type payload).1.commitIndex =
                    node.commitIndex := rfl
                  omega
              next => split at resolved <;> simp at resolved
          · exact ⟨_, sent.emit fun _ _ => trivial⟩
          · refine ⟨_, sent.memory rfl rfl { sent.matching with } fun _ safe => ?_⟩
            exact { safe with
              listening := fun waiter member => by
                rcases List.mem_append.mp member with old | new
                · exact safe.listening waiter old
                · obtain rfl := List.mem_singleton.mp new
                  exact recorded }

theorem resumeSubmit (course : Course stage ideal node) (id : Nat)
    (own : stage.tier.faithful → OwnEntry ideal stage.actor node id) :
    Course stage ideal (node.resumeSubmit id) := by
  rw [Node.resumeSubmit]
  split
  · exact course
  next waiter found =>
      have member := List.mem_of_find?_eq_some found
      have taken : Course stage ideal { node with
          resumable := node.resumable.filter fun other => other.id ≠ id } := by
        refine course.memory rfl rfl { course.matching with } fun _ safe => ?_
        exact { safe with
          resumed := fun other kept => safe.resumed other (List.mem_of_mem_filter kept) }
      have resolved : stage.tier.strict →
          EventSafe stage.tier ideal stage.actor
            (.submitResolved id (some waiter.entry)
              { index := waiter.entry.index, term := waiter.entry.term } :
              Event machine.Blob) := by
        intro strict
        have safe := course.safe strict
        obtain ⟨below, _, positive, _⟩ := safe.resumed waiter member
        refine ⟨safe.reaches below, fun faithful entry some_ _ => ?_⟩
        obtain rfl := Option.some.inj some_
        exact .of_take safe.certified course.matching.file.log.indexed
          (own faithful waiter found) (by omega)
      dsimp only
      split
      next authoritative answered =>
          split
          next other =>
              refine taken.emit fun strict _ => ?_
              have safe := course.safe strict
              refine ⟨safe.reaches ((safe.dedupe_le answered).trans safe.applied_le),
                fun _ entry some_ same => ?_⟩
              obtain rfl := Option.some.inj some_
              exact absurd same other
          · exact taken.emit fun strict _ => resolved strict
      · exact taken.emit fun strict _ => resolved strict

theorem submitTimeout (course : Course stage ideal node) (id : Nat) :
    Course stage ideal (node.submitTimeout id) := by
  rw [Node.submitTimeout]
  split
  · exact course
  · have removed : Course stage ideal { node with
        commitListeners := node.commitListeners.filter fun other => other.id ≠ id } := by
      refine course.memory rfl rfl { course.matching with } fun _ safe => ?_
      exact { safe with
        listening := fun other kept => safe.listening other (List.mem_of_mem_filter kept) }
    dsimp only
    split
    · exact removed.emit fun _ _ => trivial
    · exact removed

/-! ## Reads -/

theorem startReadIndex (course : Course stage ideal node) (cluster : Cluster Id)
    (id : Nat) :
    Course stage ideal (node.startReadIndex (cluster.config stage.actor) id) := by
  have called : Course stage ideal (node.emit (.readCalled id)) :=
    course.emit fun _ _ => trivial
  rw [Node.startReadIndex]
  split
  · exact called.emit fun _ _ => trivial
  next leader =>
      split
      · exact called.emit fun _ _ => trivial
      · have leads := not_not.mp leader
        have ledger := called.matching.ledger called.sound leads
        have office := called.matching.leads leads
        have stores := called.matching.file.log
        have last := called.matching.lastIndex
        refine called.send rfl ⟨?_, ⟨rfl, rfl, rfl⟩, ?_⟩
          (fun _ safe => called.commit_safe leads safe) fun body request => by cases request
        · rw [ledger] at office last
          have whole : (((ideal.ledger (node.emit (.readCalled id)).currentTerm).length : Int)
              - 1 + 1).toNat =
                (ideal.ledger (node.emit (.readCalled id)).currentTerm).length := by omega
          refine ⟨office.1, ?_, ?_, Or.inl ⟨List.nil_prefix, ?_, Or.inr ?_⟩⟩
          · simp only [last]
            omega
          · simp only [AppendEntries.count, last, whole, List.length_nil]
            exact office.2
          · simp only [AppendEntries.count, last, whole, List.length_nil]
            exact Nat.le_refl _
          · simp only [last, whole, List.take_length]
            rw [stores.lastTerm_eq, ledger]
        · simp [cluster.mem_peers]

theorem awaitApplied (course : Course stage ideal node) (read : Reading) :
    Course stage ideal (node.awaitApplied read) := by
  rw [Node.awaitApplied]
  split
  · exact course.memory rfl rfl { course.matching with } fun _ safe => { safe with }
  next reached => exact course.emit fun _ _ => Int.not_lt.mp reached

theorem finishReadIndex (course : Course stage ideal node) (config : Config Id)
    (id : Nat) (readIdx : Int) (termAtStart : Nat) (results : List (Option Reply)) :
    ∃ next, Course stage next
      (node.finishReadIndex config id readIdx termAtStart results) := by
  rw [Node.finishReadIndex]
  split
  · exact ⟨_, (course.becomeFollower _ none).emit fun _ _ => trivial⟩
  · split
    · exact ⟨_, course.emit fun _ _ => trivial⟩
    · split
      · exact ⟨_, course.emit fun _ _ => trivial⟩
      · exact ⟨_, course.awaitApplied _⟩

theorem pollRead (course : Course stage ideal node) (id : Nat) :
    Course stage ideal (node.pollRead id) := by
  rw [Node.pollRead]
  split
  · exact course
  next read _ =>
      refine Course.awaitApplied ?_ read
      exact course.memory rfl rfl { course.matching with } fun _ safe => { safe with }

/-! ## Replies to what a leader sent -/

/-- A success reply moves `matchIndex` to the end of what the request covered. -/
theorem finishAppendEntries (course : Course stage ideal node) (cluster : Cluster Id)
    (peer : Id) (nextIdx prevLogIndex : Int) (entries : List LogEntry)
    (result : Option Reply)
    (acked : stage.tier.strict → node.role = .leader → ∀ reply, result = some reply →
      reply.success = true →
      Numbered (prevLogIndex + 1).toNat entries ∧
        (prevLogIndex + 1).toNat + entries.length ≤ ideal.acked peer node.currentTerm) :
    ∃ next, Course stage next
      (node.finishAppendEntries (cluster.config stage.actor) peer nextIdx prevLogIndex
        entries result) := by
  cases result with
  | none => exact ⟨ideal, course⟩
  | some reply =>
      simp only [Node.finishAppendEntries]
      split
      · exact ⟨ideal, course⟩
      next active =>
          simp only [not_or, not_not] at active
          split
          · exact ⟨_, course.becomeFollower _ none⟩
          · split
            next success =>
                suffices counting : Course stage ideal _ from
                  counting.maybeAdvanceCommitIndex cluster
                refine course.memory rfl rfl { course.matching with } fun strict safe => ?_
                obtain ⟨numbered, counted⟩ := acked strict active.2 reply rfl success
                exact { safe with
                  matched := fun leader other index known => by
                    by_cases same : other = peer
                    · subst same
                      simp only [Function.update_self, Option.some.injEq] at known
                      subst known
                      refine Or.inl (Nat.le_trans ?_ counted)
                      cases ends : entries.getLast? with
                      | none => simp
                      | some entry =>
                          rw [List.getLast?_eq_getElem?] at ends
                          have index := numbered _ _ ends
                          have bound := (List.getElem?_eq_some_iff.mp ends).1
                          simp only
                          omega
                    · simp only [Function.update_of_ne same] at known
                      exact safe.matched leader other index known }
            next => exact ⟨ideal, course.memory rfl rfl { course.matching with }
                fun _ safe => { safe with }⟩

theorem finishInstallSnapshot (course : Course stage ideal node) (peer : Id)
    (lastIncludedIndex : Int) (result : Option Reply)
    (acked : stage.tier.strict → node.role = .leader → ∀ reply, result = some reply →
      reply.term ≤ node.currentTerm →
      (lastIncludedIndex + 1).toNat ≤ ideal.acked peer node.currentTerm ∨
        ¬stage.tier.exact ∧ lastIncludedIndex ≤ node.commitIndex) :
    ∃ next, Course stage next
      (node.finishInstallSnapshot peer lastIncludedIndex result) := by
  cases result with
  | none => exact ⟨ideal, course⟩
  | some reply =>
      simp only [Node.finishInstallSnapshot]
      split
      · exact ⟨ideal, course⟩
      next active =>
          simp only [not_or, not_not] at active
          split
          · exact ⟨_, course.becomeFollower _ none⟩
          next current =>
              refine ⟨ideal, course.memory rfl rfl { course.matching with }
                fun strict safe => ?_⟩
              exact { safe with
                matched := fun leader other index known => by
                  by_cases same : other = peer
                  · subst same
                    simp only [Function.update_self, Option.some.injEq] at known
                    exact known ▸ acked strict active.2 reply rfl (Nat.le_of_not_lt current)
                  · simp only [Function.update_of_ne same] at known
                    exact safe.matched leader other index known }

/-! ## Elections -/

/-- An election is won in a vacant term with a majority of ballots. -/
theorem finishElection (course : Course stage ideal node) (cluster : Cluster Id)
    (termAtStart : Nat) (results : List (Option Reply))
    (won : node.Won (cluster.config stage.actor) termAtStart results →
      ideal.elected node.currentTerm = none ∧
        ∃ group : Finset Id, Quorum.Majority group ∧
          ∀ voter ∈ group, ideal.ballot voter node.currentTerm stage.actor) :
    ∃ next, Course stage next
      (node.finishElection (cluster.config stage.actor) termAtStart results) := by
  rw [Node.finishElection]
  split
  · exact ⟨ideal, course⟩
  next active =>
      simp only [not_or, not_not] at active
      split
      · exact ⟨_, course.becomeFollower _ none⟩
      next votes tallied =>
          split
          next enough =>
              obtain ⟨vacant, group, majority, ballots⟩ :=
                won ⟨active.2.1, active.2.2, votes, tallied, enough⟩
              exact course.becomeLeader cluster active.2.1 vacant majority ballots
          · exact ⟨ideal, course⟩

end Course

end RaftCanvas
