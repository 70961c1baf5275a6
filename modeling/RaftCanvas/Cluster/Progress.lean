import RaftCanvas.Cluster.World
import RaftCanvas.Raft.Votes
import RaftCanvas.Library.Quorum

/-!
# What a step of the cluster does

Whether a handler call runs to its end or is cut off by a crash, a step moves one
node, records the effects that happened, and adds at most one reply.
-/

namespace RaftCanvas

namespace World

variable {Id : Type} {machine : Machine} [DecidableEq Id]

/-- From `world` to `next`, `actor` ends up in `node` after the effects `done`. -/
structure Advances (world next : World Id machine) (actor : Id) (node : Node Id machine)
    (done : List (Effect Id machine.Blob)) (reply : Option (Delivery Id)) : Prop where
  nodes_eq : next.node = Function.update world.node actor node
  calls_eq : next.calls = world.calls ++ Effect.sends done
  replies_eq : next.replies = world.replies ++ reply.toList
  history_eq : next.history =
    ((Effect.events done).map fun event => (actor, event)).reverse ++ world.history

namespace Advances

variable {world next : World Id machine} {actor : Id} {node : Node Id machine}
  {done : List (Effect Id machine.Blob)} {reply : Option (Delivery Id)}

theorem node_actor (advances : world.Advances next actor node done reply) :
    next.node actor = node := by
  simp [advances.nodes_eq]

theorem node_other (advances : world.Advances next actor node done reply) {other : Id}
    (different : other ≠ actor) : next.node other = world.node other := by
  simp [advances.nodes_eq, different]

theorem mem_history (advances : world.Advances next actor node done reply) {who : Id}
    {event : Event machine.Blob} :
    (who, event) ∈ next.history ↔
      who = actor ∧ event ∈ Effect.events done ∨ (who, event) ∈ world.history := by
  simp only [advances.history_eq, List.mem_append, List.mem_reverse, List.mem_map,
    Prod.mk.injEq]
  constructor
  · rintro (⟨seen, member, rfl, rfl⟩ | old)
    · exact Or.inl ⟨rfl, member⟩
    · exact Or.inr old
  · rintro (⟨rfl, member⟩ | old)
    · exact Or.inl ⟨event, member, rfl, rfl⟩
    · exact Or.inr old

theorem mem_replies (advances : world.Advances next actor node done reply)
    {delivery : Delivery Id} :
    delivery ∈ next.replies ↔ delivery ∈ world.replies ∨ reply = some delivery := by
  simp [advances.replies_eq]

theorem mem_calls (advances : world.Advances next actor node done reply)
    {call : Call Id machine.Blob} :
    call ∈ next.calls ↔ call ∈ world.calls ∨ call ∈ Effect.sends done := by
  simp [advances.calls_eq]

/-- Calls keep their identity. -/
theorem call_kept (advances : world.Advances next actor node done reply) {id : Nat}
    {call : Call Id machine.Blob} (issued : world.calls[id]? = some call) :
    next.calls[id]? = some call := by
  rw [advances.calls_eq, List.getElem?_append_left (List.getElem?_eq_some_iff.mp issued).1,
    issued]

theorem call_old (advances : world.Advances next actor node done reply) {id : Nat}
    {call : Call Id machine.Blob} (old : id < world.calls.length)
    (issued : next.calls[id]? = some call) : world.calls[id]? = some call := by
  rwa [advances.calls_eq, List.getElem?_append_left old] at issued

end Advances

/-- How an action moves a node: a handler call that runs to its end, one that is
cut off, or a restart. -/
inductive Progress (cluster : Cluster Id) (world : World Id machine)
    (action : Action Id) : Id → Node Id machine → List (Effect Id machine.Blob) →
      Option (Delivery Id) → Prop where
  | handled (turn : Turn Id machine) (taken : world.turn cluster action = some turn) :
      Progress cluster world action turn.self turn.after turn.after.trace turn.reply
  | interrupted (inner : Action Id) (effects : Nat) (turn : Turn Id machine)
      (cut : action = .crashDuring inner effects)
      (taken : world.turn cluster inner = some turn) :
      Progress cluster world action turn.self
        (.start (Effect.file (world.node turn.self).db (turn.after.trace.take effects)))
        (turn.after.trace.take effects) none
  | crashed (self : Id) (died : action = .crash self) :
      Progress cluster world action self (.start (world.node self).db) [] none

theorem finish_advances (world : World Id machine) (turn : Turn Id machine) :
    world.Advances (world.finish turn) turn.self turn.after turn.after.trace
      turn.reply :=
  ⟨rfl, rfl, rfl, rfl⟩

theorem interrupt_advances (world : World Id machine) (turn : Turn Id machine)
    (effects : Nat) :
    world.Advances (world.interrupt turn effects) turn.self
      (.start (Effect.file (world.node turn.self).db (turn.after.trace.take effects)))
      (turn.after.trace.take effects) none :=
  ⟨rfl, rfl, by simp [interrupt, restart], rfl⟩

theorem restart_advances (world : World Id machine) (self : Id)
    (db : Database Id machine.Blob) :
    world.Advances (world.restart self db) self (.start db) [] none :=
  ⟨rfl, by simp [restart], by simp [restart], by simp [restart]⟩

theorem step_progress {cluster : Cluster Id} {world next : World Id machine}
    {action : Action Id} (stepped : world.step cluster action = some next) :
    ∃ self node done reply, world.Progress cluster action self node done reply ∧
      world.Advances next self node done reply := by
  cases action with
  | crash self =>
      simp only [step, Option.some.injEq] at stepped
      subst stepped
      exact ⟨_, _, _, _, .crashed self rfl, restart_advances world self _⟩
  | crashDuring inner effects =>
      simp only [step, Option.map_eq_some_iff] at stepped
      obtain ⟨turn, taken, rfl⟩ := stepped
      exact ⟨_, _, _, _, .interrupted inner effects turn rfl taken,
        interrupt_advances world turn effects⟩
  | electionTimeout | heartbeat | submit | readIndex | deliver | resume | resumeSubmit
  | submitTimeout | pollRead =>
      simp only [step, Option.map_eq_some_iff] at stepped
      obtain ⟨turn, taken, rfl⟩ := stepped
      exact ⟨_, _, _, _, .handled turn taken, finish_advances world turn⟩

/-! ## Replies that answer a call -/

/-- The targets whose results count, each with a reply that counts. -/
theorem answers_counted {world : World Id machine} {call : Nat} {targets : List Id}
    {results : List (Option Reply)} (answers : world.Answers call targets results = true)
    (counts : Reply → Bool) :
    ∃ voters : List Id, voters.Sublist targets ∧
      voters.length = results.countP (fun reply => reply.any counts) ∧
      ∀ voter ∈ voters, ∃ reply, ⟨call, voter, reply⟩ ∈ world.replies ∧
        counts reply = true := by
  induction targets generalizing results with
  | nil =>
      cases results with
      | nil => exact ⟨[], .slnil, rfl, by simp⟩
      | cons => simp [Answers] at answers
  | cons target targets ih =>
      cases results with
      | nil => simp [Answers] at answers
      | cons result results =>
          simp only [Answers, Bool.and_eq_true] at answers
          obtain ⟨own, others⟩ := answers
          obtain ⟨voters, inside, counted, replied⟩ := ih others
          by_cases agrees : result.any counts = true
          · obtain ⟨reply, rfl, good⟩ : ∃ reply, result = some reply ∧ counts reply = true := by
              simpa [Option.any_eq_true] using agrees
            refine ⟨target :: voters, inside.cons_cons target, ?_, ?_⟩
            · simp [good, counted]
            · intro voter member
              rcases List.mem_cons.mp member with rfl | member
              · exact ⟨reply, by simpa using own, good⟩
              · exact replied voter member
          · refine ⟨voters, inside.cons target, ?_, replied⟩
            simp [agrees, counted]

end World

namespace Cluster

variable {Id : Type} {machine : Machine} [DecidableEq Id] [Fintype Id]

theorem card_eq (cluster : Cluster Id) (self : Id) :
    Fintype.card Id = (cluster.peers self).length + 1 := by
  have everyone : insert self (cluster.peers self).toFinset = Finset.univ := by
    ext other
    simp only [Finset.mem_insert, List.mem_toFinset, cluster.mem_peers, Finset.mem_univ,
      iff_true]
    exact em _
  rw [← Finset.card_univ, ← everyone, Finset.card_insert_of_notMem,
    List.toFinset_card_of_nodup (cluster.peers_nodup self)]
  simp [cluster.mem_peers]

/-- Enough replies that count make a majority with the caller. -/
theorem majority_of_answers (cluster : Cluster Id) {world : World Id machine}
    {self : Id} {call : Nat} {results : List (Option Reply)}
    (answers : world.Answers call (cluster.peers self) results = true)
    {counts : Reply → Bool} {currentTerm votes : Nat}
    (tallied : Node.tally counts currentTerm results 1 = .count votes)
    (enough : (cluster.config self).majority ≤ votes) :
    ∃ group : Finset Id, Quorum.Majority group ∧ self ∈ group ∧
      ∀ voter ∈ group, voter ≠ self →
        ∃ reply, ⟨call, voter, reply⟩ ∈ world.replies ∧ counts reply = true := by
  obtain ⟨voters, inside, counted, replied⟩ := World.answers_counted answers counts
  have total := Node.tally_count tallied
  have size := cluster.card_eq self
  refine ⟨insert self voters.toFinset, ?_, Finset.mem_insert_self _ _, ?_⟩
  · refine Quorum.majority_insert_toFinset self
      (inside.nodup (cluster.peers_nodup self)) ?_ ?_
    · intro member
      exact (cluster.mem_peers self self).mp (inside.subset member) rfl
    · rw [size, counted, ← total]
      exact enough
  · intro voter member different
    rw [Finset.mem_insert, List.mem_toFinset] at member
    exact replied voter (member.resolve_left different)

end Cluster

end RaftCanvas
