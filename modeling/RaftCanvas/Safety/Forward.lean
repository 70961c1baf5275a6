import RaftCanvas.Cluster.CommitRule
import RaftCanvas.Raft.Forward
import RaftCanvas.Raft.StateMachine
import RaftCanvas.Simulation.Run

/-!
# Commit and apply move forward

Between two restarts of a node neither `commitIndex` nor `lastApplied` goes back, and when
a handler returns everything committed is applied, as long as no snapshot is installed
over a later state.
-/

namespace RaftCanvas

namespace World

variable {Id : Type} {machine : Machine} [DecidableEq Id]

/-- A snapshot is delivered to a node that has applied more than it covers, but has not
compacted that far. -/
def rollsBack (world : World Id machine) : Action Id → Bool
  | .deliver id target =>
      match (world.calls[id]?).map Call.request with
      | some (.installSnapshot body) => decide ((world.node target).RollsBack body)
      | _ => false
  | _ => false

/-- The run is orderly, and no snapshot rolls a node back. -/
def Steady (world : World Id machine) (action : Action Id) : Prop :=
  world.Orderly action ∧ world.rollsBack action = false

instance (world : World Id machine) (action : Action Id) : Decidable (world.Steady action) :=
  inferInstanceAs (Decidable (_ ∧ _))

end World

variable {Id : Type} {machine : Machine} [DecidableEq Id] [Fintype Id]

omit [DecidableEq Id] [Fintype Id] in
/-- A node that holds all of its log and has nothing left to apply is caught up. -/
theorem NodeSafe.caught_up {tier : Tier} {ideal : Ideal Id} {self : Id}
    {node : Node Id machine} (safe : NodeSafe tier ideal self node)
    (matching : NodeMatches ideal self node) (exhausted : node.Exhausted) :
    node.lastApplied = node.commitIndex := by
  refine le_antisymm safe.applied_le (Int.not_lt.mp fun behind => ?_)
  have stores := matching.file.log
  have low := stores.low
  have saved_le := safe.saved_le
  have bound := safe.bound
  have missing := exhausted behind
  rw [stores.getEntry_above (by omega), List.getElem?_eq_none_iff] at missing
  omega

section Step

variable {cluster : Cluster Id} {world next : World Id machine} {ideal : Ideal Id}
  {action : Action Id}

/-- What a step does to the two indexes of a node. -/
theorem WorldMatches.forward (matching : WorldMatches .commits ideal world)
    (electoral : World.Electoral cluster world)
    (caught : ∀ self, (world.node self).lastApplied = (world.node self).commitIndex)
    (steady : world.Steady action) (stepped : world.step cluster action = some next) :
    ∃ after, WorldMatches .commits after next ∧ ∀ self,
      (next.node self).lastApplied = (next.node self).commitIndex ∧
        (action ≠ .crash self →
          (world.node self).commitIndex ≤ (next.node self).commitIndex) := by
  obtain ⟨orderly, ahead⟩ := steady
  obtain ⟨mover, after, steps, moved⟩ :=
    matching.step electoral (Permitted.of_orderly orderly) stepped
  obtain ⟨actor, node, done, reply, progress, advances⟩ := World.step_progress stepped
  refine ⟨after, moved, fun self => ?_⟩
  have safe := (moved.safe trivial).nodes self
  have own := moved.nodes self
  -- the log has kept all that the node had committed
  have reach : (world.node self).commitIndex ≤ (next.node self).db.lastIndex := by
    have before := (matching.safe trivial).nodes self
    have bound : (world.node self).commitIndex < (after.log self).length := by
      by_cases acting : self = mover
      · subst acting
        exact before.bound_kept matching.sound steps
      · rw [(steps.sound matching.sound).2.2.log self acting]
        exact before.bound
    have lastIndex := own.lastIndex
    omega
  by_cases acting : self = actor
  · subst acting
    rw [advances.node_actor] at safe own reach ⊢
    cases progress with
    | handled turn taken =>
        obtain ⟨stimulus, prompts, same, _⟩ := World.turn_prompts taken
        have rested : (world.node turn.self).began.lastApplied =
            (world.node turn.self).began.commitIndex := caught turn.self
        have forward : (world.node turn.self).began.Forward turn.after := by
          rw [same]
          refine Node.respond_forward rested _ prompts.lives fun body asked rolls => ?_
          subst asked
          obtain ⟨id, call, rfl, issued, _, request⟩ := prompts.request
          have rolled : (world.node turn.self).RollsBack body := rolls
          simp [World.rollsBack, issued, request, rolled] at ahead
        refine ⟨safe.caught_up own forward.exhausted, fun _ => ?_⟩
        exact (le_min le_rfl reach).trans forward.commit
    | interrupted inner effects turn cut taken =>
        have whole := orderly.1
        rw [cut] at whole
        exact whole.elim
    | crashed _ died =>
        have saved_le := safe.saved_le
        have applied_le := safe.applied_le
        obtain ⟨commit, _⟩ := Node.start_memory (matching.nodes self)
          ((matching.safe trivial).nodes self).saved
        have stored := (World.Electoral.start_quiet (world.node self).db).2.1
        refine ⟨?_, fun alive => absurd died alive⟩
        rw [stored] at saved_le
        omega
  · rw [advances.node_other acting]
    exact ⟨caught self, fun _ => le_rfl⟩

/-- In a steady run all nodes are caught up whenever no handler is running. -/
theorem WorldMatches.of_steady
    (reached : (cluster.system machine).Reach World.Steady world) :
    ∃ ideal, WorldMatches .commits ideal world ∧
      ∀ self, (world.node self).lastApplied = (world.node self).commitIndex := by
  induction reached with
  | init => exact ⟨_, .initial _, fun _ => machine.lastApplied_init⟩
  | step before steady stepped ih =>
      obtain ⟨ideal, matching, caught⟩ := ih
      obtain ⟨after, moved, forward⟩ :=
        matching.forward (.of_reach before) caught steady stepped
      exact ⟨after, moved, fun self => (forward self).1⟩

end Step

/-- In a steady run `commitIndex` and `lastApplied` of a node never decrease between two
of its restarts, and after every step they are equal and within the log. -/
theorem commit_moves_forward {Id : Type} [DecidableEq Id] [Fintype Id]
    (cluster : Cluster Id) (machine : Machine) (world next : World Id machine)
    (action : Action Id) (reached : (cluster.system machine).Reach World.Steady world)
    (steady : world.Steady action)
    (stepped : (cluster.system machine).step world action = some next) (self : Id) :
    (next.node self).lastApplied = (next.node self).commitIndex ∧
      (next.node self).commitIndex ≤ (next.node self).db.lastIndex ∧
      (action ≠ .crash self →
        (world.node self).commitIndex ≤ (next.node self).commitIndex ∧
          (world.node self).lastApplied ≤ (next.node self).lastApplied) := by
  obtain ⟨ideal, matching, caught⟩ := WorldMatches.of_steady reached
  obtain ⟨after, moved, forward⟩ := matching.forward (.of_reach reached) caught steady stepped
  obtain ⟨level, grows⟩ := forward self
  have bound := ((moved.safe trivial).nodes self).bound
  have lastIndex := (moved.nodes self).lastIndex
  refine ⟨level, by omega, fun alive => ⟨grows alive, ?_⟩⟩
  rw [caught self, level]
  exact grows alive

/-- Only replica 0 compacts, after every entry. -/
def eager : Cluster (Fin 3) :=
  { Cluster.ofFin 3 100 with snapshotThreshold := fun self => if self = 0 then 1 else 100 }

/-- Replica 0 leads and has compacted its first entry when it turns to replica 2, whose
success is still on its way back: the snapshot is sent, and overtaken by the next entry. -/
def overrun : List (Action (Fin 3)) :=
  [.electionTimeout 0, .deliver 0 1,
    .resume 0 [some { term := 1, voteGranted := true }, none],
    .deliver 1 1, .deliver 2 2, .resume 1 [some { term := 1, success := true }],
    .heartbeat 0, .resume 2 [some { term := 1, success := true }],
    .submit 0 .stroke .null, .deliver 5 1, .resume 5 [some { term := 1, success := true }],
    .deliver 6 2, .resume 6 [some { term := 1, success := true }], .heartbeat 0,
    .deliver 8 2]

theorem commit_moves_forward_overrun : ∃ world next : World (Fin 3) canvas,
    (world.node 2).commitIndex = 0 ∧ (next.node 2).commitIndex = 1 ∧
      (next.node 2).lastApplied = (next.node 2).commitIndex ∧
      (next.node 2).commitIndex ≤ (next.node 2).db.lastIndex ∧
      (world.node 2).lastApplied ≤ (next.node 2).lastApplied := by
  obtain ⟨world, reached, passed⟩ :=
    (eager.system canvas).exists_reach_of_run World.Steady (overrun.take 14)
      (fun world => decide (world.Steady (.deliver 8 2)) &&
        (decide ((world.node 2).commitIndex = 0) && (world.step eager (.deliver 8 2)).any
          fun next : World (Fin 3) canvas => decide ((next.node 2).commitIndex = 1)))
      (by decide +kernel)
  simp only [Bool.and_eq_true, decide_eq_true_eq, Option.any_eq_true] at passed
  obtain ⟨steady, before, next, stepped, after⟩ := passed
  obtain ⟨level, bound, grows⟩ :=
    commit_moves_forward _ _ world next _ reached steady stepped 2
  exact ⟨world, next, before, after, level, bound, (grows nofun).2⟩

/-- The snapshot then takes replica 2 back behind what it has applied and committed. -/
theorem commit_rolled_back : ∃ world next : World (Fin 3) canvas,
    (eager.system canvas).Reach World.Orderly world ∧
      (eager.system canvas).step world (.deliver 4 2) = some next ∧
      (next.node 2).lastApplied < (world.node 2).lastApplied ∧
      (next.node 2).lastApplied ≠ (next.node 2).commitIndex := by
  obtain ⟨world, reached, passed⟩ :=
    (eager.system canvas).exists_reach_of_run World.Orderly overrun
      (fun world => (world.step eager (.deliver 4 2)).any fun next : World (Fin 3) canvas =>
        decide ((next.node 2).lastApplied < (world.node 2).lastApplied ∧
          (next.node 2).lastApplied ≠ (next.node 2).commitIndex))
      (by decide +kernel)
  obtain ⟨next, stepped, fallen⟩ := (Option.any_eq_true _ _).mp passed
  exact ⟨world, next, reached, stepped, of_decide_eq_true fallen⟩

end RaftCanvas
