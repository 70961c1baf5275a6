import RaftCanvas.Cluster.Turns
import RaftCanvas.Raft.Steady
import RaftCanvas.Raft.Provenance
import RaftCanvas.Raft.StateMachine

/-!
# The files of the replicas

Wherever a process dies, its file is left by finitely many transactions, and every node
restarts on such a file.  So the tables on disk are at any moment what the nodes take them
for.
-/

namespace RaftCanvas

variable {Id : Type} {machine : Machine}

/-- A property that every transaction keeps. -/
def Database.Lasting {Blob : Type} (held : Database Id Blob → Prop) : Prop :=
  ∀ db (operation : Operation Id Blob), held db → held (db.perform operation)

namespace Node

/-- In the course of a handler: the file has the property, and had it after every
transaction. -/
structure Filed (held : Database Id machine.Blob → Prop) (node : Node Id machine) :
    Prop where
  db : held node.db
  cuts : ∀ file, .write file ∈ node.trace → held file

theorem Filed.effective {held : Database Id machine.Blob → Prop}
    (lasting : Database.Lasting held) : Effective (Filed held) where
  memory kept db trace := ⟨db ▸ kept.db, trace ▸ kept.cuts⟩
  emit event kept := ⟨kept.db, fun file written => kept.cuts file (by
    simpa [Node.emit] using written)⟩
  send call kept := ⟨kept.db, fun file written => kept.cuts file (by
    simpa [Node.send] using written)⟩
  perform {self} operation kept := by
    have after := lasting self.db operation kept.db
    refine ⟨after, fun file written => ?_⟩
    rcases List.mem_append.mp written with before | now
    · exact kept.cuts file before
    · obtain ⟨⟩ := List.mem_singleton.mp now
      exact after

/-- Starting does not write. -/
theorem start_db (db : Database Id machine.Blob) :
    (.start db : Node Id machine).db = db := by
  rw [Node.start]
  dsimp only
  cases db.loadLatestSnapshot <;> simp [Node.becomeFollower, Node.emit]

end Node

namespace World

variable [DecidableEq Id] {cluster : Cluster Id} {world next : World Id machine}
  {held : Database Id machine.Blob → Prop}

def Held (held : Database Id machine.Blob → Prop) (world : World Id machine) : Prop :=
  ∀ self, held (world.node self).db

/-- A handler call leaves a file with the property, and so does one that is cut off. -/
theorem turn_filed (lasting : Database.Lasting held) {action : Action Id}
    {turn : Turn Id machine} (taken : world.turn cluster action = some turn)
    (before : held (world.node turn.self).db) : turn.after.Filed held := by
  obtain ⟨stimulus, prompts, after, _⟩ := turn_prompts taken
  have began : (world.node turn.self).began.Filed held := ⟨before, nofun⟩
  rw [after]
  exact (Node.Filed.effective lasting).steady.respond rfl began prompts.lives
    fun _ _ term leader _ => (Node.Filed.effective lasting).followLeader began term leader

theorem Held.step (before : world.Held held) (lasting : Database.Lasting held)
    {action : Action Id} (stepped : world.step cluster action = some next) :
    next.Held held := by
  intro self
  obtain ⟨actor, node, done, reply, progress, advances⟩ := step_progress stepped
  by_cases same : self = actor
  · rw [same, advances.node_actor]
    cases progress with
    | handled turn taken => exact (turn_filed lasting taken (before _)).db
    | interrupted inner effects turn cut taken =>
        have filed := turn_filed lasting taken (before _)
        rw [Node.start_db]
        rcases Effect.file_eq_or_mem (world.node turn.self).db
          (turn.after.trace.take effects) with same | written
        · rw [same]
          exact before _
        · exact filed.cuts _ (List.mem_of_mem_take written)
    | crashed self died =>
        rw [Node.start_db]
        exact before _
  · rw [advances.node_other same]
    exact before self

/-- What holds of an empty file and survives transactions holds of every file. -/
theorem Held.reach (lasting : Database.Lasting held) (blank : held .empty)
    {allowed : World Id machine → Action Id → Prop}
    (reached : (cluster.system machine).Reach allowed world) : world.Held held := by
  refine reached.invariant ?_ fun _ _ _ _ before _ stepped => before.step lasting stepped
  intro self
  have empty : ((cluster.system machine).init.node self).db = .empty := Node.start_db _
  exact empty ▸ blank

end World

section

variable [DecidableEq Id]

/-- Every file of a run, also of one in which processes die between two transactions, is
left by operations of `Persistence` on an empty file: the tables on disk, whatever the
times of the operations, answer all queries as the node's database does, keep at most one
snapshot, and are not changed by opening the file again. -/
theorem files_served (cluster : Cluster Id) (name : Id → String) {world : World Id machine}
    (reached : (cluster.system machine).Reach (fun _ _ => True) world) (self : Id) :
    ∃ operations : List (Operation Id machine.Blob),
      (world.node self).db = operations.foldl Database.perform .empty ∧
        ∀ timed : List (Operation Id machine.Blob × Int),
          timed.map Prod.fst = operations →
            ((Tables.construct {}).run name timed).Serves name (world.node self).db := by
  have lasting : Database.Lasting fun db : Database Id machine.Blob =>
      ∃ operations : List (Operation Id machine.Blob),
        db = operations.foldl Database.perform .empty := by
    rintro _ operation ⟨operations, rfl⟩
    exact ⟨operations ++ [operation], (List.foldl_concat _ _ _ _).symm⟩
  obtain ⟨operations, left⟩ := World.Held.reach lasting ⟨[], rfl⟩ reached self
  refine ⟨operations, left, fun timed same => ?_⟩
  have represents : Represents name (Tables.construct {} : Tables machine.Blob) .empty :=
    .open_empty
  rw [left, ← same]
  exact (represents.run timed).serves

end

/-- The leader compacts its log and dies before the transaction that deletes the entries. -/
def halfway : List (Action (Fin 3)) :=
  [.electionTimeout 0, .deliver 0 1,
    .resume 0 [some { term := 1, voteGranted := true }, none], .deliver 1 1,
    .crashDuring (.resume 1 [some { term := 1, success := true }]) 2]

theorem files_served_halfway :
    ∃ world : World (Fin 3) canvas,
      ((Cluster.ofFin 3 1).system canvas).Reach (fun _ _ => True) world ∧
        (world.node 0).db.lastSnapshotIndex = 0 ∧ (world.node 0).db.firstIndex = 0 ∧
        ∃ tables : Tables canvas.Blob,
          tables.Serves (fun self : Fin 3 => "replica" ++ toString self.val)
            (world.node 0).db := by
  obtain ⟨world, reached, passed⟩ :=
    ((Cluster.ofFin 3 1).system canvas).exists_reach_of_run (fun _ _ => True) halfway
      (fun world => decide ((world.node 0).db.lastSnapshotIndex = 0 ∧
        (world.node 0).db.firstIndex = 0)) (by decide +kernel)
  obtain ⟨marked, kept⟩ := of_decide_eq_true passed
  obtain ⟨operations, _, served⟩ := files_served (Cluster.ofFin 3 1)
    (fun self : Fin 3 => "replica" ++ toString self.val) reached 0
  refine ⟨world, reached, marked, kept, _, served (operations.map fun operation =>
    (operation, 0)) ?_⟩
  rw [List.map_map]
  exact List.map_id operations

end RaftCanvas
