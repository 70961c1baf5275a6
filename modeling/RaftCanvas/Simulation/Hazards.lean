import RaftCanvas.Cluster.World
import RaftCanvas.Simulation.Scan

/-!
# Steps that leave the protocol

Two branches of the source fall outside the abstract protocol: a leader that counts
a success it earned in an earlier leadership, and a follower that takes compacted
entries for missing ones.  A third, a snapshot reply from an earlier leadership, only
spoils `matchIndex`.
-/

namespace RaftCanvas

instance {Id : Type} : DecidablePred (@Action.Atomic Id)
  | .crashDuring _ _ => .isFalse id
  | .electionTimeout _ | .heartbeat _ | .submit _ _ _ | .readIndex _ | .deliver _ _
  | .resume _ _ | .resumeSubmit _ _ | .submitTimeout _ _ | .pollRead _ _ | .crash _ =>
      .isTrue trivial

instance {Id : Type} {machine : Machine} (db : Database Id machine.Blob)
    (entries : List LogEntry) : Decidable (db.Clobbers entries) :=
  inferInstanceAs (Decidable (_ ∧ _ ∧ _ ∧ _))

namespace World

variable {Id : Type} {machine : Machine} [DecidableEq Id]

/-- The call and the reply to its only target that an action hands back. -/
def returned (world : World Id machine) : Action Id → Option (Call Id machine.Blob × Reply)
  | .resume id results =>
      match world.calls[id]?, results.head?.join with
      | some call, some reply => some (call, reply)
      | _, _ => none
  | _ => none

/-- A leader is handed a success of a log request it sent in an earlier term. -/
def staleSuccess (world : World Id machine) (action : Action Id) : Bool :=
  match world.returned action with
  | some (⟨src, _, .appendEntries body, .appendEntries _ _ _ _⟩, reply) =>
      decide ((world.node src).role = .leader ∧ reply.success = true ∧
        body.term ≠ (world.node src).currentTerm)
  | _ => false

/-- A leader is handed the reply to a snapshot it sent in an earlier term. -/
def staleInstall (world : World Id machine) (action : Action Id) : Bool :=
  match world.returned action with
  | some (⟨src, _, .installSnapshot body, _⟩, reply) =>
      decide ((world.node src).role = .leader ∧
        reply.term ≤ (world.node src).currentTerm ∧
          body.term ≠ (world.node src).currentTerm)
  | _ => false

/-- A log request is accepted by a follower whose scan then truncates rows that do
not conflict with it. -/
def clobbers (world : World Id machine) : Action Id → Bool
  | .deliver id target =>
      match (world.calls[id]?).map Call.request with
      | some (.appendEntries body) =>
          decide ((world.node target).currentTerm ≤ body.term) &&
            (Node.matchesPrev (world.node target).db body.prevLogIndex body.prevLogTerm &&
              decide ((world.node target).db.Clobbers body.entries))
      | _ => false
  | _ => false

/-- No replica has compacted its log or installed a snapshot. -/
def Uncompacted (world : World Id machine) : Prop :=
  ∀ member, (world.node member).db.lastSnapshotIndex = -1

instance [Fintype Id] (world : World Id machine) : Decidable world.Uncompacted :=
  inferInstanceAs (Decidable (∀ _, _))

end World

/-- Every process that dies does so between two handler calls, and no step leaves the
protocol. -/
def World.Orderly {Id : Type} {machine : Machine} [DecidableEq Id]
    (world : World Id machine) (action : Action Id) : Prop :=
  action.Atomic ∧ world.staleSuccess action = false ∧ world.clobbers action = false

instance {Id : Type} {machine : Machine} [DecidableEq Id] (world : World Id machine)
    (action : Action Id) : Decidable (world.Orderly action) :=
  inferInstanceAs (Decidable (_ ∧ _ ∧ _))

end RaftCanvas
