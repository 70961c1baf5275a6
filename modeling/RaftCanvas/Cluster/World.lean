import Mathlib.Data.List.FinRange
import RaftCanvas.Library.Transition
import RaftCanvas.Raft.RaftNode

/-!
# The cluster

Nodes, the network and the event loops.  A request once sent may be delivered to
its target any number of times and at any moment; each delivery adds a reply, and a
suspended operation resumes once, with replies delivered to its own call or with
failures.  A node may die between two handler calls or after any effect inside one;
its suspended operations die with it and `start()` runs on its file.
-/

namespace RaftCanvas

/-- A static membership: everyone's peers are all the others, each once. -/
structure Cluster (Id : Type) where
  peers : Id → List Id
  snapshotThreshold : Id → Int
  peers_nodup : ∀ self, (peers self).Nodup
  mem_peers : ∀ self other, other ∈ peers self ↔ other ≠ self

def Cluster.config {Id : Type} (cluster : Cluster Id) (self : Id) : Config Id where
  replicaId := self
  peers := cluster.peers self
  snapshotThreshold := cluster.snapshotThreshold self

@[simp] theorem Cluster.config_replicaId {Id : Type} (cluster : Cluster Id) (self : Id) :
    (cluster.config self).replicaId = self := rfl

@[simp] theorem Cluster.config_peers {Id : Type} (cluster : Cluster Id) (self : Id) :
    (cluster.config self).peers = cluster.peers self := rfl

/-- The cluster of `n` replicas with one compaction threshold. -/
def Cluster.ofFin (n : Nat) (snapshotThreshold : Int) : Cluster (Fin n) where
  peers self := (List.finRange n).filter (· ≠ self)
  snapshotThreshold _ := snapshotThreshold
  peers_nodup _ := (List.nodup_finRange n).filter _
  mem_peers self other := by simp

/-- A reply that `responder` produced for a call. -/
structure Delivery (Id : Type) where
  call : Nat
  responder : Id
  reply : Reply
  deriving DecidableEq

structure World (Id : Type) (machine : Machine) where
  node : Id → Node Id machine
  /-- Every call ever issued; its position is its identity. -/
  calls : List (Call Id machine.Blob)
  /-- Calls whose operation is still suspended. -/
  pending : Id → List Nat
  /-- Every reply ever produced. -/
  replies : List (Delivery Id)
  /-- Identity of the next `submit` or `readIndex`. -/
  ops : Nat
  /-- What has been observed, newest first. -/
  history : List (Id × Event machine.Blob)

/-- What can happen next. -/
inductive Action (Id : Type) where
  | electionTimeout (self : Id)
  | heartbeat (self : Id)
  | submit (self : Id) (type : EntryType) (payload : Json)
  | readIndex (self : Id)
  | deliver (call : Nat) (target : Id)
  | resume (call : Nat) (results : List (Option Reply))
  | resumeSubmit (self : Id) (id : Nat)
  | submitTimeout (self : Id) (id : Nat)
  | pollRead (self : Id) (id : Nat)
  /-- The process dies between two handler calls and restarts. -/
  | crash (self : Id)
  /-- The process dies after `effects` effects of the handler call that the action
  stands for. -/
  | crashDuring (action : Action Id) (effects : Nat)

/-- No process dies inside a handler call. -/
def Action.Atomic {Id : Type} : Action Id → Prop
  | .crashDuring _ _ => False
  | _ => True

/-- One handler call: who runs, where it ends up, the reply it returns and the
suspended call it consumes. -/
structure Turn (Id : Type) (machine : Machine) where
  self : Id
  after : Node Id machine
  reply : Option (Delivery Id) := none
  resumed : Option Nat := none

namespace World

variable {Id : Type} {machine : Machine} [DecidableEq Id]

/-- Every node starts on an empty file. -/
def init : World Id machine where
  node _ := .start .empty
  calls := []
  pending _ := []
  replies := []
  ops := 0
  history := []

/-- A node at the start of a synchronous stretch. -/
def fresh (world : World Id machine) (self : Id) : Node Id machine :=
  { world.node self with trace := [] }

/-- The results of a call are replies to it, in the order of its targets. -/
def Answers (world : World Id machine) (call : Nat) :
    List Id → List (Option Reply) → Bool
  | [], [] => true
  | target :: targets, result :: results =>
      (match result with
        | none => true
        | some reply => decide (⟨call, target, reply⟩ ∈ world.replies)) &&
      Answers world call targets results
  | _, _ => false

/-- The handler call an action stands for, if it can happen. -/
def turn (cluster : Cluster Id) (world : World Id machine) :
    Action Id → Option (Turn Id machine)
  | .electionTimeout self =>
      if (world.node self).electionTimer then
        some { self, after := (world.fresh self).startElection (cluster.config self) }
      else none
  | .heartbeat self =>
      if (world.node self).heartbeatTimer then
        some { self, after := (world.fresh self).heartbeat (cluster.config self) }
      else none
  | .submit self type payload =>
      some
        { self
          after := (world.fresh self).submit (cluster.config self) world.ops type payload }
  | .readIndex self =>
      some
        { self
          after := (world.fresh self).startReadIndex (cluster.config self) world.ops }
  | .deliver id target =>
      match world.calls[id]? with
      | none => none
      | some call =>
          if target ∈ call.targets then
            let handled := (world.fresh target).handle (cluster.config target) call.request
            some
              { self := target
                after := handled.1
                reply := some ⟨id, target, handled.2⟩ }
          else none
  | .resume id results =>
      match world.calls[id]? with
      | none => none
      | some call =>
          if id ∈ world.pending call.src ∧ world.Answers id call.targets results then
            some
              { self := call.src
                after := (world.fresh call.src).resume (cluster.config call.src)
                  call.await results
                resumed := some id }
          else none
  | .resumeSubmit self id =>
      some { self, after := (world.fresh self).resumeSubmit id }
  | .submitTimeout self id =>
      some { self, after := (world.fresh self).submitTimeout id }
  | .pollRead self id => some { self, after := (world.fresh self).pollRead id }
  | .crash _ | .crashDuring _ _ => none

/-- Let a handler call run to its end. -/
def finish (world : World Id machine) (turn : Turn Id machine) : World Id machine where
  node := Function.update world.node turn.self turn.after
  calls := world.calls ++ Effect.sends turn.after.trace
  pending := Function.update world.pending turn.self
    ((world.pending turn.self).filter (fun id => some id ≠ turn.resumed) ++
      List.range' world.calls.length (Effect.sends turn.after.trace).length)
  replies := world.replies ++ turn.reply.toList
  ops := world.ops + 1
  history := ((Effect.events turn.after.trace).map fun event =>
    (turn.self, event)).reverse ++ world.history

/-- Restart a node on its file. -/
def restart (world : World Id machine) (self : Id) (db : Database Id machine.Blob) :
    World Id machine :=
  { world with
    node := Function.update world.node self (.start db)
    pending := Function.update world.pending self [] }

/-- Cut a handler call off after some of its effects and restart the node. -/
def interrupt (world : World Id machine) (turn : Turn Id machine) (effects : Nat) :
    World Id machine :=
  let done := turn.after.trace.take effects
  { world.restart turn.self (Effect.file (world.node turn.self).db done) with
    calls := world.calls ++ Effect.sends done
    ops := world.ops + 1
    history := ((Effect.events done).map fun event => (turn.self, event)).reverse ++
      world.history }

def step (cluster : Cluster Id) (world : World Id machine) :
    Action Id → Option (World Id machine)
  | .crash self => some (world.restart self (world.node self).db)
  | .crashDuring action effects =>
      (world.turn cluster action).map fun turn => world.interrupt turn effects
  | action => (world.turn cluster action).map world.finish

end World

/-- The cluster as a transition system. -/
def Cluster.system {Id : Type} [DecidableEq Id] (cluster : Cluster Id)
    (machine : Machine) : Transition.System (World Id machine) (Action Id) where
  init := .init
  step world action := world.step cluster action

end RaftCanvas
