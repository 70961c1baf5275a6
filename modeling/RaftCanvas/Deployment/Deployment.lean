import RaftCanvas.Canvas.Feed
import RaftCanvas.Cluster.World
import RaftCanvas.Frontend.Queue
import RaftCanvas.Gateway.Clients
import RaftCanvas.Gateway.Gateway
import RaftCanvas.Raft.Roles

/-!
# The deployment

The tabs, the gateway and the replicas together.  A WebSocket carries its messages in
order, each once.  An HTTP request may arrive at any moment after it was sent, or never,
and more than once if it was sent again; whoever else can reach the servers posts too.
-/

namespace RaftCanvas

open Frontend (Tab Observed Location recordedTab)

/-- The state of all processes and of the network between them. -/
structure Deployment (Tabs Id Data : Type) (machine : Machine) where
  tabs : Tabs → Tab × List Observed
  hub : Hub := {}
  gateway : Gateway Json Data := {}
  world : World Id machine
  /-- The server's end of a socket, once the gateway has accepted it. -/
  links : Tabs → Nat → Option Nat := fun _ _ => none
  /-- How many strokes of a socket the gateway has received. -/
  received : Tabs → Nat → Nat := fun _ _ => 0
  /-- How many frames a socket has received. -/
  delivered : Tabs → Nat → Nat := fun _ _ => 0
  /-- Every `POST /broadcast` of a leader. -/
  posts : List Broadcast := []
  /-- Every entry that a replica has applied, with the role it had then. -/
  applied : List (Id × Role × LogEntry) := []

namespace Deployment

/-- A request to a replica runs its handler, which may be cut off by a crash. -/
def handling {Id : Type} (action : Action Id) : Option Nat → Action Id
  | none => action
  | some effects => .crashDuring action effects

/-- What a replica does that is no answer to `POST /stroke`. -/
def unprompted {Id : Type} : Action Id → Bool
  | .submit _ _ _ | .crashDuring _ _ => false
  | _ => true

/-- What happens next.  Strokes of others are posted to the gateway or to a replica. -/
inductive Action (Tabs Id Data : Type) where
  | tab (tab : Tabs) (action : Frontend.Action)
  | accept (tab : Tabs) (socket : Nat)
  | opened (tab : Tabs) (socket : Nat)
  | upload (tab : Tabs) (socket : Nat)
  | download (tab : Tabs) (socket : Nat)
  | shut (ws : Nat)
  | close (ws : Nat)
  | error (ws : Nat)
  | gateway (action : Gateway.Action Json Data)
  | post (forward : Nat) (target : Id) (cut : Option Nat)
  | outside (target : Id) (payload : Json) (cut : Option Nat)
  | replica (action : RaftCanvas.Action Id) (cut : Option Nat)
  | broadcast (post : Nat)

variable {Tabs Id Data : Type} [DecidableEq Tabs] [DecidableEq Id] {machine : Machine}

/-- Actions of a tab that no message causes. -/
def local? : Frontend.Action → Bool
  | .opened _ | .message _ _ => false
  | _ => true

/-- One tab goes on by itself. -/
def stepTab (self : Deployment Tabs Id Data machine) (tab : Tabs) (action : Frontend.Action) :
    Option (Deployment Tabs Id Data machine) :=
  ((self.tabs tab).1.step action).map fun next =>
    { self with
      tabs := Function.update self.tabs tab
        (next, (self.tabs tab).2 ++ (self.tabs tab).1.observe action) }

/-- The next stroke that a socket was given to send. -/
def nextStroke (self : Deployment Tabs Id Data machine) (tab : Tabs) (socket : Nat) :
    Option Frontend.Stroke :=
  (self.tabs tab).1.sockets[socket]?.bind fun ws => ws.sent[self.received tab socket]?

/-- The next frame that the gateway sent on a connection. -/
def nextFrame (self : Deployment Tabs Id Data machine) (tab : Tabs) (socket : Nat) :
    Option Json :=
  (self.links tab socket).bind fun ws => self.hub.connections[ws]?.bind fun connection =>
    connection.sent[self.delivered tab socket]?

/-- One more of the messages counted by `count`. -/
def advance (count : Tabs → Nat → Nat) (tab : Tabs) (socket : Nat) : Tabs → Nat → Nat :=
  Function.update count tab
    (Function.update (count tab) socket (count tab socket + 1))

/-- What a handler did before a crash has been done. -/
def performed (turn : Turn Id machine) : Option Nat → List (Effect Id machine.Blob)
  | none => turn.after.trace
  | some effects => turn.after.trace.take effects

/-- What a handler call of a replica posts.  A handler settles its role before it applies. -/
def posted (cluster : Cluster Id) (world : World Id machine) (action : RaftCanvas.Action Id)
    (cut : Option Nat) : List Broadcast :=
  match world.turn cluster action with
  | none => []
  | some turn => broadcasts turn.after.role (performed turn cut)

/-- What a handler call of a replica applies, with the role it has at each entry. -/
def noted (cluster : Cluster Id) (world : World Id machine) (action : RaftCanvas.Action Id)
    (cut : Option Nat) : List (Id × Role × LogEntry) :=
  match world.turn cluster action with
  | none => []
  | some turn =>
      (Effect.applications (world.node turn.self).role (performed turn cut)).map
        (Prod.mk turn.self)

/-- A replica runs a handler. -/
def stepReplica (cluster : Cluster Id) (self : Deployment Tabs Id Data machine)
    (action : RaftCanvas.Action Id) (cut : Option Nat) :
    Option (Deployment Tabs Id Data machine) :=
  (self.world.step cluster (handling action cut)).map fun world =>
    { self with
      world
      posts := self.posts ++ posted cluster self.world action cut
      applied := self.applied ++ noted cluster self.world action cut }

def step (cluster : Cluster Id) (self : Deployment Tabs Id Data machine) :
    Action Tabs Id Data → Option (Deployment Tabs Id Data machine)
  | .tab tab action => if local? action then self.stepTab tab action else none
  | .accept tab socket =>
      if self.links tab socket = none ∧ socket < (self.tabs tab).1.sockets.length then
        some { self with
          hub := self.hub.connection
          links := Function.update self.links tab
            (Function.update (self.links tab) socket (some self.hub.connections.length)) }
      else none
  | .opened tab socket =>
      if (self.links tab socket).isSome then self.stepTab tab (.opened socket) else none
  | .upload tab socket =>
      if (self.links tab socket).isSome then
        (self.nextStroke tab socket).map fun stroke =>
          { self with
            received := advance self.received tab socket
            gateway :=
              match Hub.message (some (.obj [("stroke", stroke.toJson)])) with
              | some stroke => self.gateway.forwardStrokeToLeader stroke
              | none => self.gateway }
      else none
  | .download tab socket =>
      (self.nextFrame tab socket).bind fun frame =>
        { self with delivered := advance self.delivered tab socket
          }.stepTab tab (.message socket (some frame))
  | .shut ws => some { self with hub := self.hub.shut ws }
  | .close ws => some { self with hub := (self.hub.shut ws).delete ws }
  | .error ws => some { self with hub := self.hub.delete ws }
  | .gateway action => (self.gateway.step action).map fun gateway => { self with gateway }
  | .post forward target cut =>
      self.gateway.forwards[forward]?.bind fun forward =>
        self.stepReplica cluster (.submit target .stroke forward.stroke) cut
  | .outside target payload cut =>
      self.stepReplica cluster (.submit target .stroke payload) cut
  | .replica action cut =>
      if unprompted action then self.stepReplica cluster action cut else none
  | .broadcast post =>
      self.posts[post]?.map fun post =>
        { self with
          hub := (self.hub.broadcast (some post.stroke) (some (.num post.logIndex))).1 }

end Deployment

end RaftCanvas
