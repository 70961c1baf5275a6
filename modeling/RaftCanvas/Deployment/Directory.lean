import RaftCanvas.Cluster.Introduced
import RaftCanvas.Deployment.Addresses
import RaftCanvas.Deployment.Notifier
import RaftCanvas.Gateway.Overwrite

/-!
# Whom the gateway takes for the leader

The gateway learns of leaders in three ways: they announce themselves, it asks all replicas
for their status, and a replica that does not lead sends it on.  Each answer may be late.
Still the gateway never sends a stroke to a replica that has not won an election.
-/

namespace RaftCanvas

/-- `ROLE` -/
def Role.text : Role → String
  | .follower => "follower"
  | .candidate => "candidate"
  | .leader => "leader"

deriving instance DecidableEq for Gateway.Status
deriving instance DecidableEq for Gateway.Redirect

namespace Node

variable {Id : Type} {machine : Machine}

/-- What `GET /status` tells the gateway. -/
def status (hosts : Hosts Id) (config : Config Id) (self : Node Id machine) :
    Gateway.Status where
  state := self.role.text
  replicaId := some (hosts.name config.replicaId)

/-- What `POST /stroke` answers if the replica does not lead. -/
def redirect (hosts : Hosts Id) (self : Node Id machine) : Gateway.Redirect where
  leaderUrl := self.leaderId.map hosts.hintUrl
  leaderId := self.leaderId.map hosts.name

end Node

/-! ## The replicas and the gateway -/

/-- What a handler tells the listeners of its process, and whether that survives it. -/
structure Told (Id : Type) where
  self : Id
  roles : List Role
  lives : Bool

def World.tells {Id : Type} {machine : Machine} [DecidableEq Id] (cluster : Cluster Id)
    (world : World Id machine) : Action Id → Option (Told Id)
  | .crash self => some { self, roles := [], lives := false }
  | .crashDuring action effects =>
      (world.turn cluster action).map fun turn =>
        { self := turn.self
          roles := Effect.roles (turn.after.trace.take effects)
          lives := false }
  | action =>
      (world.turn cluster action).map fun turn =>
        { self := turn.self
          roles := Effect.roles turn.after.trace
          lives := true }

/-- The state of the replicas and of the gateway, and what was sent between them. -/
structure Directory (Id Stroke Data : Type) (machine : Machine) where
  world : World Id machine
  notifiers : Id → Notifier := fun _ => {}
  /-- Every `POST /leader`. -/
  posts : List Id := []
  /-- Every answer to `GET /status`, with the URL that was asked. -/
  statuses : List (String × Gateway.Status) := []
  /-- Every answer of a replica that did not lead to `POST /stroke`. -/
  redirects : List Gateway.Redirect := []
  gateway : Gateway Stroke Data := {}

namespace Gateway

variable {Stroke Data : Type}

/-- The URL that a forward has asked for its status. -/
def asked (self : Gateway Stroke Data) (forward : Nat) : Option String :=
  match self.forwards[forward]? with
  | some { stage := .polling _ url _, .. } => some url
  | _ => none

/-- The URL that a forward has posted its stroke to. -/
def Stage.posted : Stage Data → Option String
  | .posting _ url _ => some url
  | _ => none

end Gateway

namespace Directory

/-- An answer comes from a replica, and late perhaps; a replica that leads redirects
nobody. -/
inductive Action (Id Stroke Data : Type) where
  | replica (action : RaftCanvas.Action Id)
  | fire (self : Id) (timer : Nat)
  | settle (self : Id) (ok : Bool)
  | leader (post : Nat)
  | getStatus (self : Id)
  | refuse (self : Id)
  | stroke (stroke : Stroke)
  | status (forward : Nat) (response : Option Gateway.Status)
  | discovered (forward : Nat)
  | answer (forward : Nat) (result : Except Gateway.PostError Data)

variable {Id Stroke Data : Type} [DecidableEq Id] {machine : Machine}

/-- Announcements are sent. -/
def announce (self : Directory Id Stroke Data machine) (who : Id) (notifier : Notifier)
    (times : Nat) : Directory Id Stroke Data machine :=
  { self with
    notifiers := Function.update self.notifiers who notifier
    posts := self.posts ++ List.replicate times who }

/-- The listeners hear the roles, unless their process is dead by then. -/
def hear (self : Directory Id Stroke Data machine) (told : Told Id) :
    Directory Id Stroke Data machine :=
  self.announce told.self
    (if told.lives then (self.notifiers told.self).onRoles told.roles else {})
    (told.roles.count .leader)

/-- The response was sent by a replica at that URL. -/
def Answered (self : Directory Id Stroke Data machine) (forward : Nat)
    (response : Option Gateway.Status) : Prop :=
  ∀ data ∈ response, ∃ url ∈ self.gateway.asked forward, (url, data) ∈ self.statuses

/-- The error redirects to nobody, or as a replica did. -/
def Refused (self : Directory Id Stroke Data machine)
    (result : Except Gateway.PostError Data) : Prop :=
  match result with
  | .ok _ => True
  | .error err => ∀ data ∈ err.response, truthy data.leaderUrl = none ∨ data ∈ self.redirects

instance decidableAnswered (self : Directory Id Stroke Data machine) (forward : Nat)
    (response : Option Gateway.Status) : Decidable (self.Answered forward response) := by
  unfold Answered
  infer_instance

instance decidableRefused (self : Directory Id Stroke Data machine)
    (result : Except Gateway.PostError Data) : Decidable (self.Refused result) := by
  unfold Refused
  split <;> infer_instance

def stepGateway (self : Directory Id Stroke Data machine)
    (action : Gateway.Action Stroke Data) : Option (Directory Id Stroke Data machine) :=
  (self.gateway.step action).map fun gateway => { self with gateway }

def step (cluster : Cluster Id) (hosts : Hosts Id) (self : Directory Id Stroke Data machine) :
    Action Id Stroke Data → Option (Directory Id Stroke Data machine)
  | .replica action =>
      (self.world.step cluster action).bind fun world =>
        (self.world.tells cluster action).map fun told => { self.hear told with world }
  | .fire who timer =>
      ((self.notifiers who).fire timer).map fun notifier => self.announce who notifier 1
  | .settle who ok =>
      ((self.notifiers who).settle (self.world.node who).role ok).map fun notifier =>
        self.announce who notifier 0
  | .leader post =>
      self.posts[post]?.bind fun who =>
        self.stepGateway (.leader (some (hosts.name who)) (some (hosts.url who)))
  | .getStatus who =>
      some { self with
        statuses := self.statuses ++
          [(hosts.url who, (self.world.node who).status hosts (cluster.config who))] }
  | .refuse who =>
      if (self.world.node who).role ≠ .leader then
        some { self with redirects := self.redirects ++ [(self.world.node who).redirect hosts] }
      else none
  | .stroke stroke => self.stepGateway (.stroke stroke)
  | .status forward response =>
      if self.Answered forward response then self.stepGateway (.status forward response)
      else none
  | .discovered forward => self.stepGateway (.discovered forward)
  | .answer forward result =>
      if self.Refused result then self.stepGateway (.answer forward result) else none

/-- The replicas and the gateway as a transition system. -/
def system (cluster : Cluster Id) (hosts : Hosts Id) (Stroke Data : Type) (machine : Machine) :
    Transition.System (Directory Id Stroke Data machine) (Action Id Stroke Data) where
  init := { world := .init }
  step state action := state.step cluster hosts action

end Directory

end RaftCanvas
