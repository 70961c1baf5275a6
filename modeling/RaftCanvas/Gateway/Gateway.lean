import RaftCanvas.Library.Transition

/-!
# The gateway

The gateway keeps one leader for all of its requests.  A stroke is forwarded in up to
three attempts; every attempt may poll the replicas and posts to the leader known then.
Replicas register themselves when they win an election.  All of these write the leader,
on both sides of their awaits.
-/

namespace RaftCanvas

/-- `null`, `undefined` and the empty string are falsy. -/
def truthy (value : Option String) : Option String :=
  value.filter (· ≠ "")

namespace Gateway

/-- All replicas, polled in this order when no leader is known. -/
def replicaUrls : List String :=
  ["http://replica1:4001", "http://replica2:4002", "http://replica3:4003"]

/-- The body of an error response: where it redirects to. -/
structure Redirect where
  leaderUrl : Option String
  leaderId : Option String

/-- An error of `axios.post`; a timeout has no response. -/
structure PostError where
  message : String
  code : Option String
  response : Option Redirect

def PostError.redirectUrl (err : PostError) : Option String :=
  truthy (err.response.bind fun data => data.leaderUrl)

def PostError.redirectId (err : PostError) : Option String :=
  err.response.bind fun data => data.leaderId

/-- What `GET /status` of a replica tells. -/
structure Status where
  state : String
  replicaId : Option String

inductive ForwardError where
  | noLeader (message code : String)
  | post (err : PostError)

/-- Where a forwarded stroke is suspended.  `sent` is the number of writes of the leader
when the POST was issued. -/
inductive Stage (Data : Type) where
  | polling (attempt : Nat) (url : String) (remaining : List String)
  | polled (attempt : Nat)
  | posting (attempt : Nat) (url : String) (sent : Nat)
  | returned (data : Data)
  | thrown (err : ForwardError)

structure Forward (Stroke Data : Type) where
  stroke : Stroke
  stage : Stage Data

/-- Who writes the leader; forwarded strokes are numbered. -/
inductive Author where
  | registration
  | discovery (forward : Nat)
  | failure (forward : Nat)
  deriving DecidableEq, Repr

def Author.forward : Author → Option Nat
  | .registration => none
  | .discovery forward | .failure forward => some forward

structure Write where
  author : Author
  url : Option String

end Gateway

/-- The gateway process.  `writes` is the history of `currentLeaderUrl`; nothing reads
it. -/
structure Gateway (Stroke Data : Type) where
  currentLeaderUrl : Option String := none
  currentLeaderId : Option String := none
  forwards : List (Gateway.Forward Stroke Data) := []
  writes : List Gateway.Write := []

namespace Gateway

/-- A stroke arrives, a replica registers, or a suspended forward goes on. -/
inductive Action (Stroke Data : Type) where
  | stroke (stroke : Stroke)
  | leader (leaderId leaderUrl : Option String)
  | status (forward : Nat) (response : Option Status)
  | discovered (forward : Nat)
  | answer (forward : Nat) (result : Except PostError Data)

variable {Stroke Data : Type}

def writeLeader (self : Gateway Stroke Data) (author : Author)
    (url id : Option String) : Gateway Stroke Data :=
  { self with
    currentLeaderUrl := url
    currentLeaderId := id
    writes := self.writes ++ [⟨author, url⟩] }

def suspend (self : Gateway Stroke Data) (forward : Nat) (stroke : Stroke)
    (stage : Stage Data) : Gateway Stroke Data :=
  { self with forwards := self.forwards.set forward { stroke, stage } }

/-- `discoverLeader` asks the next replica, or returns when all have been asked. -/
def poll (attempt : Nat) : List String → Stage Data
  | [] => .polled attempt
  | url :: remaining => .polling attempt url remaining

/-- An attempt, up to its first await. -/
def tryLeader (self : Gateway Stroke Data) (attempt : Nat) : Stage Data :=
  match truthy self.currentLeaderUrl with
  | some url => .posting attempt url self.writes.length
  | none => poll attempt replicaUrls

/-- An attempt after its discovery. -/
def resume (self : Gateway Stroke Data) (attempt : Nat) : Stage Data :=
  match truthy self.currentLeaderUrl with
  | some url => .posting attempt url self.writes.length
  | none =>
      if attempt = 2 then .thrown (.noLeader "No leader available" "NO_LEADER")
      else self.tryLeader (attempt + 1)

/-- The leader after a failed POST: the redirect, or nobody. -/
def fail (self : Gateway Stroke Data) (forward : Nat) (err : PostError) :
    Gateway Stroke Data :=
  match err.redirectUrl with
  | some redirectUrl => self.writeLeader (.failure forward) redirectUrl err.redirectId
  | none => self.writeLeader (.failure forward) none self.currentLeaderId

/-- `POST /leader`; the Boolean is false for a 400. -/
def register (self : Gateway Stroke Data) (leaderId leaderUrl : Option String) :
    Gateway Stroke Data × Bool :=
  match truthy leaderId, truthy leaderUrl with
  | some id, some url => (self.writeLeader .registration url id, true)
  | _, _ => (self, false)

def forwardStrokeToLeader (self : Gateway Stroke Data) (stroke : Stroke) :
    Gateway Stroke Data :=
  { self with forwards := self.forwards ++ [{ stroke, stage := self.tryLeader 0 }] }

def step (self : Gateway Stroke Data) :
    Action Stroke Data → Option (Gateway Stroke Data)
  | .stroke stroke => some (self.forwardStrokeToLeader stroke)
  | .leader leaderId leaderUrl => some (self.register leaderId leaderUrl).1
  | .status forward response => do
      let { stroke, stage } ← self.forwards[forward]?
      match stage with
      | .polling attempt url remaining =>
          match response.filter (·.state = "leader") with
          | some data =>
              let found := self.writeLeader (.discovery forward) url data.replicaId
              some (found.suspend forward stroke (.polled attempt))
          | none => some (self.suspend forward stroke (poll attempt remaining))
      | _ => none
  | .discovered forward => do
      let { stroke, stage } ← self.forwards[forward]?
      match stage with
      | .polled attempt => some (self.suspend forward stroke (self.resume attempt))
      | _ => none
  | .answer forward result => do
      let { stroke, stage } ← self.forwards[forward]?
      match stage, result with
      | .posting _ _ _, .ok data => some (self.suspend forward stroke (.returned data))
      | .posting attempt _ _, .error err =>
          let failed := self.fail forward err
          let stage :=
            if attempt = 2 then .thrown (.post err) else failed.tryLeader (attempt + 1)
          some (failed.suspend forward stroke stage)
      | _, _ => none

end Gateway

/-- The gateway, from the start of its process. -/
def gateway (Stroke Data : Type) :
    Transition.System (Gateway Stroke Data) (Gateway.Action Stroke Data) where
  init := {}
  step := Gateway.step

end RaftCanvas
