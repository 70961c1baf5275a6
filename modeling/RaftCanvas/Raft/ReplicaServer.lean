import RaftCanvas.Raft.RaftNode

/-!
# The compatibility endpoints of the replica server

`POST /heartbeat` and `POST /sync-log` are shims over `handleAppendEntries`.  Where the
body does not say what precedes its entries they fill it in from the replica's own log.
-/

namespace RaftCanvas

/-- Body of `/heartbeat`. -/
structure Heartbeat (Id : Type) where
  term : Nat
  leaderId : Id
  prevLogIndex : Option Int := none
  prevLogTerm : Option Int := none
  commitIndex : Option Int := none
  leaderCommit : Option Int := none

/-- Body of `/sync-log`; missing entries are no entries. -/
structure SyncLog (Id : Type) where
  term : Nat
  leaderId : Id
  entries : List LogEntry
  leaderCommit : Int

namespace Node

variable {Id : Type} {machine : Machine}

def postHeartbeat (config : Config Id) (self : Node Id machine) (body : Heartbeat Id) :
    Node Id machine × Reply :=
  self.handleAppendEntries config
    { term := body.term
      leaderId := body.leaderId
      prevLogIndex := body.prevLogIndex.getD self.db.lastIndex
      prevLogTerm := body.prevLogTerm.getD self.db.lastTerm
      entries := []
      leaderCommit := (body.commitIndex.or body.leaderCommit).getD (-1) }

/-- The term that `/sync-log` quotes: that of the replica's own entry. -/
def ownTerm (db : Database Id machine.Blob) (prevIdx : Int) : Int :=
  if 0 ≤ prevIdx then
    match db.getEntry prevIdx with
    | some prev => prev.term
    | none => -1
  else -1

def postSyncLog (config : Config Id) (self : Node Id machine) (body : SyncLog Id) :
    Node Id machine × Reply :=
  match body.entries with
  | [] => (self, { term := self.currentTerm, success := true })
  | first :: _ =>
      self.handleAppendEntries config
        { term := body.term
          leaderId := body.leaderId
          prevLogIndex := first.index - 1
          prevLogTerm := ownTerm self.db (first.index - 1)
          entries := body.entries
          leaderCommit := body.leaderCommit }

/-- The request is turned down: its term is stale, or the log does not have what it says
precedes its entries. -/
def Refuses (self : Node Id machine) (term : Nat) (prevLogIndex prevLogTerm : Int) : Prop :=
  term < self.currentTerm ∨ matchesPrev self.db prevLogIndex prevLogTerm = false

end Node

end RaftCanvas
