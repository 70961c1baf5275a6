import RaftCanvas.Raft.Machine
import RaftCanvas.Raft.Rpc

/-!
# RaftNode

One definition per method of the source.  An `async` method is cut at its `await`:
the part before it issues a `Call`, the part after it (`finish...`) runs when the
results are in.  Between two awaits JavaScript runs without interruption, so each
part is a function of the node.
-/

namespace RaftCanvas

/-- What the constructor fixes. -/
structure Config (Id : Type) where
  replicaId : Id
  peers : List Id
  snapshotThreshold : Int

/-- A `submit` call waiting for its entry to commit. -/
structure Waiter where
  id : Nat
  entry : LogEntry

/-- A `readIndex` call waiting for `lastApplied` to catch up. -/
structure Reading where
  id : Nat
  readIdx : Int
  term : Nat

structure Node (Id : Type) (machine : Machine) where
  db : Database Id machine.Blob
  stateMachine : machine.State
  role : Role
  leaderId : Option Id
  commitIndex : Int
  currentTerm : Nat
  votedFor : Option Id
  nextIndex : Id → Option Int
  matchIndex : Id → Option Int
  /-- Whether the timer is armed. -/
  electionTimer : Bool
  heartbeatTimer : Bool
  stopped : Bool
  /-- `submit` calls listening for `commit`. -/
  commitListeners : List Waiter
  /-- `submit` calls whose wait has resolved but that have not resumed. -/
  resumable : List Waiter
  reading : List Reading
  /-- Effects since the running stretch of code began. -/
  trace : List (Effect Id machine.Blob)

namespace Node

variable {Id : Type} {machine : Machine}

/-! ## Effects -/

/-- One transaction. -/
def write (self : Node Id machine)
    (transaction : Database Id machine.Blob → Database Id machine.Blob) :
    Node Id machine :=
  { self with
    db := transaction self.db
    trace := self.trace ++ [.write (transaction self.db)] }

def emit (self : Node Id machine) (event : Event machine.Blob) : Node Id machine :=
  { self with trace := self.trace ++ [.event event] }

def send (self : Node Id machine) (call : Call Id machine.Blob) : Node Id machine :=
  { self with trace := self.trace ++ [.send call] }

def lastApplied (self : Node Id machine) : Int :=
  machine.lastApplied self.stateMachine

/-! ## Role transitions -/

def becomeFollower (self : Node Id machine) (term : Nat) (leaderId : Option Id) :
    Node Id machine :=
  let self := { self with heartbeatTimer := false, role := .follower }
  let self :=
    if self.currentTerm < term then
      { self with currentTerm := term, votedFor := none }.write
        fun db => db.saveTermAndVote term none
    else self
  let self := { self with leaderId := leaderId.or self.leaderId, electionTimer := true }
  self.emit (.role .follower self.currentTerm)

def becomeCandidate (config : Config Id) (self : Node Id machine) : Node Id machine :=
  let self := { self with
    role := .candidate
    currentTerm := self.currentTerm + 1
    votedFor := some config.replicaId }
  let self := self.write fun db =>
    db.saveTermAndVote self.currentTerm (some config.replicaId)
  { self with leaderId := none }.emit (.role .candidate self.currentTerm)

/-- The constructor followed by `start()`, on an existing file. -/
def start (db : Database Id machine.Blob) : Node Id machine :=
  let self : Node Id machine :=
    { db
      stateMachine := machine.init
      role := .follower
      leaderId := none
      commitIndex := -1
      currentTerm := db.currentTerm
      votedFor := db.votedFor
      nextIndex := fun _ => none
      matchIndex := fun _ => none
      electionTimer := false
      heartbeatTimer := false
      stopped := false
      commitListeners := []
      resumable := []
      reading := []
      trace := [] }
  let self :=
    match db.loadLatestSnapshot with
    | some snap =>
        { self with
          stateMachine := machine.restoreSnapshot snap.state snap.lastIncludedIndex
          commitIndex := snap.lastIncludedIndex }
    | none => self
  self.becomeFollower self.currentTerm none

/-! ## Replication, leader side -/

def appendLocal (self : Node Id machine) (type : EntryType) (payload : Json) :
    Node Id machine × LogEntry :=
  let entry : LogEntry :=
    { index := self.db.lastIndex + 1, term := self.currentTerm, type, payload }
  (self.write fun db => db.appendEntries [entry], entry)

/-- The request of `_sendInstallSnapshotTo`. -/
def installSnapshotCall (config : Config Id) (self : Node Id machine) (peer : Id) :
    Option (Call Id machine.Blob) :=
  self.db.loadLatestSnapshot.map fun snap =>
    { src := config.replicaId
      targets := [peer]
      request := .installSnapshot
        { term := self.currentTerm
          leaderId := config.replicaId
          lastIncludedIndex := snap.lastIncludedIndex
          lastIncludedTerm := snap.lastIncludedTerm
          data := snap.state }
      await := .installSnapshot peer snap.lastIncludedIndex }

/-- `prevLogTerm` as `_sendAppendEntriesTo` looks it up. -/
def prevLogTerm (self : Node Id machine) (prevLogIndex : Int) : Int :=
  if 0 ≤ prevLogIndex then
    if prevLogIndex = self.db.lastSnapshotIndex then self.db.lastSnapshotTerm
    else
      match self.db.getEntry prevLogIndex with
      | some entry => entry.term
      | none => -1
  else -1

/-- The request of `_sendAppendEntriesTo`, if it sends one. -/
def appendEntriesCall (config : Config Id) (self : Node Id machine) (peer : Id) :
    Option (Call Id machine.Blob) :=
  if self.stopped ∨ self.role ≠ .leader then none
  else
    let next := (self.nextIndex peer).getD 0
    if next < self.db.firstIndex then self.installSnapshotCall config peer
    else
      let lastIdx := self.db.lastIndex
      let entries := if next ≤ lastIdx then self.db.getRange next lastIdx else []
      some
        { src := config.replicaId
          targets := [peer]
          request := .appendEntries
            { term := self.currentTerm
              leaderId := config.replicaId
              prevLogIndex := next - 1
              prevLogTerm := self.prevLogTerm (next - 1)
              entries
              leaderCommit := self.commitIndex }
          await := .appendEntries peer next (next - 1) entries }

def sendAppendEntriesTo (config : Config Id) (self : Node Id machine) (peer : Id) :
    Node Id machine :=
  match self.appendEntriesCall config peer with
  | some call => self.send call
  | none => self

def sendAppendEntriesToAll (config : Config Id) (self : Node Id machine) :
    Node Id machine :=
  if self.role ≠ .leader then self
  else config.peers.foldl (sendAppendEntriesTo config) self

/-- Fires while the heartbeat interval is armed. -/
def heartbeat (config : Config Id) (self : Node Id machine) : Node Id machine :=
  self.sendAppendEntriesToAll config

variable [DecidableEq Id]

def becomeLeader (config : Config Id) (self : Node Id machine) : Node Id machine :=
  let last := self.db.lastIndex
  let self := { self with
    electionTimer := false
    role := .leader
    leaderId := some config.replicaId
    nextIndex := fun peer => if peer ∈ config.peers then some (last + 1) else none
    matchIndex := fun peer => if peer ∈ config.peers then some (-1) else none }
  let self := self.emit (.role .leader self.currentTerm)
  let self := (self.appendLocal .noop .null).1
  let self := self.sendAppendEntriesToAll config
  { self with heartbeatTimer := true }

/-! ## Elections -/

omit [DecidableEq Id] in
/-- `_startElection` up to its broadcast. -/
def startElection (config : Config Id) (self : Node Id machine) : Node Id machine :=
  let self := { self.becomeCandidate config with electionTimer := true }
  self.send
    { src := config.replicaId
      targets := config.peers
      request := .requestVote
        { term := self.currentTerm
          candidateId := config.replicaId
          lastLogIndex := self.db.lastIndex
          lastLogTerm := self.db.lastTerm }
      await := .election self.currentTerm }

/-- Result of going through the outcomes of a broadcast. -/
inductive Tally where
  | stepDown (term : Nat)
  | count (total : Nat)

/-- The loop over broadcast results: a higher term ends it, a reply that counts
adds one, a failed call is skipped. -/
def tally (counts : Reply → Bool) (currentTerm : Nat) :
    List (Option Reply) → Nat → Tally
  | [], total => .count total
  | none :: rest, total => tally counts currentTerm rest total
  | some body :: rest, total =>
      if currentTerm < body.term then .stepDown body.term
      else tally counts currentTerm rest (if counts body then total + 1 else total)

end Node

/-- Votes or acknowledgements needed, counting oneself. -/
def Config.majority {Id : Type} (config : Config Id) : Nat :=
  (config.peers.length + 1) / 2 + 1

namespace Node

variable {Id : Type} {machine : Machine} [DecidableEq Id]

/-- `_startElection` after its broadcast. -/
def finishElection (config : Config Id) (self : Node Id machine) (termAtStart : Nat)
    (results : List (Option Reply)) : Node Id machine :=
  if self.stopped ∨ self.role ≠ .candidate ∨ self.currentTerm ≠ termAtStart then self
  else
    match tally Reply.voteGranted self.currentTerm results 1 with
    | .stepDown term => self.becomeFollower term none
    | .count votes =>
        if config.majority ≤ votes then self.becomeLeader config else self

/-! ## Applying and compacting -/

omit [DecidableEq Id] in
/-- The loop of `_applyCommitted`; each round raises `lastApplied` by one. -/
def applyLoop : Nat → Node Id machine → Node Id machine
  | 0, self => self
  | fuel + 1, self =>
      if self.lastApplied < self.commitIndex then
        match self.db.getEntry (self.lastApplied + 1) with
        | none => self
        | some entry =>
            applyLoop fuel
              ({ self with
                stateMachine := machine.apply self.stateMachine entry }.emit
                  (.applied entry))
      else self

omit [DecidableEq Id] in
def maybeSnapshot (config : Config Id) (self : Node Id machine) : Node Id machine :=
  if self.lastApplied - self.db.lastSnapshotIndex < config.snapshotThreshold then self
  else if self.lastApplied < 0 then self
  else
    match self.db.getEntry self.lastApplied with
    | none => self
    | some appliedEntry =>
        let appliedIdx := self.lastApplied
        let blob := machine.getSnapshot self.stateMachine
        let self := self.write fun db =>
          db.saveSnapshot appliedIdx appliedEntry.term blob
        let self := self.write fun db => db.truncateUpTo appliedIdx
        self.emit (.snapshotTaken appliedIdx blob)

omit [DecidableEq Id] in
def applyCommitted (config : Config Id) (self : Node Id machine) : Node Id machine :=
  (applyLoop (self.commitIndex - self.lastApplied).toNat self).maybeSnapshot config

/-! ## Committing, leader side -/

omit [DecidableEq Id] in
/-- Copies of index `n`, counting the leader's own. -/
def matchCount (config : Config Id) (self : Node Id machine) (n : Int) : Nat :=
  1 + config.peers.countP fun peer => n ≤ (self.matchIndex peer).getD (-1)

omit [DecidableEq Id] in
/-- The downward scan of `_maybeAdvanceCommitIndex` over `fuel` indexes from `n`. -/
def commitScan (config : Config Id) (self : Node Id machine) : Nat → Int → Option Int
  | 0, _ => none
  | fuel + 1, n =>
      match self.db.getEntry n with
      | none => commitScan config self fuel (n - 1)
      | some entry =>
          if entry.term ≠ self.currentTerm then commitScan config self fuel (n - 1)
          else if config.majority ≤ self.matchCount config n then some n
          else commitScan config self fuel (n - 1)

/-- Outcome of `check` in `_awaitCommit`. -/
inductive Settlement where
  | resolved
  | lostLeadership
  | pending
  deriving DecidableEq

omit [DecidableEq Id] in
def check (self : Node Id machine) (waiter : Waiter) : Settlement :=
  if waiter.entry.index ≤ self.commitIndex then .resolved
  else if self.role ≠ .leader ∨ self.currentTerm ≠ waiter.entry.term then .lostLeadership
  else .pending

omit [DecidableEq Id] in
/-- `emit("commit", n)`: every listening `submit` runs its check. -/
def emitCommit (self : Node Id machine) (n : Int) : Node Id machine :=
  let settled (outcome : Settlement) :=
    self.commitListeners.filter fun waiter => self.check waiter = outcome
  { self with
    commitListeners := settled .pending
    resumable := self.resumable ++ settled .resolved
    trace := self.trace ++ .event (.commit n) ::
      (settled .lostLeadership).map fun waiter =>
        .event (.submitRejected waiter.id .lostLeadership) }

omit [DecidableEq Id] in
def maybeAdvanceCommitIndex (config : Config Id) (self : Node Id machine) :
    Node Id machine :=
  if self.role ≠ .leader then self
  else
    let lastIdx := self.db.lastIndex
    match self.commitScan config (lastIdx - self.commitIndex).toNat lastIdx with
    | none => self
    | some n => ({ self with commitIndex := n }.applyCommitted config).emitCommit n

/-- `_sendAppendEntriesTo` after its call. -/
def finishAppendEntries (config : Config Id) (self : Node Id machine) (peer : Id)
    (next prevLogIndex : Int) (entries : List LogEntry) (result : Option Reply) :
    Node Id machine :=
  match result with
  | none => self
  | some body =>
      if self.stopped ∨ self.role ≠ .leader then self
      else if self.currentTerm < body.term then self.becomeFollower body.term none
      else if body.success then
        let newMatch :=
          match entries.getLast? with
          | some entry => entry.index
          | none => prevLogIndex
        { self with
          matchIndex := Function.update self.matchIndex peer (some newMatch)
          nextIndex := Function.update self.nextIndex peer (some (newMatch + 1))
          }.maybeAdvanceCommitIndex config
      else
        { self with
          nextIndex := Function.update self.nextIndex peer (some (max 0 (next - 1))) }

/-- `_sendInstallSnapshotTo` after its call. -/
def finishInstallSnapshot (self : Node Id machine) (peer : Id)
    (lastIncludedIndex : Int) (result : Option Reply) : Node Id machine :=
  match result with
  | none => self
  | some body =>
      if self.stopped ∨ self.role ≠ .leader then self
      else if self.currentTerm < body.term then self.becomeFollower body.term none
      else
        { self with
          matchIndex := Function.update self.matchIndex peer (some lastIncludedIndex)
          nextIndex :=
            Function.update self.nextIndex peer (some (lastIncludedIndex + 1)) }

/-! ## Client writes -/

omit [DecidableEq Id] in
/-- The dedupe lookup of `submit`. -/
def dedupeIndex (self : Node Id machine) (payload : Json) : Option Int :=
  match payload.field? "clientId", payload.field? "seq" with
  | some cid, some seq => machine.getDedupeIndex self.stateMachine cid seq
  | _, _ => none

omit [DecidableEq Id] in
/-- `submit` up to the resolution of `_awaitCommit`. -/
def submit (config : Config Id) (self : Node Id machine) (id : Nat) (type : EntryType)
    (payload : Json) : Node Id machine :=
  if self.role ≠ .leader then self.emit (.submitRejected id .notLeader)
  else
    match self.dedupeIndex payload with
    | some cached =>
        self.emit (.submitResolved id none
          { index := cached, term := self.currentTerm, deduped := true })
    | none =>
        let (self, entry) := self.appendLocal type payload
        let self := self.sendAppendEntriesToAll config
        let waiter : Waiter := { id, entry }
        match self.check waiter with
        | .resolved => { self with resumable := self.resumable ++ [waiter] }
        | .lostLeadership => self.emit (.submitRejected id .lostLeadership)
        | .pending => { self with commitListeners := self.commitListeners ++ [waiter] }

omit [DecidableEq Id] in
/-- `submit` after its await. -/
def resumeSubmit (self : Node Id machine) (id : Nat) : Node Id machine :=
  match self.resumable.find? fun waiter => waiter.id = id with
  | none => self
  | some waiter =>
      let self := { self with
        resumable := self.resumable.filter fun other => other.id ≠ id }
      let result : SubmitResult :=
        { index := waiter.entry.index, term := waiter.entry.term }
      match self.dedupeIndex waiter.entry.payload with
      | some authoritative =>
          if authoritative ≠ result.index then
            self.emit (.submitResolved id waiter.entry
              { index := authoritative, term := result.term, deduped := true })
          else self.emit (.submitResolved id waiter.entry result)
      | none => self.emit (.submitResolved id waiter.entry result)

omit [DecidableEq Id] in
/-- The 5 s timer of `_awaitCommit`. -/
def submitTimeout (self : Node Id machine) (id : Nat) : Node Id machine :=
  match self.commitListeners.find? fun waiter => waiter.id = id with
  | none => self
  | some waiter =>
      let self := { self with
        commitListeners := self.commitListeners.filter fun other => other.id ≠ id }
      if self.commitIndex < waiter.entry.index then
        self.emit (.submitRejected id .commitTimeout)
      else self

/-! ## RPC handlers -/

/-- The recency test of `handleRequestVote`. -/
def upToDate (db : Database Id machine.Blob) (lastLogIndex lastLogTerm : Int) : Bool :=
  lastLogTerm > db.lastTerm ∨ lastLogTerm = db.lastTerm ∧ lastLogIndex ≥ db.lastIndex

def handleRequestVote (self : Node Id machine) (body : RequestVote Id) :
    Node Id machine × Reply :=
  let self :=
    if self.currentTerm < body.term then self.becomeFollower body.term none else self
  if body.term < self.currentTerm then (self, { term := self.currentTerm })
  else if self.votedFor ≠ none ∧ self.votedFor ≠ some body.candidateId then
    (self, { term := self.currentTerm })
  else if !upToDate self.db body.lastLogIndex body.lastLogTerm then
    (self, { term := self.currentTerm })
  else
    let self := { self with votedFor := some body.candidateId }.write fun db =>
      db.saveTermAndVote self.currentTerm (some body.candidateId)
    ({ self with electionTimer := true },
      { term := self.currentTerm, voteGranted := true })

omit [DecidableEq Id] in
/-- How the two log handlers receive the leader of a term that is not stale. -/
def followLeader (self : Node Id machine) (term : Nat) (leaderId : Id) :
    Node Id machine :=
  if self.currentTerm < term ∨ self.role ≠ .follower then
    self.becomeFollower term (some leaderId)
  else { self with leaderId := some leaderId, electionTimer := true }

omit [DecidableEq Id] in
/-- The consistency check of `handleAppendEntries`. -/
def matchesPrev (db : Database Id machine.Blob) (prevLogIndex prevLogTerm : Int) : Bool :=
  if 0 ≤ prevLogIndex then
    if prevLogIndex = db.lastSnapshotIndex then prevLogTerm = db.lastSnapshotTerm
    else if prevLogIndex < db.lastSnapshotIndex then true
    else
      match db.getEntry prevLogIndex with
      | some prev => (prev.term : Int) = prevLogTerm
      | none => false
  else true

omit [DecidableEq Id] in
/-- The conflict scan: index of the first entry the log does not already hold with
the same term, `-1` if there is none. -/
def writeStart (db : Database Id machine.Blob) : List LogEntry → Int
  | [] => -1
  | entry :: rest =>
      match db.getEntry entry.index with
      | some existing =>
          if existing.term = entry.term then writeStart db rest else entry.index
      | none => entry.index

omit [DecidableEq Id] in
def storeEntries (self : Node Id machine) (entries : List LogEntry) : Node Id machine :=
  let start := writeStart self.db entries
  if 0 ≤ start then
    let self := self.write fun db => db.truncateFrom start
    self.write fun db =>
      db.appendEntries (entries.filter fun entry => start ≤ entry.index)
  else self

omit [DecidableEq Id] in
def followCommit (config : Config Id) (self : Node Id machine) (leaderCommit : Int) :
    Node Id machine :=
  if self.commitIndex < leaderCommit then
    { self with commitIndex := min leaderCommit self.db.lastIndex }.applyCommitted config
  else self

omit [DecidableEq Id] in
def handleAppendEntries (config : Config Id) (self : Node Id machine)
    (body : AppendEntries Id) : Node Id machine × Reply :=
  if body.term < self.currentTerm then (self, { term := self.currentTerm })
  else
    let self := self.followLeader body.term body.leaderId
    if matchesPrev self.db body.prevLogIndex body.prevLogTerm then
      let self := self.storeEntries body.entries
      let self := self.followCommit config body.leaderCommit
      (self, { term := self.currentTerm, success := true })
    else
      (self, { term := self.currentTerm, logLength := some (self.db.lastIndex + 1) })

omit [DecidableEq Id] in
/-- Make room for a snapshot: keep the entries after it if the log agrees with it. -/
def discardLog (self : Node Id machine) (lastIncludedIndex lastIncludedTerm : Int) :
    Node Id machine :=
  match self.db.getEntry lastIncludedIndex with
  | some existing =>
      if (existing.term : Int) = lastIncludedTerm then
        self.write fun db => db.truncateUpTo lastIncludedIndex
      else self.write Database.truncateAll
  | none => self.write Database.truncateAll

omit [DecidableEq Id] in
def installSnapshot (self : Node Id machine)
    (body : InstallSnapshot Id machine.Blob) : Node Id machine :=
  let self := self.discardLog body.lastIncludedIndex body.lastIncludedTerm
  let self := self.write fun db =>
    db.saveSnapshot body.lastIncludedIndex body.lastIncludedTerm body.data
  { self with
    stateMachine := machine.restoreSnapshot body.data body.lastIncludedIndex
    commitIndex := max self.commitIndex body.lastIncludedIndex
    }.emit (.snapshotInstalled body.lastIncludedIndex body.data)

omit [DecidableEq Id] in
def handleInstallSnapshot (self : Node Id machine)
    (body : InstallSnapshot Id machine.Blob) : Node Id machine × Reply :=
  if body.term < self.currentTerm then (self, { term := self.currentTerm })
  else
    let self := self.followLeader body.term body.leaderId
    if body.lastIncludedIndex ≤ self.db.lastSnapshotIndex then
      (self, { term := self.currentTerm })
    else
      let self := self.installSnapshot body
      (self, { term := self.currentTerm })

def handle (config : Config Id) (self : Node Id machine) :
    Request Id machine.Blob → Node Id machine × Reply
  | .requestVote body => self.handleRequestVote body
  | .appendEntries body => self.handleAppendEntries config body
  | .installSnapshot body => self.handleInstallSnapshot body

/-! ## ReadIndex -/

omit [DecidableEq Id] in
/-- The warm-up check of `readIndex` passes because the commit index is covered by
the snapshot. -/
def commitInSnapshot (self : Node Id machine) : Bool :=
  0 ≤ self.commitIndex ∧ self.commitIndex ≤ self.db.lastSnapshotIndex

omit [DecidableEq Id] in
/-- The warm-up check passes because the entry at the commit index is of the
current term. -/
def commitIsCurrent (self : Node Id machine) : Bool :=
  decide (0 ≤ self.commitIndex) &&
    match self.db.getEntry self.commitIndex with
    | some entry => decide (entry.term = self.currentTerm)
    | none => false

omit [DecidableEq Id] in
/-- `readIndex` up to its broadcast. -/
def startReadIndex (config : Config Id) (self : Node Id machine) (id : Nat) :
    Node Id machine :=
  let self := self.emit (.readCalled id)
  if self.role ≠ .leader then self.emit (.readRejected id .notLeader)
  else if !self.commitInSnapshot && !self.commitIsCurrent then
    self.emit (.readRejected id .leaderWarmingUp)
  else
    self.send
      { src := config.replicaId
        targets := config.peers
        request := .appendEntries
          { term := self.currentTerm
            leaderId := config.replicaId
            prevLogIndex := self.db.lastIndex
            prevLogTerm := self.db.lastTerm
            entries := []
            leaderCommit := self.commitIndex }
        await := .readIndex id self.commitIndex self.currentTerm }

omit [DecidableEq Id] in
/-- One test of the waiting loop at the end of `readIndex`. -/
def awaitApplied (self : Node Id machine) (read : Reading) : Node Id machine :=
  if self.lastApplied < read.readIdx then { self with reading := self.reading ++ [read] }
  else self.emit (.readReturned read.id read.readIdx read.term self.lastApplied)

omit [DecidableEq Id] in
/-- `readIndex` after its broadcast. -/
def finishReadIndex (config : Config Id) (self : Node Id machine) (id : Nat)
    (readIdx : Int) (termAtStart : Nat) (results : List (Option Reply)) :
    Node Id machine :=
  match tally Reply.success self.currentTerm results 1 with
  | .stepDown term =>
      (self.becomeFollower term none).emit (.readRejected id .lostLeadership)
  | .count acks =>
      if acks < config.majority then
        self.emit (.readRejected id .leadershipUnconfirmed)
      else if self.role ≠ .leader ∨ self.currentTerm ≠ termAtStart then
        self.emit (.readRejected id .lostLeadership)
      else self.awaitApplied { id, readIdx, term := termAtStart }

omit [DecidableEq Id] in
/-- The 5 ms poll of a waiting `readIndex`. -/
def pollRead (self : Node Id machine) (id : Nat) : Node Id machine :=
  match self.reading.find? fun read => read.id = id with
  | none => self
  | some read =>
      { self with reading := self.reading.filter fun other => other.id ≠ id
        }.awaitApplied read

/-- Continue a suspended operation with the outcome of its call, one result per
target and `none` where the transport failed. -/
def resume (config : Config Id) (self : Node Id machine) :
    Await Id → List (Option Reply) → Node Id machine
  | .election termAtStart, results => self.finishElection config termAtStart results
  | .appendEntries peer next prevLogIndex entries, results =>
      self.finishAppendEntries config peer next prevLogIndex entries results.head?.join
  | .installSnapshot peer lastIncludedIndex, results =>
      self.finishInstallSnapshot peer lastIncludedIndex results.head?.join
  | .readIndex id readIdx termAtStart, results =>
      self.finishReadIndex config id readIdx termAtStart results

end Node

end RaftCanvas
