import RaftCanvas.Library.Replication.Safety
import RaftCanvas.Raft.FullLog
import RaftCanvas.Raft.RaftNode

/-!
# Nodes and messages against the abstract protocol

A node stands for a member of the abstract protocol: its file stores the member's
log, a request on the wire quotes the ledger of its sender's term, and a reply that
reports success is an acknowledgement.
-/

namespace RaftCanvas

open Replication (State lastTerm)

/-- States of the abstract protocol over log entries. -/
abbrev Ideal (Id : Type) : Type := State Id LogEntry

variable {Id Blob : Type} {machine : Machine}

/-- The file of `member` stores the log that member has in the abstract protocol. -/
structure FileMatches (ideal : Ideal Id) (member : Id) (db : Database Id Blob) : Prop where
  current : db.currentTerm = ideal.current member
  log : db.Stores (ideal.log member)
  unsaved : db.snapshot = none → db.lastSnapshotIndex = -1
  saved : ∀ snap, db.snapshot = some snap → 0 ≤ db.lastSnapshotIndex ∧
    snap.lastIncludedIndex = db.lastSnapshotIndex ∧
      snap.lastIncludedTerm = db.lastSnapshotTerm

structure NodeMatches (ideal : Ideal Id) (member : Id) (node : Node Id machine) : Prop where
  file : FileMatches ideal member node.db
  term : node.currentTerm = node.db.currentTerm
  leads : node.role = .leader → ideal.elected node.currentTerm = some member ∧
    (ideal.base node.currentTerm).length < (ideal.log member).length
  stands : node.role = .candidate →
    ideal.campaign member node.currentTerm = some (ideal.log member) ∧
      ideal.ballot member node.currentTerm member

namespace NodeMatches

variable {ideal : Ideal Id} {self : Id} {node : Node Id machine}

theorem current (matching : NodeMatches ideal self node) :
    ideal.current self = node.currentTerm := by
  rw [matching.term, matching.file.current]

theorem lastIndex (matching : NodeMatches ideal self node) :
    node.db.lastIndex = (ideal.log self).length - 1 :=
  matching.file.log.lastIndex_eq

end NodeMatches

/-! ## Messages -/

/-- Number of entries a follower holds after accepting the request. -/
def AppendEntries.count (body : AppendEntries Id) : Nat :=
  (body.prevLogIndex + 1).toNat + body.entries.length

/-- An AppendEntries request quotes the ledger of its term up to an entry of that
term.  One that starts beyond the end of the sender's log carries nothing and no
term, so that no row can match it. -/
structure Replicates (ideal : Ideal Id) (src : Id) (body : AppendEntries Id) : Prop where
  leader : ideal.elected body.term = some src
  prev : -1 ≤ body.prevLogIndex
  own : (ideal.base body.term).length < body.count
  quote : body.entries <+: (ideal.ledger body.term).drop (body.prevLogIndex + 1).toNat ∧
      body.count ≤ (ideal.ledger body.term).length ∧
      (body.prevLogTerm = -1 ∨ body.prevLogTerm =
        lastTerm ((ideal.ledger body.term).take (body.prevLogIndex + 1).toNat)) ∨
    body.entries = [] ∧ body.prevLogTerm = -1 ∧ 0 ≤ body.prevLogIndex

/-- A snapshot covers a prefix of the ledger of its sender's term. -/
structure Installs (ideal : Ideal Id) (src : Id) (body : InstallSnapshot Id Blob) :
    Prop where
  leader : ideal.elected body.term = some src
  positive : 0 ≤ body.lastIncludedIndex
  within : body.lastIncludedIndex < (ideal.ledger body.term).length
  term : body.lastIncludedTerm =
    lastTerm ((ideal.ledger body.term).take (body.lastIncludedIndex + 1).toNat)

def RequestMatches (ideal : Ideal Id) (src : Id) : Request Id Blob → Prop
  | .requestVote body => body.candidateId = src ∧ ∃ offered,
      ideal.campaign src body.term = some offered ∧
        body.lastLogIndex = offered.length - 1 ∧ body.lastLogTerm = lastTerm offered
  | .appendEntries body => Replicates ideal src body
  | .installSnapshot body => Installs ideal src body

/-- The locals an operation keeps are those of its request. -/
def Call.WellFormed (call : Call Id Blob) : Prop :=
  match call.request, call.await with
  | .requestVote body, .election term => term = body.term
  | .appendEntries body, .appendEntries peer _ prevLogIndex entries =>
      prevLogIndex = body.prevLogIndex ∧ entries = body.entries ∧ call.targets = [peer]
  | .appendEntries body, .readIndex _ readIdx term =>
      term = body.term ∧ readIdx = body.leaderCommit ∧ body.entries = []
  | .installSnapshot body, .installSnapshot peer lastIncludedIndex =>
      lastIncludedIndex = body.lastIncludedIndex ∧ call.targets = [peer]
  | _, _ => False

structure CallMatches (ideal : Ideal Id) (call : Call Id Blob) : Prop where
  request : RequestMatches ideal call.src call.request
  shape : call.WellFormed
  others : call.src ∉ call.targets

/-- A vote that was granted was cast; a success acknowledges what the request
covers. -/
def ReplyMatches (ideal : Ideal Id) (responder : Id) (reply : Reply) :
    Request Id Blob → Prop
  | .requestVote body => reply.voteGranted = true →
      ideal.ballot responder body.term body.candidateId
  | .appendEntries body => reply.success = true →
      body.count ≤ ideal.acked responder body.term
  | .installSnapshot body => body.term ≤ reply.term ∧ (reply.term = body.term →
      (body.lastIncludedIndex + 1).toNat ≤ ideal.acked responder body.term)

/-! ## Messages stay true -/

section Extends

variable {ideal next : Ideal Id} {src : Id}

theorem Replicates.extends (extended : ideal.Extends next) {body : AppendEntries Id}
    (replicates : Replicates ideal src body) : Replicates next src body := by
  have led : ideal.elected body.term ≠ none := by simp [replicates.leader]
  refine ⟨extended.elected _ _ replicates.leader, replicates.prev, ?_, ?_⟩
  · rw [extended.base _ led]
    exact replicates.own
  · rcases replicates.quote with ⟨inside, within, term⟩ | beyond
    · have start : (body.prevLogIndex + 1).toNat ≤ (ideal.ledger body.term).length := by
        have bound : body.count ≤ (ideal.ledger body.term).length := within
        unfold AppendEntries.count at bound
        omega
      rw [extended.take_ledger led start]
      obtain ⟨suffix, grown⟩ := extended.ledger body.term led
      refine Or.inl ⟨?_, within.trans (extended.ledger body.term led).length_le, term⟩
      rw [← grown, List.drop_append_of_le_length start]
      exact inside.trans (List.prefix_append _ _)
    · exact Or.inr beyond

theorem Installs.extends (extended : ideal.Extends next)
    {body : InstallSnapshot Id Blob} (installs : Installs ideal src body) :
    Installs next src body := by
  have led : ideal.elected body.term ≠ none := by simp [installs.leader]
  have within := installs.within
  refine ⟨extended.elected _ _ installs.leader, installs.positive, ?_, ?_⟩
  · have longer := (extended.ledger body.term led).length_le
    omega
  · rw [extended.take_ledger led (by omega)]
    exact installs.term

theorem RequestMatches.extends (extended : ideal.Extends next)
    {request : Request Id Blob} (matching : RequestMatches ideal src request) :
    RequestMatches next src request := by
  cases request with
  | requestVote body =>
      obtain ⟨own, offered, campaigned, shape⟩ := matching
      exact ⟨own, offered, extended.campaign _ _ _ campaigned, shape⟩
  | appendEntries body => exact Replicates.extends extended matching
  | installSnapshot body => exact Installs.extends extended matching

theorem CallMatches.extends (extended : ideal.Extends next) {call : Call Id Blob}
    (matching : CallMatches ideal call) : CallMatches next call :=
  ⟨matching.request.extends extended, matching.shape, matching.others⟩

theorem ReplyMatches.extends (extended : ideal.Extends next) {responder : Id}
    {reply : Reply} {request : Request Id Blob}
    (matching : ReplyMatches ideal responder reply request) :
    ReplyMatches next responder reply request := by
  cases request with
  | requestVote body => exact fun granted => extended.ballot _ _ _ (matching granted)
  | appendEntries body => exact fun done => (matching done).trans (extended.acked _ _)
  | installSnapshot body =>
      exact ⟨matching.1, fun same => (matching.2 same).trans (extended.acked _ _)⟩

end Extends

/-! ## Requests a leader sends -/

section Leader

variable [Fintype Id] {ideal : Ideal Id} {self : Id} {node : Node Id machine}

/-- A leader's log is the ledger of its term. -/
theorem NodeMatches.ledger (matching : NodeMatches ideal self node) (sound : ideal.Sound)
    (leader : node.role = .leader) :
    ideal.log self = ideal.ledger node.currentTerm :=
  (sound.winner _ self (matching.leads leader).1).2.1 matching.current

omit [Fintype Id] in
/-- The term sent with `prevLogIndex` is that of the log there, or `-1`. -/
theorem NodeMatches.prevLogTerm (matching : NodeMatches ideal self node)
    {prevLogIndex : Int} (low : -1 ≤ prevLogIndex) :
    node.prevLogTerm prevLogIndex = -1 ∨
      node.prevLogTerm prevLogIndex =
          lastTerm ((ideal.log self).take (prevLogIndex + 1).toNat) ∧
        prevLogIndex < (ideal.log self).length := by
  have stores := matching.file.log
  rw [Node.prevLogTerm]
  split
  next positive =>
      split
      next same =>
          subst same
          exact Or.inr ⟨stores.covered, stores.within⟩
      next =>
          split
          next entry found =>
              obtain ⟨_, inside⟩ := stores.getEntry_some found
              have bound := (List.getElem?_eq_some_iff.mp inside).1
              refine Or.inr ⟨?_, by omega⟩
              rw [show (prevLogIndex + 1).toNat = prevLogIndex.toNat + 1 by omega,
                List.take_add_one, inside]
              simp
          next => exact Or.inl rfl
  next => exact Or.inl rfl

/-- What a leader sends from index `next` on. -/
theorem NodeMatches.replicates (matching : NodeMatches ideal self node)
    (sound : ideal.Sound) (leader : node.role = .leader) {next leaderCommit : Int}
    {leaderId : Id} {entries : List LogEntry} (positive : 0 ≤ next)
    (carried : next ≤ node.db.lastIndex ∧ entries = (ideal.log self).drop next.toNat ∨
      node.db.lastIndex < next ∧ entries = []) :
    Replicates ideal self
      { term := node.currentTerm
        leaderId
        prevLogIndex := next - 1
        prevLogTerm := node.prevLogTerm (next - 1)
        entries
        leaderCommit } := by
  have own := (matching.leads leader).2
  have ledger := matching.ledger sound leader
  have last := matching.lastIndex
  have prevTerm := matching.prevLogTerm (show -1 ≤ next - 1 by omega)
  rw [ledger] at own carried last prevTerm
  have start : (next - 1 + 1).toNat = next.toNat := by omega
  refine ⟨(matching.leads leader).1, by simp only; omega, ?_, ?_⟩
  · simp only [AppendEntries.count, start]
    rcases carried with ⟨present, rfl⟩ | ⟨beyond, rfl⟩
    · rw [List.length_drop]
      omega
    · simp only [List.length_nil]
      omega
  · simp only [AppendEntries.count, start] at prevTerm ⊢
    by_cases inside : next ≤ (ideal.ledger node.currentTerm).length
    · refine Or.inl ⟨?_, ?_, prevTerm.imp id And.left⟩
      · rcases carried with ⟨present, rfl⟩ | ⟨beyond, rfl⟩
        · exact List.prefix_rfl
        · exact List.nil_prefix
      · rcases carried with ⟨present, rfl⟩ | ⟨beyond, rfl⟩
        · rw [List.length_drop]
          omega
        · simp only [List.length_nil]
          omega
    · rcases carried with ⟨present, rfl⟩ | ⟨beyond, rfl⟩
      · omega
      · refine Or.inr ⟨rfl, ?_, by omega⟩
        rcases prevTerm with term | ⟨_, short⟩
        · exact term
        · omega

end Leader

end RaftCanvas
