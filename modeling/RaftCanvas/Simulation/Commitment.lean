import RaftCanvas.Simulation.Matching

/-!
# The commit side of the simulation

What a node commits, applies and saves in a snapshot is covered by a decision of
the winner of a term.  These facts need more of a run than the matching of logs does;
`Tier` says which of them a run is asked to keep.
-/

namespace RaftCanvas

variable {Id : Type} {machine : Machine}

/-- How much of the invariant is claimed. -/
structure Tier where
  /-- Commit indexes, applied entries and snapshots are covered by decisions. -/
  strict : Prop
  /-- Every `matchIndex` is acknowledged. -/
  exact : Prop
  /-- A `submit` call resumes with its own entry in the log. -/
  faithful : Prop

/-! ## Decided entries -/

/-- `entry` is covered by a decision at its own index. -/
def Settled (ideal : Ideal Id) (entry : LogEntry) : Prop :=
  ∃ limit log, ideal.Certified limit log ∧ Indexed log ∧ entry ∈ log

/-- Some decision covers `index`. -/
def Reaches (ideal : Ideal Id) (index : Int) : Prop :=
  ∃ limit log, ideal.Certified limit log ∧ index < log.length

/-- `blob` is the snapshot of a decided log that ends at `index`. -/
def Captures (machine : Machine) (ideal : Ideal Id) (index : Int)
    (blob : machine.Blob) : Prop :=
  ∃ limit log, ideal.Certified limit log ∧ Indexed log ∧
    (log.length : Int) = index + 1 ∧ blob = machine.getSnapshot (machine.replay log)

/-- `entry` was created by the winner of its term. -/
def Recorded (ideal : Ideal Id) (entry : LogEntry) : Prop :=
  ideal.elected entry.term ≠ none ∧ 0 ≤ entry.index ∧
    (ideal.ledger entry.term)[entry.index.toNat]? = some entry

/-- What holds of an observed event for good. -/
def EventSafe (tier : Tier) (ideal : Ideal Id) (who : Id) : Event machine.Blob → Prop
  | .applied entry => Settled ideal entry
  | .commit n => 0 ≤ n ∧ ∃ era, ideal.elected era = some who ∧ n + 1 ≤ ideal.decided era
  | .snapshotTaken index blob | .snapshotInstalled index blob =>
      Captures machine ideal index blob
  | .submitResolved _ appended result => Reaches ideal result.index ∧
      (tier.faithful → ∀ entry, appended = some entry → result.index = entry.index →
        Settled ideal entry)
  | .readReturned _ readIndex _ lastApplied => readIndex ≤ lastApplied
  | _ => True

/-- The commit index and the snapshot a request carries are decided. -/
def RequestSafe (ideal : Ideal Id) : Request Id machine.Blob → Prop
  | .requestVote _ => True
  | .appendEntries body => body.leaderCommit < (ideal.ledger body.term).length ∧
      ideal.Certified body.term
        ((ideal.ledger body.term).take (body.leaderCommit + 1).toNat)
  | .installSnapshot body =>
      ideal.Certified body.term
        ((ideal.ledger body.term).take (body.lastIncludedIndex + 1).toNat) ∧
      body.data = machine.getSnapshot (machine.replay
        ((ideal.ledger body.term).take (body.lastIncludedIndex + 1).toNat))

/-- The commit side of one node. -/
structure NodeSafe (tier : Tier) (ideal : Ideal Id) (member : Id)
    (node : Node Id machine) : Prop where
  bound : node.commitIndex < (ideal.log member).length
  certified : ideal.Certified (ideal.current member)
    ((ideal.log member).take (node.commitIndex + 1).toNat)
  saved_le : node.db.lastSnapshotIndex ≤ node.lastApplied
  applied_le : node.lastApplied ≤ node.commitIndex
  state : node.stateMachine =
    machine.replay ((ideal.log member).take (node.lastApplied + 1).toNat)
  saved : ∀ snap, node.db.snapshot = some snap → snap.state = machine.getSnapshot
    (machine.replay ((ideal.log member).take (node.db.lastSnapshotIndex + 1).toNat))
  matched : node.role = .leader → ∀ peer index, node.matchIndex peer = some index →
    (index + 1).toNat ≤ ideal.acked peer node.currentTerm ∨
      ¬tier.exact ∧ index ≤ node.commitIndex
  decided : node.role = .leader →
    (ideal.decided node.currentTerm : Int) ≤ node.commitIndex + 1
  listening : ∀ waiter ∈ node.commitListeners, Recorded ideal waiter.entry
  resumed : ∀ waiter ∈ node.resumable, waiter.entry.index ≤ node.commitIndex ∧
    Recorded ideal waiter.entry

/-! ## Decided facts stay true -/

variable [Fintype Id]

section Extends

variable {ideal next : Ideal Id}

theorem Settled.extends (sound : ideal.Sound) (extended : ideal.Extends next)
    {entry : LogEntry} (settled : Settled ideal entry) : Settled next entry := by
  obtain ⟨limit, log, certified, inside⟩ := settled
  exact ⟨limit, log, certified.extends sound extended, inside⟩

theorem Reaches.extends (sound : ideal.Sound) (extended : ideal.Extends next)
    {index : Int} (reaches : Reaches ideal index) : Reaches next index := by
  obtain ⟨limit, log, certified, inside⟩ := reaches
  exact ⟨limit, log, certified.extends sound extended, inside⟩

theorem Captures.extends (sound : ideal.Sound) (extended : ideal.Extends next)
    {index : Int} {blob : machine.Blob} (captures : Captures machine ideal index blob) :
    Captures machine next index blob := by
  obtain ⟨limit, log, certified, rest⟩ := captures
  exact ⟨limit, log, certified.extends sound extended, rest⟩

omit [Fintype Id] in
theorem Recorded.extends (extended : ideal.Extends next) {entry : LogEntry}
    (recorded : Recorded ideal entry) : Recorded next entry := by
  obtain ⟨led, positive, inside⟩ := recorded
  refine ⟨extended.elected_ne_none led, positive, ?_⟩
  obtain ⟨suffix, grown⟩ := extended.ledger entry.term led
  rw [← grown, List.getElem?_append_left (List.getElem?_eq_some_iff.mp inside).1, inside]

theorem EventSafe.extends {tier : Tier} (sound : ideal.Sound)
    (extended : ideal.Extends next) {who : Id} {event : Event machine.Blob}
    (safe : EventSafe tier ideal who event) : EventSafe tier next who event := by
  cases event with
  | applied entry => exact Settled.extends sound extended safe
  | commit n =>
      obtain ⟨positive, era, won, decided⟩ := safe
      have grown := extended.decided era
      exact ⟨positive, era, extended.elected _ _ won, by omega⟩
  | snapshotTaken | snapshotInstalled => exact Captures.extends sound extended safe
  | submitResolved id appended result =>
      obtain ⟨reaches, own⟩ := safe
      exact ⟨reaches.extends sound extended, fun faithful entry some_ same =>
        (own faithful entry some_ same).extends sound extended⟩
  | readReturned => exact safe
  | role | submitRejected | readCalled | readRejected => trivial

theorem RequestSafe.extends (sound : ideal.Sound) (extended : ideal.Extends next)
    {src : Id} {request : Request Id machine.Blob}
    (matching : RequestMatches ideal src request) (safe : RequestSafe ideal request) :
    RequestSafe next request := by
  cases request with
  | requestVote body => trivial
  | appendEntries body =>
      have led : ideal.elected body.term ≠ none := by
        simp [Replicates.leader matching]
      obtain ⟨within, certified⟩ := safe
      have longer := (extended.ledger body.term led).length_le
      refine ⟨by omega, ?_⟩
      rw [extended.take_ledger led (by omega)]
      exact certified.extends sound extended
  | installSnapshot body =>
      have led : ideal.elected body.term ≠ none := by
        simp [Installs.leader matching]
      have within := Installs.within matching
      have positive := Installs.positive matching
      obtain ⟨certified, data⟩ := safe
      simp only [RequestSafe]
      rw [extended.take_ledger led (by omega)]
      exact ⟨certified.extends sound extended, data⟩

end Extends

/-! ## Decided entries agree -/

/-- At every index at most one entry is ever decided. -/
theorem Settled.unique [DecidableEq Id] {ideal : Ideal Id} (sound : ideal.Sound)
    {left right : LogEntry} (leftSettled : Settled ideal left)
    (rightSettled : Settled ideal right) (same : left.index = right.index) :
    left = right := by
  obtain ⟨_, log, certified, indexed, inside⟩ := leftSettled
  obtain ⟨_, log', certified', indexed', inside'⟩ := rightSettled
  obtain ⟨position, found⟩ := List.mem_iff_getElem?.mp inside
  obtain ⟨position', found'⟩ := List.mem_iff_getElem?.mp inside'
  have own := indexed _ _ found
  have own' := indexed' _ _ found'
  obtain rfl : position = position' := by omega
  have bound := (List.getElem?_eq_some_iff.mp found).1
  have bound' := (List.getElem?_eq_some_iff.mp found').1
  have agree : log[position]? = log'[position]? := by
    rcases sound.certified_agree certified certified' with ⟨suffix, rfl⟩ | ⟨suffix, rfl⟩
    · rw [List.getElem?_append_left bound]
    · rw [List.getElem?_append_left bound']
  rw [found, found'] at agree
  exact Option.some.inj agree

omit [Fintype Id] in
theorem Settled.of_take {ideal : Ideal Id} {limit count : Nat} {log : List LogEntry}
    (certified : ideal.Certified limit (log.take count)) (indexed : Indexed log)
    {position : Nat} {entry : LogEntry} (found : log[position]? = some entry)
    (below : position < count) : Settled ideal entry := by
  refine ⟨limit, log.take count, certified, indexed.take count, ?_⟩
  exact List.mem_of_getElem? ((List.getElem?_take_of_lt below).trans found)

omit [Fintype Id] in
/-- An entry's creator and its index determine it within a backed log. -/
theorem Recorded.of_backed {ideal : Ideal Id} {log : List LogEntry}
    (backed : ideal.Backed log) (indexed : Indexed log) {position : Nat}
    {entry : LogEntry} (found : log[position]? = some entry) : Recorded ideal entry := by
  obtain ⟨led, _, inside⟩ := backed position entry found
  have own := indexed position entry found
  refine ⟨led, by omega, ?_⟩
  obtain ⟨suffix, grown⟩ := inside
  have bound := (List.getElem?_eq_some_iff.mp found).1
  rw [show entry.index.toNat = position by omega, ← stamped_term, ← grown,
    List.getElem?_append_left (by rw [List.length_take]; omega),
    List.getElem?_take_of_lt (by omega), found]

/-! ## The commit side is kept -/

section Carry

variable [DecidableEq Id] {tier : Tier} {ideal next : Ideal Id} {member : Id}
  {node : Node Id machine}

/-- Everything up to the commit index survives what the member does itself. -/
theorem NodeSafe.prefix_kept (safe : NodeSafe tier ideal member node)
    (sound : ideal.Sound) (steps : Replication.State.Steps member ideal next)
    {count : Nat} (below : (count : Int) ≤ node.commitIndex + 1) :
    (next.log member).take count = (ideal.log member).take count := by
  have bound := safe.bound
  have kept := steps.retains sound safe.certified (List.take_prefix _ _)
  have inner : (ideal.log member).take count <+:
      (ideal.log member).take (node.commitIndex + 1).toNat :=
    List.take_prefix_take_left (by omega)
  have whole := inner.trans kept
  rw [List.prefix_iff_eq_take, List.length_take, Nat.min_eq_left (by omega)] at whole
  exact whole.symm

theorem NodeSafe.bound_kept (safe : NodeSafe tier ideal member node)
    (sound : ideal.Sound) (steps : Replication.State.Steps member ideal next) :
    node.commitIndex < (next.log member).length := by
  have bound := safe.bound
  have kept := (steps.retains sound safe.certified (List.take_prefix _ _)).length_le
  rw [List.length_take] at kept
  omega

/-- The commit side of the acting node, while its commit index stays. -/
theorem NodeSafe.carry (safe : NodeSafe tier ideal member node) (sound : ideal.Sound)
    (steps : Replication.State.Steps member ideal next)
    (office : node.role = .leader →
      next.decided node.currentTerm = ideal.decided node.currentTerm) :
    NodeSafe tier next member node := by
  obtain ⟨_, extended, _⟩ := steps.sound sound
  have applied_le := safe.applied_le
  have saved_le := safe.saved_le
  exact {
    bound := safe.bound_kept sound steps
    certified := by
      by_cases empty : node.commitIndex + 1 < 0
      · rw [show (node.commitIndex + 1).toNat = 0 by omega, List.take_zero]
        exact .nil _ _
      · rw [safe.prefix_kept sound steps (by omega)]
        exact (safe.certified.extends sound extended).mono (extended.current member)
    saved_le := saved_le
    applied_le := applied_le
    state := by
      by_cases empty : node.lastApplied + 1 < 0
      · rw [safe.state, show (node.lastApplied + 1).toNat = 0 by omega]
        simp
      · rw [safe.prefix_kept sound steps (by omega)]
        exact safe.state
    saved := fun snap found => by
      rw [safe.saved snap found]
      by_cases empty : node.db.lastSnapshotIndex + 1 < 0
      · rw [show (node.db.lastSnapshotIndex + 1).toNat = 0 by omega]
        simp
      · rw [safe.prefix_kept sound steps (by omega)]
    matched := fun leader peer index found =>
      (safe.matched leader peer index found).imp (fun acked =>
        acked.trans (extended.acked _ _)) id
    decided := fun leader => by
      rw [office leader]
      exact safe.decided leader
    listening := fun waiter member => (safe.listening waiter member).extends extended
    resumed := fun waiter member => by
      obtain ⟨below, recorded⟩ := safe.resumed waiter member
      exact ⟨below, recorded.extends extended⟩ }

omit [Fintype Id] [DecidableEq Id] in
/-- A follower installs a snapshot of a decided prefix of its log: it restores what
applying the prefix gives. -/
theorem NodeSafe.install (safe : NodeSafe tier ideal member node)
    (follows : node.role = .follower) (indexed : Indexed (ideal.log member))
    {index : Int} {data : machine.Blob} (positive : 0 ≤ index)
    (inside : index < (ideal.log member).length)
    (certified : ideal.Certified (ideal.current member)
      ((ideal.log member).take (index + 1).toNat))
    (captured : data = machine.getSnapshot
      (machine.replay ((ideal.log member).take (index + 1).toNat)))
    {db : Database Id machine.Blob} (saved : db.lastSnapshotIndex = index)
    (stored : ∀ snap, db.snapshot = some snap → snap.state = data)
    (trace : List (Effect Id machine.Blob)) :
    NodeSafe tier ideal member { node with
      db
      trace
      stateMachine := machine.restoreSnapshot data index
      commitIndex := max node.commitIndex index } := by
  have applied : machine.lastApplied (machine.restoreSnapshot data index) = index :=
    machine.lastApplied_restore _ _
  have restored : machine.restoreSnapshot data index =
      machine.replay ((ideal.log member).take (index + 1).toNat) := by
    have replayed : machine.lastApplied
        (machine.replay ((ideal.log member).take (index + 1).toNat)) = index := by
      rw [machine.lastApplied_replay (indexed.take _), List.length_take]
      omega
    have round := machine.restore_getSnapshot
      (machine.replay ((ideal.log member).take (index + 1).toNat))
    rwa [replayed, ← captured] at round
  exact {
    bound := max_lt safe.bound inside
    certified := by
      show ideal.Certified _ ((ideal.log member).take (max node.commitIndex index + 1).toNat)
      rcases le_total node.commitIndex index with low | high
      · rw [max_eq_right low]
        exact certified
      · rw [max_eq_left high]
        exact safe.certified
    saved_le := saved.trans_le applied.ge
    applied_le := applied.trans_le (le_max_right _ _)
    state := by
      show _ = machine.replay ((ideal.log member).take
        (machine.lastApplied (machine.restoreSnapshot data index) + 1).toNat)
      rw [applied]
      exact restored
    saved := fun snap found => by
      rw [stored snap found, saved]
      exact captured
    matched := fun leader => by
      have same : node.role = .leader := leader
      simp [follows] at same
    decided := fun leader => by
      have same : node.role = .leader := leader
      simp [follows] at same
    listening := safe.listening
    resumed := fun waiter member => by
      obtain ⟨reached, settled⟩ := safe.resumed waiter member
      exact ⟨reached.trans (le_max_left _ _), settled⟩ }

/-- The commit side of a node that did not act. -/
theorem NodeSafe.frame (safe : NodeSafe tier ideal member node) (sound : ideal.Sound)
    {actor : Id} (steps : Replication.State.Steps actor ideal next)
    (different : member ≠ actor)
    (leads : node.role = .leader → ideal.elected node.currentTerm = some member) :
    NodeSafe tier next member node := by
  obtain ⟨_, extended, frame⟩ := steps.sound sound
  have log := frame.log member different
  exact {
    bound := by rw [log]; exact safe.bound
    certified := by
      rw [log, frame.current member different]
      exact safe.certified.extends sound extended
    saved_le := safe.saved_le
    applied_le := safe.applied_le
    state := by rw [log]; exact safe.state
    saved := by rw [log]; exact safe.saved
    matched := fun leader peer index found =>
      (safe.matched leader peer index found).imp (fun acked =>
        acked.trans (extended.acked _ _)) id
    decided := fun leader => by
      rw [steps.decided_other sound (leads leader) different]
      exact safe.decided leader
    listening := fun waiter member => (safe.listening waiter member).extends extended
    resumed := fun waiter member => by
      obtain ⟨below, recorded⟩ := safe.resumed waiter member
      exact ⟨below, recorded.extends extended⟩ }

end Carry

end RaftCanvas
