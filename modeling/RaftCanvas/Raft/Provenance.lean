import RaftCanvas.Raft.Life

/-!
# Where entries come from

A handler writes and sends entries that it found in its file or in the request.  The one
entry of its own it can add is the entry a leader creates in the term it leads, and that
is the last thing it writes.
-/

namespace RaftCanvas

/-- Entries a request carries. -/
def Request.entries {Id Blob : Type} : Request Id Blob → List LogEntry
  | .appendEntries body => body.entries
  | .requestVote _ | .installSnapshot _ => []

namespace LogTable

theorem mem_replace {table : LogTable} {entry row : LogEntry}
    (member : row ∈ (table.replace entry).rows) : row = entry ∨ row ∈ table.rows := by
  rcases List.mem_append.mp member with below | rest
  · exact Or.inr (List.mem_of_mem_filter below)
  · exact (List.mem_cons.mp rest).imp id List.mem_of_mem_filter

theorem mem_foldl_replace {table : LogTable} {entries : List LogEntry} {row : LogEntry}
    (member : row ∈ (entries.foldl .replace table).rows) :
    row ∈ entries ∨ row ∈ table.rows := by
  induction entries generalizing table with
  | nil => exact Or.inr member
  | cons entry rest ih =>
      rcases ih member with later | replaced
      · exact Or.inl (List.mem_cons_of_mem _ later)
      · rcases mem_replace replaced with rfl | old
        · exact Or.inl List.mem_cons_self
        · exact Or.inr old

end LogTable

namespace Effect

variable {Id Blob : Type}

/-- The effect stores and sends `known` entries only, and a request of a leader goes out
from `src` in a term in `office`. -/
def Passes (src : Id) (known : LogEntry → Prop) (office : Nat → Prop) :
    Effect Id Blob → Prop
  | .write db => ∀ row ∈ db.log.rows, known row
  | .event _ => True
  | .send call => call.src = src ∧ (∀ entry ∈ call.request.entries, known entry) ∧
      ∀ era leader, call.request.leader? = some (era, leader) → office era

theorem mem_sends {effects : List (Effect Id Blob)} {call : Call Id Blob} :
    call ∈ sends effects ↔ .send call ∈ effects := by
  induction effects with
  | nil => simp
  | cons effect rest ih => cases effect <;> simp [ih]

theorem mem_events {effects : List (Effect Id Blob)} {event : Event Blob} :
    event ∈ events effects ↔ .event event ∈ effects := by
  induction effects with
  | nil => simp
  | cons effect rest ih => cases effect <;> simp [ih]

/-- The file is the one the effects began with, or one of them has written it. -/
theorem file_eq_or_mem (db : Database Id Blob) (effects : List (Effect Id Blob)) :
    file db effects = db ∨ .write (file db effects) ∈ effects := by
  induction effects generalizing db with
  | nil => exact Or.inl rfl
  | cons effect rest ih =>
      cases effect with
      | write written =>
          rw [file_cons_write]
          rcases ih written with same | later
          · rw [same]
            exact Or.inr List.mem_cons_self
          · exact Or.inr (List.mem_cons_of_mem _ later)
      | event _ => exact (ih db).imp id (List.mem_cons_of_mem _)
      | send _ => exact (ih db).imp id (List.mem_cons_of_mem _)

end Effect

namespace Node

variable {Id : Type} {machine : Machine}

/-- In the course of a handler: all entries stored and sent so far are `known`, and the
term is in `office` while the node leads. -/
structure Passing (src : Id) (known : LogEntry → Prop) (office : Nat → Prop)
    (node : Node Id machine) : Prop where
  rows : ∀ row ∈ node.db.log.rows, known row
  leads : node.role = .leader → office node.currentTerm
  effects : ∀ effect ∈ node.trace, effect.Passes src known office

namespace Passing

variable {config : Config Id} {src : Id} {known : LogEntry → Prop} {office : Nat → Prop}
  {self after : Node Id machine}

theorem more (passing : Passing src known office self)
    {more : List (Effect Id machine.Blob)} (trace : after.trace = self.trace ++ more)
    (rows : ∀ row ∈ after.db.log.rows, known row)
    (leads : after.role = .leader → office after.currentTerm)
    (passes : ∀ effect ∈ more, effect.Passes src known office) :
    Passing src known office after where
  rows := rows
  leads := leads
  effects effect member := by
    rw [trace, List.mem_append] at member
    exact member.elim (passing.effects effect) (passes effect)

/-- Other parts of the memory change. -/
theorem memory (passing : Passing src known office self) (db : after.db = self.db)
    (role : after.role = self.role) (term : after.currentTerm = self.currentTerm)
    (trace : after.trace = self.trace) : Passing src known office after where
  rows := db ▸ passing.rows
  leads := role ▸ term ▸ passing.leads
  effects := trace ▸ passing.effects

/-- One transaction that brings in nothing unknown. -/
theorem write (passing : Passing src known office self)
    {transaction : Database Id machine.Blob → Database Id machine.Blob}
    (rows : ∀ row ∈ (transaction self.db).log.rows, known row) :
    Passing src known office (self.write transaction) :=
  passing.more rfl rows passing.leads (by simpa [Effect.Passes] using rows)

theorem emit (passing : Passing src known office self) (event : Event machine.Blob) :
    Passing src known office (self.emit event) :=
  passing.more rfl passing.rows passing.leads (by simp [Effect.Passes])

theorem send (passing : Passing src known office self) {call : Call Id machine.Blob}
    (own : call.src = src) (entries : ∀ entry ∈ call.request.entries, known entry)
    (speaks : ∀ era leader, call.request.leader? = some (era, leader) → office era) :
    Passing src known office (self.send call) :=
  passing.more rfl passing.rows passing.leads
    (by simpa [Effect.Passes] using ⟨own, entries, speaks⟩)

/-! ## Role transitions -/

theorem becomeFollower (passing : Passing src known office self) (term : Nat)
    (leaderId : Option Id) : Passing src known office (self.becomeFollower term leaderId) := by
  rw [Node.becomeFollower]
  refine Passing.emit ?_ _
  dsimp only
  split
  · exact passing.more rfl passing.rows (fun leads => by cases leads)
      (by simpa [Effect.Passes, Node.write, Database.saveTermAndVote] using passing.rows)
  · exact { passing with leads := fun leads => by cases leads }

theorem followLeader (passing : Passing src known office self) (term : Nat) (leaderId : Id) :
    Passing src known office (self.followLeader term leaderId) := by
  rw [Node.followLeader]
  split
  · exact passing.becomeFollower term _
  · exact { passing with }

theorem startElection (passing : Passing config.replicaId known office self) :
    Passing config.replicaId known office (self.startElection config) := by
  have stood : Passing config.replicaId known office (self.becomeCandidate config) := by
    refine passing.more (List.append_assoc _ _ _) passing.rows (fun leads => nomatch leads) ?_
    simpa [Effect.Passes, Database.saveTermAndVote] using passing.rows
  have armed : Passing config.replicaId known office
      { self.becomeCandidate config with electionTimer := true } := { stood with }
  refine armed.send rfl (fun entry member => nomatch member) fun era leader asked => ?_
  cases asked

/-! ## Sending -/

theorem sendAppendEntriesTo (passing : Passing config.replicaId known office self)
    (peer : Id) :
    Passing config.replicaId known office (self.sendAppendEntriesTo config peer) := by
  rw [Node.sendAppendEntriesTo]
  split
  next call asked =>
      rw [appendEntriesCall] at asked
      split at asked
      · simp at asked
      next active =>
          have office := passing.leads (not_not.mp (not_or.mp active).2)
          dsimp only at asked
          split at asked
          · obtain ⟨snap, _, rfl⟩ := Option.map_eq_some_iff.mp asked
            refine passing.send rfl (fun entry member => by cases member) fun era leader quoted => ?_
            obtain ⟨rfl, rfl⟩ : self.currentTerm = era ∧ config.replicaId = leader := by
              simpa [Request.leader?] using quoted
            exact office
          · obtain rfl := Option.some.inj asked
            refine passing.send rfl (fun entry member => ?_) fun era leader quoted => ?_
            · refine passing.rows entry ?_
              simp only [Request.entries, Database.getRange] at member
              split at member
              · split at member
                · cases member
                · exact List.mem_of_mem_filter member
              · cases member
            · obtain ⟨rfl, rfl⟩ : self.currentTerm = era ∧ config.replicaId = leader := by
                simpa [Request.leader?] using quoted
              exact office
  · exact passing

theorem sendAppendEntriesToAll (passing : Passing config.replicaId known office self) :
    Passing config.replicaId known office (self.sendAppendEntriesToAll config) := by
  rw [Node.sendAppendEntriesToAll]
  split
  · exact passing
  · suffices each : ∀ (peers : List Id) (node : Node Id machine),
        Passing config.replicaId known office node →
          Passing config.replicaId known office
            (peers.foldl (Node.sendAppendEntriesTo config) node) from
      each config.peers self passing
    intro peers
    induction peers with
    | nil => exact fun _ kept => kept
    | cons peer rest ih => exact fun node kept => ih _ (kept.sendAppendEntriesTo peer)

theorem startReadIndex (passing : Passing config.replicaId known office self) (id : Nat) :
    Passing config.replicaId known office (self.startReadIndex config id) := by
  have called := passing.emit (.readCalled id)
  rw [Node.startReadIndex]
  split
  · exact called.emit _
  next leads =>
      split
      · exact called.emit _
      · refine called.send rfl (fun entry member => by cases member) fun era leader quoted => ?_
        obtain ⟨rfl, _⟩ : (self.emit (.readCalled id)).currentTerm = era ∧
            config.replicaId = leader := by
          simpa [Request.leader?] using quoted
        exact called.leads (not_not.mp leads)

theorem awaitApplied (passing : Passing src known office self) (read : Reading) :
    Passing src known office (self.awaitApplied read) := by
  rw [Node.awaitApplied]
  split
  · exact { passing with }
  · exact passing.emit _

/-! ## Committing -/

theorem applyLoop (passing : Passing src known office self) (fuel : Nat) :
    Passing src known office (Node.applyLoop fuel self) := by
  induction fuel generalizing self with
  | zero => exact passing
  | succ fuel ih =>
      rw [Node.applyLoop]
      split
      · split
        · exact passing
        · refine ih (Passing.emit ?_ _)
          exact passing.memory rfl rfl rfl rfl
      · exact passing

theorem maybeSnapshot (passing : Passing src known office self) (config : Config Id) :
    Passing src known office (self.maybeSnapshot config) := by
  rw [Node.maybeSnapshot]
  split
  · exact passing
  · split
    · exact passing
    · split
      · exact passing
      · refine Passing.emit (Passing.write (Passing.write passing ?_) ?_) _
        · exact passing.rows
        · exact fun row member => passing.rows row (List.mem_of_mem_filter member)

theorem applyCommitted (passing : Passing src known office self) (config : Config Id) :
    Passing src known office (self.applyCommitted config) :=
  (passing.applyLoop _).maybeSnapshot config

theorem emitCommit (passing : Passing src known office self) (n : Int) :
    Passing src known office (self.emitCommit n) := by
  refine passing.more rfl passing.rows passing.leads fun effect member => ?_
  rcases List.mem_cons.mp member with rfl | rejected
  · trivial
  · obtain ⟨waiter, _, rfl⟩ := List.mem_map.mp rejected
    trivial

theorem maybeAdvanceCommitIndex (passing : Passing src known office self)
    (config : Config Id) : Passing src known office (self.maybeAdvanceCommitIndex config) := by
  rw [Node.maybeAdvanceCommitIndex]
  split
  · exact passing
  · dsimp only
    split
    · exact passing
    · refine Passing.emitCommit (Passing.applyCommitted ?_ config) _
      exact passing.memory rfl rfl rfl rfl

theorem followCommit (passing : Passing src known office self) (config : Config Id)
    (leaderCommit : Int) : Passing src known office (self.followCommit config leaderCommit) := by
  rw [Node.followCommit]
  split
  · refine Passing.applyCommitted ?_ config
    exact passing.memory rfl rfl rfl rfl
  · exact passing

/-! ## Requests -/

omit src known office self after in
/-- Storing brings in nothing but the entries of the request. -/
theorem mem_appended {db : Database Id machine.Blob} {entries : List LogEntry} {start : Int}
    {row : LogEntry} (member : row ∈ ((db.truncateFrom start).appendEntries
      (entries.filter fun entry => start ≤ entry.index)).log.rows) :
    row ∈ entries ∨ row ∈ db.log.rows :=
  (LogTable.mem_foldl_replace member).imp List.mem_of_mem_filter List.mem_of_mem_filter

theorem storeEntries (passing : Passing src known office self) {entries : List LogEntry}
    (brought : ∀ entry ∈ entries, known entry) :
    Passing src known office (self.storeEntries entries) := by
  rw [Node.storeEntries]
  dsimp only
  split
  · refine Passing.write (Passing.write passing ?_) ?_
    · exact fun row member => passing.rows row (List.mem_of_mem_filter member)
    · exact fun row member => (mem_appended member).elim (brought row) (passing.rows row)
  · exact passing

theorem installSnapshot (passing : Passing src known office self)
    (body : InstallSnapshot Id machine.Blob) :
    Passing src known office (self.installSnapshot body) := by
  have discarded : Passing src known office
      (self.discardLog body.lastIncludedIndex body.lastIncludedTerm) := by
    have emptied : Passing src known office (self.write Database.truncateAll) :=
      passing.write fun row member => nomatch member
    rw [Node.discardLog]
    split
    · split
      · exact passing.write fun row member => passing.rows row (List.mem_of_mem_filter member)
      · exact emptied
    · exact emptied
  have saved : Passing src known office
      ((self.discardLog body.lastIncludedIndex body.lastIncludedTerm).write fun db =>
        db.saveSnapshot body.lastIncludedIndex body.lastIncludedTerm body.data) :=
    discarded.write discarded.rows
  refine Passing.emit ?_ _
  exact saved.memory rfl rfl rfl rfl

variable [DecidableEq Id]

theorem handleRequestVote (passing : Passing src known office self) (body : RequestVote Id) :
    Passing src known office (self.handleRequestVote body).1 := by
  have raised : Passing src known office
      (if self.currentTerm < body.term then self.becomeFollower body.term none else self) := by
    split
    · exact passing.becomeFollower _ none
    · exact passing
  rw [Node.handleRequestVote]
  dsimp only
  generalize (if self.currentTerm < body.term then self.becomeFollower body.term none
    else self) = follower at *
  split
  · exact raised
  · split
    · exact raised
    · split
      · exact raised
      · have saved : Passing src known office
            (Node.write { follower with votedFor := some body.candidateId } fun db =>
              db.saveTermAndVote follower.currentTerm (some body.candidateId)) := by
          refine Passing.write ?_ raised.rows
          exact raised.memory rfl rfl rfl rfl
        exact { saved with }

theorem handle (passing : Passing src known office self) (config : Config Id)
    {request : Request Id machine.Blob} (brought : ∀ entry ∈ request.entries, known entry) :
    Passing src known office (self.handle config request).1 := by
  cases request with
  | requestVote body => exact passing.handleRequestVote body
  | appendEntries body =>
      have followed := passing.followLeader body.term body.leaderId
      simp only [Node.handle, handleAppendEntries]
      split
      · exact passing
      · split
        · exact (followed.storeEntries brought).followCommit config _
        · exact followed
  | installSnapshot body =>
      have followed := passing.followLeader body.term body.leaderId
      simp only [Node.handle, handleInstallSnapshot]
      split
      · exact passing
      · split
        · exact followed
        · exact followed.installSnapshot body

/-! ## Resumed operations -/

theorem finishAppendEntries (passing : Passing src known office self) (config : Config Id)
    (peer : Id) (next prevLogIndex : Int) (entries : List LogEntry) (result : Option Reply) :
    Passing src known office
      (self.finishAppendEntries config peer next prevLogIndex entries result) := by
  cases result with
  | none => exact passing
  | some body =>
      simp only [Node.finishAppendEntries]
      split
      · exact passing
      · split
        · exact passing.becomeFollower _ none
        · split
          · refine Passing.maybeAdvanceCommitIndex ?_ config
            exact passing.memory rfl rfl rfl rfl
          · exact passing.memory rfl rfl rfl rfl

theorem finishInstallSnapshot (passing : Passing src known office self) (peer : Id)
    (lastIncludedIndex : Int) (result : Option Reply) :
    Passing src known office (self.finishInstallSnapshot peer lastIncludedIndex result) := by
  cases result with
  | none => exact passing
  | some body =>
      simp only [Node.finishInstallSnapshot]
      split
      · exact passing
      · split
        · exact passing.becomeFollower _ none
        · exact passing.memory rfl rfl rfl rfl

omit [DecidableEq Id] in
theorem finishReadIndex (passing : Passing src known office self) (config : Config Id)
    (id : Nat) (readIdx : Int) (termAtStart : Nat) (results : List (Option Reply)) :
    Passing src known office
      (self.finishReadIndex config id readIdx termAtStart results) := by
  rw [Node.finishReadIndex]
  split
  · exact (passing.becomeFollower _ none).emit _
  · split
    · exact passing.emit _
    · split
      · exact passing.emit _
      · exact passing.awaitApplied _

omit [DecidableEq Id] in
theorem resumeSubmit (passing : Passing src known office self) (id : Nat) :
    Passing src known office (self.resumeSubmit id) := by
  rw [Node.resumeSubmit]
  split
  · exact passing
  · have taken : ∀ event, Passing src known office
        (Node.emit { self with
          resumable := self.resumable.filter fun other => other.id ≠ id } event) := by
      intro event
      refine Passing.emit ?_ event
      exact passing.memory rfl rfl rfl rfl
    dsimp only
    split
    · split <;> exact taken _
    · exact taken _

omit [DecidableEq Id] in
theorem submitTimeout (passing : Passing src known office self) (id : Nat) :
    Passing src known office (self.submitTimeout id) := by
  rw [Node.submitTimeout]
  split
  · exact passing
  · dsimp only
    split
    · refine Passing.emit ?_ _
      exact passing.memory rfl rfl rfl rfl
    · exact passing.memory rfl rfl rfl rfl

omit [DecidableEq Id] in
theorem pollRead (passing : Passing src known office self) (id : Nat) :
    Passing src known office (self.pollRead id) := by
  rw [Node.pollRead]
  split
  · exact passing
  · refine Passing.awaitApplied ?_ _
    exact passing.memory rfl rfl rfl rfl

omit src known office self after [DecidableEq Id] in
theorem start {src : Id} {known : LogEntry → Prop} {office : Nat → Prop}
    {db : Database Id machine.Blob} (rows : ∀ row ∈ db.log.rows, known row) :
    Passing src known office (Node.start db : Node Id machine) := by
  rw [Node.start]
  refine Passing.becomeFollower ?_ _ none
  dsimp only
  split <;> exact ⟨rows, (fun leads => by cases leads), fun _ member => by cases member⟩

end Passing

/-! ## The one entry of one's own -/

/-- The node has created `entry` in the term it leads, after announcing the election if
it has just won it.  Nothing is written afterwards. -/
structure Creates (src : Id) (before after : Node Id machine) (entry : LogEntry) : Prop where
  term : entry.term = before.currentTerm
  passing : Passing src (· ∈ (before.db.appendEntries [entry]).log.rows)
    (· = before.currentTerm) after
  trace : ∃ front back, after.trace =
      front ++ .write (before.db.appendEntries [entry]) :: back ∧
    (front = [] ∧ before.role = .leader ∨
      front = [.event (.role .leader before.currentTerm)]) ∧
    ∀ db, .write db ∉ back

section Creates

variable {config : Config Id} {self : Node Id machine}

/-- A leader's requests carry nothing but its rows. -/
theorem creates_sent {created : Node Id machine} {entry : LogEntry}
    {front : List (Effect Id machine.Blob)} (term : entry.term = self.currentTerm)
    (db : created.db = self.db.appendEntries [entry])
    (current : created.currentTerm = self.currentTerm)
    (trace : created.trace = front ++ [.write (self.db.appendEntries [entry])])
    (begun : front = [] ∧ self.role = .leader ∨
      front = [.event (.role .leader self.currentTerm)]) :
    Creates config.replicaId self (created.sendAppendEntriesToAll config) entry := by
  have passing : Passing config.replicaId (· ∈ (self.db.appendEntries [entry]).log.rows)
      (· = self.currentTerm) created := by
    refine ⟨by simp [db], fun _ => current, fun effect member => ?_⟩
    rw [trace] at member
    rcases List.mem_append.mp member with before | written
    · rcases begun with ⟨rfl, _⟩ | rfl
      · cases before
      · obtain rfl := List.mem_singleton.mp before
        trivial
    · obtain rfl := List.mem_singleton.mp written
      exact fun _ => id
  obtain ⟨calls, sent, _⟩ := created.sendAppendEntriesToAll_sends config
  refine ⟨term, passing.sendAppendEntriesToAll, front, calls.map .send, ?_, begun, by simp⟩
  rw [sent]
  simp [trace]

theorem Creates.memory {src : Id} {after final : Node Id machine} {entry : LogEntry}
    (creates : Creates src self after entry) (db : final.db = after.db)
    (role : final.role = after.role) (term : final.currentTerm = after.currentTerm)
    (trace : final.trace = after.trace) : Creates src self final entry :=
  ⟨creates.term, creates.passing.memory db role term trace, trace ▸ creates.trace⟩

theorem Creates.emit {src : Id} {after : Node Id machine} {entry : LogEntry}
    (creates : Creates src self after entry) (event : Event machine.Blob) :
    Creates src self (after.emit event) entry := by
  obtain ⟨front, back, trace, begun, quiet⟩ := creates.trace
  refine ⟨creates.term, creates.passing.emit event, front, back ++ [.event event], ?_,
    begun, ?_⟩
  · simp [Node.emit, trace]
  · simpa using quiet

theorem submit_creates (fresh : self.trace = []) {known : LogEntry → Prop}
    {office : Nat → Prop} (passing : Passing config.replicaId known office self) (id : Nat)
    (type : EntryType) (payload : Json) :
    Passing config.replicaId known office (self.submit config id type payload) ∨
      ∃ entry, Creates config.replicaId self (self.submit config id type payload) entry := by
  rw [Node.submit]
  split
  · exact Or.inl (passing.emit _)
  next leads =>
      split
      · exact Or.inl (passing.emit _)
      · have sent : Creates config.replicaId self
            ((self.appendLocal type payload).1.sendAppendEntriesToAll config)
            (self.appendLocal type payload).2 :=
          creates_sent rfl rfl rfl (by simp [appendLocal, Node.write, fresh])
            (Or.inl ⟨rfl, not_not.mp leads⟩)
        refine Or.inr ⟨(self.appendLocal type payload).2, ?_⟩
        dsimp only
        split
        · exact sent.memory rfl rfl rfl rfl
        · exact sent.emit _
        · exact sent.memory rfl rfl rfl rfl

variable [DecidableEq Id]

theorem becomeLeader_creates (fresh : self.trace = []) :
    ∃ entry, Creates config.replicaId self (self.becomeLeader config) entry := by
  refine ⟨(self.appendLocal .noop .null).2,
    Creates.memory (creates_sent rfl ?_ ?_ ?_ (Or.inr rfl)) rfl rfl rfl rfl⟩
  · rfl
  · rfl
  · simp [appendLocal, Node.write, Node.emit, fresh]

/-- Whatever reaches a node, it passes on what is known, or creates one entry. -/
theorem respond_passing (fresh : self.trace = []) {known : LogEntry → Prop}
    {office : Nat → Prop} (passing : Passing config.replicaId known office self)
    {stimulus : Stimulus Id machine.Blob}
    (brought : ∀ request, stimulus = .request request →
      ∀ entry ∈ request.entries, known entry)
    (restarts : ∀ db, stimulus = .restart db → ∀ row ∈ db.log.rows, known row) :
    Passing config.replicaId known office (self.respond config stimulus) ∨
      ∃ entry, Creates config.replicaId self (self.respond config stimulus) entry := by
  cases stimulus with
  | electionTimeout => exact Or.inl passing.startElection
  | heartbeat => exact Or.inl passing.sendAppendEntriesToAll
  | submit id type payload => exact submit_creates fresh passing id type payload
  | readIndex id => exact Or.inl (passing.startReadIndex id)
  | request request => exact Or.inl (passing.handle config (brought request rfl))
  | resume await results =>
      cases await with
      | election termAtStart =>
          simp only [respond, resume, finishElection]
          split
          · exact Or.inl passing
          · split
            · exact Or.inl (passing.becomeFollower _ none)
            · split
              · exact Or.inr (becomeLeader_creates fresh)
              · exact Or.inl passing
      | appendEntries => exact Or.inl (passing.finishAppendEntries config _ _ _ _ _)
      | installSnapshot => exact Or.inl (passing.finishInstallSnapshot _ _ _)
      | readIndex => exact Or.inl (passing.finishReadIndex config _ _ _ _)
  | resumeSubmit id => exact Or.inl (passing.resumeSubmit id)
  | submitTimeout id => exact Or.inl (passing.submitTimeout id)
  | pollRead id => exact Or.inl (passing.pollRead id)
  | restart db => exact Or.inl (.start (restarts db rfl))

end Creates

end Node

end RaftCanvas
