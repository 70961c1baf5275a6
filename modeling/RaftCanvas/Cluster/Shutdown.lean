import RaftCanvas.Cluster.CommitRule

/-!
# Shutdown

`stop()` clears both timers and the file is closed after it.  The operations that were
suspended then still resume, whatever replies they get, and find the node stopped: all
of them must leave the file alone and arm no timer.
-/

namespace RaftCanvas

/-- The stimulus resumes an operation. -/
def Stimulus.Continues {Id Blob : Type} : Stimulus Id Blob → Prop
  | .resume _ _ | .resumeSubmit _ | .submitTimeout _ | .pollRead _ => True
  | _ => False

def Effect.isWrite {Id Blob : Type} : Effect Id Blob → Bool
  | .write _ => true
  | .event _ | .send _ => false

namespace Node

variable {Id : Type} {machine : Machine}

def stop (self : Node Id machine) : Node Id machine :=
  { self with stopped := true, electionTimer := false, heartbeatTimer := false }

/-- The node on another file. -/
def on (self : Node Id machine) (db : Database Id machine.Blob) : Node Id machine :=
  { self with db }

/-- A read hears of a higher term in a reply to its probe. -/
def HearsLate (self : Node Id machine) : Stimulus Id machine.Blob → Prop
  | .resume (.readIndex _ _ _) results =>
      ∃ reply, some reply ∈ results ∧ self.currentTerm < reply.term
  | _ => False

/-- A tally is cut short exactly by a higher term. -/
theorem tally_stepDown_iff {counts : Reply → Bool} {currentTerm total : Nat}
    {results : List (Option Reply)} :
    (∃ term, tally counts currentTerm results total = .stepDown term) ↔
      ∃ reply, some reply ∈ results ∧ currentTerm < reply.term := by
  induction results generalizing total with
  | nil => simp [tally]
  | cons result rest ih =>
      cases result with
      | none => simpa [tally] using ih
      | some body =>
          rw [tally]
          split
          next higher =>
              exact iff_of_true ⟨body.term, rfl⟩ ⟨body, List.mem_cons_self, higher⟩
          next settled =>
              rw [ih]
              constructor
              · rintro ⟨reply, member, higher⟩
                exact ⟨reply, List.mem_cons_of_mem _ member, higher⟩
              · rintro ⟨reply, member, higher⟩
                rcases List.mem_cons.mp member with same | later
                · obtain rfl := Option.some.inj same
                  exact absurd higher settled
                · exact ⟨reply, later, higher⟩

variable [DecidableEq Id]

/-- The stimulus is answered without the file: on any other file the node does the same,
and leaves that file as it is.  No timer is armed. -/
structure Inert (config : Config Id) (node : Node Id machine)
    (stimulus : Stimulus Id machine.Blob) : Prop where
  blind : ∀ db, (node.on db).began.respond config stimulus =
    (node.began.respond config stimulus).on db
  unwritten : ∀ db, .write db ∉ (node.began.respond config stimulus).trace
  electionTimer : (node.began.respond config stimulus).electionTimer = false
  heartbeatTimer : (node.began.respond config stimulus).heartbeatTimer = false

/-- The node is stopped, and its file is the one it was stopped with. -/
structure Down (file : Database Id machine.Blob) (node : Node Id machine) : Prop where
  stopped : node.stopped = true
  electionTimer : node.electionTimer = false
  heartbeatTimer : node.heartbeatTimer = false
  file : node.db = file

variable {config : Config Id} {self after : Node Id machine}

omit [DecidableEq Id] in
theorem awaitApplied_on (self : Node Id machine) (db : Database Id machine.Blob)
    (read : Reading) : (self.on db).awaitApplied read = (self.awaitApplied read).on db := by
  rw [awaitApplied, awaitApplied, show (self.on db).lastApplied = self.lastApplied from rfl]
  split <;> rfl

omit [DecidableEq Id] in
theorem pollRead_on (self : Node Id machine) (db : Database Id machine.Blob) (id : Nat) :
    (self.on db).pollRead id = (self.pollRead id).on db := by
  rw [pollRead, pollRead, show (self.on db).reading = self.reading from rfl]
  split
  · rfl
  · exact awaitApplied_on { self with
      reading := self.reading.filter fun other => other.id ≠ id } db _

omit [DecidableEq Id] in
theorem resumeSubmit_on (self : Node Id machine) (db : Database Id machine.Blob)
    (id : Nat) : (self.on db).resumeSubmit id = (self.resumeSubmit id).on db := by
  rw [resumeSubmit, resumeSubmit, show (self.on db).resumable = self.resumable from rfl]
  split
  · rfl
  next waiter _ =>
      have same : ∀ resumable : List Waiter,
          ({ self.on db with resumable } : Node Id machine).dedupeIndex
              waiter.entry.payload =
            ({ self with resumable } : Node Id machine).dedupeIndex waiter.entry.payload :=
        fun _ => rfl
      dsimp only
      rw [same]
      split
      · split <;> rfl
      · rfl

omit [DecidableEq Id] in
theorem submitTimeout_on (self : Node Id machine) (db : Database Id machine.Blob)
    (id : Nat) : (self.on db).submitTimeout id = (self.submitTimeout id).on db := by
  rw [submitTimeout, submitTimeout,
    show (self.on db).commitListeners = self.commitListeners from rfl]
  split
  · rfl
  · dsimp only
    rw [show (self.on db).commitIndex = self.commitIndex from rfl]
    split <;> rfl

omit [DecidableEq Id] in
theorem finishReadIndex_on (self : Node Id machine) (db : Database Id machine.Blob)
    (id : Nat) (readIdx : Int) (termAtStart : Nat) {results : List (Option Reply)} {acks : Nat}
    (counted : tally Reply.success self.currentTerm results 1 = .count acks) :
    (self.on db).finishReadIndex config id readIdx termAtStart results =
      (self.finishReadIndex config id readIdx termAtStart results).on db := by
  rw [finishReadIndex, finishReadIndex,
    show (self.on db).currentTerm = self.currentTerm from rfl, counted,
    show (self.on db).role = self.role from rfl]
  dsimp only
  split
  · rfl
  · split
    · rfl
    · exact awaitApplied_on self db _

/-! ## What is left alone -/

omit [DecidableEq Id] in
/-- The timers and the file are left alone. -/
structure Idles (before after : Node Id machine) : Prop where
  stopped : after.stopped = before.stopped
  electionTimer : after.electionTimer = before.electionTimer
  heartbeatTimer : after.heartbeatTimer = before.heartbeatTimer
  file : after.db = before.db
  unwritten : ∀ db, .write db ∈ after.trace → .write db ∈ before.trace

namespace Idles

omit [DecidableEq Id]

theorem refl (self : Node Id machine) : self.Idles self :=
  ⟨rfl, rfl, rfl, rfl, fun _ member => member⟩

/-- An event more is no write. -/
theorem emit (idles : self.Idles after) (event : Event machine.Blob) :
    self.Idles (after.emit event) :=
  { idles with
    unwritten := fun db member => idles.unwritten db (by simpa [Node.emit] using member) }

theorem awaitApplied (self : Node Id machine) (read : Reading) :
    self.Idles (self.awaitApplied read) := by
  rw [Node.awaitApplied]
  split
  · exact ⟨rfl, rfl, rfl, rfl, fun _ member => member⟩
  · exact (refl self).emit _

theorem pollRead (self : Node Id machine) (id : Nat) : self.Idles (self.pollRead id) := by
  rw [Node.pollRead]
  split
  · exact .refl self
  next read _ =>
      have rest := Idles.awaitApplied { self with
        reading := self.reading.filter fun other => other.id ≠ id } read
      exact { rest with }

theorem resumeSubmit (self : Node Id machine) (id : Nat) :
    self.Idles (self.resumeSubmit id) := by
  have taken : self.Idles { self with
      resumable := self.resumable.filter fun other => other.id ≠ id } :=
    ⟨rfl, rfl, rfl, rfl, fun _ member => member⟩
  rw [Node.resumeSubmit]
  split
  · exact .refl self
  · dsimp only
    split
    · split <;> exact taken.emit _
    · exact taken.emit _

theorem submitTimeout (self : Node Id machine) (id : Nat) :
    self.Idles (self.submitTimeout id) := by
  have taken : self.Idles { self with
      commitListeners := self.commitListeners.filter fun other => other.id ≠ id } :=
    ⟨rfl, rfl, rfl, rfl, fun _ member => member⟩
  rw [Node.submitTimeout]
  split
  · exact .refl self
  · dsimp only
    split
    · exact taken.emit _
    · exact taken

theorem finishReadIndex (self : Node Id machine) (id : Nat) (readIdx : Int)
    (termAtStart : Nat) {results : List (Option Reply)} {acks : Nat}
    (counted : tally Reply.success self.currentTerm results 1 = .count acks) :
    self.Idles (self.finishReadIndex config id readIdx termAtStart results) := by
  rw [Node.finishReadIndex, counted]
  dsimp only
  split
  · exact (refl self).emit _
  · split
    · exact (refl self).emit _
    · exact .awaitApplied self _

end Idles

/-! ## Resuming on a stopped node -/

/-- What a stopped node answers without its file. -/
theorem Down.inert {file : Database Id machine.Blob} (down : self.Down file)
    {stimulus : Stimulus Id machine.Blob}
    (blind : ∀ db, (self.began.on db).respond config stimulus =
      (self.began.respond config stimulus).on db)
    (idles : self.began.Idles (self.began.respond config stimulus)) :
    self.Inert config stimulus ∧ (self.began.respond config stimulus).Down file where
  left :=
    { blind := blind
      unwritten := fun db member => nomatch idles.unwritten db member
      electionTimer := idles.electionTimer.trans down.electionTimer
      heartbeatTimer := idles.heartbeatTimer.trans down.heartbeatTimer }
  right :=
    { stopped := idles.stopped.trans down.stopped
      electionTimer := idles.electionTimer.trans down.electionTimer
      heartbeatTimer := idles.heartbeatTimer.trans down.heartbeatTimer
      file := idles.file.trans down.file }

/-- Nothing happens where a stopped node is left as it is. -/
theorem Down.inert_of_checks {file : Database Id machine.Blob} (down : self.Down file)
    {stimulus : Stimulus Id machine.Blob}
    (checks : ∀ node : Node Id machine, node.stopped = true →
      node.respond config stimulus = node) :
    self.Inert config stimulus ∧ (self.began.respond config stimulus).Down file := by
  have unchanged : self.began.respond config stimulus = self.began :=
    checks self.began down.stopped
  refine down.inert (fun db => ?_) ?_
  · rw [unchanged]
    exact checks (self.began.on db) down.stopped
  · rw [unchanged]
    exact .refl self.began

/-- Every operation checks for `stop()` when it resumes, or needs no file; only a read
that hears of a higher term does not. -/
theorem Down.resumes {file : Database Id machine.Blob} (down : self.Down file)
    {stimulus : Stimulus Id machine.Blob} (continues : stimulus.Continues)
    (timely : ¬self.HearsLate stimulus) :
    self.Inert config stimulus ∧ (self.began.respond config stimulus).Down file := by
  cases stimulus with
  | resume await results =>
      cases await with
      | election termAtStart =>
          refine down.inert_of_checks fun node halted => ?_
          rw [respond, resume, finishElection, if_pos (Or.inl halted)]
      | appendEntries peer next prevLogIndex entries =>
          refine down.inert_of_checks fun node halted => ?_
          cases answered : results.head?.join with
          | none => simp only [respond, resume, answered, finishAppendEntries]
          | some body =>
              simp only [respond, resume, answered, finishAppendEntries, halted, true_or,
                if_true]
      | installSnapshot peer lastIncludedIndex =>
          refine down.inert_of_checks fun node halted => ?_
          cases answered : results.head?.join with
          | none => simp only [respond, resume, answered, finishInstallSnapshot]
          | some body =>
              simp only [respond, resume, answered, finishInstallSnapshot, halted, true_or,
                if_true]
      | readIndex id readIdx termAtStart =>
          cases counted : tally Reply.success self.began.currentTerm results 1 with
          | stepDown term => exact absurd (tally_stepDown_iff.mp ⟨term, counted⟩) timely
          | count acks =>
              exact down.inert
                (fun db => finishReadIndex_on _ db id readIdx termAtStart counted)
                (.finishReadIndex _ id readIdx termAtStart counted)
  | resumeSubmit id => exact down.inert (fun db => resumeSubmit_on _ db id) (.resumeSubmit _ id)
  | submitTimeout id =>
      exact down.inert (fun db => submitTimeout_on _ db id) (.submitTimeout _ id)
  | pollRead id => exact down.inert (fun db => pollRead_on _ db id) (.pollRead _ id)
  | electionTimeout | heartbeat | submit | readIndex | request | restart =>
      exact continues.elim

/-- A higher term makes the read save it and arm the election timer, stopped or not. -/
theorem HearsLate.not_inert {stimulus : Stimulus Id machine.Blob}
    (late : self.HearsLate stimulus) : ¬self.Inert config stimulus := by
  intro inert
  cases stimulus with
  | resume await results =>
      cases await with
      | readIndex id readIdx termAtStart =>
          obtain ⟨term, deposed⟩ := tally_stepDown_iff.mpr late
          have armed := inert.electionTimer
          have deposed' : tally Reply.success self.began.currentTerm results 1 =
            .stepDown term := deposed
          simp only [respond, resume, finishReadIndex, deposed', emit] at armed
          rw [becomeFollower] at armed
          simp [emit] at armed
      | election | appendEntries | installSnapshot => exact late
  | electionTimeout | heartbeat | submit | readIndex | request | resumeSubmit
  | submitTimeout | pollRead | restart => exact late

end Node

/-- Once stopped, a node stays stopped, arms no timer and leaves its file alone, however
its suspended operations resume, as long as no read hears of a higher term; and of what
can resume next, exactly such a read would touch the file and arm a timer. -/
theorem stopped_stays_stopped {Id : Type} [DecidableEq Id] (config : Config Id)
    (machine : Machine) (self node : Node Id machine)
    (path : (Node.life config machine).Path
      (fun node stimulus => stimulus.Continues ∧ ¬node.HearsLate stimulus) self.stop node) :
    node.Down self.db ∧ ∀ stimulus : Stimulus Id machine.Blob, stimulus.Continues →
      (node.Inert config stimulus ↔ ¬node.HearsLate stimulus) := by
  have down : node.Down self.db := by
    induction path with
    | refl => exact ⟨rfl, rfl, rfl, rfl⟩
    | step _ timely stepped down =>
        obtain rfl := Option.some.inj stepped
        exact (down.resumes timely.1 timely.2).2
  exact ⟨down, fun stimulus continues =>
    ⟨fun inert late => late.not_inert inert, fun timely => (down.resumes continues timely).1⟩⟩

/-- A leader that is stopped ignores the higher term in a late reply to a log request. -/
theorem stopped_stays_stopped_victor : ∃ node : Node (Fin 3) canvas,
    node.Down victor.db ∧
      node.Inert ((Cluster.ofFin 3 1).config 0) (.resume (.election 1) [none]) := by
  let config := (Cluster.ofFin 3 1).config 0
  let late : Stimulus (Fin 3) canvas.Blob :=
    .resume (.appendEntries 1 0 (-1) []) [some { term := 5 }]
  have path : (Node.life config canvas).Path
      (fun node stimulus => stimulus.Continues ∧ ¬node.HearsLate stimulus) victor.stop
        (victor.stop.began.respond config late) :=
    .step .refl (show late.Continues ∧ ¬victor.stop.HearsLate late from ⟨trivial, id⟩) rfl
  obtain ⟨down, exactly⟩ := stopped_stays_stopped config canvas victor _ path
  exact ⟨_, down, (exactly (.resume (.election 1) [none]) trivial).mpr id⟩

/-- Replica 0 leads and reads; before replica 1 answers the probe it has stood for the
next term. -/
def overtaken : List (Action (Fin 3)) :=
  [.electionTimeout 0, .deliver 0 1,
    .resume 0 [some { term := 1, voteGranted := true }, none],
    .deliver 1 1, .resume 1 [some { term := 1, success := true }], .readIndex 0,
    .electionTimeout 1, .deliver 3 1]

/-- If replica 0 is stopped now, the reply makes it access its file, and while that is still
open, write it and arm its timer. -/
theorem stopped_read_writes : ∃ (world : World (Fin 3) canvas)
    (call : Call (Fin 3) canvas.Blob),
    ((Cluster.ofFin 3 1).system canvas).Reach (fun _ _ => True) world ∧
      world.calls[3]? = some call ∧ 3 ∈ world.pending 0 ∧ call.src = 0 ∧
      world.Answers 3 call.targets [some { term := 2 }, none] = true ∧
      let node := (world.node 0).stop.began.respond ((Cluster.ofFin 3 1).config 0)
        (.resume call.await [some { term := 2 }, none])
      (∃ db, .write db ∈ node.trace) ∧ node.electionTimer = true ∧
        node.db.currentTerm ≠ (world.node 0).stop.db.currentTerm := by
  obtain ⟨world, reached, passed⟩ :=
    ((Cluster.ofFin 3 1).system canvas).exists_reach_of_run
      (fun _ _ => True) overtaken
      (fun world => (world.calls[3]?).any fun call : Call (Fin 3) canvas.Blob =>
        let node := (world.node 0).stop.began.respond ((Cluster.ofFin 3 1).config 0)
          (.resume call.await [some { term := 2 }, none])
        decide (3 ∈ world.pending 0 ∧ call.src = 0 ∧
          world.Answers 3 call.targets [some { term := 2 }, none] = true ∧
            node.electionTimer = true ∧
              node.db.currentTerm ≠ (world.node 0).stop.db.currentTerm) &&
          node.trace.any Effect.isWrite)
      (by decide +kernel)
  obtain ⟨call, issued, passed⟩ := (Option.any_eq_true _ _).mp passed
  obtain ⟨facts, wrote⟩ := Bool.and_eq_true_iff.mp passed
  obtain ⟨pending, src, answers, armed, term⟩ := of_decide_eq_true facts
  obtain ⟨effect, member, written⟩ := List.any_eq_true.mp wrote
  refine ⟨world, call, reached, issued, pending, src, answers, ?_, armed, term⟩
  cases effect with
  | write db => exact ⟨db, member⟩
  | event | send => cases written

end RaftCanvas
