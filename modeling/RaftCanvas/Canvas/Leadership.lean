import RaftCanvas.Canvas.Feed
import RaftCanvas.Canvas.Window
import RaftCanvas.Library.Transition
import RaftCanvas.Raft.Committing
import RaftCanvas.Raft.Frames

/-!
# A leader at work

A node that stays leader of its term takes strokes, counts acknowledgements, commits,
applies and lets the waiting `submit` calls resume, in any order.  `Serving` is what it
keeps: its file stores one log, which only grows, and its canvas has applied a prefix.
-/

namespace RaftCanvas

/-- What reaches a leader: client calls, replies and timers. -/
inductive Work (Id : Type) where
  | submit (id : Nat) (payload : Json)
  | replied (peer : Id) (next prevLogIndex : Int) (entries : List LogEntry)
      (result : Option Reply)
  | installed (peer : Id) (lastIncludedIndex : Int) (result : Option Reply)
  | resume (id : Nat)
  | timeout (id : Nat)
  | heartbeat

/-- The `submit` call that the event resolves, with the entry it appended. -/
def Event.answer? {Blob : Type} : Event Blob → Option (Nat × Option LogEntry × SubmitResult)
  | .submitResolved id appended result => some (id, appended, result)
  | _ => none

namespace Effect

variable {Id Blob : Type}

/-- The `submit` calls that the effects resolve. -/
def answers (effects : List (Effect Id Blob)) :
    List (Nat × Option LogEntry × SubmitResult) :=
  (events effects).filterMap Event.answer?

@[simp] theorem answers_nil : answers ([] : List (Effect Id Blob)) = [] := rfl

@[simp] theorem answers_append (left right : List (Effect Id Blob)) :
    answers (left ++ right) = answers left ++ answers right := by
  rw [answers, events_append, List.filterMap_append]
  rfl

@[simp] theorem answers_singleton_write (db : Database Id Blob) :
    answers [Effect.write db] = [] := rfl

@[simp] theorem answers_singleton_event (event : Event Blob) :
    answers ([.event event] : List (Effect Id Blob)) = event.answer?.toList := by
  cases event <;> rfl

@[simp] theorem answers_sends (calls : List (Call Id Blob)) :
    answers (calls.map (.send : _ → Effect Id Blob)) = [] := by
  induction calls with
  | nil => rfl
  | cons call rest ih => exact ih

/-- Events that resolve no call. -/
theorem answers_map {α : Type} {xs : List α} {event : α → Event Blob}
    (silent : ∀ x ∈ xs, (event x).answer? = none) :
    answers (xs.map fun x => (.event (event x) : Effect Id Blob)) = [] := by
  induction xs with
  | nil => rfl
  | cons x rest ih =>
      rw [List.map_cons, ← List.singleton_append, answers_append, answers_singleton_event,
        silent x List.mem_cons_self, ih fun y member => silent y (List.mem_cons_of_mem _ member)]
      rfl

end Effect

namespace Node

section Work

variable {Id : Type} {machine : Machine} [DecidableEq Id]

def perform (config : Config Id) (self : Node Id machine) : Work Id → Node Id machine
  | .submit id payload => self.submit config id .stroke payload
  | .replied peer next prevLogIndex entries result =>
      self.finishAppendEntries config peer next prevLogIndex entries result
  | .installed peer lastIncludedIndex result =>
      self.finishInstallSnapshot peer lastIncludedIndex result
  | .resume id => self.resumeSubmit id
  | .timeout id => self.submitTimeout id
  | .heartbeat => self.heartbeat config

/-- A leader as a transition system, for as long as it stays leader of its term. -/
def leadership (config : Config Id) (start : Node Id machine) :
    Transition.System (Node Id machine) (Work Id) where
  init := start
  step self work :=
    let after := self.began.perform config work
    if after.role = .leader ∧ after.currentTerm = self.currentTerm then some after else none

omit [DecidableEq Id] in
theorem check_resolved {self : Node Id machine} {waiter : Waiter}
    (settled : self.check waiter = .resolved) : waiter.entry.index ≤ self.commitIndex := by
  rw [check] at settled
  split at settled
  next committed => exact committed
  next => split at settled <;> cases settled

end Work

variable {Id : Type} {js : Relational} {dedupeMaxClients : Nat}

/-- The call waits for a stroke of the log. -/
def Awaits (log : List LogEntry) (waiter : Waiter) : Prop :=
  waiter.entry ∈ log ∧ waiter.entry.type = .stroke

/-- A leader whose file stores `log` and whose canvas shows what it has applied of it. -/
structure Serving (node : Node Id (StateMachine.machine js dedupeMaxClients))
    (log : List LogEntry) : Prop where
  leads : node.role = .leader
  stores : node.db.Stores log
  bound : node.commitIndex < log.length
  saved_le : node.db.lastSnapshotIndex ≤ node.lastApplied
  applied_le : node.lastApplied ≤ node.commitIndex
  drawn : node.canvas = StateMachine.init.applyAll js dedupeMaxClients
    (log.take (node.lastApplied + 1).toNat)
  listening : ∀ waiter ∈ node.commitListeners, Awaits log waiter
  resumed : ∀ waiter ∈ node.resumable, Awaits log waiter ∧
    waiter.entry.index ≤ node.lastApplied

namespace Serving

variable {self after : Node Id (StateMachine.machine js dedupeMaxClients)}
  {log : List LogEntry}

theorem low (serving : Serving self log) : -1 ≤ self.lastApplied :=
  serving.stores.low.trans serving.saved_le

theorem began (serving : Serving self log) : Serving self.began log :=
  { serving with }

/-- A change of nothing that `Serving` looks at. -/
theorem carry (serving : Serving self log) (role : after.role = self.role)
    (db : after.db = self.db) (commitIndex : after.commitIndex = self.commitIndex)
    (stateMachine : after.stateMachine = self.stateMachine)
    (listening : ∀ waiter ∈ after.commitListeners, Awaits log waiter)
    (resumed : ∀ waiter ∈ after.resumable, Awaits log waiter ∧
      waiter.entry.index ≤ self.lastApplied) : Serving after log where
  leads := role ▸ serving.leads
  stores := db ▸ serving.stores
  bound := commitIndex ▸ serving.bound
  saved_le := by rw [db, lastApplied, stateMachine]; exact serving.saved_le
  applied_le := by rw [commitIndex, lastApplied, stateMachine]; exact serving.applied_le
  drawn := by rw [canvas, lastApplied, stateMachine]; exact serving.drawn
  listening := listening
  resumed := by rw [lastApplied, stateMachine]; exact resumed

/-- The node appends an entry of its own. -/
theorem appendLocal (serving : Serving self log) (type : EntryType) (payload : Json) :
    Serving (self.appendLocal type payload).1
      (log ++ [(self.appendLocal type payload).2]) := by
  have last := serving.stores.lastIndex_eq
  have index : (self.appendLocal type payload).2.index = log.length := by
    simp only [Node.appendLocal]
    omega
  have bound := serving.bound
  have applied_le := serving.applied_le
  exact {
    leads := serving.leads
    stores := serving.stores.appendEntries _ (serving.stores.indexed.concat index)
    bound := by
      rw [List.length_append]
      exact bound.trans_le (by simp)
    saved_le := serving.saved_le
    applied_le := serving.applied_le
    drawn := by
      have drawn := serving.drawn
      have inside : (log ++ [(self.appendLocal type payload).2]).take
          (self.lastApplied + 1).toNat = log.take (self.lastApplied + 1).toNat :=
        List.take_append_of_le_length (by omega)
      rw [← inside] at drawn
      exact drawn
    listening := fun waiter member => (serving.listening waiter member).imp
      (List.mem_append_left _) id
    resumed := fun waiter member => (serving.resumed waiter member).imp
      (And.imp (List.mem_append_left _) id) id }

/-- A submission that the table does not answer appends its entry and waits. -/
theorem submit_new (serving : Serving self log) (config : Config Id) (id : Nat)
    {payload : Json} (unknown : self.dedupeIndex payload = none) :
    Serving (self.submit config id .stroke payload)
        (log ++ [(self.appendLocal .stroke payload).2]) ∧
      Effect.answers (self.submit config id .stroke payload).trace =
        Effect.answers self.trace := by
  have appended := serving.appendLocal .stroke payload
  have last := serving.stores.lastIndex_eq
  have bound := serving.bound
  obtain ⟨calls, sent, _⟩ :=
    (self.appendLocal .stroke payload).1.sendAppendEntriesToAll_sends config
  have written : Effect.answers (self.appendLocal .stroke payload).1.trace =
      Effect.answers self.trace := by
    simp [Node.appendLocal, write]
  rw [Node.submit, if_neg (not_not.mpr serving.leads), unknown]
  dsimp only
  rw [sent]
  split
  next settled =>
      -- the new entry lies above the commit index
      have committed : (self.appendLocal .stroke payload).2.index ≤ self.commitIndex :=
        check_resolved settled
      simp only [Node.appendLocal] at committed
      omega
  · exact ⟨{ appended with }, by simp [emit, written, Event.answer?]⟩
  · refine ⟨appended.carry rfl rfl rfl rfl ?_ appended.resumed, by simp [written]⟩
    intro waiter member
    rcases List.mem_append.mp member with old | new
    · exact appended.listening waiter old
    · obtain rfl := List.mem_singleton.mp new
      exact ⟨List.mem_append_right _ (List.mem_singleton_self _), rfl⟩

theorem submit_known (serving : Serving self log) (config : Config Id) (id : Nat)
    {payload : Json} {cached : Int} (known : self.dedupeIndex payload = some cached) :
    self.submit config id .stroke payload = self.emit (.submitResolved id none
      { index := cached, term := self.currentTerm, deduped := true }) := by
  rw [Node.submit, if_neg (not_not.mpr serving.leads), known]

/-- Raising the commit index within the log. -/
theorem raise (serving : Serving self log) {n : Int} (above : self.commitIndex < n)
    (below : n < log.length) : Serving { self with commitIndex := n } log :=
  { serving with
    bound := below
    applied_le := serving.applied_le.trans above.le }

/-- A leader applies up to its commit index. -/
theorem applyCommitted (serving : Serving self log) (config : Config Id) :
    Serving (self.applyCommitted config) log ∧
      (self.applyCommitted config).lastApplied = self.commitIndex ∧
        Effect.answers (self.applyCommitted config).trace = Effect.answers self.trace := by
  have low := serving.low
  have applied_le := serving.applied_le
  obtain ⟨stores, saved, applied, state⟩ :=
    applyCommitted_stores config serving.stores serving.bound serving.saved_le applied_le
  have works := applyCommitted_works config self
  obtain ⟨db, more, same, quiet⟩ := self.applyCommitted_eq config
  have commitIndex : (self.applyCommitted config).commitIndex = self.commitIndex := by
    rw [same]
  refine ⟨?_, applied, ?_⟩
  · exact {
      leads := works.role.trans serving.leads
      stores := stores
      bound := by rw [commitIndex]; exact serving.bound
      saved_le := by rw [applied]; exact saved
      applied_le := by rw [applied, commitIndex]
      drawn := by
        have drawn := serving.drawn
        rw [applied, show (self.commitIndex + 1).toNat = (self.lastApplied + 1).toNat +
          (self.commitIndex - self.lastApplied).toNat by omega, List.take_add,
          StateMachine.applyAll_append, ← drawn]
        exact state
      listening := by rw [works.commitListeners]; exact serving.listening
      resumed := fun waiter member => by
        rw [works.resumable] at member
        obtain ⟨awaits, below⟩ := serving.resumed waiter member
        exact ⟨awaits, by rw [applied]; exact below.trans applied_le⟩ }
  · have compacted : Effect.answers more = [] := by
      refine List.filterMap_eq_nil_iff.mpr fun event member => ?_
      obtain ⟨_, _, rfl⟩ := quiet event member
      rfl
    rw [same, Effect.answers_append, Effect.answers_append,
      Effect.answers_map fun _ _ => rfl, compacted, List.append_nil, List.append_nil]

/-- `emit("commit", n)` once everything up to the commit index is applied. -/
theorem emitCommit (serving : Serving self log) (reached : self.lastApplied = self.commitIndex)
    (n : Int) : Serving (self.emitCommit n) log ∧
      Effect.answers (self.emitCommit n).trace = Effect.answers self.trace := by
  refine ⟨serving.carry rfl rfl rfl rfl ?_ ?_, ?_⟩
  · exact fun waiter member => serving.listening waiter (List.mem_filter.mp member).1
  · intro waiter member
    rcases List.mem_append.mp member with old | new
    · exact serving.resumed waiter old
    · obtain ⟨listened, settled⟩ := List.mem_filter.mp new
      exact ⟨serving.listening waiter listened,
        reached ▸ check_resolved (of_decide_eq_true settled)⟩
  · rw [Node.emitCommit]
    dsimp only
    rw [← List.singleton_append, Effect.answers_append, Effect.answers_append,
      Effect.answers_map fun _ _ => rfl]
    simp [Event.answer?]

theorem maybeAdvanceCommitIndex (serving : Serving self log) (config : Config Id) :
    Serving (self.maybeAdvanceCommitIndex config) log ∧
      Effect.answers (self.maybeAdvanceCommitIndex config).trace =
        Effect.answers self.trace := by
  have last := serving.stores.lastIndex_eq
  have bound := serving.bound
  rw [Node.maybeAdvanceCommitIndex, if_neg (not_not.mpr serving.leads)]
  dsimp only
  split
  · exact ⟨serving, rfl⟩
  next n scanned =>
      obtain ⟨above, below, _⟩ := commitScan_some scanned
      obtain ⟨applied, reached, silent⟩ :=
        (serving.raise (n := n) (by omega) (by omega)).applyCommitted config
      have commitIndex : ({ self with commitIndex := n }.applyCommitted config).commitIndex =
          n := by
        obtain ⟨_, _, same, _⟩ :=
          ({ self with commitIndex := n } : Node Id _).applyCommitted_eq config
        rw [same]
      obtain ⟨emitted, silent'⟩ := applied.emitCommit (reached.trans commitIndex.symm) n
      exact ⟨emitted, silent'.trans silent⟩

section Peers

variable [DecidableEq Id]

theorem finishAppendEntries (serving : Serving self log) (config : Config Id) (peer : Id)
    (next prevLogIndex : Int) (entries : List LogEntry) (result : Option Reply)
    (stays : (self.finishAppendEntries config peer next prevLogIndex entries result).role =
      .leader) :
    Serving (self.finishAppendEntries config peer next prevLogIndex entries result) log ∧
      Effect.answers
          (self.finishAppendEntries config peer next prevLogIndex entries result).trace =
        Effect.answers self.trace := by
  cases result with
  | none => exact ⟨serving, rfl⟩
  | some body =>
      simp only [Node.finishAppendEntries] at stays ⊢
      split at stays
      next idle => exact ⟨by rw [if_pos idle]; exact serving, by rw [if_pos idle]⟩
      next active =>
          rw [if_neg active]
          split at stays
          · rw [becomeFollower_role] at stays
            cases stays
          next recent =>
              rw [if_neg recent]
              split
              · refine maybeAdvanceCommitIndex ?_ config
                exact { serving with }
              · exact ⟨{ serving with }, rfl⟩

theorem finishInstallSnapshot (serving : Serving self log) (peer : Id)
    (lastIncludedIndex : Int) (result : Option Reply)
    (stays : (self.finishInstallSnapshot peer lastIncludedIndex result).role = .leader) :
    Serving (self.finishInstallSnapshot peer lastIncludedIndex result) log ∧
      Effect.answers (self.finishInstallSnapshot peer lastIncludedIndex result).trace =
        Effect.answers self.trace := by
  cases result with
  | none => exact ⟨serving, rfl⟩
  | some body =>
      simp only [Node.finishInstallSnapshot] at stays ⊢
      split at stays
      next idle => exact ⟨by rw [if_pos idle]; exact serving, by rw [if_pos idle]⟩
      next active =>
          rw [if_neg active]
          split at stays
          · rw [becomeFollower_role] at stays
            cases stays
          next recent =>
              rw [if_neg recent]
              exact ⟨{ serving with }, rfl⟩

end Peers

theorem submitTimeout (serving : Serving self log) (id : Nat) :
    Serving (self.submitTimeout id) log ∧
      Effect.answers (self.submitTimeout id).trace = Effect.answers self.trace := by
  rw [Node.submitTimeout]
  split
  · exact ⟨serving, rfl⟩
  · have removed : Serving { self with
        commitListeners := self.commitListeners.filter fun other => other.id ≠ id } log :=
      serving.carry rfl rfl rfl rfl
        (fun waiter member => serving.listening waiter (List.mem_filter.mp member).1)
        serving.resumed
    dsimp only
    split
    · exact ⟨{ removed with }, by simp [emit, Event.answer?]⟩
    · exact ⟨removed, rfl⟩

theorem heartbeat (serving : Serving self log) (config : Config Id) :
    Serving (self.heartbeat config) log ∧
      Effect.answers (self.heartbeat config).trace = Effect.answers self.trace := by
  obtain ⟨calls, sent, _⟩ := self.sendAppendEntriesToAll_sends config
  rw [Node.heartbeat, sent]
  exact ⟨{ serving with }, by simp⟩

end Serving

/-- What `submit` resolves to after its wait. -/
def settlement (self : Node Id (StateMachine.machine js dedupeMaxClients))
    (waiter : Waiter) : SubmitResult :=
  let result : SubmitResult := { index := waiter.entry.index, term := waiter.entry.term }
  match self.dedupeIndex waiter.entry.payload with
  | some authoritative =>
      if authoritative ≠ result.index then
        { index := authoritative, term := result.term, deduped := true }
      else result
  | none => result

theorem resumeSubmit_eq (self : Node Id (StateMachine.machine js dedupeMaxClients))
    {id : Nat} {waiter : Waiter}
    (found : (self.resumable.find? fun waiter => waiter.id = id) = some waiter) :
    self.resumeSubmit id = ({ self with
      resumable := self.resumable.filter fun other => other.id ≠ id }.emit
        (.submitResolved id waiter.entry (self.settlement waiter))) := by
  have same : ({ self with resumable := self.resumable.filter fun other => other.id ≠ id
      } : Node Id _).dedupeIndex waiter.entry.payload =
        self.dedupeIndex waiter.entry.payload := rfl
  rw [resumeSubmit, found]
  dsimp only
  rw [same, settlement]
  cases self.dedupeIndex waiter.entry.payload with
  | none => rfl
  | some authoritative =>
      dsimp only
      split <;> rfl

theorem Serving.resumeSubmit {self : Node Id (StateMachine.machine js dedupeMaxClients)}
    {log : List LogEntry} (serving : Serving self log) {id : Nat} {waiter : Waiter}
    (found : (self.resumable.find? fun waiter => waiter.id = id) = some waiter) :
    Serving (self.resumeSubmit id) log ∧
      Effect.answers (self.resumeSubmit id).trace =
        Effect.answers self.trace ++ [(id, some waiter.entry, self.settlement waiter)] := by
  rw [self.resumeSubmit_eq found]
  refine ⟨serving.carry rfl rfl rfl rfl serving.listening fun other member =>
    serving.resumed other (List.mem_filter.mp member).1, ?_⟩
  simp [emit, Event.answer?]

section Step

variable [DecidableEq Id] {config : Config Id}
  {start self after : Node Id (StateMachine.machine js dedupeMaxClients)}
  {log : List LogEntry}

/-- Doing `work`, the leader resolves the call of `answer`: a submission that the table
answers, or one that resumes after its wait. -/
def Settles (self : Node Id (StateMachine.machine js dedupeMaxClients)) (work : Work Id)
    (answer : Nat × Option LogEntry × SubmitResult) : Prop :=
  (∃ id payload cached, work = .submit id payload ∧ self.dedupeIndex payload = some cached ∧
    answer = (id, none, { index := cached, term := self.currentTerm, deduped := true })) ∨
  ∃ id waiter, work = .resume id ∧
    (self.resumable.find? fun waiter => waiter.id = id) = some waiter ∧
      answer = (id, some waiter.entry, self.settlement waiter)

/-- What one stretch of a leader's work does: the log grows by what a submission
appends, and the answers are those of `Settles`. -/
theorem Serving.step (serving : Serving self log) {work : Work Id}
    (stepped : (leadership config start).step self work = some after) :
    ∃ more, Serving after (log ++ more) ∧
      (∀ entry ∈ more, ∃ id, work = .submit id entry.payload) ∧
        ∀ answer ∈ Effect.answers after.trace, self.Settles work answer := by
  have began := serving.began
  simp only [leadership, Option.ite_none_right_eq_some, Option.some.injEq] at stepped
  obtain ⟨⟨stays, _⟩, rfl⟩ := stepped
  -- work that appends nothing and resolves no call
  have quiet : ∀ {next : Node Id (StateMachine.machine js dedupeMaxClients)},
      Serving next log ∧ Effect.answers next.trace = [] →
      ∃ more, Serving next (log ++ more) ∧
        (∀ entry ∈ more, ∃ id, work = .submit id entry.payload) ∧
          ∀ answer ∈ Effect.answers next.trace, self.Settles work answer := by
    rintro next ⟨kept, silent⟩
    exact ⟨[], by rwa [List.append_nil], by simp, by simp [silent]⟩
  cases work with
  | submit id payload =>
      cases known : self.dedupeIndex payload with
      | none =>
          obtain ⟨grown, silent⟩ := began.submit_new config id known
          refine ⟨_, grown, fun entry member => ?_, fun answer member => ?_⟩
          · obtain rfl := List.mem_singleton.mp member
            exact ⟨id, rfl⟩
          · rw [perform, silent] at member
            simp [Node.began] at member
      | some cached =>
          refine ⟨[], ?_, by simp, fun answer member => Or.inl ⟨id, payload, cached, rfl,
            known, ?_⟩⟩
          · rw [List.append_nil, perform, began.submit_known config id known]
            exact { began with }
          · rw [perform, began.submit_known config id known] at member
            simpa [emit, Node.began, Event.answer?] using member
  | replied peer next prevLogIndex entries result =>
      exact quiet (began.finishAppendEntries config peer next prevLogIndex entries result stays)
  | installed peer lastIncludedIndex result =>
      exact quiet (began.finishInstallSnapshot peer lastIncludedIndex result stays)
  | resume id =>
      cases found : self.resumable.find? fun waiter => waiter.id = id with
      | none =>
          have idle : self.began.resumeSubmit id = self.began := by
            have absent : (self.began.resumable.find? fun waiter => waiter.id = id) = none :=
              found
            rw [Node.resumeSubmit, absent]
          exact quiet ⟨by rw [perform, idle]; exact began, by rw [perform, idle]; rfl⟩
      | some waiter =>
          have waits : (self.began.resumable.find? fun waiter => waiter.id = id) =
              some waiter := found
          have nothing : Effect.answers self.began.trace = [] := rfl
          obtain ⟨kept, answered⟩ := began.resumeSubmit waits
          refine ⟨[], by rwa [List.append_nil], by simp, fun answer member => Or.inr
            ⟨id, waiter, rfl, found, ?_⟩⟩
          rw [perform, answered, nothing, List.nil_append, List.mem_singleton] at member
          exact member
  | timeout id => exact quiet (began.submitTimeout id)
  | heartbeat => exact quiet (began.heartbeat config)

/-- The payload names a client in `clients` and numbers its stroke. -/
def NumberedBy (clients : Set String) (payload : Json) : Prop :=
  ∃ client ∈ clients, ∃ seq : Int, payload.field? "clientId" = some (.str client) ∧
    payload.field? "seq" = some (.num seq)

end Step

end Node

end RaftCanvas
