import RaftCanvas.Canvas.Feed
import RaftCanvas.Cluster.Turns
import RaftCanvas.Raft.Authentic

/-!
# Validity

Nothing appears in the cluster that was not submitted: every stroke in a log, in a request,
in a snapshot and on a canvas is one that a client handed to some replica.  Crashes, lost
leaders, compaction and the transfer of snapshots make no difference.
-/

namespace RaftCanvas

/-- Authentic by the one standard is authentic by the other. -/
structure Standard.Within {machine : Machine} (narrow wide : Standard machine) : Prop where
  entry : ∀ row, narrow.entry row → wide.entry row
  state : ∀ state, narrow.state state → wide.state state
  blob : ∀ blob, narrow.blob blob → wide.blob blob

namespace World

variable {Id : Type} {machine : Machine}

structure Authentic (standard : Standard machine) (world : World Id machine) : Prop where
  db : ∀ self, standard.Database (world.node self).db
  state : ∀ self, standard.state (world.node self).stateMachine
  calls : ∀ call ∈ world.calls, standard.Request call.request
  history : ∀ seen ∈ world.history, standard.Event seen.2

/-- What a client submits is authentic. -/
def Vouched (standard : Standard machine) (_ : World Id machine) : Action Id → Prop
  | .submit _ type payload => ∀ index term, standard.entry { index, term, type, payload }
  | .crashDuring (.submit _ type payload) _ =>
      ∀ index term, standard.entry { index, term, type, payload }
  | _ => True

theorem Authentic.mono {narrow wide : Standard machine} {world : World Id machine}
    (authentic : world.Authentic narrow) (within : narrow.Within wide) : world.Authentic wide where
  db self := ⟨fun row member => within.entry row ((authentic.db self).rows row member),
    fun snap held => within.blob _ ((authentic.db self).snapshot snap held)⟩
  state self := within.state _ (authentic.state self)
  calls call member := by
    have asked := authentic.calls call member
    cases request : call.request with
    | requestVote body => trivial
    | appendEntries body =>
        rw [request] at asked
        exact fun entry inside => within.entry entry (asked entry inside)
    | installSnapshot body =>
        rw [request] at asked
        exact within.blob _ asked
  history seen member := by
    have told := authentic.history seen member
    cases event : seen.2 with
    | applied entry =>
        rw [event] at told
        exact within.entry entry told
    | snapshotTaken index blob | snapshotInstalled index blob =>
        rw [event] at told
        exact within.blob blob told
    | _ => trivial

variable [DecidableEq Id] {standard : Standard machine} {cluster : Cluster Id}
  {world next : World Id machine}

theorem Prompts.submitted {action : Action Id} {self : Id} {id : Nat} {type : EntryType}
    {payload : Json} (prompts : world.Prompts action self (.submit id type payload)) :
    action = .submit self type payload := by
  cases prompts
  rfl

omit [DecidableEq Id] in
theorem Authentic.node (authentic : world.Authentic standard) (self : Id) :
    (world.node self).began.Authentic standard :=
  ⟨authentic.db self, authentic.state self, nofun⟩

/-- A handler call does authentic things. -/
theorem Authentic.turn (authentic : world.Authentic standard) {action : Action Id}
    {turn : Turn Id machine} (taken : world.turn cluster action = some turn)
    (vouched : world.Vouched standard action) : turn.after.Authentic standard := by
  obtain ⟨stimulus, prompts, after, _⟩ := turn_prompts taken
  rw [after]
  refine (authentic.node turn.self).respond ?_ ?_ ?_
  · rintro id type payload rfl
    rw [prompts.submitted] at vouched
    exact vouched
  · rintro request rfl
    obtain ⟨id, call, _, issued, _, rfl⟩ := prompts.request
    exact authentic.calls call (List.mem_of_getElem? issued)
  · rintro db rfl
    exact absurd rfl (prompts.lives db)

/-- One node ends up with authentic contents after authentic effects. -/
theorem Authentic.advances (authentic : world.Authentic standard) {actor : Id}
    {node : Node Id machine} {done : List (Effect Id machine.Blob)}
    {reply : Option (Delivery Id)} (advances : world.Advances next actor node done reply)
    (db : standard.Database node.db) (state : standard.state node.stateMachine)
    (effects : ∀ effect ∈ done, standard.Effect effect) : next.Authentic standard where
  db self := by
    by_cases same : self = actor
    · rw [same, advances.node_actor]
      exact db
    · rw [advances.node_other same]
      exact authentic.db self
  state self := by
    by_cases same : self = actor
    · rw [same, advances.node_actor]
      exact state
    · rw [advances.node_other same]
      exact authentic.state self
  calls call member := by
    rcases advances.mem_calls.mp member with old | sent
    · exact authentic.calls call old
    · exact effects _ (Effect.mem_sends.mp sent)
  history seen member := by
    rcases advances.mem_history.mp member with ⟨_, told⟩ | old
    · exact effects _ (Effect.mem_events.mp told)
    · exact authentic.history seen old

theorem Authentic.step (authentic : world.Authentic standard) {action : Action Id}
    (vouched : world.Vouched standard action)
    (stepped : world.step cluster action = some next) : next.Authentic standard := by
  obtain ⟨self, node, done, reply, progress, advances⟩ := step_progress stepped
  have restarted {db : Database Id machine.Blob} (held : standard.Database db) :
      Node.Authentic standard (.start db : Node Id machine) := .start held
  cases progress with
  | handled turn taken =>
      have after := authentic.turn taken vouched
      exact authentic.advances advances after.db after.state after.effects
  | interrupted inner effects turn cut taken =>
      have permitted : world.Vouched standard inner := by
        subst cut
        cases inner <;> first | exact vouched | trivial
      have after := authentic.turn taken permitted
      have performed : ∀ effect ∈ turn.after.trace.take effects, standard.Effect effect :=
        fun effect member => after.effects effect (List.mem_of_mem_take member)
      -- The file is the old one or the last that was written.
      have file : standard.Database (Effect.file (world.node turn.self).db
          (turn.after.trace.take effects)) := by
        rcases Effect.file_eq_or_mem (world.node turn.self).db
          (turn.after.trace.take effects) with same | written
        · rw [same]
          exact authentic.db turn.self
        · exact performed _ written
      exact authentic.advances advances (restarted file).db (restarted file).state performed
  | crashed self died =>
      have again := restarted (authentic.db self)
      exact authentic.advances advances again.db again.state nofun

theorem Authentic.reach
    (reached : (cluster.system machine).Reach (Vouched standard) world) :
    world.Authentic standard := by
  refine reached.invariant ?_ fun _ _ _ _ authentic vouched stepped =>
    authentic.step vouched stepped
  have fresh : Node.Authentic standard (.start .empty : Node Id machine) :=
    .start ⟨nofun, nofun⟩
  exact ⟨fun _ => fresh.db, fun _ => fresh.state, nofun, nofun⟩

end World

namespace StateMachine

/-- A stroke of the canvas shows a payload. -/
def Shows (known : Json → Prop) (stroke : Json) : Prop :=
  ∃ entry : LogEntry, known entry.payload ∧ stroke = strokeOf entry.index (payloadOf entry)

theorem shows_apply {js : Relational} {dedupeMaxClients : Nat} {known : Json → Prop}
    {self : StateMachine} {entry : LogEntry}
    (drawn : ∀ stroke ∈ self.strokes, Shows known stroke)
    (authentic : entry.type = .stroke → known entry.payload) :
    ∀ stroke ∈ (self.apply js dedupeMaxClients entry).strokes, Shows known stroke := by
  have pushed (type : entry.type = .stroke) :
      ∀ stroke ∈ self.strokes ++ [strokeOf entry.index (payloadOf entry)],
        Shows known stroke := by
    intro stroke member
    rcases List.mem_append.mp member with old | new
    · exact drawn stroke old
    · exact ⟨entry, authentic type, List.mem_singleton.mp new⟩
  unfold apply
  split
  · exact drawn
  · split
    · exact drawn
    next type =>
      split
      · split
        · split
          · exact drawn
          · exact pushed type
        · exact pushed type
      · exact pushed type

/-- Strokes are authentic if their payload is known. -/
def standard (js : Relational) (dedupeMaxClients : Nat) (known : Json → Prop) :
    Standard (machine js dedupeMaxClients) where
  entry row := row.type = .stroke → known row.payload
  state self := ∀ stroke ∈ self.strokes, Shows known stroke
  blob snap := ∀ stroke ∈ snap.strokes, Shows known stroke
  noop _ _ := nofun
  init := nofun
  apply := shows_apply
  getSnapshot := id
  restoreSnapshot _ := id

theorem standard_within {js : Relational} {dedupeMaxClients : Nat}
    {known known' : Json → Prop} (wider : ∀ payload, known payload → known' payload) :
    (standard js dedupeMaxClients known).Within (standard js dedupeMaxClients known') where
  entry _ authentic type := wider _ (authentic type)
  state _ drawn stroke member :=
    (drawn stroke member).imp fun _ shows => ⟨wider _ shows.1, shows.2⟩
  blob _ drawn stroke member :=
    (drawn stroke member).imp fun _ shows => ⟨wider _ shows.1, shows.2⟩

end StateMachine

section

variable {Id : Type} {js : Relational} {dedupeMaxClients : Nat} {known : Json → Prop}

theorem World.vouched_iff {type : EntryType} {payload : Json} :
    (∀ index term, (StateMachine.standard js dedupeMaxClients known).entry
        { index, term, type, payload }) ↔
      (type = .stroke → known payload) :=
  ⟨fun vouched => vouched 0 0, fun vouched _ _ => vouched⟩

instance [DecidablePred known]
    (world : World Id (StateMachine.machine js dedupeMaxClients)) (action : Action Id) :
    Decidable (world.Vouched (StateMachine.standard js dedupeMaxClients known) action) := by
  unfold World.Vouched
  split
  · exact decidable_of_iff _ World.vouched_iff.symm
  · exact decidable_of_iff _ World.vouched_iff.symm
  · exact .isTrue trivial

end

section

variable {Id : Type} [DecidableEq Id] {js : Relational} {dedupeMaxClients : Nat}

/-- If every stroke that clients submit has a property, then every stroke in a log, in a
request, in a snapshot and on a canvas has it, and every stroke a replica tells the gateway
about: in every run, whatever crashes and whichever replicas lead. -/
theorem only_submitted (cluster : Cluster Id) (known : Json → Prop)
    {world : World Id (StateMachine.machine js dedupeMaxClients)}
    (reached : (cluster.system (StateMachine.machine js dedupeMaxClients)).Reach
      (World.Vouched (StateMachine.standard js dedupeMaxClients known)) world) :
    (∀ self, ∀ row ∈ (world.node self).db.log.rows, row.type = .stroke →
        known row.payload) ∧
      (∀ self, ∀ stroke ∈ (world.node self).canvas.strokes,
        StateMachine.Shows known stroke) ∧
      (∀ self, ∀ snap ∈ (world.node self).db.snapshot, ∀ stroke ∈ snap.state.strokes,
        StateMachine.Shows known stroke) ∧
      (∀ call ∈ world.calls,
        (StateMachine.standard js dedupeMaxClients known).Request call.request) ∧
      ∀ self entry, (self, .applied entry) ∈ world.history → entry.type = .stroke →
        known entry.payload := by
  have authentic := World.Authentic.reach reached
  exact ⟨fun self => (authentic.db self).rows, authentic.state,
    fun self => (authentic.db self).snapshot, authentic.calls,
    fun self entry told => authentic.history _ told⟩

end

/-- A stroke is committed and compacted into the snapshot of the leader. -/
def compacting : List (Action (Fin 3)) :=
  [.electionTimeout 0, .deliver 0 1,
    .resume 0 [some { term := 1, voteGranted := true }, none],
    .submit 0 .stroke (.obj [("size", .num 4)]), .deliver 3 1,
    .resume 3 [some { term := 1, success := true }]]

theorem only_submitted_compacting :
    ∃ world : World (Fin 3) (StateMachine.machine .numeric 10),
      ((Cluster.ofFin 3 1).system (StateMachine.machine .numeric 10)).Reach
          (World.Vouched (StateMachine.standard .numeric 10 fun payload =>
            payload.truthy = true)) world ∧
        (world.node 0).canvas.strokes.length = 1 ∧
        ∀ stroke ∈ (world.node 0).canvas.strokes,
          StateMachine.Shows (fun payload => payload.truthy = true) stroke := by
  obtain ⟨world, reached, drawn⟩ :=
    ((Cluster.ofFin 3 1).system (StateMachine.machine .numeric 10)).exists_reach_of_run
      (World.Vouched (StateMachine.standard .numeric 10 fun payload => payload.truthy = true))
      compacting (fun world => decide ((world.node 0).canvas.strokes.length = 1))
      (by decide +kernel)
  exact ⟨world, reached, of_decide_eq_true drawn,
    (only_submitted (Cluster.ofFin 3 1) _ reached).2.1 0⟩

end RaftCanvas
