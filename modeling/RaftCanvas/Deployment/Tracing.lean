import RaftCanvas.Cluster.Validity
import RaftCanvas.Deployment.Deployment
import RaftCanvas.Gateway.Attempts
import RaftCanvas.Library.Composition

/-!
# Where a stroke comes from

Whatever a part of the deployment holds can be traced to the tab that drew it: through the
socket, the gateway, the replica that submitted it, the logs, and the broadcast that
acknowledges it.  A tab forgets a stroke only when that way has been gone to its end.
-/

namespace RaftCanvas

open Frontend (Tab Observed Location recordedTab)

namespace Deployment

variable {Tabs Id Data : Type} {js : Relational} {dedupeMaxClients : Nat}

/-- What the leader posts of a payload. -/
def copy (payload : Json) : Json :=
  .obj (Json.spread [] payload.ownProperties)

/-- The client that a stroke names. -/
def clientOf (stroke : Json) : Option String :=
  match stroke.field? "clientId" with
  | some (.str clientId) => some clientId
  | _ => none

/-- Others do not use the names of the tabs. -/
def Foreign (uuid : Tabs → String) (payload : Json) : Prop :=
  ∀ tab, clientOf (copy payload) ≠ some (uuid tab)

section

variable {machine : Machine}

/-- A tab drew the stroke, or it is of no tab. -/
def Known (uuid : Tabs → String) (state : Deployment Tabs Id Data machine) (payload : Json) :
    Prop :=
  (∃ tab, ∃ stroke ∈ Observed.strokes (state.tabs tab).2, payload = stroke.toJson) ∨
    Foreign uuid payload

/-- The broadcast is of an entry that a leader applied. -/
def Applied (state : Deployment Tabs Id Data machine) (post : Broadcast) : Prop :=
  ∃ self entry, (self, .leader, entry) ∈ state.applied ∧ entry.type = .stroke ∧
    post = ⟨copy entry.payload, entry.index⟩

/-- Page loads have names, and others post foreign strokes. -/
def Closed (uuid : Tabs → String) (state : Deployment Tabs Id Data machine) :
    Action Tabs Id Data → Prop
  | .tab tab action => (state.tabs tab).1.Fresh action
  | .gateway (.stroke payload) => Foreign uuid payload
  | .outside _ payload _ => Foreign uuid payload
  | _ => True

end

/-- Tabs with their names, on a cluster of empty replicas. -/
def start (location : Tabs → Location) (uuid : Tabs → String) (machine : Machine) :
    Deployment Tabs Id Data machine where
  tabs tab := (recordedTab (location tab) (uuid tab)).init
  world := .init

/-- The deployment as a transition system. -/
def system [DecidableEq Tabs] [DecidableEq Id] (cluster : Cluster Id)
    (location : Tabs → Location) (uuid : Tabs → String) (machine : Machine) :
    Transition.System (Deployment Tabs Id Data machine) (Action Tabs Id Data) where
  init := start location uuid machine
  step state action := state.step cluster action

section

variable [DecidableEq Tabs] [DecidableEq Id] {machine : Machine} {cluster : Cluster Id}
  {location : Tabs → Location} {uuid : Tabs → String}
  {state next : Deployment Tabs Id Data machine}

/-! ## What a step does -/

/-- A step is a step of one part, and takes what it takes from the others. -/
inductive Moves (cluster : Cluster Id) (uuid : Tabs → String)
    (state : Deployment Tabs Id Data machine) : Deployment Tabs Id Data machine → Prop where
  | tab (tab : Tabs) (action : Frontend.Action) (after : Tab)
      (delivered : Tabs → Nat → Nat) :
      (state.tabs tab).1.Fresh action → (state.tabs tab).1.step action = some after →
      (∀ index data, action = .message index data →
        ∃ connection ∈ state.hub.connections, ∃ frame ∈ connection.sent, data = some frame) →
      Moves cluster uuid state { state with
        delivered
        tabs := Function.update state.tabs tab
          (after, (state.tabs tab).2 ++ (state.tabs tab).1.observe action) }
  | hub (hub : Hub) (links : Tabs → Nat → Option Nat) :
      (∀ connection ∈ hub.connections, ∀ frame ∈ connection.sent,
        (∃ before ∈ state.hub.connections, frame ∈ before.sent) ∨
          ∃ post ∈ state.posts, frame = Hub.payload post.stroke (some (.num post.logIndex))) →
      Moves cluster uuid state { state with hub, links }
  | gateway (gateway : Gateway Json Data) (received : Tabs → Nat → Nat) :
      (∀ forward ∈ gateway.forwards,
        forward.stroke ∈ state.gateway.forwards.map Gateway.Forward.stroke ∨
          (∃ tab, ∃ stroke ∈ (state.tabs tab).1.sent, forward.stroke = stroke.toJson) ∨
          Foreign uuid forward.stroke) →
      Moves cluster uuid state { state with gateway, received }
  | replica (action : RaftCanvas.Action Id) (cut : Option Nat) (world : World Id machine) :
      (∀ self type payload, action = .submit self type payload →
        payload ∈ state.gateway.forwards.map Gateway.Forward.stroke ∨ Foreign uuid payload) →
      (∀ inner effects, action ≠ .crashDuring inner effects) →
      state.world.step cluster (handling action cut) = some world →
      Moves cluster uuid state { state with
        world
        posts := state.posts ++ posted cluster state.world action cut
        applied := state.applied ++ noted cluster state.world action cut }

theorem stepTab_moves {tab : Tabs} {action : Frontend.Action} {delivered : Tabs → Nat → Nat}
    (fresh : (state.tabs tab).1.Fresh action)
    (brought : ∀ index data, action = .message index data →
      ∃ connection ∈ state.hub.connections, ∃ frame ∈ connection.sent, data = some frame)
    (stepped : ({ state with delivered } : Deployment Tabs Id Data machine).stepTab tab action =
      some next) : Moves cluster uuid state next := by
  obtain ⟨after, taken, rfl⟩ := Option.map_eq_some_iff.mp stepped
  exact .tab tab action after delivered fresh taken brought

theorem stepReplica_moves {action : RaftCanvas.Action Id} {cut : Option Nat}
    (asked : ∀ self type payload, action = .submit self type payload →
      payload ∈ state.gateway.forwards.map Gateway.Forward.stroke ∨ Foreign uuid payload)
    (whole : ∀ inner effects, action ≠ .crashDuring inner effects)
    (stepped : state.stepReplica cluster action cut = some next) :
    Moves cluster uuid state next := by
  obtain ⟨world, taken, rfl⟩ := Option.map_eq_some_iff.mp stepped
  exact .replica action cut world asked whole taken

/-- Neither end of a connection changes what was sent on it. -/
theorem hub_moves {hub : Hub} {links : Tabs → Nat → Option Nat}
    (kept : ∀ connection ∈ hub.connections, ∀ frame ∈ connection.sent,
      ∃ before ∈ state.hub.connections, frame ∈ before.sent) :
    Moves cluster uuid state { state with hub, links } :=
  .hub hub links fun connection member frame sent => .inl (kept connection member frame sent)

theorem shut_sent {hub : Hub} {ws : Nat} :
    ∀ connection ∈ (hub.shut ws).connections, ∀ frame ∈ connection.sent,
      ∃ before ∈ hub.connections, frame ∈ before.sent := by
  intro connection member frame sent
  obtain ⟨index, found⟩ := List.mem_iff_getElem?.mp member
  have same := hub.sent_shut ws index
  rw [found, Option.map_some] at same
  obtain ⟨before, former, kept⟩ := Option.map_eq_some_iff.mp same.symm
  exact ⟨before, List.mem_of_getElem? former, kept ▸ sent⟩

theorem step_moves {action : Action Tabs Id Data}
    (stepped : state.step cluster action = some next) (closed : Closed uuid state action) :
    Moves cluster uuid state next := by
  cases action with
  | tab tab action =>
      simp only [step, Option.ite_none_right_eq_some] at stepped
      obtain ⟨alone, stepped⟩ := stepped
      refine stepTab_moves closed ?_ stepped
      rintro index data rfl
      cases alone
  | accept tab socket =>
      simp only [step, Option.ite_none_right_eq_some, Option.some.injEq] at stepped
      obtain ⟨_, rfl⟩ := stepped
      refine hub_moves fun connection member frame sent => ?_
      rcases List.mem_append.mp member with old | new
      · exact ⟨connection, old, sent⟩
      · rw [List.mem_singleton.mp new] at sent
        cases sent
  | opened tab socket =>
      simp only [step, Option.ite_none_right_eq_some] at stepped
      refine stepTab_moves ?_ ?_ stepped.2
      · trivial
      · rintro index data ⟨⟩
  | upload tab socket =>
      simp only [step, Option.ite_none_right_eq_some, Option.map_eq_some_iff] at stepped
      obtain ⟨_, stroke, given, rfl⟩ := stepped
      refine .gateway _ _ fun forward member => ?_
      obtain ⟨ws, found, sent⟩ := Option.bind_eq_some_iff.mp given
      have uploaded : stroke ∈ (state.tabs tab).1.sent :=
        List.mem_flatMap.mpr ⟨ws, List.mem_of_getElem? found, List.mem_of_getElem? sent⟩
      rcases List.mem_append.mp member with old | new
      · exact .inl (List.mem_map_of_mem old)
      · rw [List.mem_singleton.mp new]
        exact .inr (.inl ⟨tab, stroke, uploaded, rfl⟩)
  | download tab socket =>
      simp only [step, Option.bind_eq_some_iff] at stepped
      obtain ⟨frame, given, stepped⟩ := stepped
      obtain ⟨ws, _, given⟩ := Option.bind_eq_some_iff.mp given
      obtain ⟨connection, found, sent⟩ := Option.bind_eq_some_iff.mp given
      refine stepTab_moves ?_ ?_ stepped
      · trivial
      · rintro index data ⟨⟩
        exact ⟨connection, List.mem_of_getElem? found, frame, List.mem_of_getElem? sent, rfl⟩
  | shut ws =>
      obtain rfl := Option.some.inj stepped
      exact hub_moves shut_sent
  | close ws =>
      obtain rfl := Option.some.inj stepped
      exact hub_moves shut_sent
  | error ws =>
      obtain rfl := Option.some.inj stepped
      exact hub_moves fun connection member frame sent => ⟨connection, member, sent⟩
  | gateway action =>
      obtain ⟨gateway, taken, rfl⟩ := Option.map_eq_some_iff.mp stepped
      refine .gateway _ _ fun forward member => ?_
      have strokes := List.mem_map_of_mem (f := Gateway.Forward.stroke) member
      rw [Gateway.step_strokes taken, List.mem_append, Option.mem_toList] at strokes
      refine strokes.imp_right fun arrived => .inr ?_
      cases action with
      | stroke stroke =>
          obtain rfl := Option.some.inj arrived
          exact closed
      | leader | status | discovered | answer => cases arrived
  | post forward target cut =>
      simp only [step, Option.bind_eq_some_iff] at stepped
      obtain ⟨forward, found, stepped⟩ := stepped
      refine stepReplica_moves ?_ ?_ stepped
      · rintro self type payload ⟨⟩
        exact .inl (List.mem_map_of_mem (List.mem_of_getElem? found))
      · rintro inner effects ⟨⟩
  | outside target payload cut =>
      refine stepReplica_moves ?_ ?_ stepped
      · rintro self type payload ⟨⟩
        exact .inr closed
      · rintro inner effects ⟨⟩
  | replica action cut =>
      simp only [step, Option.ite_none_right_eq_some] at stepped
      obtain ⟨alone, stepped⟩ := stepped
      refine stepReplica_moves ?_ ?_ stepped
      · rintro self type payload rfl
        cases alone
      · rintro inner effects rfl
        cases alone
  | broadcast post =>
      obtain ⟨post, found, rfl⟩ := Option.map_eq_some_iff.mp stepped
      refine .hub _ _ fun connection member frame sent => ?_
      rw [Hub.broadcast] at member
      split at member
      next => exact .inl ⟨connection, member, sent⟩
      next stroke truthy =>
        obtain rfl := Option.some.inj (Option.filter_eq_some_iff.mp truthy).1
        refine (Hub.push_frames connection member frame sent).imp_right fun new => ?_
        exact ⟨_, List.mem_of_getElem? found, new⟩

/-- Each tab is a part of the deployment. -/
theorem part_tab (tab : Tabs) :
    Transition.System.Part
      (system cluster location uuid machine :
        Transition.System (Deployment Tabs Id Data machine) _)
      (Closed uuid) (recordedTab (location tab) (uuid tab)) (fun state => Tab.Fresh state.1)
      fun state => state.tabs tab where
  init := rfl
  step state action next closed stepped := by
    cases step_moves stepped closed with
    | tab other action after delivered fresh taken brought =>
        by_cases same : tab = other
        · subst same
          refine .inr ⟨action, fresh, ?_⟩
          simp only [Function.update_self]
          exact Transition.System.recording_step taken
        · exact .inl (Function.update_of_ne same _ _)
    | hub | gateway | replica => exact .inl rfl

/-! ## Applied entries and their broadcasts -/

theorem history_grows {action : RaftCanvas.Action Id} {world after : World Id machine}
    (stepped : world.step cluster action = some after) {seen : Id × Event machine.Blob}
    (member : seen ∈ world.history) : seen ∈ after.history := by
  obtain ⟨self, node, done, reply, _, advances⟩ := World.step_progress stepped
  exact advances.mem_history.mpr (.inr member)

omit [DecidableEq Id] in
theorem mem_broadcasts {role : Role} {effects : List (Effect Id machine.Blob)} {post : Broadcast}
    (member : post ∈ broadcasts role effects) :
    ∃ entry, .applied entry ∈ Effect.events effects ∧ role = .leader ∧ entry.type = .stroke ∧
      post = ⟨copy entry.payload, entry.index⟩ := by
  obtain ⟨event, told, posts⟩ := List.mem_filterMap.mp member
  split at posts
  next entry =>
    simp only [onApplied, ne_eq, Option.ite_none_left_eq_some, not_or, Decidable.not_not,
      Option.some.injEq] at posts
    obtain ⟨⟨leads, type⟩, rfl⟩ := posts
    exact ⟨entry, told, leads, type, rfl⟩
  next => cases posts

theorem step_of_turn {action : RaftCanvas.Action Id} {world : World Id machine}
    {turn : Turn Id machine} (taken : world.turn cluster action = some turn) :
    world.step cluster action = some (world.finish turn) := by
  cases action with
  | crash | crashDuring => simp [World.turn] at taken
  | electionTimeout | heartbeat | submit | readIndex | deliver | resume | resumeSubmit
  | submitTimeout | pollRead => simp only [World.step, taken, Option.map_some]

theorem mem_noted {action : RaftCanvas.Action Id} {cut : Option Nat}
    {world : World Id machine} {self : Id} {role : Role} {entry : LogEntry} :
    (self, role, entry) ∈ noted cluster world action cut ↔
      ∃ turn, world.turn cluster action = some turn ∧ self = turn.self ∧
        (role, entry) ∈
          Effect.applications (world.node turn.self).role (performed turn cut) := by
  unfold noted
  split
  next none => simp [none]
  next turn taken => simp [taken, eq_comm, and_comm]

/-- What is noted has happened. -/
theorem noted_history {action : RaftCanvas.Action Id} {cut : Option Nat}
    {world after : World Id machine} {self : Id} {role : Role} {entry : LogEntry}
    (stepped : world.step cluster (handling action cut) = some after)
    (member : (self, role, entry) ∈ noted cluster world action cut) :
    (self, .applied entry) ∈ after.history := by
  obtain ⟨turn, taken, rfl, applied⟩ := mem_noted.mp member
  have told := Effect.mem_events_of_applications applied
  cases cut with
  | none =>
      obtain rfl := Option.some.inj ((step_of_turn taken).symm.trans stepped)
      exact (World.finish_advances world turn).mem_history.mpr (.inl ⟨rfl, told⟩)
  | some effects =>
      simp only [handling, World.step, taken, Option.map_some, Option.some.injEq] at stepped
      obtain rfl := stepped
      exact (World.interrupt_advances world turn effects).mem_history.mpr (.inl ⟨rfl, told⟩)

omit [DecidableEq Id] in
theorem performed_prefix (turn : Turn Id machine) (cut : Option Nat) :
    performed turn cut <+: turn.after.trace := by
  cases cut with
  | none => exact List.prefix_rfl
  | some effects => exact List.take_prefix _ _

/-- A handler applies entries in the role that it has in the end. -/
theorem applied_role {action : RaftCanvas.Action Id} {world : World Id machine}
    {turn : Turn Id machine} (taken : world.turn cluster action = some turn)
    {cut : Option Nat} {entry : LogEntry}
    (told : .applied entry ∈ Effect.events (performed turn cut)) :
    (turn.after.role, entry) ∈
      Effect.applications (world.node turn.self).role (performed turn cut) := by
  obtain ⟨rest, whole⟩ := performed_prefix turn cut
  have settled := World.turn_settled taken
  rw [← whole] at settled
  rw [(World.turn_announced taken).last, ← whole]
  exact settled.mem_applications told

/-- A replica posts what it has just applied as the leader. -/
theorem posted_noted {action : RaftCanvas.Action Id} {cut : Option Nat}
    {world : World Id machine} {post : Broadcast}
    (member : post ∈ posted cluster world action cut) :
    ∃ self entry, (self, .leader, entry) ∈ noted cluster world action cut ∧
      entry.type = .stroke ∧ post = ⟨copy entry.payload, entry.index⟩ := by
  unfold posted at member
  split at member
  next => cases member
  next turn taken =>
    obtain ⟨entry, told, leads, type, same⟩ := mem_broadcasts member
    have led := applied_role taken told
    rw [leads] at led
    exact ⟨turn.self, entry, mem_noted.mpr ⟨turn, taken, rfl, led⟩, type, same⟩

/-! ## Everything can be traced -/

omit [DecidableEq Tabs] [DecidableEq Id] in
theorem Known.mono {payload : Json} (known : Known uuid state payload)
    (grows : ∀ tab, ∀ stroke ∈ Observed.strokes (state.tabs tab).2,
      stroke ∈ Observed.strokes (next.tabs tab).2) : Known uuid next payload :=
  known.imp_left fun ⟨tab, stroke, drawn, same⟩ => ⟨tab, stroke, grows tab stroke drawn, same⟩

theorem Moves.grows (moves : Moves cluster uuid state next) (tab : Tabs) :
    ∀ stroke ∈ Observed.strokes (state.tabs tab).2,
      stroke ∈ Observed.strokes (next.tabs tab).2 := by
  intro stroke member
  cases moves with
  | tab other action after =>
      by_cases same : tab = other
      · subst same
        simp only [Function.update_self, Observed.strokes, List.filterMap_append]
        exact List.mem_append_left _ member
      · simpa only [Function.update_of_ne same] using member
  | hub | gateway | replica => exact member

theorem echo_payload {stroke s : Json} {logIndex : Option Json}
    (echoed : Tab.echo? (some (Hub.payload stroke logIndex)) = some s) : s = stroke := by
  have held : (Hub.payload stroke logIndex).field? "stroke" = some stroke ∨
      (Hub.payload stroke logIndex).field? "stroke" = none := by
    cases stroke <;> simp [Hub.payload, Json.field?, List.lookup_cons]
  simp only [Tab.echo?, Option.ite_none_right_eq_some, Option.filter_eq_some_iff] at echoed
  rcases held with held | held <;> rw [held] at echoed
  · exact (Option.some.inj echoed.2.1).symm
  · cases echoed.2.1

theorem mem_observe_echo {self : Tab} {action : Frontend.Action} {s : Json}
    (observed : .echo s ∈ self.observe action) :
    ∃ index data, action = .message index data ∧ Tab.echo? data = some s := by
  cases action with
  | message index data =>
      refine ⟨index, data, rfl, ?_⟩
      simp only [Tab.observe] at observed
      split at observed
      · rw [Option.mem_toList, Option.map_eq_some_iff] at observed
        obtain ⟨_, found, same⟩ := observed
        rw [found, Observed.echo.inj same]
      · cases observed
  | pointerMove x y =>
      simp only [Tab.observe] at observed
      split at observed <;> simp at observed
  | _ => simp [Tab.observe] at observed

end

section

variable [DecidableEq Tabs] [DecidableEq Id] {cluster : Cluster Id} {location : Tabs → Location}
  {uuid : Tabs → String}
  {state next : Deployment Tabs Id Data (StateMachine.machine js dedupeMaxClients)}

structure Traced (uuid : Tabs → String)
    (state : Deployment Tabs Id Data (StateMachine.machine js dedupeMaxClients)) : Prop where
  forwards : ∀ payload ∈ state.gateway.forwards.map Gateway.Forward.stroke,
    Known uuid state payload
  world : state.world.Authentic (StateMachine.standard js dedupeMaxClients (Known uuid state))
  applied : ∀ self role entry, (self, role, entry) ∈ state.applied →
    (self, .applied entry) ∈ state.world.history
  posts : ∀ post ∈ state.posts, Applied state post
  frames : ∀ connection ∈ state.hub.connections, ∀ frame ∈ connection.sent,
    ∃ post ∈ state.posts, frame = Hub.payload post.stroke (some (.num post.logIndex))
  echoes : ∀ tab s, .echo s ∈ (state.tabs tab).2 → ∃ post ∈ state.posts, s = post.stroke

theorem Traced.moves (traced : Traced uuid state)
    (drawn : ∀ tab, ∀ stroke ∈ (state.tabs tab).1.sent,
      stroke ∈ Observed.strokes (state.tabs tab).2)
    (moves : Moves cluster uuid state next) : Traced uuid next := by
  have known {payload : Json} (known : Known uuid state payload) : Known uuid next payload :=
    known.mono moves.grows
  have world := traced.world.mono (StateMachine.standard_within fun _ => known)
  cases moves with
  | tab tab action after delivered fresh taken brought =>
      refine ⟨fun payload member => known (traced.forwards payload member), world,
        traced.applied, traced.posts, traced.frames, fun other s echoed => ?_⟩
      by_cases same : other = tab
      · subst same
        simp only [Function.update_self, List.mem_append] at echoed
        rcases echoed with old | now
        · exact traced.echoes other s old
        · obtain ⟨index, data, message, echoed⟩ := mem_observe_echo now
          obtain ⟨connection, member, frame, sent, rfl⟩ := brought index data message
          obtain ⟨post, posted, rfl⟩ := traced.frames connection member frame sent
          exact ⟨post, posted, echo_payload echoed⟩
      · simp only [Function.update_of_ne same] at echoed
        exact traced.echoes other s echoed
  | hub hub links frames =>
      refine ⟨fun payload member => known (traced.forwards payload member), world,
        traced.applied, traced.posts, fun connection member frame sent => ?_, traced.echoes⟩
      rcases frames connection member frame sent with ⟨before, old, sent⟩ | new
      · exact traced.frames before old frame sent
      · exact new
  | gateway gateway received strokes =>
      refine ⟨fun payload member => ?_, world, traced.applied, traced.posts, traced.frames,
        traced.echoes⟩
      obtain ⟨forward, inside, rfl⟩ := List.mem_map.mp member
      rcases strokes forward inside with old | ⟨tab, stroke, sent, same⟩ | foreign
      · exact traced.forwards _ old
      · exact .inl ⟨tab, stroke, drawn tab stroke sent, same⟩
      · exact .inr foreign
  | replica action cut after asked whole stepped =>
      have vouched : state.world.Vouched
          (StateMachine.standard js dedupeMaxClients (Known uuid state))
          (handling action cut) := by
        have vouched (type : EntryType) (payload : Json)
            (asked : payload ∈ state.gateway.forwards.map Gateway.Forward.stroke ∨
              Foreign uuid payload) : ∀ index term,
            (StateMachine.standard js dedupeMaxClients (Known uuid state)).entry
              { index, term, type, payload } :=
          fun _ _ _ => asked.elim (traced.forwards payload) .inr
        cases action with
        | submit self type payload =>
            have asked := vouched type payload (asked self type payload rfl)
            cases cut <;> exact asked
        | crashDuring inner effects => exact absurd rfl (whole inner effects)
        | _ => cases cut <;> trivial
      refine ⟨traced.forwards, traced.world.step vouched stepped, fun self role entry member => ?_,
        fun post member => ?_, fun connection member frame sent => ?_, fun tab s echoed => ?_⟩
      · rcases List.mem_append.mp member with old | new
        · exact history_grows stepped (traced.applied self role entry old)
        · exact noted_history stepped new
      · rcases List.mem_append.mp member with old | new
        · obtain ⟨self, entry, led, rest⟩ := traced.posts post old
          exact ⟨self, entry, List.mem_append_left _ led, rest⟩
        · obtain ⟨self, entry, led, rest⟩ := posted_noted new
          exact ⟨self, entry, List.mem_append_right _ led, rest⟩
      · obtain ⟨post, posted, same⟩ := traced.frames connection member frame sent
        exact ⟨post, List.mem_append_left _ posted, same⟩
      · obtain ⟨post, posted, same⟩ := traced.echoes tab s echoed
        exact ⟨post, List.mem_append_left _ posted, same⟩

theorem Traced.reach (named : ∀ tab, uuid tab ≠ "")
    (reached : (system cluster location uuid
      (StateMachine.machine js dedupeMaxClients)).Reach (Closed uuid) state) :
    Traced uuid state := by
  refine reached.invariant ?_ fun before action next onward traced closed stepped =>
    traced.moves (fun tab => Frontend.Tab.sent_drawn (named tab) ((part_tab tab).reach onward))
      (step_moves stepped closed)
  have empty (known : Json → Prop) :
      (cluster.system (StateMachine.machine js dedupeMaxClients)).Reach
        (World.Vouched (StateMachine.standard js dedupeMaxClients known)) .init := .init
  exact ⟨nofun, World.Authentic.reach (empty _), nofun, nofun, nofun, nofun⟩

theorem copy_toJson (stroke : Frontend.Stroke) : copy stroke.toJson = stroke.toJson := by
  simp [copy, Frontend.Stroke.toJson, Json.ownProperties, Json.spread, Json.assign]

/-- The strokes of all tabs differ in their keys. -/
theorem stroke_of_key (named : ∀ tab, uuid tab ≠ "") (distinct : Function.Injective uuid)
    (reached : (system cluster location uuid
      (StateMachine.machine js dedupeMaxClients)).Reach (Closed uuid) state)
    {tab other : Tabs} {stroke copied : Frontend.Stroke}
    (drawn : stroke ∈ Observed.strokes (state.tabs tab).2)
    (drawn' : copied ∈ Observed.strokes (state.tabs other).2)
    (same : copied.key = stroke.key) : copied = stroke := by
  have numbered (tab : Tabs) := Tab.Numbered.reach (named tab) ((part_tab tab).reach reached)
  obtain ⟨client, seq⟩ := Prod.mk.inj same
  obtain rfl : other = tab := distinct <|
    ((numbered other).owner copied drawn').symm.trans
      (client.trans ((numbered tab).owner stroke drawn))
  have nodup : ((Observed.strokes (state.tabs other).2).map Frontend.Stroke.seq).Nodup := by
    rw [(numbered other).seqs]
    exact List.nodup_range'
  exact List.inj_on_of_nodup_map nodup drawn' drawn seq

/-- What the logs and the canvases of the replicas hold was drawn in some tab, unless it
names no tab, and every frame that a tab is sent shows an entry that a leader applied. -/
theorem strokes_traced (named : ∀ tab, uuid tab ≠ "")
    (reached : (system cluster location uuid
      (StateMachine.machine js dedupeMaxClients)).Reach (Closed uuid) state) :
    (∀ self, ∀ row ∈ (state.world.node self).db.log.rows, row.type = .stroke →
        Known uuid state row.payload) ∧
      (∀ self, ∀ stroke ∈ (state.world.node self).canvas.strokes,
        StateMachine.Shows (Known uuid state) stroke) ∧
      ∀ connection ∈ state.hub.connections, ∀ frame ∈ connection.sent,
        ∃ self entry, (self, .leader, entry) ∈ state.applied ∧
          (self, .applied entry) ∈ state.world.history ∧ entry.type = .stroke ∧
          Known uuid state entry.payload ∧
          frame = Hub.payload (copy entry.payload) (some (.num entry.index)) := by
  have traced := Traced.reach named reached
  refine ⟨fun self => (traced.world.db self).rows, traced.world.state, ?_⟩
  intro connection member frame sent
  obtain ⟨post, posted, rfl⟩ := traced.frames connection member frame sent
  obtain ⟨self, entry, led, type, rfl⟩ := traced.posts post posted
  have applied := traced.applied self .leader entry led
  exact ⟨self, entry, led, applied, type, traced.world.history _ applied type, rfl⟩

/-- While its page stays, a tab forgets a stroke only after a leader has applied an entry
with exactly that stroke. -/
theorem forgotten_applied (named : ∀ tab, uuid tab ≠ "") (distinct : Function.Injective uuid)
    (reached : (system cluster location uuid
      (StateMachine.machine js dedupeMaxClients)).Reach (Closed uuid) state)
    {tab : Tabs} {stroke : Frontend.Stroke} {before after : List Observed}
    (drawn : (state.tabs tab).2 = before ++ .drew stroke :: after)
    (stays : .loaded ∉ after)
    (forgotten : stroke ∉ (state.tabs tab).1.page.pendingStrokes) :
    ∃ self entry, (self, .leader, entry) ∈ state.applied ∧
      (self, .applied entry) ∈ state.world.history ∧ entry.type = .stroke ∧
      entry.payload = stroke.toJson := by
  have traced := Traced.reach named reached
  have numbered := Tab.Numbered.reach (named tab) ((part_tab tab).reach reached)
  rw [numbered.pending, Observed.mem_waiting] at forgotten
  have gone : after.all (Observed.spares stroke) ≠ true :=
    fun spared => forgotten ⟨before, after, drawn, spared⟩
  obtain ⟨observed, member, ends⟩ : ∃ observed ∈ after,
      Observed.spares stroke observed = false := by
    simpa using gone
  have recorded : observed ∈ (state.tabs tab).2 := by
    rw [drawn]
    exact List.mem_append_right _ (List.mem_cons_of_mem _ member)
  have mine : stroke ∈ Observed.strokes (state.tabs tab).2 := by
    rw [drawn, Observed.strokes, List.filterMap_append]
    exact List.mem_append_right _ List.mem_cons_self
  cases observed with
  | drew other => cases ends
  | loaded => exact absurd member stays
  | echo s =>
      have echoed : stroke.echoed s = true := by simpa [Observed.spares] using ends
      obtain ⟨client, seq⟩ := Frontend.Stroke.echoed_iff.mp echoed
      obtain ⟨post, posted, rfl⟩ := traced.echoes tab s recorded
      obtain ⟨self, entry, led, type, rfl⟩ := traced.posts post posted
      have applied := traced.applied self .leader entry led
      refine ⟨self, entry, led, applied, type, ?_⟩
      rcases traced.world.history _ applied type with ⟨other, copied, theirs, same⟩ | foreign
      · rw [same] at client seq ⊢
        rw [copy_toJson] at client seq
        have key : copied.key = stroke.key := by
          simp only [Frontend.Stroke.toJson, Json.field?, List.lookup_cons] at client seq
          simpa [Frontend.Stroke.key] using And.intro client seq
        rw [stroke_of_key named distinct reached mine theirs key]
      · refine absurd ?_ (foreign tab)
        rw [clientOf, client, numbered.owner stroke mine]

end

instance (uuid : Bool → String) (payload : Json) :
    Decidable (Foreign uuid payload) :=
  inferInstanceAs (Decidable (∀ _, _ ≠ _))

instance {machine : Machine} (uuid : Bool → String)
    (state : Deployment Bool Id Data machine) (action : Action Bool Id Data) :
    Decidable (Closed uuid state action) := by
  unfold Closed
  split <;> infer_instance

/-- Two tabs: what the one draws is committed, broadcast and shown by both. -/
def acknowledged : List (Action Bool (Fin 3) Unit) :=
  [.accept false 0, .opened false 0, .accept true 0, .opened true 0,
    .tab false (.pointerDown 1 1),
    .replica (.electionTimeout 0) none, .replica (.deliver 0 1) none,
    .replica (.resume 0 [some { term := 1, voteGranted := true }, none]) none,
    .gateway (.leader (some "replica1") (some "http://replica1:4001")),
    .upload false 0, .post 0 0 none, .replica (.deliver 3 1) none,
    .replica (.resume 3 [some { term := 1, success := true }]) none,
    .broadcast 0, .download false 0, .download true 0]

def names : Bool → String
  | false => "left"
  | true => "right"

def isLoaded : Observed → Bool
  | .loaded => true
  | _ => false

theorem strokes_traced_acknowledged :
    ∃ state : Deployment Bool (Fin 3) Unit (StateMachine.machine .numeric 10),
      (system (Cluster.ofFin 3 10) (fun _ => {}) names
          (StateMachine.machine .numeric 10)).Reach (Closed names) state ∧
        (state.hub.connections.map fun connection => connection.sent.length) = [1, 1] ∧
        ∀ connection ∈ state.hub.connections, ∀ frame ∈ connection.sent,
          ∃ self entry, (self, .leader, entry) ∈ state.applied ∧
            (self, .applied entry) ∈ state.world.history ∧ entry.type = .stroke ∧
            Known names state entry.payload ∧
            frame = Hub.payload (copy entry.payload) (some (.num entry.index)) := by
  obtain ⟨state, reached, lengths⟩ := Transition.System.exists_reach_of_run
    (system (Cluster.ofFin 3 10) (fun _ => {}) names (StateMachine.machine .numeric 10))
    (Closed names) acknowledged
    (fun state => decide ((state.hub.connections.map fun connection =>
      connection.sent.length) = [1, 1])) (by decide +kernel)
  exact ⟨state, reached, of_decide_eq_true lengths,
    (strokes_traced (by decide) reached).2.2⟩

theorem forgotten_applied_acknowledged :
    ∃ (state : Deployment Bool (Fin 3) Unit (StateMachine.machine .numeric 10))
        (stroke : Frontend.Stroke),
      (system (Cluster.ofFin 3 10) (fun _ => {}) names
          (StateMachine.machine .numeric 10)).Reach (Closed names) state ∧
        stroke ∈ Observed.strokes (state.tabs false).2 ∧
        ∃ self entry, (self, .leader, entry) ∈ state.applied ∧
          (self, .applied entry) ∈ state.world.history ∧ entry.type = .stroke ∧
          entry.payload = stroke.toJson := by
  obtain ⟨state, reached, passed⟩ := Transition.System.exists_reach_of_run
    (system (Cluster.ofFin 3 10) (fun _ => {}) names (StateMachine.machine .numeric 10))
    (Closed names) acknowledged
    (fun state => decide (((state.tabs false).2.head?.bind Observed.stroke?).isSome = true ∧
      (state.tabs false).2.tail.any isLoaded = false ∧ (state.tabs false).1.page.pendingStrokes = []))
    (by decide +kernel)
  obtain ⟨first, stay, forgotten⟩ := of_decide_eq_true passed
  obtain ⟨stroke, drew⟩ := Option.isSome_iff_exists.mp first
  obtain ⟨observed, head, drew⟩ := Option.bind_eq_some_iff.mp drew
  obtain ⟨after, record⟩ := List.head?_eq_some_iff.mp head
  obtain rfl : observed = .drew stroke := by
    cases observed with
    | drew other => rw [Option.some.inj drew]
    | echo | loaded => cases drew
  have drawn : (state.tabs false).2 = [] ++ .drew stroke :: after := record
  refine ⟨state, stroke, reached, ?_, forgotten_applied (by decide) (by decide) reached
    drawn ?_ ?_⟩
  · rw [record]
    exact List.mem_cons_self
  · intro loaded
    rw [record] at stay
    exact absurd rfl (List.any_eq_false.mp stay _ loaded)
  · rw [forgotten]
    exact List.not_mem_nil

end Deployment

end RaftCanvas
