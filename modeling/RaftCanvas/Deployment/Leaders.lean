import RaftCanvas.Deployment.Directory
import RaftCanvas.Raft.StateMachine

/-!
# Leaders past and present

What the gateway believes may be out of date, but it is never made up: every URL that it
posts to is that of a replica which has won an election.  A leader does not stop announcing
itself before it is heard.
-/

namespace RaftCanvas

namespace World

variable {Id : Type} {machine : Machine} [DecidableEq Id] {cluster : Cluster Id}
  {world next : World Id machine}

/-- What the listeners of one process are told in a step. -/
structure Tells (world next : World Id machine) (told : Told Id) : Prop where
  other : ∀ other, other ≠ told.self → next.node other = world.node other
  elected : .leader ∈ told.roles → next.Elected told.self
  lawful : told.lives = true → (world.node told.self).role.Lawful told.roles
  last : told.lives = true →
    (next.node told.self).role = (world.node told.self).role.last told.roles
  dies : told.lives = false → (next.node told.self).role = .follower

theorem Elected.grows {action : Action Id} (stepped : world.step cluster action = some next)
    {leader : Id} (elected : world.Elected leader) : next.Elected leader := by
  obtain ⟨_, _, _, _, _, advances⟩ := step_progress stepped
  exact elected.imp fun _ won => advances.mem_history.mpr (.inr won)

theorem Advances.elected {actor : Id} {node : Node Id machine}
    {done : List (Effect Id machine.Blob)} {reply : Option (Delivery Id)}
    (advances : world.Advances next actor node done reply)
    (announced : .leader ∈ Effect.roles done) : next.Elected actor := by
  obtain ⟨era, told⟩ := Effect.mem_roles.mp announced
  exact ⟨era, advances.mem_history.mpr (.inl ⟨rfl, told⟩)⟩

theorem finish_tells {action : Action Id} {turn : Turn Id machine}
    (taken : world.turn cluster action = some turn) :
    world.Tells (world.finish turn)
      { self := turn.self, roles := Effect.roles turn.after.trace, lives := true } := by
  have advances := finish_advances world turn
  have announced := turn_announced taken
  exact
    { other := fun _ other => advances.node_other other
      elected := advances.elected
      lawful := fun _ => announced.lawful
      last := fun _ => by
        rw [advances.node_actor]
        exact announced.last
      dies := nofun }

theorem step_tells {action : Action Id} {told : Told Id}
    (stepped : world.step cluster action = some next)
    (tells : world.tells cluster action = some told) : world.Tells next told := by
  cases action with
  | crash self =>
      obtain rfl := Option.some.inj stepped
      obtain rfl := Option.some.inj tells
      have advances := restart_advances world self (world.node self).db
      exact
        { other := fun _ other => advances.node_other other
          elected := nofun
          lawful := nofun
          last := nofun
          dies := fun _ => by
            rw [advances.node_actor]
            exact (Hinted.start_nameless _).1 }
  | crashDuring inner effects =>
      obtain ⟨turn, taken, rfl⟩ := Option.map_eq_some_iff.mp stepped
      obtain ⟨_, same, rfl⟩ := Option.map_eq_some_iff.mp tells
      obtain rfl := Option.some.inj (taken.symm.trans same)
      have advances := interrupt_advances world turn effects
      exact
        { other := fun _ other => advances.node_other other
          elected := advances.elected
          lawful := nofun
          last := nofun
          dies := fun _ => by
            rw [advances.node_actor]
            exact (Hinted.start_nameless _).1 }
  | electionTimeout | heartbeat | submit | readIndex | deliver | resume | resumeSubmit
  | submitTimeout | pollRead =>
      simp only [step, Option.map_eq_some_iff] at stepped
      simp only [World.tells, Option.map_eq_some_iff] at tells
      obtain ⟨turn, taken, rfl⟩ := stepped
      obtain ⟨_, same, rfl⟩ := tells
      obtain rfl := Option.some.inj (taken.symm.trans same)
      exact finish_tells taken

end World

namespace Gateway

variable {Stroke Data : Type} {before next : Gateway Stroke Data}

/-- How the gateway learns of a leader. -/
inductive Learns (before : Gateway Stroke Data) :
    Action Stroke Data → String → Option String → Prop where
  | registered {leaderId leaderUrl : Option String} {id url : String}
      (named : truthy leaderId = some id) (placed : truthy leaderUrl = some url) :
      Learns before (.leader leaderId leaderUrl) url (some id)
  | discovered {forward : Nat} {data : Status} {url : String}
      (asked : before.asked forward = some url) (leads : data.state = "leader") :
      Learns before (.status forward (some data)) url data.replicaId
  | redirected {forward : Nat} {err : PostError} {url : String}
      (redirect : err.redirectUrl = some url) :
      Learns before (.answer forward (.error err)) url err.redirectId

/-- The leader is the one known before, or the gateway has learnt of it. -/
theorem step_learns {action : Action Stroke Data} (stepped : before.step action = some next)
    {url : String} (known : next.currentLeaderUrl = some url) :
    (before.currentLeaderUrl = some url ∧ next.currentLeaderId = before.currentLeaderId) ∨
      Learns before action url next.currentLeaderId := by
  cases action with
  | stroke stroke =>
      obtain rfl := Option.some.inj stepped
      exact .inl ⟨known, rfl⟩
  | leader leaderId leaderUrl =>
      obtain rfl := Option.some.inj stepped
      unfold register at known ⊢
      split at known
      next id placed named same =>
          obtain rfl := Option.some.inj known
          exact .inr (.registered named same)
      · exact .inl ⟨known, rfl⟩
  | status forward response =>
      simp only [Gateway.step, Option.bind_eq_bind, Option.bind_eq_some_iff] at stepped
      obtain ⟨⟨stroke, stage⟩, found, stepped⟩ := stepped
      cases stage with
      | polling attempt place remaining =>
          dsimp only at stepped
          split at stepped
          next data leads =>
              obtain rfl := Option.some.inj stepped
              obtain rfl := Option.some.inj known
              obtain ⟨rfl, office⟩ := Option.filter_eq_some_iff.mp leads
              exact .inr (.discovered (by rw [asked, found]) (of_decide_eq_true office))
          · obtain rfl := Option.some.inj stepped
            exact .inl ⟨known, rfl⟩
      | polled | posting | returned | thrown => cases stepped
  | discovered forward =>
      simp only [Gateway.step, Option.bind_eq_bind, Option.bind_eq_some_iff] at stepped
      obtain ⟨⟨stroke, stage⟩, found, stepped⟩ := stepped
      cases stage with
      | polled attempt =>
          obtain rfl := Option.some.inj stepped
          exact .inl ⟨known, rfl⟩
      | polling | posting | returned | thrown => cases stepped
  | answer forward result =>
      simp only [Gateway.step, Option.bind_eq_bind, Option.bind_eq_some_iff] at stepped
      obtain ⟨⟨stroke, stage⟩, found, stepped⟩ := stepped
      cases stage with
      | posting attempt place sent =>
          cases result with
          | ok data =>
              obtain rfl := Option.some.inj stepped
              exact .inl ⟨known, rfl⟩
          | error err =>
              obtain rfl := Option.some.inj stepped
              simp only [suspend, fail] at known ⊢
              split at known
              next redirectUrl redirect =>
                  obtain rfl := Option.some.inj known
                  exact .inr (.redirected redirect)
              · cases known
      | polling | polled | returned | thrown => cases result <;> cases stepped

end Gateway

namespace Directory

variable {Id Stroke Data : Type} {machine : Machine}

/-- The URL is one of a replica that has won an election, and that the name belongs to. -/
def Refers (hosts : Hosts Id) (world : World Id machine) (url : String) (id : Option String) :
    Prop :=
  ∃ leader, world.Elected leader ∧
    (url = hosts.url leader ∨ url = hosts.hintUrl leader) ∧ id = some (hosts.name leader)

/-- All that was said of leaders was said of elected ones. -/
structure Informed (hosts : Hosts Id) (state : Directory Id Stroke Data machine) : Prop where
  introduced : state.world.Introduced
  posts : ∀ who ∈ state.posts, state.world.Elected who
  armed : ∀ who, (state.notifiers who).armed ≠ [] → state.world.Elected who
  urges : ∀ who, (state.notifiers who).Urges (state.world.node who).role
  statuses : ∀ url data, (url, data) ∈ state.statuses → data.state = "leader" →
    Refers hosts state.world url data.replicaId
  redirects : ∀ data ∈ state.redirects, ∀ url, data.leaderUrl = some url →
    Refers hosts state.world url data.leaderId
  leader : ∀ url, state.gateway.currentLeaderUrl = some url →
    Refers hosts state.world url state.gateway.currentLeaderId
  posting : ∀ forward ∈ state.gateway.forwards, ∀ url, forward.stage.posted = some url →
    ∃ id, Refers hosts state.world url id

variable {hosts : Hosts Id} {state next : Directory Id Stroke Data machine}

theorem Refers.mono {world later : World Id machine}
    (grows : ∀ leader, world.Elected leader → later.Elected leader) {url : String}
    {id : Option String} (refers : Refers hosts world url id) : Refers hosts later url id :=
  refers.imp fun leader => And.imp_left (grows leader)

namespace Informed

theorem initial : Informed hosts ({ world := .init } : Directory Id Stroke Data machine) where
  introduced := .initial
  posts := nofun
  armed _ armed := absurd rfl armed
  urges _ := nofun
  statuses := nofun
  redirects := nofun
  leader := nofun
  posting := nofun

variable [DecidableEq Id] {cluster : Cluster Id}

/-- The replicas go on, and one of them may have more to announce. -/
theorem hear (informed : Informed hosts state) {world : World Id machine} {told : Told Id}
    (introduced : world.Introduced)
    (grows : ∀ leader, state.world.Elected leader → world.Elected leader)
    (tells : state.world.Tells world told) :
    Informed hosts { state.hear told with world } where
  introduced := introduced
  posts who member := by
    rcases List.mem_append.mp member with old | new
    · exact grows who (informed.posts who old)
    · obtain ⟨announced, rfl⟩ := List.mem_replicate.mp new
      exact tells.elected (List.count_pos_iff.mp (Nat.pos_of_ne_zero announced))
  armed who armed := by
    refine grows who (informed.armed who fun none_armed => armed ?_)
    show (Function.update state.notifiers told.self _ who).armed = []
    by_cases same : who = told.self
    · subst same
      rw [Function.update_self]
      split
      · exact List.sublist_nil.mp (none_armed ▸ Notifier.onRoles_armed _ told.roles)
      · rfl
    · rw [Function.update_of_ne same]
      exact none_armed
  urges who := by
    show (Function.update state.notifiers told.self _ who).Urges (world.node who).role
    by_cases same : who = told.self
    · subst same
      rw [Function.update_self]
      split
      next lives =>
          rw [tells.last lives]
          exact (informed.urges told.self).onRoles told.roles
      next dies =>
          rw [tells.dies (Bool.eq_false_of_not_eq_true dies)]
          exact nofun
    · rw [Function.update_of_ne same, tells.other who same]
      exact informed.urges who
  statuses url data member leads := (informed.statuses url data member leads).mono grows
  redirects data member url same := (informed.redirects data member url same).mono grows
  leader url known := (informed.leader url known).mono grows
  posting forward member url posted :=
    (informed.posting forward member url posted).imp fun _ => .mono grows

/-- A notifier goes on by itself. -/
theorem announce (informed : Informed hosts state) {who : Id} {notifier : Notifier}
    {times : Nat} (elected : 0 < times → state.world.Elected who)
    (armed : notifier.armed ≠ [] → state.world.Elected who)
    (urges : notifier.Urges (state.world.node who).role) :
    Informed hosts (state.announce who notifier times) :=
  { informed with
    posts := fun other member => by
      rcases List.mem_append.mp member with old | new
      · exact informed.posts other old
      · obtain ⟨some_times, rfl⟩ := List.mem_replicate.mp new
        exact elected (Nat.pos_of_ne_zero some_times)
    armed := fun other armed' => by
      have armed' : (Function.update state.notifiers who notifier other).armed ≠ [] := armed'
      by_cases same : other = who
      · subst same
        rw [Function.update_self] at armed'
        exact armed armed'
      · rw [Function.update_of_ne same] at armed'
        exact informed.armed other armed'
    urges := fun other => by
      show (Function.update state.notifiers who notifier other).Urges
        (state.world.node other).role
      by_cases same : other = who
      · subst same
        rw [Function.update_self]
        exact urges
      · rw [Function.update_of_ne same]
        exact informed.urges other }

omit [DecidableEq Id] in
/-- The gateway goes on, and what it learns is of an elected replica. -/
theorem gateway (informed : Informed hosts state) {action : Gateway.Action Stroke Data}
    {gateway : Gateway Stroke Data} (stepped : state.gateway.step action = some gateway)
    (learns : ∀ url id, Gateway.Learns state.gateway action url id →
      Refers hosts state.world url id) : Informed hosts { state with gateway } := by
  have leader : ∀ url, gateway.currentLeaderUrl = some url →
      Refers hosts state.world url gateway.currentLeaderId := by
    intro url known
    rcases Gateway.step_learns stepped known with ⟨old, same⟩ | new
    · rw [same]
      exact informed.leader url old
    · exact learns url _ new
  refine { informed with leader, posting := fun forward member url posted => ?_ }
  obtain ⟨index, found⟩ := List.mem_iff_getElem?.mp member
  rcases (Gateway.Moves.step stepped).forwards index forward found with ⟨_, old⟩ | prompt
  · exact informed.posting forward (List.mem_of_getElem? old) url posted
  · cases stage : forward.stage with
    | posting attempt place sent =>
        rw [stage] at posted
        obtain rfl := Option.some.inj posted
        exact ⟨_, leader place (prompt attempt place sent stage).1⟩
    | polling | polled | returned | thrown =>
        rw [stage] at posted
        cases posted

omit [DecidableEq Id] in
theorem stepGateway (informed : Informed hosts state) {action : Gateway.Action Stroke Data}
    (stepped : state.stepGateway action = some next)
    (learns : ∀ url id, Gateway.Learns state.gateway action url id →
      Refers hosts state.world url id) : Informed hosts next := by
  obtain ⟨gateway, taken, rfl⟩ := Option.map_eq_some_iff.mp stepped
  exact informed.gateway taken learns

omit [DecidableEq Id] in
/-- A status is given by the replica at that URL. -/
theorem status (informed : Informed hosts state) {config : Config Id} {who : Id}
    (own : config.replicaId = who) {url : String} {data : Gateway.Status}
    (member : (url, data) ∈ state.statuses ++
      [(hosts.url who, (state.world.node who).status hosts config)])
    (leads : data.state = "leader") : Refers hosts state.world url data.replicaId := by
  rcases List.mem_append.mp member with old | new
  · exact informed.statuses url data old leads
  · obtain ⟨rfl, rfl⟩ := Prod.mk.inj (List.mem_singleton.mp new)
    have office : (state.world.node who).role = .leader := by
      cases role : (state.world.node who).role with
      | leader => rfl
      | follower | candidate =>
          rw [Node.status, role] at leads
          simp [Role.text] at leads
    exact ⟨who, ⟨_, (informed.introduced.leads who office).2⟩, .inl rfl, own ▸ rfl⟩

theorem step (informed : Informed hosts state) {action : Action Id Stroke Data}
    (stepped : state.step cluster hosts action = some next) : Informed hosts next := by
  cases action with
  | replica action =>
      obtain ⟨world, moved, stepped⟩ := Option.bind_eq_some_iff.mp stepped
      obtain ⟨told, tells, rfl⟩ := Option.map_eq_some_iff.mp stepped
      exact informed.hear (informed.introduced.step moved) (fun _ => .grows moved)
        (World.step_tells moved tells)
  | fire who timer =>
      obtain ⟨notifier, fired, rfl⟩ := Option.map_eq_some_iff.mp stepped
      have elected : state.world.Elected who := by
        refine informed.armed who fun nothing => ?_
        rw [Notifier.fire, nothing] at fired
        cases fired
      exact informed.announce (fun _ => elected) (fun _ => elected) (Notifier.fire_urges fired)
  | settle who ok =>
      obtain ⟨notifier, settled, rfl⟩ := Option.map_eq_some_iff.mp stepped
      refine informed.announce (fun times => absurd times (Nat.lt_irrefl 0)) (fun armed => ?_)
        (Notifier.settle_urges settled)
      by_cases leads : (state.world.node who).role = .leader
      · exact ⟨_, (informed.introduced.leads who leads).2⟩
      · rw [Notifier.settle_armed leads settled] at armed
        exact informed.armed who armed
  | leader post =>
      obtain ⟨who, posted, stepped⟩ := Option.bind_eq_some_iff.mp stepped
      refine informed.stepGateway stepped fun url id learns => ?_
      cases learns with
      | registered named placed =>
          obtain rfl := Option.some.inj (Gateway.truthy_eq_some named)
          obtain rfl := Option.some.inj (Gateway.truthy_eq_some placed)
          exact ⟨who, informed.posts who (List.mem_of_getElem? posted), .inl rfl, rfl⟩
  | getStatus who =>
      obtain rfl := Option.some.inj stepped
      have own : (cluster.config who).replicaId = who := rfl
      exact { informed with
        statuses := fun url data member leads => informed.status own member leads }
  | refuse who =>
      simp only [Directory.step, Option.ite_none_right_eq_some, Option.some.injEq] at stepped
      obtain ⟨_, rfl⟩ := stepped
      refine { informed with redirects := fun data member url same => ?_ }
      rcases List.mem_append.mp member with old | new
      · exact informed.redirects data old url same
      · obtain rfl := List.mem_singleton.mp new
        obtain ⟨leader, named, rfl⟩ := Option.map_eq_some_iff.mp same
        refine ⟨leader, informed.introduced.hint who leader named, .inr rfl, ?_⟩
        rw [Node.redirect, named]
        rfl
  | stroke stroke => exact informed.stepGateway stepped (by rintro url id ⟨⟩)
  | status forward response =>
      simp only [Directory.step, Option.ite_none_right_eq_some] at stepped
      obtain ⟨answered, stepped⟩ := stepped
      refine informed.stepGateway stepped fun url id learns => ?_
      cases learns with
      | @discovered _ data _ asked leads =>
          obtain ⟨place, same, given⟩ := answered data rfl
          obtain rfl := Option.some.inj (asked.symm.trans same)
          exact informed.statuses url data given leads
  | discovered forward => exact informed.stepGateway stepped (by rintro url id ⟨⟩)
  | answer forward result =>
      simp only [Directory.step, Option.ite_none_right_eq_some] at stepped
      obtain ⟨refused, stepped⟩ := stepped
      refine informed.stepGateway stepped fun url id learns => ?_
      cases learns with
      | @redirected _ err _ redirect =>
          obtain ⟨data, response, place⟩ :=
            Option.bind_eq_some_iff.mp (Gateway.truthy_eq_some redirect)
          rcases refused data response with nobody | given
          · rw [Gateway.PostError.redirectUrl, response] at redirect
            cases nobody.symm.trans redirect
          · rw [Gateway.PostError.redirectId, response]
            exact informed.redirects data given url place

theorem reach {allowed : Directory Id Stroke Data machine → Action Id Stroke Data → Prop}
    (reached : (system cluster hosts Stroke Data machine).Reach allowed state) :
    Informed hosts state :=
  reached.invariant initial fun _ _ _ _ informed _ stepped => informed.step stepped

end Informed

variable [DecidableEq Id] {cluster : Cluster Id}

/-- No replica is elected again before an announcement of its is answered. -/
def Calm (cluster : Cluster Id) (state : Directory Id Stroke Data machine) :
    Action Id Stroke Data → Prop
  | .replica action =>
      ∀ told ∈ state.world.tells cluster action,
        told.lives = true → (state.notifiers told.self).Calm told.roles
  | _ => True

instance decidableCalm (cluster : Cluster Id) (state : Directory Id Stroke Data machine)
    (action : Action Id Stroke Data) : Decidable (state.Calm cluster action) := by
  unfold Calm
  split <;> infer_instance

/-- Every replica announces itself in one row of attempts at most. -/
def Single (state : Directory Id Stroke Data machine) : Prop :=
  ∀ who, (state.notifiers who).Single (state.world.node who).role

namespace Single

theorem hear (single : state.Single) {world : World Id machine} {told : Told Id}
    (tells : state.world.Tells world told)
    (calm : told.lives = true → (state.notifiers told.self).Calm told.roles) :
    Single { state.hear told with world } := by
  intro who
  show (Function.update state.notifiers told.self _ who).Single (world.node who).role
  by_cases same : who = told.self
  · subst same
    rw [Function.update_self]
    split
    next lives =>
        rw [tells.last lives]
        exact (single told.self).onRoles (tells.lawful lives) (calm lives)
    · exact Notifier.single_start _
  · rw [Function.update_of_ne same, tells.other who same]
    exact single who

theorem announce (single : state.Single) {who : Id} {notifier : Notifier} {times : Nat}
    (goes_on : notifier.Single (state.world.node who).role) :
    (state.announce who notifier times).Single := by
  intro other
  show (Function.update state.notifiers who notifier other).Single (state.world.node other).role
  by_cases same : other = who
  · subst same
    rw [Function.update_self]
    exact goes_on
  · rw [Function.update_of_ne same]
    exact single other

omit [DecidableEq Id] in
theorem stepGateway (single : state.Single) {action : Gateway.Action Stroke Data}
    (stepped : state.stepGateway action = some next) : next.Single := by
  obtain ⟨_, _, rfl⟩ := Option.map_eq_some_iff.mp stepped
  exact single

theorem step (single : state.Single) {action : Action Id Stroke Data}
    (calm : state.Calm cluster action)
    (stepped : state.step cluster hosts action = some next) : next.Single := by
  cases action with
  | replica action =>
      obtain ⟨world, moved, stepped⟩ := Option.bind_eq_some_iff.mp stepped
      obtain ⟨told, tells, rfl⟩ := Option.map_eq_some_iff.mp stepped
      exact single.hear (World.step_tells moved tells) (calm told tells)
  | fire who timer =>
      obtain ⟨notifier, fired, rfl⟩ := Option.map_eq_some_iff.mp stepped
      exact single.announce ((single who).fire fired)
  | settle who ok =>
      obtain ⟨notifier, settled, rfl⟩ := Option.map_eq_some_iff.mp stepped
      exact single.announce ((single who).settle settled)
  | leader post =>
      obtain ⟨_, _, stepped⟩ := Option.bind_eq_some_iff.mp stepped
      exact single.stepGateway stepped
  | getStatus who =>
      obtain rfl := Option.some.inj stepped
      exact single
  | refuse who =>
      simp only [Directory.step, Option.ite_none_right_eq_some, Option.some.injEq] at stepped
      obtain ⟨_, rfl⟩ := stepped
      exact single
  | stroke | discovered => exact single.stepGateway stepped
  | status | answer =>
      simp only [Directory.step, Option.ite_none_right_eq_some] at stepped
      exact single.stepGateway stepped.2

theorem reach (reached : (system cluster hosts Stroke Data machine).Reach
    (fun state action => state.Calm cluster action) state) : state.Single :=
  reached.invariant (fun _ => Notifier.single_start _)
    fun _ _ _ _ single calm stepped => single.step calm stepped

end Single

/-- The gateway takes nobody for the leader, and posts strokes to nobody, but a replica that
has won an election, and it has the right name for its leader.  The URLs that are computed
from names are those at which the replicas listen. -/
theorem leader_elected (composed : hosts.Composed)
    (reached : (system cluster hosts Stroke Data machine).Reach (fun _ _ => True) state)
    {url : String}
    (taken : state.gateway.currentLeaderUrl = some url ∨
      ∃ forward ∈ state.gateway.forwards, forward.stage.posted = some url) :
    ∃ leader, state.world.Elected leader ∧ url = hosts.url leader ∧
      hosts.hintUrl leader = hosts.url leader ∧
      (state.gateway.currentLeaderUrl = some url →
        state.gateway.currentLeaderId = some (hosts.name leader)) := by
  have informed := Informed.reach reached
  have listens : ∀ {id}, Refers hosts state.world url id → ∃ leader,
      state.world.Elected leader ∧ url = hosts.url leader ∧ id = some (hosts.name leader) := by
    rintro id ⟨leader, elected, place, named⟩
    rw [composed.hintUrl, or_self] at place
    exact ⟨leader, elected, place, named⟩
  by_cases known : state.gateway.currentLeaderUrl = some url
  · obtain ⟨leader, elected, place, named⟩ := listens (informed.leader url known)
    exact ⟨leader, elected, place, composed.hintUrl leader, fun _ => named⟩
  · obtain ⟨forward, member, posted⟩ := taken.resolve_left known
    obtain ⟨_, refers⟩ := informed.posting forward member url posted
    obtain ⟨leader, elected, place, _⟩ := listens refers
    exact ⟨leader, elected, place, composed.hintUrl leader, fun same => absurd same known⟩

/-- A leader that nobody has heard announces itself again: an attempt of its waits for an
answer, or a timer fires and another announcement is sent. -/
theorem leader_announces
    (reached : (system cluster hosts Stroke Data machine).Reach (fun _ _ => True) state)
    {self : Id} (leads : (state.world.node self).role = .leader)
    (unheard : (state.notifiers self).heard = false) :
    0 < (state.notifiers self).attempts ∨
      ∃ timer next, state.step cluster hosts (.fire self timer) = some next ∧
        next.posts = state.posts ++ [self] ∧ 0 < (next.notifiers self).attempts := by
  rcases (Informed.reach reached).urges self leads with heard | waits | armed
  · rw [unheard] at heard
    cases heard
  · exact .inl waits
  · obtain ⟨timer, member⟩ := List.exists_mem_of_ne_nil _ armed
    obtain ⟨notifier, fired, sends⟩ : ∃ notifier,
        (state.notifiers self).fire timer = some notifier ∧ 0 < notifier.attempts :=
      ⟨_, if_pos member, Nat.succ_pos _⟩
    refine .inr ⟨timer, state.announce self notifier 1, ?_, rfl, ?_⟩
    · rw [Directory.step, fired, Option.map_some]
    · show 0 < (Function.update state.notifiers self notifier self).attempts
      rw [Function.update_self]
      exact sends

/-- As long as replicas are elected only when their announcements have been answered, each
of them has one attempt or one timer at most, its variable holds the timer that runs, and
nothing is announced by a replica that does not lead. -/
theorem announcements_single
    (reached : (system cluster hosts Stroke Data machine).Reach
      (fun state action => state.Calm cluster action) state) (self : Id) :
    (state.notifiers self).attempts + (state.notifiers self).armed.length ≤ 1 ∧
      (state.notifiers self).armed = (state.notifiers self).gatewayNotifyTimer.toList ∧
      ((state.world.node self).role ≠ .leader →
        ∀ timer, state.step cluster hosts (.fire self timer) = none) := by
  have single := Single.reach reached self
  refine ⟨single.one, single.armed, fun other timer => ?_⟩
  rw [Directory.step, Notifier.fire, single.idle other, if_neg (List.not_mem_nil)]
  rfl

end Directory

/-- The replicas of the deployment. -/
def deploymentHosts : Hosts (Fin 3) where
  name self := "replica" ++ toString (self.val + 1)
  port self := 4000 + (self.val + 1)

theorem deploymentHosts_composed : deploymentHosts.Composed :=
  fun self => ⟨self.val + 1, rfl, rfl⟩

/-- The deployment with tabs that draw nothing of interest. -/
abbrev directory : Transition.System (Directory (Fin 3) Unit Unit canvas)
    (Directory.Action (Fin 3) Unit Unit) :=
  Directory.system (Cluster.ofFin 3 1) deploymentHosts Unit Unit canvas

namespace Directory

/-- Replica 1 is elected. -/
def elected : List (Action (Fin 3) Unit Unit) :=
  [.replica (.electionTimeout 0), .replica (.deliver 0 1),
    .replica (.resume 0 [some { term := 1, voteGranted := true }, none])]

/-- Its second announcement succeeds, and a stroke is posted to it. -/
def directed : List (Action (Fin 3) Unit Unit) :=
  elected ++ [.settle 0 false, .fire 0 0, .leader 1, .settle 0 true, .stroke ()]

theorem leader_elected_directed :
    ∃ (state : Directory (Fin 3) Unit Unit canvas) (leader : Fin 3),
      state.world.Elected leader ∧ deploymentHosts.url leader = "http://replica1:4001" ∧
        deploymentHosts.hintUrl leader = deploymentHosts.url leader ∧
        state.gateway.currentLeaderId = some (deploymentHosts.name leader) := by
  obtain ⟨state, reached, passed⟩ := directory.exists_reach_of_run (fun _ _ => True) directed
    (fun state => decide (state.gateway.currentLeaderUrl = some "http://replica1:4001"))
    (by decide +kernel)
  have known := of_decide_eq_true passed
  obtain ⟨leader, won, place, computed, named⟩ :=
    leader_elected deploymentHosts_composed reached (.inl known)
  exact ⟨state, leader, won, place.symm, computed, named known⟩

theorem leader_announces_elected :
    ∃ state : Directory (Fin 3) Unit Unit canvas,
      0 < (state.notifiers 0).attempts ∨
        ∃ timer next, state.step (Cluster.ofFin 3 1) deploymentHosts (.fire 0 timer) = some next ∧
          next.posts = state.posts ++ [0] ∧ 0 < (next.notifiers 0).attempts := by
  obtain ⟨state, reached, passed⟩ := directory.exists_reach_of_run (fun _ _ => True)
    (elected ++ [.settle 0 false])
    (fun state => decide ((state.world.node 0).role = .leader ∧
      (state.notifiers 0).heard = false)) (by decide +kernel)
  obtain ⟨leads, unheard⟩ := of_decide_eq_true passed
  exact ⟨state, leader_announces reached leads unheard⟩

theorem announcements_single_directed :
    ∃ state : Directory (Fin 3) Unit Unit canvas,
      state.posts = [0, 0] ∧
        (state.notifiers 0).attempts + (state.notifiers 0).armed.length ≤ 1 := by
  obtain ⟨state, reached, passed⟩ := directory.exists_reach_of_run
    (fun state action => state.Calm (Cluster.ofFin 3 1) action) directed
    (fun state => decide (state.posts = [0, 0])) (by decide +kernel)
  exact ⟨state, of_decide_eq_true passed, (announcements_single reached 0).1⟩

/-- Replica 1 is elected again before its first announcement fails, then so does the second;
then replica 2 stands for election. -/
def electedTwice : List (Action (Fin 3) Unit Unit) :=
  elected ++
    [.replica (.electionTimeout 1), .replica (.deliver 3 0), .replica (.electionTimeout 0),
      .replica (.deliver 4 1),
      .replica (.resume 4 [some { term := 3, voteGranted := true }, none]),
      .settle 0 false, .settle 0 false, .replica (.electionTimeout 1), .replica (.deliver 7 0)]

/-- A replica with two rows of attempts announces itself when it leads no longer. -/
theorem follower_announces :
    ∃ state : Directory (Fin 3) Unit Unit canvas, directory.Reach (fun _ _ => True) state ∧
      (state.world.node 0).role = .follower ∧
        (state.step (Cluster.ofFin 3 1) deploymentHosts (.fire 0 0)).isSome = true := by
  obtain ⟨state, reached, passed⟩ := directory.exists_reach_of_run (fun _ _ => True)
    electedTwice (fun state => decide ((state.world.node 0).role = .follower ∧
      (state.step (Cluster.ofFin 3 1) deploymentHosts (.fire 0 0)).isSome = true)) (by decide +kernel)
  exact ⟨state, reached, of_decide_eq_true passed⟩

end Directory

end RaftCanvas
