import RaftCanvas.Cluster.Hints
import RaftCanvas.Raft.Provenance
import RaftCanvas.Raft.Roles

/-!
# Whom the replicas name

A hint may be of another term than the node's own, but in every run it names a replica that
has won an election at some time, and so do the requests of leaders.
-/

namespace RaftCanvas

theorem Effect.mem_roles {Id Blob : Type} {effects : List (Effect Id Blob)} {role : Role} :
    role ∈ Effect.roles effects ↔ ∃ era, .role role era ∈ Effect.events effects := by
  rw [Effect.roles, List.mem_filterMap]
  constructor
  · rintro ⟨effect, member, same⟩
    split at same
    · obtain rfl := Option.some.inj same
      exact ⟨_, Effect.mem_events.mpr member⟩
    · cases same
  · rintro ⟨era, told⟩
    exact ⟨_, Effect.mem_events.mp told, rfl⟩

namespace Node

variable {Id : Type} {machine : Machine}

/-- In the course of a handler: the hint names a `known` replica, or the node itself, which
has announced that it leads. -/
def Names (config : Config Id) (known : Id → Prop) (node : Node Id machine) : Prop :=
  ∀ leader, node.leaderId = some leader → known leader ∨
    leader = config.replicaId ∧ .leader ∈ Effect.roles node.trace

namespace Names

variable {config : Config Id} {known : Id → Prop} {self after : Node Id machine}

theorem still (names : Names config known self) (leaderId : after.leaderId = self.leaderId)
    {more : List (Effect Id machine.Blob)} (trace : after.trace = self.trace ++ more) :
    Names config known after := by
  intro leader named
  refine (names leader (leaderId ▸ named)).imp_right fun ⟨own, announced⟩ => ⟨own, ?_⟩
  rw [trace, Effect.roles, List.filterMap_append]
  exact List.mem_append_left _ announced

theorem becomeFollower (names : Names config known self) (term : Nat) :
    Names config known (self.becomeFollower term none) := by
  rw [Node.becomeFollower]
  dsimp only
  split
  · exact names.still rfl (List.append_assoc _ _ _)
  · exact names.still rfl rfl

theorem followLeader {term : Nat} {leaderId : Id} (won : known leaderId) :
    Names config known (self.followLeader term leaderId) := by
  have named : (self.followLeader term leaderId).leaderId = some leaderId := by
    rw [Node.followLeader]
    split
    · rw [Node.becomeFollower]
      dsimp only
      split <;> rfl
    · rfl
  intro leader same
  rw [named] at same
  exact .inl (Option.some.inj same ▸ won)

theorem steady : Steady config (fun node : Node Id machine => Names config known node) where
  memory names _ trace _ leaderId := names.still leaderId (trace.trans (List.append_nil _).symm)
  emit _ names := names.still rfl rfl
  send _ names := names.still rfl rfl
  perform _ names := names.still rfl rfl
  becomeFollower term _ names := names.becomeFollower term
  becomeCandidate _ _ := nofun
  office nextIndex matchIndex _ _ _ := by
    rintro leader ⟨⟩
    exact .inr ⟨rfl, by simp [Node.office, Node.emit, Effect.roles]⟩

end Names

end Node

namespace World

variable {Id : Type} {machine : Machine} [DecidableEq Id]

/-- `leader` has won an election. -/
def Elected (world : World Id machine) (leader : Id) : Prop :=
  ∃ era, world.Leads leader era

/-- Whoever is named has been elected, and leaders name themselves. -/
structure Introduced (world : World Id machine) : Prop where
  hint : ∀ self leader, (world.node self).leaderId = some leader → world.Elected leader
  leads : ∀ self, (world.node self).role = .leader →
    (world.node self).leaderId = some self ∧ world.Leads self (world.node self).currentTerm
  stands : ∀ self, (world.node self).role = .candidate → (world.node self).leaderId = none
  quotes : ∀ call ∈ world.calls, call.src ∉ call.targets ∧
    ∀ era leader, call.request.leader? = some (era, leader) →
      leader = call.src ∧ world.Leads leader era

namespace Introduced

variable {cluster : Cluster Id} {world next : World Id machine}

/-- What a handler does with the role and the requests, whatever it does with the hint. -/
theorem turn (introduced : world.Introduced) {action : Action Id} {turn : Turn Id machine}
    (taken : world.turn cluster action = some turn) :
    Node.Hinting (cluster.config turn.self) world.Leads False turn.after ∧
      turn.after.Names (cluster.config turn.self) world.Elected := by
  obtain ⟨self, after, reply, resumed⟩ := turn
  obtain ⟨stimulus, prompts, same, _⟩ := turn_prompts taken
  dsimp only at prompts same ⊢
  have others : (cluster.config self).replicaId ∉ (cluster.config self).peers :=
    fun inside => (cluster.mem_peers self self).mp inside rfl
  have fresh : Node.Hinting (cluster.config self) world.Leads False
      (world.node self).began :=
    { hint := nofun
      own := nofun
      leads := fun office => (introduced.leads self office).imp id .inl
      stands := introduced.stands self
      quotes := nofun }
  have named : (world.node self).began.Names (cluster.config self) world.Elected :=
    fun leader named => .inl (introduced.hint self leader named)
  rw [same]
  constructor
  · cases prompts with
    | electionTimeout => exact fresh.startElection others
    | heartbeat => exact fresh.sendAppendEntriesToAll others
    | submit _ type payload => exact fresh.submit others _ type payload
    | readIndex => exact fresh.startReadIndex others _
    | @deliver id _ call issued asked =>
        obtain ⟨apart, quoted⟩ := introduced.quotes call (List.mem_of_getElem? issued)
        refine fresh.handle call.request (fun _ _ _ told => told.elim) ?_
        intro era leader request
        obtain ⟨rfl, won⟩ := quoted era leader request
        exact ⟨fun same => apart (same ▸ asked), won⟩
    | @resume id results call issued answers =>
        exact fresh.resume rfl others call.await results fun _ told => told.elim
    | resumeSubmit _ id => exact fresh.resumeSubmit id
    | submitTimeout _ id => exact fresh.submitTimeout id
    | pollRead _ id => exact fresh.pollRead id
  · refine Node.Names.steady.respond rfl named prompts.lives ?_
    rintro request rfl term leader quoted
    obtain ⟨id, call, _, issued, _, rfl⟩ := prompts.request
    have quotes := introduced.quotes call (List.mem_of_getElem? issued)
    exact Node.Names.followLeader ⟨term, (quotes.2 term leader quoted).2⟩

/-- A step keeps what is named right if the acting node names right. -/
theorem advance (introduced : world.Introduced) {actor : Id} {node : Node Id machine}
    {done : List (Effect Id machine.Blob)} {reply : Option (Delivery Id)}
    (advances : world.Advances next actor node done reply)
    (hint : ∀ leader, node.leaderId = some leader → next.Elected leader)
    (leads : node.role = .leader → node.leaderId = some actor ∧
      next.Leads actor node.currentTerm)
    (stands : node.role = .candidate → node.leaderId = none)
    (quotes : ∀ call ∈ Effect.sends done, call.src ∉ call.targets ∧
      ∀ era leader, call.request.leader? = some (era, leader) →
        leader = call.src ∧ next.Leads leader era) : next.Introduced := by
  have kept : ∀ {leader era}, world.Leads leader era → next.Leads leader era :=
    fun won => advances.mem_history.mpr (.inr won)
  constructor
  case hint =>
    intro self leader named
    by_cases acting : self = actor
    · rw [acting, advances.node_actor] at named
      exact hint leader named
    · rw [advances.node_other acting] at named
      exact (introduced.hint self leader named).imp fun _ => kept
  case leads =>
    intro self office
    by_cases acting : self = actor
    · subst acting
      rw [advances.node_actor] at office ⊢
      exact leads office
    · rw [advances.node_other acting] at office ⊢
      exact (introduced.leads self office).imp_right kept
  case stands =>
    intro self standing
    by_cases acting : self = actor
    · rw [acting, advances.node_actor] at standing ⊢
      exact stands standing
    · rw [advances.node_other acting] at standing ⊢
      exact introduced.stands self standing
  case quotes =>
    intro call member
    rcases advances.mem_calls.mp member with old | fresh
    · exact (introduced.quotes call old).imp_right fun quoted era leader request =>
        (quoted era leader request).imp_right kept
    · exact quotes call fresh

theorem step (introduced : world.Introduced) {action : Action Id}
    (stepped : world.step cluster action = some next) : next.Introduced := by
  obtain ⟨actor, node, done, reply, progress, advances⟩ := step_progress stepped
  have kept : ∀ {leader era}, world.Leads leader era → next.Leads leader era :=
    fun won => advances.mem_history.mpr (.inr won)
  -- An announcement is the first effect, so it has happened if any effect has.
  have quoting {turn : Turn Id machine} (own : turn.self = actor)
      (hinting : Node.Hinting (cluster.config turn.self) world.Leads False turn.after)
      (cut : done <+: turn.after.trace) :
      ∀ call ∈ Effect.sends done, call.src ∉ call.targets ∧
        ∀ era leader, call.request.leader? = some (era, leader) →
          leader = call.src ∧ next.Leads leader era := by
    intro call member
    obtain ⟨src, apart, quoted⟩ :=
      hinting.quotes call ((Effect.sends_prefix cut).subset member)
    refine ⟨apart, fun era leader request => ?_⟩
    obtain ⟨rfl, won⟩ := quoted era leader request
    refine ⟨src.symm, won.elim kept fun begun => ?_⟩
    rw [Cluster.config_replicaId, own]
    refine Hinted.announced advances begun cut fun nothing => ?_
    rw [nothing] at member
    cases member
  cases progress with
  | handled turn taken =>
      obtain ⟨hinting, names⟩ := introduced.turn taken
      refine introduced.advance advances ?_ (fun office => ?_) hinting.stands
        (quoting rfl hinting List.prefix_rfl)
      · intro leader named
        rcases names leader named with won | ⟨rfl, announced⟩
        · exact won.imp fun _ => kept
        · obtain ⟨era, told⟩ := Effect.mem_roles.mp announced
          exact ⟨era, advances.mem_history.mpr (.inl ⟨rfl, told⟩)⟩
      · refine (hinting.leads office).imp_right fun won => won.elim kept fun begun => ?_
        refine Hinted.announced advances begun List.prefix_rfl ?_
        obtain ⟨rest, begun⟩ := begun
        rw [begun]
        exact List.cons_ne_nil _ _
  | interrupted inner effects turn _ taken =>
      obtain ⟨hinting, _⟩ := introduced.turn taken
      obtain ⟨role, named⟩ := Hinted.start_nameless
        (Effect.file (world.node turn.self).db (turn.after.trace.take effects))
      exact introduced.advance advances (by simp [named]) (by simp [role]) (by simp [role])
        (quoting rfl hinting (List.take_prefix effects turn.after.trace))
  | crashed self _ =>
      obtain ⟨role, named⟩ := Hinted.start_nameless (world.node actor).db
      exact introduced.advance advances (by simp [named]) (by simp [role]) (by simp [role])
        (by simp)

omit [DecidableEq Id] in
theorem initial : (init : World Id machine).Introduced where
  hint _ _ named := nomatch named
  leads _ office := nomatch office
  stands _ standing := nomatch standing
  quotes _ member := nomatch member

end Introduced

end World

end RaftCanvas
