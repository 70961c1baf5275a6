import RaftCanvas.Cluster.Election
import RaftCanvas.Simulation.Operations
import RaftCanvas.Simulation.Handlers
import RaftCanvas.Simulation.Hazards

/-!
# Runs of the cluster along the abstract protocol

`WorldMatches` ties a cluster to a state of the abstract protocol.  Every step that
stays within the protocol is matched by abstract steps of the node it moves.
-/

namespace RaftCanvas

open Replication.State (Steps)

variable {Id : Type} {machine : Machine} [DecidableEq Id] [Fintype Id]

/-- The commit side of a cluster. -/
structure WorldSafe (tier : Tier) (ideal : Ideal Id) (world : World Id machine) :
    Prop where
  nodes : ∀ member, NodeSafe tier ideal member (world.node member)
  requests : ∀ call ∈ world.calls, RequestSafe ideal call.request
  events : ∀ who event, (who, event) ∈ world.history → EventSafe tier ideal who event
  installs : ∀ call ∈ world.calls, ∀ body, call.request = .installSnapshot body →
    body.lastIncludedIndex ≤ (world.node call.src).db.lastSnapshotIndex

structure WorldMatches (tier : Tier) (ideal : Ideal Id) (world : World Id machine) :
    Prop where
  sound : ideal.Sound
  nodes : ∀ member, NodeMatches ideal member (world.node member)
  calls : ∀ call ∈ world.calls, CallMatches ideal call
  replies : ∀ delivery ∈ world.replies, ∃ call,
    world.calls[delivery.call]? = some call ∧ delivery.responder ∈ call.targets ∧
      ReplyMatches ideal delivery.responder delivery.reply call.request
  announced : ∀ era, ideal.elected era ≠ none →
    era ∈ leaderTerms (world.history.map Prod.snd)
  indexed : ∀ era, ideal.elected era ≠ none → Indexed (ideal.ledger era)
  installs : ∀ call ∈ world.calls, ∀ body, call.request = .installSnapshot body →
    0 ≤ (world.node call.src).db.lastSnapshotIndex
  safe : tier.strict → WorldSafe tier ideal world

/-! ## Nodes at rest and after a restart -/

omit [Fintype Id] [DecidableEq Id] in
theorem NodeMatches.start {ideal : Ideal Id} {member : Id}
    {db : Database Id machine.Blob} (file : FileMatches ideal member db) :
    NodeMatches ideal member (Node.start db) := by
  obtain ⟨role, stored, term, _⟩ := World.Electoral.start_quiet db
  exact {
    file := by rw [stored]; exact file
    term := by rw [stored, term]
    leads := fun leader => by simp [role] at leader
    stands := fun candidate => by simp [role] at candidate }

/-- A node that did not act. -/
theorem NodeMatches.frame {ideal next : Ideal Id} {member actor : Id}
    {node : Node Id machine} (matching : NodeMatches ideal member node)
    (sound : ideal.Sound) (steps : Steps actor ideal next) (different : member ≠ actor) :
    NodeMatches next member node := by
  obtain ⟨_, extended, frame⟩ := steps.sound sound
  have log := frame.log member different
  exact {
    file := {
      current := by rw [frame.current member different]; exact matching.file.current
      log := by rw [log]; exact matching.file.log
      unsaved := matching.file.unsaved
      saved := matching.file.saved }
    term := matching.term
    leads := fun leader => by
      obtain ⟨won, longer⟩ := matching.leads leader
      refine ⟨extended.elected _ _ won, ?_⟩
      rw [log, extended.base _ (by simp [won])]
      exact longer
    stands := fun candidate => by
      obtain ⟨campaigned, own⟩ := matching.stands candidate
      rw [log]
      exact ⟨extended.campaign _ _ _ campaigned, extended.ballot _ _ _ own⟩ }

omit [Fintype Id] [DecidableEq Id] in
/-- What `start()` puts into memory, from the snapshot the file holds. -/
theorem Node.start_memory {ideal : Ideal Id} {member : Id} {node : Node Id machine}
    (matching : NodeMatches ideal member node)
    (saved : ∀ snap, node.db.snapshot = some snap → snap.state = machine.getSnapshot
      (machine.replay ((ideal.log member).take (node.db.lastSnapshotIndex + 1).toNat))) :
    (Node.start node.db).commitIndex = node.db.lastSnapshotIndex ∧
      (Node.start node.db).stateMachine =
        machine.replay ((ideal.log member).take (node.db.lastSnapshotIndex + 1).toNat) ∧
      (Node.start node.db).commitListeners = [] ∧ (Node.start node.db).resumable = [] := by
  cases held : node.db.snapshot with
  | none =>
      simp [Node.start, Database.loadLatestSnapshot, held, Node.becomeFollower, Node.emit,
        matching.file.unsaved held]
  | some snap =>
      obtain ⟨positive, index, _⟩ := matching.file.saved snap held
      have stores := matching.file.log
      have within := stores.within
      have round := machine.restore_getSnapshot
        (machine.replay ((ideal.log member).take (node.db.lastSnapshotIndex + 1).toNat))
      rw [machine.lastApplied_replay (stores.indexed.take _), List.length_take,
        show ((min (node.db.lastSnapshotIndex + 1).toNat (ideal.log member).length : Nat) :
          Int) - 1 = node.db.lastSnapshotIndex by omega, ← saved snap held] at round
      simp [Node.start, Database.loadLatestSnapshot, held, Node.becomeFollower, Node.emit,
        index, round]

omit [Fintype Id] [DecidableEq Id] in
/-- A restart forgets the commit index down to the snapshot, and nothing decided. -/
theorem NodeSafe.start {tier : Tier} {ideal : Ideal Id} {member : Id}
    {node : Node Id machine} (safe : NodeSafe tier ideal member node)
    (matching : NodeMatches ideal member node) :
    NodeSafe tier ideal member (Node.start node.db) := by
  obtain ⟨role, stored, _, _⟩ := World.Electoral.start_quiet node.db
  obtain ⟨commit, state, listeners, resumable⟩ := Node.start_memory matching safe.saved
  have stores := matching.file.log
  have within := stores.within
  have low := stores.low
  have applied : (Node.start node.db).lastApplied = node.db.lastSnapshotIndex := by
    rw [Node.lastApplied, state, machine.lastApplied_replay (stores.indexed.take _),
      List.length_take]
    omega
  have saved_le := safe.saved_le
  have applied_le := safe.applied_le
  exact {
    bound := by rw [commit]; exact within
    certified := by
      rw [commit]
      exact safe.certified.restrict (List.take_prefix_take_left (by omega))
    saved_le := by rw [stored, applied]
    applied_le := by rw [applied, commit]
    state := by rw [state, applied]
    saved := by rw [stored]; exact safe.saved
    matched := fun leader => by simp [role] at leader
    decided := fun leader => by simp [role] at leader
    listening := fun waiter member => by simp [listeners] at member
    resumed := fun waiter member => by simp [resumable] at member }

/-! ## One step -/

namespace WorldMatches

variable {cluster : Cluster Id} {tier : Tier} {ideal after : Ideal Id}
  {world next : World Id machine} {actor : Id} {node : Node Id machine}
  {done : List (Effect Id machine.Blob)} {reply : Option (Delivery Id)}

/-- A step is matched as soon as what it does to its node is. -/
theorem advance (matching : WorldMatches tier ideal world)
    (advances : world.Advances next actor node done reply)
    (cut : Cut actor ideal (world.node actor).db done after)
    (file : node.db = Effect.file (world.node actor).db done)
    (moved : NodeMatches after actor node)
    (prudent : tier.strict → Prudent tier actor after (world.node actor).db node done)
    (replied : ∀ delivery, reply = some delivery → ∃ call,
      world.calls[delivery.call]? = some call ∧ delivery.responder ∈ call.targets ∧
        ReplyMatches after delivery.responder delivery.reply call.request) :
    WorldMatches tier after next := by
  obtain ⟨sound, extended, frame⟩ := cut.steps.sound matching.sound
  exact {
    sound
    nodes := fun member => by
      by_cases acting : member = actor
      · subst acting
        rw [advances.node_actor]
        exact moved
      · rw [advances.node_other acting]
        exact (matching.nodes member).frame matching.sound cut.steps acting
    calls := fun call member => by
      rcases advances.mem_calls.mp member with old | fresh
      · exact (matching.calls call old).extends extended
      · exact (cut.calls call fresh).2
    replies := fun delivery member => by
      rcases advances.mem_replies.mp member with old | fresh
      · obtain ⟨call, issued, asked, answers⟩ := matching.replies delivery old
        exact ⟨call, advances.call_kept issued, asked, answers.extends extended⟩
      · obtain ⟨call, issued, asked, answers⟩ := replied delivery fresh
        exact ⟨call, advances.call_kept issued, asked, answers⟩
    announced := fun era led => by
      rw [mem_leaderTerms, advances.history_eq, List.map_append, List.mem_append]
      rcases cut.elected era led with before | fresh
      · exact Or.inr (mem_leaderTerms.mp (matching.announced era before))
      · refine Or.inl (List.mem_map.mpr ⟨(actor, .role .leader era), ?_, rfl⟩)
        simpa using mem_leaderTerms.mp fresh
    indexed := cut.indexed
    installs := fun call member body request => by
      rcases advances.mem_calls.mp member with old | fresh
      · have before := matching.installs call old body request
        by_cases acting : call.src = actor
        · rw [acting, advances.node_actor, file]
          exact cut.kept (acting ▸ before)
        · rw [advances.node_other acting]
          exact before
      · rw [(cut.calls call fresh).1, advances.node_actor, file]
        exact cut.installs call fresh body request
    safe := fun strict => {
      nodes := fun member => by
        by_cases acting : member = actor
        · subst acting
          rw [advances.node_actor]
          exact (prudent strict).safe
        · rw [advances.node_other acting]
          exact ((matching.safe strict).nodes member).frame matching.sound cut.steps acting
            fun leader => ((matching.nodes member).leads leader).1
      requests := fun call member => by
        rcases advances.mem_calls.mp member with old | fresh
        · exact ((matching.safe strict).requests call old).extends matching.sound extended
            (matching.calls call old).request
        · exact (prudent strict).requests call fresh
      events := fun who event member => by
        rcases advances.mem_history.mp member with ⟨rfl, fresh⟩ | old
        · exact (prudent strict).events event fresh
        · exact ((matching.safe strict).events who event old).extends matching.sound extended
      installs := fun call member body request => by
        rcases advances.mem_calls.mp member with old | fresh
        · have before := (matching.safe strict).installs call old body request
          by_cases acting : call.src = actor
          · rw [acting, advances.node_actor]
            exact (acting ▸ before).trans (prudent strict).grows
          · rw [advances.node_other acting]
            exact before
        · rw [(cut.calls call fresh).1, advances.node_actor]
          exact (prudent strict).installs call fresh body request } }

end WorldMatches

/-! ## What a step must avoid -/

/-- What the invariant of a tier asks of a step. -/
structure Permitted (tier : Tier) (ideal : Ideal Id) (world : World Id machine)
    (action : Action Id) : Prop where
  orderly : tier.strict → world.Orderly action
  exact : tier.exact → tier.strict ∧ world.staleInstall action = false
  faithful : tier.faithful → tier.strict ∧ ∀ self id, action = .resumeSubmit self id →
    OwnEntry ideal self (world.node self) id
  uncompacted : ¬tier.strict → world.Uncompacted

/-- The handler of `actor`, about to run. -/
def World.stage (world : World Id machine) (tier : Tier) (ideal : Ideal Id) (actor : Id) :
    Stage Id machine where
  tier
  calm := ¬tier.strict
  origin := ideal
  actor
  file := (world.node actor).db

namespace WorldMatches

variable {cluster : Cluster Id} {tier : Tier} {ideal after : Ideal Id}
  {world next : World Id machine} {actor : Id} {node : Node Id machine}
  {done : List (Effect Id machine.Blob)} {reply : Option (Delivery Id)}

theorem fresh (matching : WorldMatches tier ideal world) (actor : Id) :
    Course (world.stage tier ideal actor) ideal (world.fresh actor) := by
  have own := matching.nodes actor
  have cut : Cut actor ideal (world.node actor).db [] ideal :=
    { steps := .refl ideal
      file := own.file
      calls := by simp
      elected := fun _ led => Or.inl led
      indexed := matching.indexed
      kept := id
      installs := by simp }
  exact {
    origin := matching.sound
    cut
    matching := { own with file := { own.file with } }
    file := rfl
    cuts := fun _ => Effect.always_nil.mpr ⟨ideal, cut⟩
    prudent := fun strict => {
      safe := { (matching.safe strict).nodes actor with }
      events := by simp [World.fresh]
      requests := by simp [World.fresh]
      grows := Int.le_refl _
      installs := by simp [World.fresh] } }

/-! ## Resumed calls -/

omit [Fintype Id] in
/-- A call with one target is answered by that target. -/
theorem answered {id : Nat} {peer : Id} {results : List (Option Reply)}
    (answers : world.Answers id [peer] results = true) {reply : Reply}
    (handed : results.head?.join = some reply) : ⟨id, peer, reply⟩ ∈ world.replies := by
  cases results with
  | nil => simp at handed
  | cons result rest =>
      obtain rfl : result = some reply := by simpa using handed
      simp only [World.Answers, Bool.and_eq_true, decide_eq_true_eq] at answers
      exact answers.1

omit [DecidableEq Id] in
theorem reply_matches (matching : WorldMatches tier ideal world) {id : Nat}
    {call : Call Id machine.Blob} (issued : world.calls[id]? = some call) {peer : Id}
    {reply : Reply} (replied : ⟨id, peer, reply⟩ ∈ world.replies) :
    ReplyMatches ideal peer reply call.request := by
  obtain ⟨call', issued', _, answers⟩ := matching.replies _ replied
  obtain rfl : call' = call := by simpa [issued'] using issued
  exact answers

/-- A won election is justified by ballots, in a term nobody has won. -/
theorem won (matching : WorldMatches tier ideal world)
    (electoral : World.Electoral cluster world) {id termAtStart : Nat}
    {call : Call Id machine.Blob} {results : List (Option Reply)}
    (issued : world.calls[id]? = some call) (awaits : call.await = .election termAtStart)
    (answers : world.Answers id call.targets results = true)
    (counted : (world.fresh call.src).Won (cluster.config call.src) termAtStart results) :
    ideal.elected (world.node call.src).currentTerm = none ∧
      ∃ group : Finset Id, Quorum.Majority group ∧ ∀ voter ∈ group,
        ideal.ballot voter (world.node call.src).currentTerm call.src := by
  constructor
  · by_contra led
    exact electoral.no_rival (electoral.victory issued awaits answers counted)
      (matching.announced _ led)
  · obtain ⟨body, request, asked, candidate, group, majority, _, granted⟩ :=
      electoral.won_votes issued awaits answers counted
    refine ⟨group, majority, fun voter inGroup => ?_⟩
    by_cases own : voter = call.src
    · subst own
      exact ((matching.nodes _).stands counted.1).2
    · obtain ⟨reply, replied, good⟩ := granted voter inGroup own
      have cast := matching.reply_matches issued replied
      rw [request] at cast
      rw [← asked, ← candidate]
      exact cast good

/-- A success that is not stale is acknowledged in the term of the leader. -/
theorem success_acked (matching : WorldMatches tier ideal world) {id : Nat}
    {call : Call Id machine.Blob} (issued : world.calls[id]? = some call) {peer : Id}
    {next prevLogIndex : Int} {entries : List LogEntry}
    (awaits : call.await = .appendEntries peer next prevLogIndex entries)
    {results : List (Option Reply)}
    (answers : world.Answers id call.targets results = true)
    (timely : world.staleSuccess (.resume id results) = false)
    (leader : (world.node call.src).role = .leader) {reply : Reply}
    (handed : results.head?.join = some reply) (success : reply.success = true) :
    Numbered (prevLogIndex + 1).toNat entries ∧
      (prevLogIndex + 1).toNat + entries.length ≤
        ideal.acked peer (world.node call.src).currentTerm := by
  have shape := matching.calls call (List.mem_of_getElem? issued)
  obtain ⟨src, targets, request, await⟩ := call
  dsimp only at awaits leader answers ⊢
  subst awaits
  cases request with
  | requestVote | installSnapshot => exact (shape.shape).elim
  | appendEntries body =>
      obtain ⟨rfl, rfl, rfl⟩ := shape.shape
      have acked := matching.reply_matches issued (answered answers handed) success
      have current : body.term = (world.node src).currentTerm := by
        simpa [World.staleSuccess, World.returned, issued, handed, leader, success]
          using timely
      have quoting : Replicates ideal src body := shape.request
      refine ⟨?_, current ▸ acked⟩
      rcases quoting.quote with ⟨inside, _⟩ | ⟨nothing, _⟩
      · have led : ideal.elected body.term ≠ none := by simp [quoting.leader]
        intro position entry found
        obtain ⟨suffix, whole⟩ := inside
        refine (matching.indexed _ led).drop (body.prevLogIndex + 1).toNat position entry ?_
        rw [← whole, List.getElem?_append_left (List.getElem?_eq_some_iff.mp found).1, found]
      · intro position entry found
        simp [nothing] at found

/-- A snapshot reply is an acknowledgement in the leader's term, or the snapshot is
no newer than the leader's own. -/
theorem install_acked (matching : WorldMatches tier ideal world) (strict : tier.strict)
    {id : Nat} {call : Call Id machine.Blob} (issued : world.calls[id]? = some call)
    {peer : Id} {lastIncludedIndex : Int}
    (awaits : call.await = .installSnapshot peer lastIncludedIndex)
    {results : List (Option Reply)}
    (answers : world.Answers id call.targets results = true)
    (timely : tier.exact → world.staleInstall (.resume id results) = false)
    (leader : (world.node call.src).role = .leader) {reply : Reply}
    (handed : results.head?.join = some reply)
    (settled : reply.term ≤ (world.node call.src).currentTerm) :
    (lastIncludedIndex + 1).toNat ≤ ideal.acked peer (world.node call.src).currentTerm ∨
      ¬tier.exact ∧ lastIncludedIndex ≤ (world.node call.src).commitIndex := by
  have shape := matching.calls call (List.mem_of_getElem? issued)
  have saved := (matching.safe strict).installs call (List.mem_of_getElem? issued)
  have safe := (matching.safe strict).nodes call.src
  have saved_le := safe.saved_le
  have applied_le := safe.applied_le
  obtain ⟨src, targets, request, await⟩ := call
  dsimp only at awaits leader answers settled saved saved_le applied_le ⊢
  subst awaits
  cases request with
  | requestVote | appendEntries => exact (shape.shape).elim
  | installSnapshot body =>
      obtain ⟨rfl, rfl⟩ := shape.shape
      obtain ⟨later, acked⟩ := matching.reply_matches issued (answered answers handed)
      by_cases current : body.term = (world.node src).currentTerm
      · rw [← current] at settled ⊢
        exact Or.inl (acked (by omega))
      · refine Or.inr ⟨fun exact => ?_, ?_⟩
        · have stale := timely exact
          simp [World.staleInstall, World.returned, issued, handed, leader, settled,
            current] at stale
        · have own := saved body rfl
          omega

theorem resume (matching : WorldMatches tier ideal world)
    (electoral : World.Electoral cluster world) {id : Nat}
    {call : Call Id machine.Blob} {results : List (Option Reply)}
    (issued : world.calls[id]? = some call)
    (answers : world.Answers id call.targets results = true)
    (permitted : Permitted tier ideal world (.resume id results)) :
    ∃ after, Course (world.stage tier ideal call.src) after
      ((world.fresh call.src).resume (cluster.config call.src) call.await results) := by
  have course := matching.fresh call.src
  cases awaits : call.await with
  | election termAtStart =>
      exact course.finishElection cluster termAtStart results
        fun counted => matching.won electoral issued awaits answers counted
  | appendEntries peer nextIndex prevLogIndex entries =>
      refine course.finishAppendEntries cluster peer nextIndex prevLogIndex entries _ ?_
      intro strict leader reply handed success
      exact matching.success_acked issued awaits answers
        (permitted.orderly strict).2.1 leader handed success
  | installSnapshot peer lastIncludedIndex =>
      refine course.finishInstallSnapshot peer lastIncludedIndex _ ?_
      intro strict leader reply handed settled
      exact matching.install_acked strict issued awaits answers
        (fun exact => (permitted.exact exact).2) leader handed settled
  | readIndex opId readIdx termAtStart =>
      exact course.finishReadIndex _ opId readIdx termAtStart results

/-! ## Every step of the cluster -/

theorem deliver (matching : WorldMatches tier ideal world) (config : Config Id) {id : Nat}
    {target : Id}
    {call : Call Id machine.Blob} (issued : world.calls[id]? = some call)
    (asked : target ∈ call.targets)
    (permitted : Permitted tier ideal world (.deliver id target)) :
    ∃ after, Course (world.stage tier ideal target) after
        ((world.fresh target).handle config call.request).1 ∧
      ReplyMatches after target ((world.fresh target).handle config call.request).2
        call.request := by
  have member := List.mem_of_getElem? issued
  have shape := matching.calls call member
  refine (matching.fresh target).handle config shape.request ?_
    (fun strict => (matching.safe strict).requests call member)
    (fun lax => permitted.uncompacted lax target) ?_ ?_
  · rintro rfl
    exact shape.others asked
  · intro body request recent matched
    by_cases strict : tier.strict
    · have harmless := (permitted.orderly strict).2.2
      simp only [World.clobbers, issued, Option.map_some, request] at harmless
      intro clobbered
      simp only [Bool.and_eq_false_iff, decide_eq_false_iff_not] at harmless
      rcases harmless with old | unmatched | unharmed
      · exact old recent
      · exact Bool.false_ne_true (unmatched.symm.trans matched)
      · exact unharmed clobbered
    · rintro ⟨positive, covered, _⟩
      have bare := permitted.uncompacted strict target
      have same : (world.fresh target).db.lastSnapshotIndex =
        (world.node target).db.lastSnapshotIndex := rfl
      omega
  · refine fun lax => ⟨permitted.uncompacted lax target, fun body request => ?_⟩
    have compacted := matching.installs call member body request
    have bare := permitted.uncompacted lax call.src
    omega

/-- Every handler call follows the abstract protocol. -/
theorem turn (matching : WorldMatches tier ideal world)
    (electoral : World.Electoral cluster world) {action : Action Id}
    (permitted : Permitted tier ideal world action) {turn : Turn Id machine}
    (taken : world.turn cluster action = some turn) :
    ∃ after, Course (world.stage tier ideal turn.self) after turn.after ∧
      ∀ delivery, turn.reply = some delivery → ∃ call,
        world.calls[delivery.call]? = some call ∧ delivery.responder ∈ call.targets ∧
          ReplyMatches after delivery.responder delivery.reply call.request := by
  obtain ⟨self, node, reply, resumed⟩ := turn
  obtain ⟨stimulus, prompts, same, answers⟩ := World.turn_prompts taken
  dsimp only at prompts same answers ⊢
  rw [same]
  have quiet : (∀ request, stimulus ≠ .request request) →
      (∃ after, Course (world.stage tier ideal self) after
        ((world.node self).began.respond (cluster.config self) stimulus)) →
      ∃ after, Course (world.stage tier ideal self) after
          ((world.node self).began.respond (cluster.config self) stimulus) ∧
        ∀ delivery, reply = some delivery → ∃ call,
          world.calls[delivery.call]? = some call ∧ delivery.responder ∈ call.targets ∧
            ReplyMatches after delivery.responder delivery.reply call.request := by
    rintro other ⟨after, course⟩
    refine ⟨after, course, fun delivery replied => ?_⟩
    obtain ⟨request, asked, _⟩ := answers delivery replied
    exact absurd asked (other request)
  cases prompts with
  | electionTimeout => exact quiet nofun ⟨_, (matching.fresh self).startElection cluster⟩
  | heartbeat => exact quiet nofun ⟨_, (matching.fresh self).sendAppendEntriesToAll cluster⟩
  | submit _ type payload =>
      exact quiet nofun ((matching.fresh self).submit cluster _ type payload)
  | readIndex => exact quiet nofun ⟨_, (matching.fresh self).startReadIndex cluster _⟩
  | @deliver id _ call issued asked =>
      obtain ⟨after, course, matched⟩ :=
        matching.deliver (cluster.config self) issued asked permitted
      refine ⟨after, course, fun delivery replied => ?_⟩
      obtain ⟨request, same, acted, responder, answer⟩ := answers delivery replied
      obtain rfl := Stimulus.request.inj same
      obtain ⟨rfl, _⟩ := Action.deliver.inj acted
      rw [responder, answer]
      exact ⟨call, issued, asked, matched⟩
  | resume issued answered =>
      exact quiet nofun (matching.resume electoral issued answered permitted)
  | resumeSubmit _ id =>
      exact quiet nofun ⟨_, (matching.fresh self).resumeSubmit id
        fun faithful => (permitted.faithful faithful).2 self id rfl⟩
  | submitTimeout _ id => exact quiet nofun ⟨_, (matching.fresh self).submitTimeout id⟩
  | pollRead _ id => exact quiet nofun ⟨_, (matching.fresh self).pollRead id⟩

/-- Every permitted step is matched by abstract steps of the node it moves. -/
theorem step (matching : WorldMatches tier ideal world)
    (electoral : World.Electoral cluster world) {action : Action Id}
    (permitted : Permitted tier ideal world action)
    (stepped : world.step cluster action = some next) :
    ∃ actor after, Steps actor ideal after ∧ WorldMatches tier after next := by
  obtain ⟨actor, node, done, reply, progress, advances⟩ := World.step_progress stepped
  refine ⟨actor, ?_⟩
  cases progress with
  | handled turn taken =>
      obtain ⟨after, course, replied⟩ := matching.turn electoral permitted taken
      exact ⟨after, course.cut.steps, matching.advance advances course.cut course.file
        course.matching course.prudent replied⟩
  | interrupted inner effects turn cut taken =>
      have lax : ¬tier.strict := fun strict => by
        have whole := (permitted.orderly strict).1
        rw [cut] at whole
        exact whole
      have inside : Permitted tier ideal world inner :=
        { orderly := fun strict => absurd strict lax
          exact := fun exact => absurd (permitted.exact exact).1 lax
          faithful := fun faithful => absurd (permitted.faithful faithful).1 lax
          uncompacted := permitted.uncompacted }
      obtain ⟨_, course, _⟩ := matching.turn electoral inside taken
      obtain ⟨after, stopped⟩ := course.cuts lax _ (List.take_prefix effects _)
      have stored := (World.Electoral.start_quiet
        (Effect.file (world.node turn.self).db (turn.after.trace.take effects))).2.1
      exact ⟨after, stopped.steps, matching.advance advances stopped stored
        (.start stopped.file) (fun strict => absurd strict lax) fun _ replied => nomatch replied⟩
  | crashed self _ =>
      have course := matching.fresh actor
      have stored := (World.Electoral.start_quiet (world.node actor).db).2.1
      refine ⟨ideal, .refl ideal, matching.advance advances course.cut_nil stored
        (.start (matching.nodes actor).file) (fun strict => ?_) fun _ replied => nomatch replied⟩
      exact {
        safe := ((matching.safe strict).nodes actor).start (matching.nodes actor)
        events := by simp
        requests := by simp
        grows := by rw [stored]
        installs := by simp }

/-! ## Whole runs -/

omit [DecidableEq Id] in
theorem initial (tier : Tier) :
    WorldMatches tier Replication.State.initial (World.init : World Id machine) := by
  have file : ∀ member, FileMatches (Replication.State.initial : Ideal Id) member
      (Database.empty : Database Id machine.Blob) := fun member => {
    current := rfl
    log := Database.stores_empty
    unsaved := fun _ => rfl
    saved := fun snap held => nomatch held }
  have nodes : ∀ member, NodeMatches Replication.State.initial member
      ((World.init : World Id machine).node member) := fun member => .start (file member)
  exact {
    sound := Replication.State.sound_initial
    nodes
    calls := fun call member => nomatch member
    replies := fun delivery member => nomatch member
    announced := fun era led => absurd rfl led
    indexed := fun era led => absurd rfl led
    installs := fun call member => nomatch member
    safe := fun strict => {
      nodes := fun member => {
        bound := by
          show (-1 : Int) < 0
          omega
        certified := .nil _ _
        saved_le := machine.lastApplied_init.ge
        applied_le := machine.lastApplied_init.le
        state := by
          show machine.init = machine.replay (List.take _ [])
          rw [List.take_nil, machine.replay_nil]
        saved := fun snap held => nomatch held
        matched := fun leader => nomatch leader
        decided := fun leader => nomatch leader
        listening := fun waiter member => nomatch member
        resumed := fun waiter member => nomatch member }
      requests := fun call member => nomatch member
      events := fun who event member => nomatch member
      installs := fun call member => nomatch member } }

/-- From a matched state on, a run whose steps are permitted is matched too, and keeps
what the abstract protocol has recorded. -/
theorem onward {allowed : World Id machine → Action Id → Prop}
    (permits : ∀ ideal world action, WorldMatches tier ideal world →
      allowed world action → Permitted tier ideal world action)
    (reached : (cluster.system machine).Reach allowed world)
    (path : (cluster.system machine).Path allowed world next)
    (matching : WorldMatches tier ideal world) :
    ∃ after, WorldMatches tier after next ∧ ideal.Extends after := by
  induction path with
  | refl => exact ⟨ideal, matching, .refl ideal⟩
  | step before allowance stepped ih =>
      obtain ⟨mid, reachedMid, extended⟩ := ih
      obtain ⟨_, after, steps, moved⟩ := reachedMid.step (.of_reach (reached.onward before))
        (permits mid _ _ reachedMid allowance) stepped
      exact ⟨after, moved, extended.trans (steps.sound reachedMid.sound).2.1⟩

/-- A run whose steps are permitted is matched by a run of the abstract protocol. -/
theorem of_reach {allowed : World Id machine → Action Id → Prop}
    (permits : ∀ ideal world action, WorldMatches tier ideal world →
      allowed world action → Permitted tier ideal world action)
    (reached : (cluster.system machine).Reach allowed world) :
    ∃ ideal, WorldMatches tier ideal world := by
  induction reached with
  | init => exact ⟨_, initial tier⟩
  | step history allowance stepped ih =>
      obtain ⟨ideal, matching⟩ := ih
      obtain ⟨_, next, _, moved⟩ :=
        matching.step (.of_reach history) (permits ideal _ _ matching allowance) stepped
      exact ⟨next, moved⟩

end WorldMatches

/-! ## The tiers in use -/

/-- Only the logs are followed. -/
def Tier.logs : Tier := ⟨False, False, False⟩

/-- Commits are followed as well. -/
def Tier.commits : Tier := ⟨True, False, False⟩

section Tiers

variable {cluster : Cluster Id} {world : World Id machine}

omit [Fintype Id] in
theorem Permitted.of_uncompacted {ideal : Ideal Id} {action : Action Id}
    (bare : world.Uncompacted) : Permitted .logs ideal world action where
  orderly := False.elim
  exact := False.elim
  faithful := False.elim
  uncompacted _ := bare

theorem WorldMatches.of_uncompacted
    (reached : (cluster.system machine).Reach (fun world _ => world.Uncompacted) world) :
    ∃ ideal, WorldMatches .logs ideal world :=
  WorldMatches.of_reach (fun _ _ _ _ => Permitted.of_uncompacted) reached

omit [Fintype Id] in
theorem Permitted.of_orderly {ideal : Ideal Id} {action : Action Id}
    (orderly : world.Orderly action) : Permitted .commits ideal world action where
  orderly _ := orderly
  exact := False.elim
  faithful := False.elim
  uncompacted lax := (lax trivial).elim

theorem WorldMatches.of_orderly
    (reached : (cluster.system machine).Reach World.Orderly world) :
    ∃ ideal, WorldMatches .commits ideal world :=
  WorldMatches.of_reach (fun _ _ _ _ => Permitted.of_orderly) reached

end Tiers

end RaftCanvas
