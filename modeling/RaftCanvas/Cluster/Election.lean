import RaftCanvas.Cluster.Turns
import RaftCanvas.Raft.StateMachine

/-!
# Elections

`Electoral` ties the votes that are in flight or were ever counted to what the
files record.  It is kept by every step, crashes between two writes included.
-/

namespace RaftCanvas

theorem mem_leaderTerms {Blob : Type} {events : List (Event Blob)} {term : Nat} :
    term ∈ leaderTerms events ↔ .role .leader term ∈ events := by
  simp only [leaderTerms, List.mem_filterMap]
  constructor
  · rintro ⟨event, member, same⟩
    split at same
    next => exact Option.some.inj same ▸ member
    next => simp at same
  · intro member
    exact ⟨_, member, rfl⟩

namespace World

variable {Id : Type} {machine : Machine}

/-- `voter` has voted for `choice` in `era`: it stood itself, or a granted reply to
the request of `choice` exists. -/
def Ballot (world : World Id machine) (voter : Id) (era : Nat) (choice : Id) : Prop :=
  voter = choice ∧ (voter, .role .candidate era) ∈ world.history ∨
    ∃ call reply body asked, ⟨call, voter, reply⟩ ∈ world.replies ∧
      reply.voteGranted = true ∧ world.calls[call]? = some asked ∧
      asked.request = .requestVote body ∧ body.term = era ∧ body.candidateId = choice

variable [DecidableEq Id] [Fintype Id]

/-- The invariant of elections. -/
structure Electoral (cluster : Cluster Id) (world : World Id machine) : Prop where
  term : ∀ self, (world.node self).currentTerm = (world.node self).db.currentTerm
  vote : ∀ self, (world.node self).votedFor = (world.node self).db.votedFor
  cast : ∀ voter era choice, world.Ballot voter era choice →
    (world.node voter).db.Voted era choice
  single : ∀ voter era left right, world.Ballot voter era left →
    world.Ballot voter era right → left = right
  running : ∀ self, (world.node self).role = .candidate →
    (self, .role .candidate (world.node self).currentTerm) ∈ world.history ∧
      (self, .role .leader (world.node self).currentTerm) ∉ world.history
  led : ∀ self era, (self, .role .leader era) ∈ world.history →
    ∃ group : Finset Id, Quorum.Majority group ∧ self ∈ group ∧
      ∀ voter ∈ group, world.Ballot voter era self
  distinct : (leaderTerms (world.history.map Prod.snd)).Nodup
  calls : ∀ call ∈ world.calls, Solicits (cluster.config call.src) call
  replied : ∀ delivery ∈ world.replies, delivery.call < world.calls.length

/-- A leader announced for the term `actor` is running in, with its majority. -/
def Victory (world : World Id machine) (actor : Id) : Prop :=
  (world.node actor).role = .candidate ∧
    ∃ group : Finset Id, Quorum.Majority group ∧ actor ∈ group ∧
      ∀ voter ∈ group, world.Ballot voter (world.node actor).currentTerm actor

/-- What a step does to the votes of the node it moves. -/
structure Canvassed (cluster : Cluster Id) (world : World Id machine) (actor : Id)
    (node : Node Id machine) (done : List (Effect Id machine.Blob))
    (reply : Option (Delivery Id)) : Prop where
  term : node.currentTerm = node.db.currentTerm
  vote : node.votedFor = node.db.votedFor
  file : node.db = Effect.file (world.node actor).db done
  cuts : Node.Ballots (cluster.config actor) (world.node actor).db done
  role : node.role = .candidate → leaderTerms (Effect.events done) = [] ∧
    ((world.node actor).role = .candidate ∧
      node.currentTerm = (world.node actor).currentTerm ∨
        .role .candidate node.currentTerm ∈ Effect.events done)
  wins : leaderTerms (Effect.events done) = [] ∨
    leaderTerms (Effect.events done) = [(world.node actor).currentTerm] ∧
      world.Victory actor
  solicits : ∀ call ∈ Effect.sends done, Solicits (cluster.config call.src) call
  granted : ∀ delivery, reply = some delivery →
    delivery.responder = actor ∧ ∃ asked, world.calls[delivery.call]? = some asked ∧
      (delivery.reply.voteGranted = true → ∃ body, asked.request = .requestVote body ∧
        node.db.currentTerm = body.term ∧ node.db.votedFor = some body.candidateId)

namespace Electoral

variable {cluster : Cluster Id} {world next : World Id machine} {actor : Id}
  {node : Node Id machine} {done : List (Effect Id machine.Blob)}
  {reply : Option (Delivery Id)}

/-! ## One step -/

omit [Fintype Id] in
theorem ballot_kept (advances : world.Advances next actor node done reply)
    {voter choice : Id} {era : Nat} (ballot : world.Ballot voter era choice) :
    next.Ballot voter era choice := by
  rcases ballot with ⟨same, stood⟩ | ⟨call, answer, body, asked, replied, rest⟩
  · exact Or.inl ⟨same, advances.mem_history.mpr (Or.inr stood)⟩
  · obtain ⟨good, issued, shape⟩ := rest
    exact Or.inr ⟨call, answer, body, asked, advances.mem_replies.mpr (Or.inl replied),
      good, advances.call_kept issued, shape⟩

theorem voted_kept (canvassed : Canvassed cluster world actor node done reply)
    (advances : world.Advances next actor node done reply) {voter choice : Id}
    {era : Nat} (voted : (world.node voter).db.Voted era choice) :
    (next.node voter).db.Voted era choice := by
  by_cases acting : voter = actor
  · subst acting
    rw [advances.node_actor, canvassed.file]
    exact voted.mono canvassed.cuts.1
  · rwa [advances.node_other acting]

/-- A new ballot is one of the acting node: for itself in a term it had not seen, or
a vote its file now records for its current term. -/
theorem ballot_new (electoral : Electoral cluster world)
    (canvassed : Canvassed cluster world actor node done reply)
    (advances : world.Advances next actor node done reply) {voter choice : Id}
    {era : Nat} (ballot : next.Ballot voter era choice) :
    world.Ballot voter era choice ∨
      voter = actor ∧ node.db.Voted era choice ∧
        ((world.node actor).db.currentTerm < era ∧ choice = actor ∨
          era = node.db.currentTerm) := by
  rcases ballot with ⟨rfl, stood⟩ | ⟨call, answer, body, asked, replied, rest⟩
  · rcases advances.mem_history.mp stood with ⟨rfl, fresh⟩ | old
    · obtain ⟨later, voted⟩ := canvassed.cuts.2 era fresh
      rw [← canvassed.file] at voted
      exact Or.inr ⟨rfl, voted, Or.inl ⟨later, rfl⟩⟩
    · exact Or.inl (Or.inl ⟨rfl, old⟩)
  · obtain ⟨good, issued, request, rfl, rfl⟩ := rest
    rcases advances.mem_replies.mp replied with old | fresh
    · have before := advances.call_old (electoral.replied _ old) issued
      exact Or.inl (Or.inr ⟨call, answer, body, asked, old, good, before, request, rfl, rfl⟩)
    · obtain ⟨rfl, asked', issued', grant⟩ := canvassed.granted _ fresh
      obtain rfl : asked' = asked := by
        simpa [advances.call_kept issued'] using issued
      obtain ⟨body', request', term, vote⟩ := grant good
      obtain rfl : body' = body := by simpa [request'] using request
      exact Or.inr ⟨rfl, Or.inr ⟨term.symm, vote⟩, Or.inr term.symm⟩

/-- The acting node has no leadership on record for the term it runs in. -/
theorem no_rival (electoral : Electoral cluster world) (victory : world.Victory actor) :
    (world.node actor).currentTerm ∉ leaderTerms (world.history.map Prod.snd) := by
  intro member
  rw [mem_leaderTerms, List.mem_map] at member
  obtain ⟨⟨rival, event⟩, announced, rfl⟩ := member
  obtain ⟨running, group, majority, _, ballots⟩ := victory
  obtain ⟨group', majority', _, ballots'⟩ := electoral.led rival _ announced
  obtain ⟨voter, inGroup, inGroup'⟩ := majority.inter majority'
  obtain rfl := electoral.single voter _ _ _ (ballots voter inGroup)
    (ballots' voter inGroup')
  exact (electoral.running actor running).2 announced

/-- An old ballot of the acting node is still in its file: a new one of the same term is
for the same choice. -/
theorem ballot_again (electoral : Electoral cluster world)
    (canvassed : Canvassed cluster world actor node done reply)
    (advances : world.Advances next actor node done reply) {era : Nat} {former fresh : Id}
    (old : world.Ballot actor era former) (voted : node.db.Voted era fresh)
    (origin : (world.node actor).db.currentTerm < era ∧ fresh = actor ∨
      era = node.db.currentTerm) : former = fresh := by
  have cast := electoral.cast actor era former old
  rcases origin with ⟨later, _⟩ | rfl
  · rcases cast with passed | ⟨same, _⟩ <;> omega
  · have kept := voted_kept canvassed advances cast
    rw [advances.node_actor] at kept
    exact kept.unique voted

/-- Nobody casts two ballots in one term. -/
theorem ballot_unique (electoral : Electoral cluster world)
    (canvassed : Canvassed cluster world actor node done reply)
    (advances : world.Advances next actor node done reply) {voter left right : Id} {era : Nat}
    (ballotLeft : next.Ballot voter era left) (ballotRight : next.Ballot voter era right) :
    left = right := by
  rcases electoral.ballot_new canvassed advances ballotLeft with
    oldLeft | ⟨rfl, votedLeft, originLeft⟩
  · rcases electoral.ballot_new canvassed advances ballotRight with
      oldRight | ⟨rfl, votedRight, originRight⟩
    · exact electoral.single voter era left right oldLeft oldRight
    · exact electoral.ballot_again canvassed advances oldLeft votedRight originRight
  · rcases electoral.ballot_new canvassed advances ballotRight with
      oldRight | ⟨_, votedRight, originRight⟩
    · exact (electoral.ballot_again canvassed advances oldRight votedLeft originLeft).symm
    · rcases originLeft with ⟨_, rfl⟩ | rfl
      · rcases originRight with ⟨_, rfl⟩ | rfl
        · rfl
        · exact votedLeft.unique votedRight
      · exact votedLeft.unique votedRight

/-- A candidate has stood for the term it runs in, and nobody has led that term. -/
theorem candidate_runs (electoral : Electoral cluster world)
    (canvassed : Canvassed cluster world actor node done reply)
    (advances : world.Advances next actor node done reply) (candidate : node.role = .candidate) :
    (actor, .role .candidate node.currentTerm) ∈ next.history ∧
      (actor, .role .leader node.currentTerm) ∉ next.history := by
  obtain ⟨no_win, origin⟩ := canvassed.role candidate
  have unannounced : .role .leader node.currentTerm ∉ Effect.events done := by
    rw [← mem_leaderTerms, no_win]
    simp
  rcases origin with ⟨before, same⟩ | stood
  · obtain ⟨stood, unled⟩ := electoral.running actor before
    rw [same] at unannounced ⊢
    refine ⟨advances.mem_history.mpr (Or.inr stood), fun announced => ?_⟩
    rcases advances.mem_history.mp announced with ⟨_, fresh⟩ | old
    · exact unannounced fresh
    · exact unled old
  · refine ⟨advances.mem_history.mpr (Or.inl ⟨rfl, stood⟩), fun announced => ?_⟩
    rcases advances.mem_history.mp announced with ⟨_, fresh⟩ | old
    · exact unannounced fresh
    · -- a term that was led before is not new
      obtain ⟨group, _, inside, ballots⟩ := electoral.led actor _ old
      have seen := electoral.cast _ _ _ (ballots actor inside)
      have later := (canvassed.cuts.2 _ stood).1
      rcases seen with passed | ⟨reached, _⟩ <;> omega

omit [Fintype Id] in
theorem leaderTerms_advance (advances : world.Advances next actor node done reply) :
    leaderTerms (next.history.map Prod.snd) =
      (leaderTerms (Effect.events done)).reverse ++
        leaderTerms (world.history.map Prod.snd) := by
  rw [advances.history_eq, List.map_append, leaderTerms_append]
  congr 1
  simp [leaderTerms, ← List.map_reverse, List.filterMap_reverse]

theorem advance (electoral : Electoral cluster world)
    (canvassed : Canvassed cluster world actor node done reply)
    (advances : world.Advances next actor node done reply) :
    Electoral cluster next where
  term self := by
    by_cases acting : self = actor
    · subst acting
      rw [advances.node_actor, canvassed.term]
    · rw [advances.node_other acting, electoral.term self]
  vote self := by
    by_cases acting : self = actor
    · subst acting
      rw [advances.node_actor, canvassed.vote]
    · rw [advances.node_other acting, electoral.vote self]
  cast voter era choice ballot := by
    rcases electoral.ballot_new canvassed advances ballot with old | ⟨rfl, voted, _⟩
    · exact voted_kept canvassed advances (electoral.cast voter era choice old)
    · rwa [advances.node_actor]
  single _ _ _ _ := electoral.ballot_unique canvassed advances
  running self candidate := by
    by_cases acting : self = actor
    · subst acting
      rw [advances.node_actor] at candidate ⊢
      exact electoral.candidate_runs canvassed advances candidate
    · rw [advances.node_other acting] at candidate ⊢
      obtain ⟨stood, unled⟩ := electoral.running self candidate
      refine ⟨advances.mem_history.mpr (Or.inr stood), fun announced => ?_⟩
      rcases advances.mem_history.mp announced with ⟨same, _⟩ | old
      · exact acting same
      · exact unled old
  led self era announced := by
    have kept : ∀ {group : Finset Id} {term : Nat},
        (∀ voter ∈ group, world.Ballot voter term self) →
        ∀ voter ∈ group, next.Ballot voter term self :=
      fun ballots voter inside => ballot_kept advances (ballots voter inside)
    rcases advances.mem_history.mp announced with ⟨rfl, fresh⟩ | old
    · rw [← mem_leaderTerms] at fresh
      rcases canvassed.wins with no_win | ⟨win, _, group, majority, inside, ballots⟩
      · simp [no_win] at fresh
      · obtain rfl : era = (world.node self).currentTerm := by simpa [win] using fresh
        exact ⟨group, majority, inside, kept ballots⟩
    · obtain ⟨group, majority, inside, ballots⟩ := electoral.led self era old
      exact ⟨group, majority, inside, kept ballots⟩
  distinct := by
    rw [leaderTerms_advance advances]
    rcases canvassed.wins with no_win | ⟨win, victory⟩
    · simpa [no_win] using electoral.distinct
    · rw [win, List.reverse_singleton, List.singleton_append, List.nodup_cons]
      exact ⟨electoral.no_rival victory, electoral.distinct⟩
  calls call member := by
    rcases advances.mem_calls.mp member with old | fresh
    · exact electoral.calls call old
    · exact canvassed.solicits call fresh
  replied delivery member := by
    rw [advances.calls_eq, List.length_append]
    rcases advances.mem_replies.mp member with old | fresh
    · exact (electoral.replied delivery old).trans_le (Nat.le_add_right _ _)
    · obtain ⟨_, asked, issued, _⟩ := canvassed.granted delivery fresh
      exact (List.getElem?_eq_some_iff.mp issued).1.trans_le (Nat.le_add_right _ _)

/-! ## Every step of the cluster -/

/-- The votes an election that was won has counted. -/
theorem won_votes (electoral : Electoral cluster world) {id termAtStart : Nat}
    {call : Call Id machine.Blob} {results : List (Option Reply)}
    (issued : world.calls[id]? = some call) (awaits : call.await = .election termAtStart)
    (answers : world.Answers id call.targets results = true)
    (won : (world.fresh call.src).Won (cluster.config call.src) termAtStart results) :
    ∃ body, call.request = .requestVote body ∧
      body.term = (world.node call.src).currentTerm ∧ body.candidateId = call.src ∧
      ∃ group : Finset Id, Quorum.Majority group ∧ call.src ∈ group ∧
        ∀ voter ∈ group, voter ≠ call.src →
          ∃ reply, ⟨id, voter, reply⟩ ∈ world.replies ∧ reply.voteGranted = true := by
  obtain ⟨_, current, votes, tallied, enough⟩ := won
  obtain ⟨body, request, asked, candidate, targets⟩ :=
    electoral.calls call (List.mem_of_getElem? issued) _ awaits
  rw [show call.targets = cluster.peers call.src from targets] at answers
  exact ⟨body, request, asked.trans current.symm, candidate,
    cluster.majority_of_answers answers tallied enough⟩

theorem victory (electoral : Electoral cluster world) {id termAtStart : Nat}
    {call : Call Id machine.Blob} {results : List (Option Reply)}
    (issued : world.calls[id]? = some call) (awaits : call.await = .election termAtStart)
    (answers : world.Answers id call.targets results = true)
    (won : (world.fresh call.src).Won (cluster.config call.src) termAtStart results) :
    world.Victory call.src := by
  obtain ⟨body, request, asked, candidate, group, majority, inside, granted⟩ :=
    electoral.won_votes issued awaits answers won
  have running : (world.node call.src).role = .candidate := won.1
  refine ⟨running, group, majority, inside, fun voter member => ?_⟩
  by_cases own : voter = call.src
  · subst own
    exact Or.inl ⟨rfl, (electoral.running _ running).1⟩
  · obtain ⟨reply, replied, good⟩ := granted voter member own
    exact Or.inr ⟨id, reply, body, call, replied, good, issued, request, asked, candidate⟩

/-- Handlers other than the end of an election win nothing. -/
theorem turn_canvass (electoral : Electoral cluster world)
    {action : Action Id} {turn : Turn Id machine}
    (taken : world.turn cluster action = some turn) :
    ∃ wins, Node.Canvass (cluster.config turn.self) (world.fresh turn.self) wins
        turn.after ∧
      (wins = [] ∨ wins = [(world.node turn.self).currentTerm] ∧
        world.Victory turn.self) := by
  obtain ⟨self, after, reply, resumed⟩ := turn
  obtain ⟨stimulus, prompts, same, _⟩ := turn_prompts taken
  dsimp only at prompts same ⊢
  rw [same]
  have start : Node.Canvass (cluster.config self) (world.fresh self) [] (world.fresh self) :=
    .start (electoral.term self) (electoral.vote self) rfl
  cases prompts with
  | electionTimeout => exact ⟨[], start.startElection, Or.inl rfl⟩
  | heartbeat => exact ⟨[], start.sendAppendEntriesToAll, Or.inl rfl⟩
  | submit => exact ⟨[], start.submit _ _ _, Or.inl rfl⟩
  | readIndex => exact ⟨[], start.startReadIndex _, Or.inl rfl⟩
  | deliver => exact ⟨[], start.handle _, Or.inl rfl⟩
  | @resume id results call issued answers =>
      rcases start.resume call.await results with kept | ⟨termAtStart, awaits, won, kept⟩
      · exact ⟨[], kept, Or.inl rfl⟩
      · exact ⟨_, kept, Or.inr ⟨rfl, electoral.victory issued awaits answers won⟩⟩
  | resumeSubmit => exact ⟨[], start.resumeSubmit _, Or.inl rfl⟩
  | submitTimeout => exact ⟨[], start.submitTimeout _, Or.inl rfl⟩
  | pollRead => exact ⟨[], start.pollRead _, Or.inl rfl⟩

omit [Fintype Id] in
/-- Only deliveries reply, and a granted vote is in the file by then. -/
theorem turn_granted {action : Action Id} {turn : Turn Id machine}
    (taken : world.turn cluster action = some turn) {delivery : Delivery Id}
    (replied : turn.reply = some delivery) :
    delivery.responder = turn.self ∧
      ∃ asked, world.calls[delivery.call]? = some asked ∧
        (delivery.reply.voteGranted = true → ∃ body, asked.request = .requestVote body ∧
          turn.after.db.currentTerm = body.term ∧
          turn.after.db.votedFor = some body.candidateId) := by
  obtain ⟨_, prompts, same, answers⟩ := turn_prompts taken
  obtain ⟨request, rfl, acted, responder, answer⟩ := answers delivery replied
  obtain ⟨id, call, delivered, issued, _, rfl⟩ := prompts.request
  obtain ⟨rfl, _⟩ := Action.deliver.inj (acted.symm.trans delivered)
  refine ⟨responder, call, issued, fun granted => ?_⟩
  rw [same]
  exact Node.handle_granted (answer ▸ granted)

omit [DecidableEq Id] [Fintype Id] in
theorem start_quiet (db : Database Id machine.Blob) :
    (Node.start db).role = .follower ∧ (Node.start db).db = db ∧
      (Node.start db).currentTerm = db.currentTerm ∧
      (Node.start db).votedFor = db.votedFor := by
  unfold Node.start
  cases db.loadLatestSnapshot <;> simp [Node.becomeFollower, Node.emit]

theorem progress_canvassed (electoral : Electoral cluster world) {action : Action Id}
    (progress : world.Progress cluster action actor node done reply) :
    Canvassed cluster world actor node done reply := by
  have sent : ∀ {self : Id} {wins : List Nat} {after : Node Id machine}
      {done : List (Effect Id machine.Blob)},
      Node.Canvass (cluster.config self) (world.fresh self) wins after →
      done <+: after.trace →
      ∀ call ∈ Effect.sends done, Solicits (cluster.config call.src) call := by
    intro self wins after done canvass cut call member
    obtain ⟨src, solicits⟩ :=
      canvass.solicits call ((Effect.sends_prefix cut).subset member)
    rw [src]
    exact solicits
  cases progress with
  | handled turn taken =>
      obtain ⟨wins, canvass, won⟩ := electoral.turn_canvass taken
      exact {
        term := canvass.term
        vote := canvass.vote
        file := canvass.file
        cuts := canvass.cuts.self
        role := fun running => by
          obtain ⟨none_won, origin⟩ := canvass.role running
          exact ⟨canvass.wins.trans none_won, origin⟩
        wins := by rwa [canvass.wins]
        solicits := sent canvass List.prefix_rfl
        granted := fun _ replied => turn_granted taken replied }
  | interrupted inner effects turn _ taken =>
      obtain ⟨wins, canvass, won⟩ := electoral.turn_canvass taken
      have cut := List.take_prefix effects turn.after.trace
      obtain ⟨role, file, term, vote⟩ :=
        start_quiet (Effect.file (world.node turn.self).db (turn.after.trace.take effects))
      exact {
        term := by rw [term, file]
        vote := by rw [vote, file]
        file := file
        cuts := canvass.cuts _ cut
        role := fun running => by simp [role] at running
        wins := by
          have some_wins : leaderTerms (Effect.events (turn.after.trace.take effects)) <+:
              wins := by
            rw [← canvass.wins]
            exact (Effect.events_prefix cut).filterMap _
          rcases won with rfl | ⟨rfl, victory⟩
          · exact Or.inl (List.prefix_nil.mp some_wins)
          · rcases List.prefix_cons_iff.mp some_wins with none_won | ⟨rest, all, nothing⟩
            · exact Or.inl none_won
            · rw [List.prefix_nil.mp nothing] at all
              exact Or.inr ⟨all, victory⟩
        solicits := sent canvass cut
        granted := fun _ replied => by simp at replied }
  | crashed self _ =>
      obtain ⟨role, file, term, vote⟩ := start_quiet (world.node actor).db
      exact {
        term := by rw [term, file]
        vote := by rw [vote, file]
        file := file
        cuts := ⟨.refl _, fun era seen => by simp at seen⟩
        role := fun running => by simp [role] at running
        wins := Or.inl rfl
        solicits := fun call member => by simp at member
        granted := fun _ replied => by simp at replied }

omit [DecidableEq Id] in
theorem initial (cluster : Cluster Id) : Electoral cluster (init : World Id machine) where
  term self := rfl
  vote self := rfl
  cast voter era choice ballot := by
    rcases ballot with ⟨_, stood⟩ | ⟨_, _, _, _, replied, _⟩
    · simp [init] at stood
    · simp [init] at replied
  single voter era left right ballot := by
    rcases ballot with ⟨_, stood⟩ | ⟨_, _, _, _, replied, _⟩
    · simp [init] at stood
    · simp [init] at replied
  running self candidate := by
    have role : ((init : World Id machine).node self).role = .follower := rfl
    simp [role] at candidate
  led self era announced := by simp [init] at announced
  distinct := by simp [init]
  calls call member := by simp [init] at member
  replied delivery member := by simp [init] at member

/-- The invariant holds throughout every run. -/
theorem of_reach {allowed : World Id machine → Action Id → Prop}
    (reached : (cluster.system machine).Reach allowed world) :
    Electoral cluster world := by
  refine reached.invariant (initial cluster) ?_
  intro state action after _ electoral _ stepped
  obtain ⟨actor, node, done, reply, progress, advances⟩ := step_progress stepped
  exact electoral.advance (electoral.progress_canvassed progress) advances

end Electoral

end World

/-- Election safety: in every run, with crashes between any two writes, no term is
ever announced by two leaders nor twice by one. -/
theorem election_safety {Id : Type} [DecidableEq Id] [Fintype Id] (cluster : Cluster Id)
    (machine : Machine) (world : World Id machine)
    (reached : (cluster.system machine).Reach (fun _ _ => True) world) :
    (leaderTerms (world.history.map Prod.snd)).Nodup :=
  (World.Electoral.of_reach reached).distinct

/-- A run in which the leader of term `1` dies after granting its vote for term `2`,
inside the handler, and stands again. -/
def reelection : List (Action (Fin 3)) :=
  [.electionTimeout 0, .deliver 0 1,
    .resume 0 [some { term := 1, voteGranted := true }, none],
    .electionTimeout 1, .crashDuring (.deliver 3 0) 3, .deliver 3 2,
    .resume 3 [none, some { term := 2, voteGranted := true }],
    .electionTimeout 0, .deliver 6 2,
    .resume 6 [none, some { term := 3, voteGranted := true }]]

theorem election_safety_reelection : ∃ world : World (Fin 3) canvas,
    ((Cluster.ofFin 3 1).system canvas).Reach (fun _ _ => True) world ∧
      leaderTerms (world.history.map Prod.snd) = [3, 2, 1] ∧
        (leaderTerms (world.history.map Prod.snd)).Nodup := by
  obtain ⟨world, reached, passed⟩ :=
    ((Cluster.ofFin 3 1).system canvas).exists_reach_of_run (fun _ _ => True) reelection
      (fun world => leaderTerms (world.history.map Prod.snd) = [3, 2, 1])
      (by decide +kernel)
  exact ⟨world, reached, of_decide_eq_true passed, election_safety _ _ world reached⟩

end RaftCanvas
