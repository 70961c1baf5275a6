import Mathlib.Data.Finset.Max
import Mathlib.Data.Prod.Lex
import RaftCanvas.Cluster.Timers
import RaftCanvas.Raft.Poised

/-!
# The cluster can always elect a leader

No run leads into a dead end: from every reachable world the cluster can go on, without a
crash, to one where some replica leads and no replica is ahead of its term.  The replica
with the most recent log stands until its term is the highest; then everybody votes for it.
-/

namespace RaftCanvas

namespace Node

variable {Id : Type} {machine : Machine} {config : Config Id}

/-! ## What a request for a vote does -/

/-- What a log ends with, as votes compare it: the term, then the index. -/
def recency (db : Database Id machine.Blob) : Int ×ₗ Int :=
  toLex (db.lastTerm, db.lastIndex)

theorem upToDate_iff {db : Database Id machine.Blob} {lastLogIndex lastLogTerm : Int} :
    upToDate db lastLogIndex lastLogTerm = true ↔
      recency db ≤ toLex (lastLogTerm, lastLogIndex) := by
  rw [upToDate, decide_eq_true_eq, recency, Prod.Lex.toLex_le_toLex]
  simp only [gt_iff_lt, ge_iff_le, eq_comm]

/-- A follower of a term that has the timer armed and the same log as before. -/
structure Yields (before after : Node Id machine) (term : Nat) : Prop where
  role : after.role = .follower
  currentTerm : after.currentTerm = term
  electionTimer : after.electionTimer = true
  stopped : after.stopped = before.stopped
  recency : recency after.db = recency before.db

theorem becomeFollower_yields (self : Node Id machine) {term : Nat} (leaderId : Option Id)
    (behind : self.currentTerm < term) :
    self.Yields (self.becomeFollower term leaderId) term := by
  rw [becomeFollower]
  dsimp only
  rw [if_pos behind]
  exact ⟨rfl, rfl, rfl, rfl, rfl⟩

variable [DecidableEq Id]

/-- A higher term deposes a leader, and a candidate with the more recent log gets the
vote. -/
theorem handleRequestVote_yields {self : Node Id machine} {body : RequestVote Id}
    (behind : self.currentTerm < body.term) :
    self.Yields (self.handleRequestVote body).1 body.term ∧
      (upToDate self.db body.lastLogIndex body.lastLogTerm = true →
        (self.handleRequestVote body).2 = { term := body.term, voteGranted := true }) := by
  have yields := self.becomeFollower_yields none behind
  have free : (self.becomeFollower body.term none).votedFor = none := by
    rw [becomeFollower]
    dsimp only
    rw [if_pos behind]
    rfl
  have same : upToDate (self.becomeFollower body.term none).db body.lastLogIndex
      body.lastLogTerm = upToDate self.db body.lastLogIndex body.lastLogTerm := by
    rw [Bool.eq_iff_iff, upToDate_iff, upToDate_iff, yields.recency]
  rw [handleRequestVote]
  dsimp only
  rw [if_pos behind]
  generalize self.becomeFollower body.term none = follower at *
  rw [if_neg (by simp [yields.currentTerm]), if_neg (by simp [free]), same]
  cases upToDate self.db body.lastLogIndex body.lastLogTerm with
  | false => exact ⟨yields, fun granted => absurd granted Bool.false_ne_true⟩
  | true =>
      refine ⟨⟨yields.role, yields.currentTerm, rfl, yields.stopped, yields.recency⟩, ?_⟩
      intro _
      simp [Node.write, yields.currentTerm]

theorem becomeLeader_leads (self : Node Id machine) :
    (self.becomeLeader config).role = .leader ∧
      (self.becomeLeader config).currentTerm = self.currentTerm := by
  rw [becomeLeader]
  dsimp only
  generalize sent : sendAppendEntriesToAll config _ = node
  obtain ⟨calls, same, _⟩ := sendAppendEntriesToAll_sends config _
  rw [same] at sent
  subst sent
  exact ⟨rfl, rfl⟩

omit [DecidableEq Id] in
theorem tally_unanimous {counts : Reply → Bool} {reply : Reply} (counted : counts reply = true)
    (voters : List Id) (total : Nat) :
    tally counts reply.term (voters.map fun _ => some reply) total =
      .count (total + voters.length) := by
  induction voters generalizing total with
  | nil => rfl
  | cons voter voters ih =>
      rw [List.map_cons, tally, if_neg (Nat.lt_irrefl _), if_pos counted, ih, List.length_cons,
        Nat.add_right_comm, Nat.add_assoc]

/-- A candidate that everybody votes for leads. -/
theorem finishElection_unanimous {self : Node Id machine} {reply : Reply}
    (running : self.stopped = false) (stands : self.role = .candidate)
    (granted : reply.voteGranted = true) (current : reply.term = self.currentTerm) :
    self.finishElection config self.currentTerm (config.peers.map fun _ => some reply) =
      self.becomeLeader config := by
  rw [finishElection, if_neg (by simp [running, stands]), ← current,
    tally_unanimous granted]
  dsimp only
  rw [if_pos]
  rw [Config.majority]
  omega

end Node

namespace World

variable {Id : Type} {machine : Machine} [DecidableEq Id] {cluster : Cluster Id}
  {world next later : World Id machine} {self : Id}

/-- Nobody is stopped, and leaders send from indexes of a kind. -/
def Poised (fits : Int → Prop) (world : World Id machine) : Prop :=
  ∀ self, (world.node self).Poised fits

variable {fits : Int → Prop}

theorem Poised.step (poised : world.Poised fits) {action : Action Id}
    (suits : ∀ actor stimulus, world.Prompts action actor stimulus →
      (world.node actor).Suits fits stimulus)
    (stepped : world.step cluster action = some next) : next.Poised fits := by
  obtain ⟨actor, node, done, reply, progress, advances⟩ := step_progress stepped
  have acted : node.Poised fits := by
    cases progress with
    | handled turn taken =>
        obtain ⟨stimulus, prompts, after, _⟩ := turn_prompts taken
        have began : (world.node turn.self).began.Poised fits := poised turn.self
        rw [after]
        refine Node.respond_poised began ?_
        cases stimulus <;> exact suits turn.self _ prompts
    | interrupted | crashed => exact Node.start_poised _
  intro other
  by_cases same : other = actor
  · rw [same, advances.node_actor]
    exact acted
  · rw [advances.node_other same]
    exact poised other

theorem Poised.of_reach {allowed : World Id machine → Action Id → Prop}
    (reached : (cluster.system machine).Reach allowed world) :
    world.Poised fun _ => True :=
  reached.invariant (fun _ => Node.start_poised _) fun _ _ _ _ poised _ stepped =>
    poised.step (fun _ stimulus _ => Node.suits_any _ stimulus) stepped

/-- What an election takes: nothing crashes, no client calls, and no log is replicated. -/
def Elects (world : World Id machine) : Action Id → Prop
  | .electionTimeout _ => True
  | .deliver id _ =>
      ∃ call body, world.calls[id]? = some call ∧ call.request = .requestVote body
  | .resume id _ =>
      ∃ call termAtStart, world.calls[id]? = some call ∧ call.await = .election termAtStart
  | _ => False

/-! ## Standing for election -/

/-- The world after a node has timed out. -/
def canvassing (cluster : Cluster Id) (world : World Id machine) (self : Id) :
    World Id machine :=
  world.finish { self, after := (world.fresh self).startElection (cluster.config self) }

/-- What a node asks for that stands in the term after its own. -/
def ballot (world : World Id machine) (self : Id) : RequestVote Id where
  term := (world.node self).currentTerm + 1
  candidateId := self
  lastLogIndex := (world.node self).db.lastIndex
  lastLogTerm := (world.node self).db.lastTerm

def solicitation (cluster : Cluster Id) (world : World Id machine) (self : Id) :
    Call Id machine.Blob where
  src := self
  targets := cluster.peers self
  request := .requestVote (world.ballot self)
  await := .election ((world.node self).currentTerm + 1)

/-- A node stands in a term, with the log and under the timer it had. -/
structure Stands (before after : Node Id machine) (term : Nat) : Prop where
  role : after.role = .candidate
  currentTerm : after.currentTerm = term
  electionTimer : after.electionTimer = true
  stopped : after.stopped = before.stopped
  recency : Node.recency after.db = Node.recency before.db

theorem canvassing_self (cluster : Cluster Id) (world : World Id machine) (self : Id) :
    Stands (world.node self) ((canvassing cluster world self).node self)
      ((world.node self).currentTerm + 1) := by
  rw [canvassing, finish]
  dsimp only
  rw [Function.update_self]
  exact ⟨rfl, rfl, rfl, rfl, rfl⟩

theorem canvassing_other (cluster : Cluster Id) (world : World Id machine) {other : Id}
    (different : other ≠ self) :
    (canvassing cluster world self).node other = world.node other :=
  Function.update_of_ne different _ _

omit [DecidableEq Id] in
theorem startElection_sends (cluster : Cluster Id) (world : World Id machine) (self : Id) :
    Effect.sends ((world.fresh self).startElection (cluster.config self)).trace =
      [solicitation cluster world self] :=
  rfl

theorem canvassing_calls (cluster : Cluster Id) (world : World Id machine) (self : Id) :
    (canvassing cluster world self).calls[world.calls.length]? =
      some (solicitation cluster world self) := by
  rw [canvassing, finish]
  dsimp only
  rw [startElection_sends, List.getElem?_concat_length]

theorem canvassing_pending (cluster : Cluster Id) (world : World Id machine) (self : Id) :
    world.calls.length ∈ (canvassing cluster world self).pending self := by
  rw [canvassing, finish]
  dsimp only
  rw [Function.update_self, startElection_sends]
  exact List.mem_append_right _ List.mem_cons_self

theorem Path.canvass (path : (cluster.system machine).Path Elects world later)
    (armed : (later.node self).electionTimer = true) :
    (cluster.system machine).Path Elects world (canvassing cluster later self) := by
  have stepped : (cluster.system machine).step later (.electionTimeout self) =
      some (canvassing cluster later self) := by
    show (later.turn cluster (.electionTimeout self)).map later.finish = _
    rw [turn, if_pos armed]
    rfl
  have permitted : later.Elects (.electionTimeout self) := trivial
  exact path.step permitted stepped

/-- A node that waits for an election reaches any term. -/
theorem exists_term (armed : (world.node self).electionTimer = true) (term : Nat) :
    ∃ later, (cluster.system machine).Path Elects world later ∧
      term ≤ (later.node self).currentTerm ∧
      (later.node self).electionTimer = true ∧
      (later.node self).stopped = (world.node self).stopped ∧
      Node.recency (later.node self).db = Node.recency (world.node self).db ∧
      ∀ other, other ≠ self → later.node other = world.node other := by
  induction term with
  | zero => exact ⟨world, .refl, Nat.zero_le _, armed, rfl, rfl, fun _ _ => rfl⟩
  | succ term ih =>
      obtain ⟨later, path, high, armed, stopped, recency, others⟩ := ih
      have stands := canvassing_self cluster later self
      refine ⟨canvassing cluster later self, Path.canvass path armed, ?_, stands.electionTimer,
        stands.stopped.trans stopped, stands.recency.trans recency, fun other different => ?_⟩
      · rw [stands.currentTerm]
        omega
      · rw [canvassing_other cluster later different, others other different]

/-! ## Voting -/

/-- A request for votes is delivered to one of those that were asked. -/
def asking (world : World Id machine) (id : Nat)
    (body : RequestVote Id) (voter : Id) : World Id machine :=
  world.finish
    { self := voter
      after := ((world.fresh voter).handleRequestVote body).1
      reply := some ⟨id, voter, ((world.fresh voter).handleRequestVote body).2⟩ }

theorem Path.ask (path : (cluster.system machine).Path Elects world later) {id : Nat}
    {call : Call Id machine.Blob} {body : RequestVote Id} {voter : Id}
    (issued : later.calls[id]? = some call) (asked : voter ∈ call.targets)
    (request : call.request = .requestVote body) :
    (cluster.system machine).Path Elects world (asking later id body voter) := by
  have stepped : (cluster.system machine).step later (.deliver id voter) =
      some (asking later id body voter) := by
    show (later.turn cluster (.deliver id voter)).map later.finish = _
    simp only [turn, issued, asked, if_true, request, Option.map_some]
    rfl
  have permitted : later.Elects (.deliver id voter) := ⟨call, body, issued, request⟩
  exact path.step permitted stepped

/-- Part of the others have voted for a candidate, and nothing else has happened since it
stood. -/
structure Voting (stood : World Id machine) (candidate : Id) (id term : Nat)
    (voters : List Id) (world : World Id machine) : Prop where
  stands : world.node candidate = stood.node candidate
  calls : ∀ call, stood.calls[id]? = some call → world.calls[id]? = some call
  waits : id ∈ world.pending candidate
  granted : ∀ voter ∈ voters, ⟨id, voter, { term, voteGranted := true }⟩ ∈ world.replies
  follows : ∀ voter ∈ voters, (world.node voter).role = .follower ∧
    (world.node voter).currentTerm = term
  others : ∀ other, other ∉ voters → world.node other = stood.node other

/-- A node that is behind and has no more recent log gives its vote. -/
theorem Voting.ask {stood : World Id machine} {candidate : Id} {id : Nat}
    {body : RequestVote Id} {voters : List Id} {voter : Id}
    (voting : Voting stood candidate id body.term voters world) (other : voter ≠ candidate)
    (fresh : voter ∉ voters) (behind : (stood.node voter).currentTerm < body.term)
    (recent : Node.upToDate (stood.node voter).db body.lastLogIndex body.lastLogTerm = true) :
    Voting stood candidate id body.term (voter :: voters)
      (asking world id body voter) := by
  have same := voting.others voter fresh
  rw [← same] at behind recent
  have yields : (world.fresh voter).Yields ((world.fresh voter).handleRequestVote body).1
      body.term ∧ _ := Node.handleRequestVote_yields behind
  obtain ⟨yields, grants⟩ := yields
  constructor
  · rw [← voting.stands]
    exact Function.update_of_ne (Ne.symm other) _ _
  · intro call issued
    exact (List.getElem?_append_left (List.getElem?_eq_some_iff.mp
      (voting.calls call issued)).1).trans (voting.calls call issued)
  · show id ∈ Function.update world.pending voter _ candidate
    rw [Function.update_of_ne (Ne.symm other)]
    exact voting.waits
  · intro elector member
    refine List.mem_append.mpr ?_
    rcases List.mem_cons.mp member with rfl | old
    · rw [grants recent]
      exact .inr List.mem_cons_self
    · exact .inl (voting.granted elector old)
  · intro elector member
    by_cases same : elector = voter
    · have voted : ((asking world id body voter).node elector) =
          ((world.fresh voter).handleRequestVote body).1 := by
        rw [same]
        exact Function.update_self _ _ _
      rw [voted]
      exact ⟨yields.role, yields.currentTerm⟩
    · have kept : (asking world id body voter).node elector = world.node elector :=
        Function.update_of_ne same _ _
      rw [kept]
      exact voting.follows elector ((List.mem_cons.mp member).resolve_left same)
  · intro outsider absent
    rw [List.mem_cons, not_or] at absent
    exact (Function.update_of_ne absent.1 _ _).trans (voting.others outsider absent.2)

/-- Every node but the candidate is asked, one after the other. -/
theorem Voting.all {stood : World Id machine} {candidate : Id} {id : Nat}
    {call : Call Id machine.Blob} {body : RequestVote Id}
    (path : (cluster.system machine).Path Elects world stood)
    (issued : stood.calls[id]? = some call) (targets : call.targets = cluster.peers candidate)
    (request : call.request = .requestVote body) (waits : id ∈ stood.pending candidate)
    (behind : ∀ voter, voter ≠ candidate → (stood.node voter).currentTerm < body.term)
    (recent : ∀ voter, voter ≠ candidate →
      Node.upToDate (stood.node voter).db body.lastLogIndex body.lastLogTerm = true)
    {voters : List Id} (nodup : voters.Nodup) (peers : ∀ voter ∈ voters, voter ≠ candidate) :
    ∃ later, (cluster.system machine).Path Elects world later ∧
      Voting stood candidate id body.term voters later := by
  induction voters with
  | nil => exact ⟨stood, path, rfl, fun _ same => same, waits, nofun, nofun, fun _ _ => rfl⟩
  | cons voter voters ih =>
      obtain ⟨fresh, nodup⟩ := List.nodup_cons.mp nodup
      have other := peers voter List.mem_cons_self
      obtain ⟨later, path, voting⟩ :=
        ih nodup fun voter member => peers voter (List.mem_cons_of_mem _ member)
      have asked : voter ∈ call.targets := by
        rw [targets, cluster.mem_peers]
        exact other
      exact ⟨asking later id body voter, Path.ask path (voting.calls call issued) asked request,
        voting.ask other fresh (behind voter other) (recent voter other)⟩

theorem answers_unanimous {id : Nat} {reply : Reply} {voters : List Id}
    (replied : ∀ voter ∈ voters, ⟨id, voter, reply⟩ ∈ world.replies) :
    world.Answers id voters (voters.map fun _ => some reply) = true := by
  induction voters with
  | nil => rfl
  | cons voter voters ih =>
      rw [List.map_cons, Answers, Bool.and_eq_true]
      exact ⟨decide_eq_true (replied voter List.mem_cons_self),
        ih fun other member => replied other (List.mem_cons_of_mem _ member)⟩

/-- One node leads a term, and all others follow in it. -/
def Reigns (world : World Id machine) (self : Id) (term : Nat) : Prop :=
  (world.node self).role = .leader ∧ (world.node self).currentTerm = term ∧
    ∀ other, other ≠ self →
      (world.node other).role = .follower ∧ (world.node other).currentTerm = term

/-- Whoever waits for an election, is behind nobody and has the most recent log can win. -/
theorem exists_elected (armed : (world.node self).electionTimer = true)
    (running : (world.node self).stopped = false)
    (ahead : ∀ other, (world.node other).currentTerm ≤ (world.node self).currentTerm)
    (recent : ∀ other, Node.recency (world.node other).db ≤ Node.recency (world.node self).db) :
    ∃ later, (cluster.system machine).Path Elects world later ∧
      later.Reigns self ((world.node self).currentTerm + 1) := by
  have stands := canvassing_self cluster world self
  have issued := canvassing_calls cluster world self
  have others {other : Id} (different : other ≠ self) :=
    canvassing_other cluster world different
  obtain ⟨polled, path, voting⟩ := Voting.all (Path.canvass .refl armed) issued rfl rfl
    (canvassing_pending cluster world self)
    (fun voter different => by
      rw [others different]
      exact Nat.lt_succ_of_le (ahead voter))
    (fun voter different => by
      rw [others different, Node.upToDate_iff]
      exact recent voter)
    (cluster.peers_nodup self) (fun voter => (cluster.mem_peers self voter).mp)
  have term : (polled.fresh self).currentTerm = (world.node self).currentTerm + 1 :=
    (congrArg Node.currentTerm voting.stands).trans stands.currentTerm
  let reply : Reply := { term := (world.node self).currentTerm + 1, voteGranted := true }
  have won : (polled.fresh self).resume (cluster.config self)
      (.election ((world.node self).currentTerm + 1))
      ((cluster.peers self).map fun _ => some reply) =
        (polled.fresh self).becomeLeader (cluster.config self) := by
    have active : (polled.fresh self).stopped = false :=
      (congrArg Node.stopped voting.stands).trans (stands.stopped.trans running)
    have candidate : (polled.fresh self).role = .candidate :=
      (congrArg Node.role voting.stands).trans stands.role
    have current : reply.term = (polled.fresh self).currentTerm := term.symm
    have elected : (polled.fresh self).finishElection (cluster.config self)
        (polled.fresh self).currentTerm ((cluster.peers self).map fun _ => some reply) = _ :=
      Node.finishElection_unanimous active candidate rfl current
    rw [term] at elected
    exact elected
  have stepped : (cluster.system machine).step polled
      (.resume world.calls.length ((cluster.peers self).map fun _ => some reply)) =
        some (polled.finish
          { self
            after := (polled.fresh self).becomeLeader (cluster.config self)
            resumed := some world.calls.length }) := by
    show (polled.turn cluster (.resume _ _)).map polled.finish = _
    have answers := answers_unanimous voting.granted
    simp only [turn, voting.calls _ issued]
    rw [if_pos ⟨voting.waits, answers⟩, ← won]
    rfl
  have permitted : polled.Elects (.resume world.calls.length
      ((cluster.peers self).map fun _ => some reply)) :=
    ⟨_, _, voting.calls _ issued, rfl⟩
  have leads : ((polled.fresh self).becomeLeader (cluster.config self)).role = .leader ∧ _ :=
    (polled.fresh self).becomeLeader_leads
  obtain ⟨leads, current⟩ := leads
  refine ⟨_, path.step permitted stepped, ?_, ?_, fun other different => ?_⟩
  · simpa only [finish, Function.update_self] using leads
  · simpa only [finish, Function.update_self] using current.trans term
  · have followed : (polled.node other).role = .follower ∧
        (polled.node other).currentTerm = (world.node self).currentTerm + 1 :=
      voting.follows other ((cluster.mem_peers self other).mpr different)
    simpa only [finish, Function.update_of_ne different] using followed

/-! ## No dead end -/

/-- A continuation in which logs end as before and no term goes down. -/
structure Onward (world later : World Id machine) : Prop where
  recency : ∀ other, Node.recency (later.node other).db = Node.recency (world.node other).db
  terms : ∀ other, (world.node other).currentTerm ≤ (later.node other).currentTerm

/-- A leader that some node is ahead of can be made to wait for an election again. -/
theorem exists_deposed {top : Id} (waits : (world.node top).electionTimer = true)
    (different : self ≠ top)
    (behind : (world.node self).currentTerm ≤ (world.node top).currentTerm) :
    ∃ later, (cluster.system machine).Path Elects world later ∧ world.Onward later ∧
      (later.node self).electionTimer = true ∧
      (later.node self).stopped = (world.node self).stopped := by
  have stands := canvassing_self cluster world top
  have kept := canvassing_other cluster world different
  have asked : self ∈ (solicitation cluster world top).targets :=
    (cluster.mem_peers top self).mpr different
  have late : ((canvassing cluster world top).fresh self).currentTerm <
      (world.ballot top).term := by
    rw [fresh, kept]
    exact Nat.lt_succ_of_le behind
  have yields : Node.Yields _ _ _ ∧ _ := Node.handleRequestVote_yields late
  have moved : (asking (canvassing cluster world top) world.calls.length (world.ballot top)
      self).node self = (((canvassing cluster world top).fresh self).handleRequestVote
        (world.ballot top)).1 := Function.update_self _ _ _
  have others {other : Id} (apart : other ≠ self) :
      (asking (canvassing cluster world top) world.calls.length (world.ballot top)
        self).node other = (canvassing cluster world top).node other :=
    Function.update_of_ne apart _ _
  have same : Node.recency ((canvassing cluster world top).fresh self).db =
      Node.recency (world.node self).db := by rw [fresh, kept]
  have running : ((canvassing cluster world top).fresh self).stopped =
      (world.node self).stopped := by rw [fresh, kept]
  refine ⟨_, Path.ask (Path.canvass .refl waits) (canvassing_calls cluster world top) asked rfl,
    ⟨fun other => ?_, fun other => ?_⟩, ?_, ?_⟩
  · by_cases own : other = self
    · rw [own, moved, yields.1.recency, same]
    · rw [others own]
      by_cases first : other = top
      · rw [first, stands.recency]
      · rw [canvassing_other cluster world first]
  · by_cases own : other = self
    · rw [own, moved, yields.1.currentTerm]
      exact Nat.le_succ_of_le behind
    · rw [others own]
      by_cases first : other = top
      · rw [first, stands.currentTerm]
        exact Nat.le_succ _
      · rw [canvassing_other cluster world first]
  · rw [moved]
    exact yields.1.electionTimer
  · rw [moved, yields.1.stopped, running]

variable [Fintype Id]

/-- If nobody leads in a term that nobody is ahead of, an election can be won. -/
theorem exists_reigning [Nonempty Id] (poised : world.Poised fun _ => True)
    (punctual : world.Punctual cluster)
    (idle : ∀ self, (∀ other, (world.node other).currentTerm ≤ (world.node self).currentTerm) →
      (world.node self).role ≠ .leader) :
    ∃ later self term, (cluster.system machine).Path Elects world later ∧
      later.Reigns self term ∧ ∀ other, (world.node other).currentTerm < term := by
  have waits {self : Id} (other : (world.node self).role ≠ .leader) :
      (world.node self).electionTimer = true :=
    ((punctual.nodes self).timers.2).trans (decide_eq_true other)
  obtain ⟨top, _, highest⟩ := Finset.exists_max_image Finset.univ
    (fun self => (world.node self).currentTerm) Finset.univ_nonempty
  have idle := idle top fun other => highest other (Finset.mem_univ _)
  obtain ⟨best, _, recent⟩ := Finset.exists_max_image Finset.univ
    (fun self => Node.recency (world.node self).db) Finset.univ_nonempty
  -- The node with the most recent log is brought to wait for an election.
  have ready : ∃ later, (cluster.system machine).Path Elects world later ∧ world.Onward later ∧
      (later.node best).electionTimer = true ∧
      (later.node best).stopped = (world.node best).stopped := by
    by_cases role : (world.node best).role = .leader
    · refine exists_deposed (waits idle) ?_ (highest best (Finset.mem_univ _))
      rintro rfl
      exact idle role
    · exact ⟨world, .refl, ⟨fun _ => rfl, fun _ => Nat.le_refl _⟩, waits role, rfl⟩
  obtain ⟨ready, toReady, onward, armed, stopped⟩ := ready
  obtain ⟨above, _, bound⟩ := Finset.exists_max_image Finset.univ
    (fun self => (ready.node self).currentTerm) Finset.univ_nonempty
  -- It stands until nobody is ahead of it.
  obtain ⟨ahead, toAhead, high, armed, stopped', same, others⟩ :=
    exists_term armed (ready.node above).currentTerm
  have reaches (other : Id) :
      (ready.node other).currentTerm ≤ (ahead.node best).currentTerm :=
    Nat.le_trans (bound other (Finset.mem_univ _)) high
  obtain ⟨later, toLater, reigns⟩ := exists_elected armed
    ((stopped'.trans stopped).trans (poised best).1)
    (fun other => by
      by_cases own : other = best
      · rw [own]
      · rw [others other own]
        exact reaches other)
    (fun other => by
      by_cases own : other = best
      · rw [own]
      · rw [others other own, same, onward.recency, onward.recency]
        exact recent other (Finset.mem_univ _))
  exact ⟨later, best, _, (toReady.trans toAhead).trans toLater, reigns, fun other =>
    Nat.lt_succ_of_le (Nat.le_trans (onward.terms other) (reaches other))⟩

/-- The cluster is never stuck: some replica leads in a term that nobody is ahead of, or an
election can be won, in a new term in which all others follow the winner. -/
theorem leader_electable [Nonempty Id]
    (reached : (cluster.system machine).Reach (fun _ _ => True) world) :
    (∃ self, (world.node self).role = .leader ∧
        ∀ other, (world.node other).currentTerm ≤ (world.node self).currentTerm) ∨
      ∃ later self term, (cluster.system machine).Path Elects world later ∧
        later.Reigns self term ∧ ∀ other, (world.node other).currentTerm < term := by
  by_cases leads : ∃ self, (world.node self).role = .leader ∧
    ∀ other, (world.node other).currentTerm ≤ (world.node self).currentTerm
  · exact .inl leads
  · exact .inr (exists_reigning (.of_reach reached) (.of_reach reached)
      fun self ahead role => leads ⟨self, role, ahead⟩)

end World

/-- The leader of term 1 does not know that node 1 stands in term 2. -/
def unaware : List (Action (Fin 3)) :=
  [.electionTimeout 0, .deliver 0 1,
    .resume 0 [some { term := 1, voteGranted := true }, none], .electionTimeout 1]

theorem leader_electable_unaware :
    ∃ world : World (Fin 3) canvas,
      ((Cluster.ofFin 3 1).system canvas).Reach (fun _ _ => True) world ∧
        (world.node 0).role = .leader ∧
        ∃ later self term, ((Cluster.ofFin 3 1).system canvas).Path World.Elects world later ∧
          later.Reigns self term ∧ ∀ other, (world.node other).currentTerm < term := by
  obtain ⟨world, reached, passed⟩ :=
    ((Cluster.ofFin 3 1).system canvas).exists_reach_of_run (fun _ _ => True) unaware
      (fun world => decide ((world.node 0).role = .leader ∧
        ∀ self, (world.node self).role = .leader →
          (world.node self).currentTerm < (world.node 1).currentTerm)) (by decide +kernel)
  obtain ⟨leads, stale⟩ := of_decide_eq_true passed
  refine ⟨world, reached, leads, (World.leader_electable reached).resolve_left ?_⟩
  rintro ⟨self, role, highest⟩
  exact absurd (stale self role) (Nat.not_lt.mpr (highest 1))

end RaftCanvas
