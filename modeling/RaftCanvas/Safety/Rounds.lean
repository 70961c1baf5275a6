import RaftCanvas.Cluster.CommitRule
import RaftCanvas.Cluster.Timers
import RaftCanvas.Raft.Poised
import RaftCanvas.Safety.Repair

/-!
# Rounds of log repair in the cluster

A round is a heartbeat, the answer of one peer, and its delivery.  The leader goes through
the rounds of log repair with one peer after the other; what the earlier ones hold stays.
-/

namespace RaftCanvas

variable {Id : Type} {machine : Machine}

/-! ## A leader through a round -/

namespace Node

variable {leader follower : Node Id machine} {log : List LogEntry}

/-- A leader whose log is `log` up to an entry of its own term, with the snapshot behind
what is applied and that behind what is committed. -/
structure Presides (leader : Node Id machine) (log : List LogEntry) : Prop where
  offers : Offers leader log
  own : ∀ entry ∈ log.getLast?, entry.term = leader.currentTerm
  saved_le : leader.db.lastSnapshotIndex ≤ leader.lastApplied
  applied_le : leader.lastApplied ≤ leader.commitIndex
  bound : leader.commitIndex < log.length

/-- The leader goes on with the same log, and its view of the other peers stays. -/
structure Attends (peer : Id) (log : List LogEntry) (before after : Node Id machine) :
    Prop where
  presides : Presides after log
  currentTerm : after.currentTerm = before.currentTerm
  nextIndex : ∀ other, other ≠ peer → after.nextIndex other = before.nextIndex other
  matchIndex : ∀ other, other ≠ peer → after.matchIndex other = before.matchIndex other

theorem Attends.trans {peer : Id} {before mid after : Node Id machine}
    (left : Attends peer log before mid) (right : Attends peer log mid after) :
    Attends peer log before after where
  presides := right.presides
  currentTerm := right.currentTerm.trans left.currentTerm
  nextIndex other apart := (right.nextIndex other apart).trans (left.nextIndex other apart)
  matchIndex other apart := (right.matchIndex other apart).trans (left.matchIndex other apart)

/-- Compacting keeps what the meta row says. -/
theorem maybeSnapshot_agrees (config : Config Id) {self : Node Id machine}
    (agrees : self.db.MetaAgrees) : (self.maybeSnapshot config).db.MetaAgrees := by
  rw [maybeSnapshot]
  split
  · exact agrees
  · split
    · exact agrees
    · split
      · exact agrees
      · exact ⟨rfl, rfl⟩

theorem Presides.active (presides : Presides leader log) :
    ¬(leader.stopped = true ∨ leader.role ≠ .leader) := by
  simp [presides.offers.running, presides.offers.leads]

theorem Presides.applyCommitted (presides : Presides leader log) (config : Config Id) :
    Presides (leader.applyCommitted config) log := by
  have works := leader.applyCommitted_works config
  obtain ⟨stores, saved, applied, _⟩ := applyCommitted_stores config presides.offers.stores
    presides.bound presides.saved_le presides.applied_le
  obtain ⟨_, _, frame, _⟩ := leader.applyCommitted_eq config
  have commit : (leader.applyCommitted config).commitIndex = leader.commitIndex := by
    rw [frame]
  have agrees : (leader.applyCommitted config).db.MetaAgrees := by
    refine maybeSnapshot_agrees config ?_
    rw [applyLoop_eq _ _ le_rfl]
    exact presides.offers.agrees
  exact
    { offers := ⟨works.role.trans presides.offers.leads,
        works.undisturbed.stopped.trans presides.offers.running, stores, agrees⟩
      own := fun entry last => (presides.own entry last).trans works.currentTerm.symm
      saved_le := saved.trans_eq applied.symm
      applied_le := (applied.trans commit.symm).le
      bound := commit ▸ presides.bound }

theorem Presides.maybeAdvanceCommitIndex (presides : Presides leader log)
    (config : Config Id) (peer : Id) :
    Attends peer log leader (leader.maybeAdvanceCommitIndex config) := by
  have credits := maybeAdvanceCommitIndex_matchIndex config leader
  have undisturbed : leader.Undisturbed (leader.maybeAdvanceCommitIndex config) :=
    leader.maybeAdvanceCommitIndex_undisturbed
  have goes : Presides (leader.maybeAdvanceCommitIndex config) log ∧
      (leader.maybeAdvanceCommitIndex config).currentTerm = leader.currentTerm := by
    rw [Node.maybeAdvanceCommitIndex]
    split
    · exact ⟨presides, rfl⟩
    · dsimp only
      split
      · exact ⟨presides, rfl⟩
      next n scanned =>
          obtain ⟨above, below, _⟩ := commitScan_some scanned
          have last := presides.offers.stores.lastIndex_eq
          have applied := presides.applied_le
          have raised : Presides { leader with commitIndex := n } log :=
            { presides with
              offers := { presides.offers with }
              applied_le := show leader.lastApplied ≤ n by omega
              bound := show n < log.length by omega }
          have after := raised.applyCommitted config
          exact ⟨{ after with offers := { after.offers with } },
            (applyCommitted_works config _).currentTerm⟩
  exact ⟨goes.1, goes.2, fun _ _ => by rw [undisturbed.nextIndex],
    fun _ _ => by rw [credits]⟩

/-- A leader that is credited with its whole log everywhere and has let the scan run has
committed everything. -/
theorem Presides.commits_all (presides : Presides leader log) {config : Config Id}
    (credited : ∀ peer ∈ config.peers, leader.matchIndex peer = some ((log.length : Int) - 1))
    (scanned : ¬leader.Overdue config) : leader.commitIndex = (log.length : Int) - 1 := by
  have bound := presides.bound
  by_contra short
  have stores := presides.offers.stores
  have low := stores.low
  have saved_le := presides.saved_le
  have applied_le := presides.applied_le
  obtain ⟨entry, found⟩ : ∃ entry, log[log.length - 1]? = some entry :=
    ⟨_, List.getElem?_eq_getElem (by omega)⟩
  refine scanned ⟨log.length - 1, by omega, ⟨entry, ?_, ?_⟩, ?_⟩
  · rw [stores.getEntry_above (by omega), Int.toNat_natCast]
    exact found
  · exact presides.own entry (List.getLast?_eq_getElem? ▸ found)
  · have all : config.peers.countP (fun peer =>
        ((log.length - 1 : Nat) : Int) ≤ (leader.matchIndex peer).getD (-1)) =
          config.peers.length := by
      refine List.countP_eq_length.mpr fun peer member => decide_eq_true ?_
      rw [credited peer member, Option.getD_some]
      omega
    rw [matchCount, all, Config.majority]
    omega

/-- A leader always has something to call a peer with. -/
theorem Offers.calls (offers : Offers leader log) (config : Config Id) (peer : Id) {next : Nat}
    (at_next : (leader.nextIndex peer).getD 0 = next) :
    ∃ call, leader.appendEntriesCall config peer = some call ∧ call.src = config.replicaId ∧
      call.targets = [peer] := by
  by_cases behind : (next : Int) < leader.db.firstIndex
  · obtain ⟨body, called, _⟩ := offers.snapshot config peer at_next behind
    exact ⟨_, called, rfl, rfl⟩
  · obtain ⟨body, called, _⟩ := offers.rows config peer at_next (not_lt.mp behind)
    exact ⟨_, called, rfl, rfl⟩

theorem Attends.advance {peer : Id} {before mid : Node Id machine}
    (attends : Attends peer log before mid) (config : Config Id) :
    Attends peer log before (mid.maybeAdvanceCommitIndex config) :=
  attends.trans (attends.presides.maybeAdvanceCommitIndex config peer)

/-- The requests of a heartbeat, in the order of the peers. -/
theorem foldl_sendAppendEntriesTo (config : Config Id) (self : Node Id machine)
    (peers : List Id) :
    peers.foldl (sendAppendEntriesTo config) self =
      { self with
        trace := self.trace ++
          (peers.filterMap (self.appendEntriesCall config)).map Effect.send } := by
  induction peers generalizing self with
  | nil => simp
  | cons peer peers ih =>
      rw [List.foldl_cons, sendAppendEntriesTo]
      cases asked : self.appendEntriesCall config peer with
      | none => rw [List.filterMap_cons_none asked, ih]
      | some call =>
          have same : (self.send call).appendEntriesCall config =
              self.appendEntriesCall config := rfl
          rw [List.filterMap_cons_some asked]
          dsimp only
          rw [ih, same]
          simp [send]

variable [DecidableEq Id]

/-- What a leader learns about a peer. -/
theorem Presides.learn (presides : Presides leader log) {peer : Id}
    {matchIndex : Id → Option Int} (next : Option Int)
    (kept : ∀ other, other ≠ peer → matchIndex other = leader.matchIndex other) :
    Attends peer log leader
      { leader with matchIndex, nextIndex := Function.update leader.nextIndex peer next } where
  presides := { presides with offers := { presides.offers with } }
  currentTerm := rfl
  nextIndex _ apart := Function.update_of_ne apart _ _
  matchIndex := kept

/-- A reply to rows, of no higher term: after a success everything that can be committed
is. -/
theorem Presides.finishAppendEntries (presides : Presides leader log) (config : Config Id)
    (peer : Id) (next prevLogIndex : Int) (entries : List LogEntry) {reply : Reply}
    (recent : ¬leader.currentTerm < reply.term) :
    Attends peer log leader
        (leader.finishAppendEntries config peer next prevLogIndex entries (some reply)) ∧
      (reply.success = true →
        ¬(leader.finishAppendEntries config peer next prevLogIndex entries
          (some reply)).Overdue config) := by
  rw [Node.finishAppendEntries, if_neg presides.active, if_neg recent]
  split
  · refine ⟨(presides.learn _ fun _ apart => Function.update_of_ne apart _ _).advance config,
      fun _ => (maybeAdvanceCommitIndex_rule config ?_).1⟩
    exact presides.offers.leads
  next failed => exact ⟨presides.learn _ fun _ _ => rfl, fun success => absurd success failed⟩

/-- A reply to a snapshot, of no higher term. -/
theorem Presides.finishInstallSnapshot (presides : Presides leader log) (peer : Id)
    (lastIncludedIndex : Int) {reply : Reply} (recent : ¬leader.currentTerm < reply.term) :
    Attends peer log leader
      (leader.finishInstallSnapshot peer lastIncludedIndex (some reply)) := by
  rw [Node.finishInstallSnapshot, if_neg presides.active, if_neg recent]
  exact presides.learn _ fun _ apart => Function.update_of_ne apart _ _

/-- Whatever comes of a round, the leader goes on as it was; after a success it has
committed what it can. -/
theorem exchange_attends (config peerConfig : Config Id) (peer : Id)
    (presides : Presides leader log) (trails : Trails follower leader.currentTerm log)
    {next : Nat} (at_next : (leader.nextIndex peer).getD 0 = next) :
    Attends peer log leader (exchange config peerConfig peer (leader, follower)).1 ∧
      (Succeeds config peerConfig peer (leader, follower) →
        ¬(exchange config peerConfig peer (leader, follower)).1.Overdue config) := by
  have offers := presides.offers
  have heard : Trails follower.began leader.currentTerm log := { trails with }
  have began : Presides leader.began log := { presides with offers := { offers with } }
  have resumed {after : Node Id machine} (attends : Attends peer log leader.began after) :
      Attends peer log leader after := { attends with }
  by_cases behind : (next : Int) < leader.db.firstIndex
  · obtain ⟨body, called, term, index, lastTerm⟩ := offers.snapshot config peer at_next behind
    obtain ⟨answered, _⟩ := heard.handleInstallSnapshot offers term index lastTerm
    have learned := began.finishInstallSnapshot peer leader.db.lastSnapshotIndex
      (Nat.not_lt.mpr answered.le)
    constructor
    · simp only [exchange, called]
      exact resumed learned
    · rintro ⟨call, rows, asked, request, _⟩
      rw [called] at asked
      cases asked
      cases request
  · obtain ⟨body, called, term, prev, prevTerm, entries⟩ :=
      offers.rows config peer at_next (not_lt.mp behind)
    obtain ⟨answered, _⟩ :=
      heard.handleAppendEntries offers peerConfig term prev prevTerm entries
    obtain ⟨learned, scanned⟩ := began.finishAppendEntries config peer next ((next : Int) - 1)
      body.entries (Nat.not_lt.mpr answered.le)
    constructor
    · simp only [exchange, called]
      exact resumed learned
    · rintro ⟨call, rows, asked, _, success⟩
      simp only [exchange, called]
      rw [called] at asked
      cases asked
      exact scanned success

end Node

/-! ## One round in the cluster -/

namespace World

variable [DecidableEq Id] {cluster : Cluster Id} {world later : World Id machine}
  {leader peer : Id} {log : List LogEntry}

/-- A leader replicates its log: heartbeats, deliveries of its calls, and their replies. -/
def Replicating (leader : Id) (world : World Id machine) : Action Id → Prop
  | .heartbeat self => self = leader
  | .deliver id _ | .resume id _ => ∃ call, world.calls[id]? = some call ∧ call.src = leader
  | _ => False

/-- The world after a heartbeat. -/
def beating (cluster : Cluster Id) (world : World Id machine) (self : Id) :
    World Id machine :=
  world.finish { self, after := (world.fresh self).heartbeat (cluster.config self) }

theorem beating_fresh (cluster : Cluster Id) (world : World Id machine) (self : Id) :
    (beating cluster world self).fresh self = (world.node self).began := by
  obtain ⟨calls, sent, _⟩ :=
    Node.sendAppendEntriesToAll_sends (cluster.config self) (world.fresh self)
  rw [fresh, beating, finish]
  dsimp only
  rw [Function.update_self, Node.heartbeat, sent]
  rfl

theorem beating_other (cluster : Cluster Id) (world : World Id machine) {self other : Id}
    (different : other ≠ self) : (beating cluster world self).node other = world.node other :=
  Function.update_of_ne different _ _

/-- A leader's heartbeat calls each peer that there is something to call with. -/
theorem beating_issues {self : Id} (leads : (world.node self).role = .leader)
    (asked : peer ∈ cluster.peers self) {call : Call Id machine.Blob}
    (sends : (world.node self).appendEntriesCall (cluster.config self) peer = some call) :
    ∃ id, (beating cluster world self).calls[id]? = some call ∧
      id ∈ (beating cluster world self).pending self := by
  have sent : Effect.sends ((world.fresh self).heartbeat (cluster.config self)).trace =
      (cluster.peers self).filterMap
        ((world.node self).appendEntriesCall (cluster.config self)) := by
    have active : ¬(world.fresh self).role ≠ .leader := not_not_intro leads
    rw [Node.heartbeat, Node.sendAppendEntriesToAll, if_neg active,
      Node.foldl_sendAppendEntriesTo]
    exact (List.filterMap_map ..).trans (List.filterMap_some ..)
  have member : call ∈
      Effect.sends ((world.fresh self).heartbeat (cluster.config self)).trace := by
    rw [sent]
    exact List.mem_filterMap.mpr ⟨peer, asked, sends⟩
  obtain ⟨place, found⟩ := List.mem_iff_getElem?.mp member
  refine ⟨world.calls.length + place, ?_, ?_⟩
  · show (world.calls ++ Effect.sends _)[_]? = _
    rw [List.getElem?_append_right (Nat.le_add_right _ _), Nat.add_sub_cancel_left, found]
  · show _ ∈ Function.update world.pending self _ self
    rw [Function.update_self]
    refine List.mem_append_right _ (List.mem_range'_1.mpr ⟨Nat.le_add_right _ _, ?_⟩)
    exact Nat.add_lt_add_left (List.getElem?_eq_some_iff.mp found).1 _

/-- The world after a request has been delivered. -/
def answering (cluster : Cluster Id) (world : World Id machine) (id : Nat)
    (call : Call Id machine.Blob) (target : Id) : World Id machine :=
  world.finish
    { self := target
      after := ((world.fresh target).handle (cluster.config target) call.request).1
      reply := some
        ⟨id, target, ((world.fresh target).handle (cluster.config target) call.request).2⟩ }

/-- The world after a caller has gone on. -/
def resuming (cluster : Cluster Id) (world : World Id machine) (id : Nat)
    (call : Call Id machine.Blob) (results : List (Option Reply)) : World Id machine :=
  world.finish
    { self := call.src
      after := (world.fresh call.src).resume (cluster.config call.src) call.await results
      resumed := some id }

theorem Path.beat (path : (cluster.system machine).Path (Replicating leader) world later)
    (beats : (later.node leader).heartbeatTimer = true) :
    (cluster.system machine).Path (Replicating leader) world
      (beating cluster later leader) := by
  have stepped : (cluster.system machine).step later (.heartbeat leader) =
      some (beating cluster later leader) := by
    show (later.turn cluster (.heartbeat leader)).map later.finish = _
    rw [turn, if_pos beats]
    rfl
  have permitted : Replicating leader later (.heartbeat leader) := rfl
  exact path.step permitted stepped

theorem Path.answer (path : (cluster.system machine).Path (Replicating leader) world later)
    {id : Nat} {call : Call Id machine.Blob} (issued : later.calls[id]? = some call)
    (src : call.src = leader) (targets : call.targets = [peer]) :
    (cluster.system machine).Path (Replicating leader) world
      (answering cluster later id call peer) := by
  have asked : peer ∈ call.targets := targets ▸ List.mem_cons_self
  have stepped : (cluster.system machine).step later (.deliver id peer) =
      some (answering cluster later id call peer) := by
    show (later.turn cluster (.deliver id peer)).map later.finish = _
    simp only [turn, issued, asked, if_true, Option.map_some]
    rfl
  have permitted : Replicating leader later (.deliver id peer) := ⟨call, issued, src⟩
  exact path.step permitted stepped

theorem Path.resume (path : (cluster.system machine).Path (Replicating leader) world later)
    {id : Nat} {call : Call Id machine.Blob} (issued : later.calls[id]? = some call)
    (src : call.src = leader) (targets : call.targets = [peer])
    (waits : id ∈ later.pending call.src) {reply : Reply}
    (told : ⟨id, peer, reply⟩ ∈ later.replies) :
    (cluster.system machine).Path (Replicating leader) world
      (resuming cluster later id call [some reply]) := by
  have answers : later.Answers id call.targets [some reply] = true := by
    rw [targets, Answers, Answers, Bool.and_true]
    exact decide_eq_true told
  have stepped : (cluster.system machine).step later (.resume id [some reply]) =
      some (resuming cluster later id call [some reply]) := by
    show (later.turn cluster (.resume id [some reply])).map later.finish = _
    simp only [turn, issued]
    rw [if_pos ⟨waits, answers⟩]
    rfl
  have permitted : Replicating leader later (.resume id [some reply]) :=
    ⟨call, issued, src⟩
  exact path.step permitted stepped

/-- A heartbeat, the peer's answer, and its delivery. -/
theorem exists_round (different : peer ≠ leader)
    (beats : (world.node leader).heartbeatTimer = true)
    (leads : (world.node leader).role = .leader) {call : Call Id machine.Blob}
    (sends : (world.node leader).appendEntriesCall (cluster.config leader) peer = some call)
    (src : call.src = leader) (targets : call.targets = [peer]) :
    ∃ later, (cluster.system machine).Path (Replicating leader) world later ∧
      (later.node leader, later.node peer) =
        Node.exchange (cluster.config leader) (cluster.config peer) peer
          (world.node leader, world.node peer) ∧
      ∀ other, other ≠ leader → other ≠ peer → later.node other = world.node other := by
  obtain ⟨id, issued, waits⟩ :=
    beating_issues leads ((cluster.mem_peers leader peer).mpr different) sends
  have beat := beating_fresh cluster world leader
  have others {other : Id} (apart : other ≠ leader) := beating_other cluster world apart
  have path : (cluster.system machine).Path (Replicating leader) world _ :=
    Path.beat .refl beats
  generalize beating cluster world leader = beaten at *
  have target : beaten.fresh peer = (world.node peer).began := by
    rw [fresh, others different]
    rfl
  let reply := ((beaten.fresh peer).handle (cluster.config peer) call.request).2
  have kept : (answering cluster beaten id call peer).calls[id]? = some call :=
    (List.getElem?_append_left (List.getElem?_eq_some_iff.mp issued).1).trans issued
  have pending : id ∈ (answering cluster beaten id call peer).pending call.src := by
    show id ∈ Function.update beaten.pending peer _ call.src
    rw [src, Function.update_of_ne different.symm]
    exact waits
  have told : ⟨id, peer, reply⟩ ∈ (answering cluster beaten id call peer).replies :=
    List.mem_append_right _ List.mem_cons_self
  have caller : (answering cluster beaten id call peer).fresh leader =
      (world.node leader).began := by
    rw [← beat, fresh, answering, finish]
    dsimp only
    rw [Function.update_of_ne different.symm]
    rfl
  refine ⟨_, Path.resume (Path.answer path issued src targets) kept src targets pending told,
    Prod.ext ?_ ?_, fun other notLeader notPeer => ?_⟩
  · rw [Node.exchange]
    simp only [sends, resuming, finish, src, caller, Function.update_self, target, reply]
  · rw [Node.exchange]
    simp only [sends, resuming, answering, finish, src, Function.update_of_ne different,
      Function.update_self, target]
  · rw [resuming, answering, finish, finish, src]
    dsimp only
    rw [Function.update_of_ne notLeader, Function.update_of_ne notPeer, others notLeader]

/-! ## One peer after the other -/

theorem Punctual.onward {allowed : World Id machine → Action Id → Prop}
    (punctual : world.Punctual cluster)
    (path : (cluster.system machine).Path allowed world later) : later.Punctual cluster := by
  induction path with
  | refl => exact punctual
  | step _ _ stepped ih => exact ih.step stepped

/-- A leader, and a peer that is not ahead of it. -/
structure Faces (cluster : Cluster Id) (leader peer : Id) (log : List LogEntry)
    (world : World Id machine) : Prop where
  apart : peer ≠ leader
  punctual : world.Punctual cluster
  presides : (world.node leader).Presides log
  trails : (world.node peer).Trails (world.node leader).currentTerm log

/-- What came of facing a peer: the leader goes on, and nobody else was disturbed. -/
structure Tends (cluster : Cluster Id) (leader peer : Id) (log : List LogEntry)
    (world later : World Id machine) : Prop where
  path : (cluster.system machine).Path (Replicating leader) world later
  attends : Node.Attends peer log (world.node leader) (later.node leader)
  others : ∀ other, other ≠ leader → other ≠ peer → later.node other = world.node other

theorem Tends.trans {next : World Id machine} (left : Tends cluster leader peer log world later)
    (right : Tends cluster leader peer log later next) :
    Tends cluster leader peer log world next where
  path := left.path.trans right.path
  attends := left.attends.trans right.attends
  others other notLeader notPeer :=
    (right.others other notLeader notPeer).trans (left.others other notLeader notPeer)

theorem Faces.round (faces : world.Faces cluster leader peer log) {next : Nat}
    (at_next : ((world.node leader).nextIndex peer).getD 0 = next) :
    ∃ later, Tends cluster leader peer log world later ∧
      (later.node leader, later.node peer) =
        Node.exchange (cluster.config leader) (cluster.config peer) peer
          (world.node leader, world.node peer) ∧
      (Node.Succeeds (cluster.config leader) (cluster.config peer) peer
        (world.node leader, world.node peer) →
          ¬(later.node leader).Overdue (cluster.config leader)) := by
  have offers := faces.presides.offers
  have beats : (world.node leader).heartbeatTimer = true :=
    ((faces.punctual.nodes leader).timers.1).trans (decide_eq_true offers.leads)
  obtain ⟨call, sends, src, targets⟩ := offers.calls (cluster.config leader) peer at_next
  obtain ⟨later, path, pair, others⟩ :=
    exists_round faces.apart beats offers.leads sends src targets
  have attends := Node.exchange_attends (cluster.config leader) (cluster.config peer) peer
    faces.presides faces.trails at_next
  rw [← pair] at attends
  exact ⟨later, ⟨path, attends.1, others⟩, pair, attends.2⟩

/-- The peer has the whole log, and the leader knows. -/
structure Repaired (leader peer : Id) (log : List LogEntry) (world : World Id machine) :
    Prop where
  credited : (world.node leader).matchIndex peer = some ((log.length : Int) - 1)
  copies : (world.node peer).db.Copies log log.length

/-- The rounds of log repair, in the cluster. -/
theorem Faces.exists_repaired (faces : world.Faces cluster leader peer log) {next : Nat}
    (at_next : ((world.node leader).nextIndex peer).getD 0 = next) :
    ∃ later, Tends cluster leader peer log world later ∧ later.Repaired leader peer log ∧
      ¬(later.node leader).Overdue (cluster.config leader) := by
  induction next using Nat.strong_induction_on generalizing world with
  | _ next ih =>
  obtain ⟨later, tends, pair, prompt⟩ := faces.round at_next
  have last := faces.presides.offers.stores.lastIndex_eq
  have outcome := Node.exchange_cases (cluster.config leader) (cluster.config peer) peer
    faces.presides.offers faces.trails at_next
  rw [← pair] at outcome
  have faced (trails : (later.node peer).Trails (world.node leader).currentTerm log) :
      later.Faces cluster leader peer log :=
    ⟨faces.apart, faces.punctual.onward tends.path, tends.attends.presides,
      tends.attends.currentTerm ▸ trails⟩
  rcases outcome with ⟨succeeds, credited, copies⟩ |
    ⟨keeps, trails, ⟨differs, _, lowered⟩ | ⟨_, saved, moved⟩⟩
  · exact ⟨later, tends, ⟨credited.trans (congrArg some last), copies⟩, prompt succeeds⟩
  · have positive := Node.next_pos_of_differs differs
    obtain ⟨final, more, repaired⟩ := ih (next - 1) (by omega) (faced trails)
      (lowered.trans (by omega))
    exact ⟨final, tends.trans more, repaired⟩
  · -- the snapshot has arrived, and what follows it is accepted
    have again := faced trails
    have low := faces.presides.offers.stores.low
    obtain ⟨final, more, pair, prompt⟩ := again.round
      (moved.trans (Int.toNat_of_nonneg (show 0 ≤ _ + 1 by omega)).symm)
    obtain ⟨_, succeeds, credited, copies⟩ := Node.repairs_installed (cluster.config leader)
      (cluster.config peer) peer again.presides.offers again.trails
      (by rwa [keeps.db]) (by rwa [keeps.db])
    rw [← pair] at credited copies
    exact ⟨final, tends.trans more,
      ⟨credited.trans (congrArg some again.presides.offers.stores.lastIndex_eq), copies⟩,
      prompt succeeds⟩

/-- Some peers have been repaired one after the other, and nobody else was disturbed. -/
structure Levels (cluster : Cluster Id) (leader : Id) (log : List LogEntry)
    (peers : List Id) (world later : World Id machine) : Prop where
  path : (cluster.system machine).Path (Replicating leader) world later
  presides : (later.node leader).Presides log
  currentTerm : (later.node leader).currentTerm = (world.node leader).currentTerm
  repaired : ∀ peer ∈ peers, later.Repaired leader peer log
  scanned : peers ≠ [] → ¬(later.node leader).Overdue (cluster.config leader)
  nextIndex : ∀ other, other ∉ peers →
    (later.node leader).nextIndex other = (world.node leader).nextIndex other
  others : ∀ other, other ≠ leader → other ∉ peers → later.node other = world.node other

/-- One more peer is repaired; what the others hold and are credited with stays. -/
theorem Levels.cons {next : World Id machine} {peers : List Id}
    (levels : Levels cluster leader log peers world later) (fresh : peer ∉ peers)
    (apart : ∀ other ∈ peers, other ≠ leader)
    (tends : Tends cluster leader peer log later next)
    (repaired : next.Repaired leader peer log)
    (scanned : ¬(next.node leader).Overdue (cluster.config leader)) :
    Levels cluster leader log (peer :: peers) world next where
  path := levels.path.trans tends.path
  presides := tends.attends.presides
  currentTerm := tends.attends.currentTerm.trans levels.currentTerm
  repaired other member := by
    rcases List.mem_cons.mp member with rfl | old
    · exact repaired
    · have different : other ≠ peer := fun same => fresh (same ▸ old)
      have before := levels.repaired other old
      refine ⟨(tends.attends.matchIndex other different).trans before.credited, ?_⟩
      rw [tends.others other (apart other old) different]
      exact before.copies
  scanned _ := scanned
  nextIndex other absent := by
    rw [List.mem_cons, not_or] at absent
    exact (tends.attends.nextIndex other absent.1).trans (levels.nextIndex other absent.2)
  others other notLeader absent := by
    rw [List.mem_cons, not_or] at absent
    exact (tends.others other notLeader absent.1).trans (levels.others other notLeader absent.2)

/-- All of the peers, by induction on how many. -/
theorem exists_levels (punctual : world.Punctual cluster)
    (presides : (world.node leader).Presides log)
    (natural : ∀ peer, ∃ next : Nat, ((world.node leader).nextIndex peer).getD 0 = next)
    {peers : List Id} (nodup : peers.Nodup) (apart : ∀ peer ∈ peers, peer ≠ leader)
    (trails : ∀ peer ∈ peers,
      (world.node peer).Trails (world.node leader).currentTerm log) :
    ∃ later, Levels cluster leader log peers world later := by
  induction peers with
  | nil =>
      refine ⟨world, .refl, presides, rfl, ?_, fun some => absurd rfl some, fun _ _ => rfl,
        fun _ _ _ => rfl⟩
      rintro _ ⟨⟩
  | cons peer peers ih =>
      obtain ⟨fresh, nodup⟩ := List.nodup_cons.mp nodup
      have rest : ∀ other ∈ peers, other ≠ leader :=
        fun other member => apart other (List.mem_cons_of_mem _ member)
      obtain ⟨later, levels⟩ :=
        ih nodup rest fun other member => trails other (List.mem_cons_of_mem _ member)
      have different := apart peer List.mem_cons_self
      obtain ⟨next, at_next⟩ := natural peer
      have faces : later.Faces cluster leader peer log :=
        { apart := different
          punctual := punctual.onward levels.path
          presides := levels.presides
          trails := by
            rw [levels.others peer different fresh, levels.currentTerm]
            exact trails peer List.mem_cons_self }
      rw [← levels.nextIndex peer fresh] at at_next
      obtain ⟨final, tends, repaired, scanned⟩ := faces.exists_repaired at_next
      exact ⟨final, levels.cons fresh rest tends repaired scanned⟩

/-- The leader has committed its whole log, and everybody else has it. -/
structure Level (leader : Id) (log : List LogEntry) (world : World Id machine) : Prop where
  leads : (world.node leader).role = .leader
  stores : (world.node leader).db.Stores log
  committed : (world.node leader).commitIndex = (world.node leader).db.lastIndex
  copies : ∀ peer, peer ≠ leader → (world.node peer).db.Copies log log.length

theorem Levels.level (levels : Levels cluster leader log (cluster.peers leader) world later)
    (others : cluster.peers leader ≠ []) : later.Level leader log where
  leads := levels.presides.offers.leads
  stores := levels.presides.offers.stores
  committed := by
    have committed := levels.presides.commits_all
      (fun peer member => (levels.repaired peer member).credited) (levels.scanned others)
    rw [committed, levels.presides.offers.stores.lastIndex_eq]
  copies peer different :=
    (levels.repaired peer ((cluster.mem_peers leader peer).mpr different)).copies

end World

end RaftCanvas
