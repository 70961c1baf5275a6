import RaftCanvas.Cluster.Turns
import RaftCanvas.Raft.StateMachine

/-!
# The leader commit rule

A leader commits the greatest eligible index when an acknowledgement arrives, and only
then.  Hence nothing stays behind as long as no other step makes an index eligible:
winning an election without peers, an append that a majority is already credited with,
or the reply to a snapshot.
-/

namespace RaftCanvas

/-- `majority` is more than half of the replicas. -/
theorem Config.majority_le {Id : Type} (config : Config Id) (count : Nat) :
    config.majority ≤ count ↔ config.peers.length + 1 < 2 * count := by
  rw [majority]
  omega

namespace Node

variable {Id : Type} {machine : Machine} [DecidableEq Id]

omit [DecidableEq Id] in
/-- An index of the log that could be committed and is not. -/
def Overdue (config : Config Id) (self : Node Id machine) : Prop :=
  ∃ n : Nat, self.commitIndex < n ∧ self.Eligible config n

/-- The commit index went up to the greatest index that is eligible once the
acknowledgement is counted. -/
def Raises (config : Config Id) (self after : Node Id machine) : Prop :=
  self.commitIndex < after.commitIndex ∧
  ({ self with matchIndex := after.matchIndex } : Node Id machine).Eligible config
    after.commitIndex ∧
  ∀ n, after.commitIndex < n →
    ¬({ self with matchIndex := after.matchIndex } : Node Id machine).Eligible config n

/-- The stimulus makes no index eligible behind the back of the scan. -/
def Prompt (config : Config Id) (self : Node Id machine) :
    Stimulus Id machine.Blob → Prop
  | .resume (.election termAtStart) _ =>
      self.role = .candidate → self.currentTerm = termAtStart → config.peers ≠ []
  | .submit _ _ payload =>
      self.role = .leader → self.dedupeIndex payload = none →
        self.commitIndex ≤ self.db.lastIndex →
          self.matchCount config (self.db.lastIndex + 1) < config.majority
  | .resume (.installSnapshot peer lastIncludedIndex) results =>
      ∀ body, results.head?.join = some body → body.term ≤ self.currentTerm →
        self.role = .leader → ∀ n, self.commitIndex < n → n ≤ lastIncludedIndex →
          ¬(self.credit peer lastIncludedIndex).Eligible config n
  | _ => True

variable {config : Config Id} {self after : Node Id machine}

omit [DecidableEq Id] in
/-- Fewer rows and the same copies make nothing eligible. -/
theorem Eligible.mono (rows : ∀ n entry, after.db.getEntry n = some entry →
    self.db.getEntry n = some entry) (currentTerm : after.currentTerm = self.currentTerm)
    (matchIndex : after.matchIndex = self.matchIndex) {n : Int}
    (eligible : after.Eligible config n) : self.Eligible config n := by
  obtain ⟨⟨entry, found, same⟩, enough⟩ := eligible
  refine ⟨⟨entry, rows n entry found, same.trans currentTerm⟩, ?_⟩
  rwa [matchCount, matchIndex] at enough

omit [DecidableEq Id] in
theorem Alike.overdue (alike : self.Alike after) (overdue : after.Overdue config) :
    self.Overdue config := by
  obtain ⟨n, above, eligible⟩ := overdue
  refine ⟨n, alike.commitIndex ▸ above, eligible.mono ?_ alike.currentTerm alike.matchIndex⟩
  intro index entry found
  rwa [Database.getEntry, alike.log] at found

omit [DecidableEq Id] in
/-- The scan that follows an acknowledgement leaves nothing behind. -/
theorem maybeAdvanceCommitIndex_rule (config : Config Id) (leads : self.role = .leader) :
    ¬(self.maybeAdvanceCommitIndex config).Overdue config ∧
      ((self.maybeAdvanceCommitIndex config).commitIndex = self.commitIndex ∨
        self.Raises config (self.maybeAdvanceCommitIndex config)) := by
  have reach : ∀ n, self.commitIndex < n → self.Eligible config n →
      self.db.lastIndex - ((self.db.lastIndex - self.commitIndex).toNat : Int) < n ∧
        n ≤ self.db.lastIndex := by
    rintro n above ⟨⟨entry, found, _⟩, _⟩
    have below := Database.getEntry_le found
    omega
  rw [maybeAdvanceCommitIndex, if_neg (not_not.mpr leads)]
  dsimp only
  split
  next scanned =>
      refine ⟨?_, Or.inl rfl⟩
      rintro ⟨n, above, eligible⟩
      obtain ⟨low, high⟩ := reach n above eligible
      exact commitScan_none scanned low high eligible
  next n scanned =>
      obtain ⟨above, below, eligible, greatest⟩ := commitScan_some scanned
      have highest : ∀ later, n < later → ¬self.Eligible config later := fun later after also =>
        greatest later after (reach later (by omega) also).2 also
      obtain ⟨db, more, same, _⟩ :=
        ({ self with commitIndex := n } : Node Id machine).applyCommitted_eq config
      have commitIndex : ({ self with commitIndex := n }.applyCommitted config).commitIndex =
          n := by rw [same]
      have matchIndex : ({ self with commitIndex := n }.applyCommitted config).matchIndex =
          self.matchIndex := by rw [same]
      have currentTerm : ({ self with commitIndex := n }.applyCommitted config).currentTerm =
          self.currentTerm := by rw [same]
      refine ⟨?_, Or.inr ?_⟩
      · rintro ⟨later, after, also⟩
        refine highest later (commitIndex ▸ after) (Eligible.mono ?_ currentTerm matchIndex also)
        exact applyCommitted_rows config { self with commitIndex := n }
      · have unchanged : ({ self with
            matchIndex := ({ self with commitIndex := n }.applyCommitted config).matchIndex
            } : Node Id machine) = self := by rw [matchIndex]
        refine ⟨?_, ?_, ?_⟩
        · exact (show self.commitIndex < n by omega).trans_eq commitIndex.symm
        · exact unchanged.symm ▸ commitIndex.symm ▸ eligible
        · exact fun later after => unchanged.symm ▸ highest later (commitIndex ▸ after)

/-- Whoever wins has no acknowledgement but its own. -/
theorem becomeLeader_commit (config : Config Id) (self : Node Id machine) :
    (self.becomeLeader config).commitIndex = self.commitIndex ∧
      (self.becomeLeader config).matchIndex =
        fun peer => if peer ∈ config.peers then some (-1) else none := by
  obtain ⟨calls, sent, _⟩ :=
    (({ self with
      electionTimer := false
      role := .leader
      leaderId := some config.replicaId
      nextIndex := fun peer => if peer ∈ config.peers then some (self.db.lastIndex + 1)
        else none
      matchIndex := fun peer => if peer ∈ config.peers then some (-1) else none
      }.emit (.role .leader self.currentTerm)).appendLocal .noop .null).1
      |>.sendAppendEntriesToAll_sends config
  have commitIndex := congrArg Node.commitIndex sent
  have matchIndex := congrArg Node.matchIndex sent
  rw [becomeLeader]
  exact ⟨commitIndex, matchIndex⟩

theorem becomeLeader_rule (peers : config.peers ≠ []) :
    ¬(self.becomeLeader config).Overdue config := by
  rintro ⟨n, _, _, enough⟩
  have alone : (self.becomeLeader config).matchCount config n = 1 := by
    rw [matchCount, (becomeLeader_commit config self).2, Nat.add_eq_left,
      List.countP_eq_zero]
    intro peer member
    simp only [member, if_true, Option.getD_some, decide_eq_true_eq]
    omega
  have some_peer := List.length_pos_iff.mpr peers
  rw [alone, config.majority_le] at enough
  omega

omit [DecidableEq Id] in
/-- An append makes only its own index eligible. -/
theorem appendLocal_rule {type : EntryType} {payload : Json}
    (overdue : (self.appendLocal type payload).1.Overdue config) :
    self.Overdue config ∨ self.commitIndex ≤ self.db.lastIndex ∧
      config.majority ≤ self.matchCount config (self.db.lastIndex + 1) := by
  obtain ⟨n, above, ⟨entry, found, term⟩, enough⟩ := overdue
  have above' : self.commitIndex < n := above
  have row : (if (n : Int) = self.db.lastIndex + 1 then _ else self.db.getEntry n) =
      some entry := (Database.getEntry_appendEntries rfl n).symm.trans found
  split at row
  next last => exact Or.inr ⟨by omega, last ▸ enough⟩
  next => exact Or.inl ⟨n, above, ⟨entry, row, term⟩, enough⟩

/-- A credit makes nothing eligible above its index. -/
theorem credit_rule {peer : Id} {index n : Int} (above : index < n)
    (eligible : (self.credit peer index).Eligible config n) : self.Eligible config n := by
  obtain ⟨row, enough⟩ := eligible
  refine ⟨row, enough.trans (Nat.add_le_add_left (List.countP_mono_left ?_) 1)⟩
  intro other _ holds
  by_cases same : other = peer
  · subst same
    simp [credit] at holds
    omega
  · simpa [credit, Function.update_of_ne same] using holds

/-- What a stimulus leaves behind in a leader, and where it raises the commit index to. -/
theorem Led.rule {stimulus : Stimulus Id machine.Blob} (led : Led config self stimulus after)
    (leads : after.role = .leader) :
    (after.commitIndex = self.commitIndex ∨ self.Raises config after) ∧
      (self.Prompt config stimulus → (self.role = .leader → ¬self.Overdue config) →
        ¬after.Overdue config) := by
  cases led with
  | idle alike =>
      exact ⟨Or.inl alike.commitIndex, fun _ punctual overdue =>
        punctual (alike.role ▸ leads) (alike.overdue overdue)⟩
  | elected stands current =>
      exact ⟨Or.inl (becomeLeader_commit config self).1, fun prompt _ =>
        becomeLeader_rule (prompt stands current)⟩
  | appended office new alike =>
      refine ⟨Or.inl alike.commitIndex, fun prompt punctual overdue => ?_⟩
      rcases appendLocal_rule (alike.overdue overdue) with before | ⟨within, enough⟩
      · exact punctual office before
      · exact absurd (prompt office new within) (Nat.not_lt.mpr enough)
  | @acknowledged peer _ _ _ _ index nextIndex office =>
      have credited : ({ self.credit peer index with nextIndex } : Node Id machine).role =
        .leader := office
      obtain ⟨scanned, raised⟩ := maybeAdvanceCommitIndex_rule config credited
      exact ⟨raised, fun _ _ => scanned⟩
  | @installed peer lastIncludedIndex _ _ _ office answered recent =>
      refine ⟨Or.inl rfl, fun prompt punctual => ?_⟩
      rintro ⟨n, above, eligible⟩
      by_cases covered : (n : Int) ≤ lastIncludedIndex
      · exact prompt _ answered recent office n above covered eligible
      · exact punctual office ⟨n, above, credit_rule (not_le.mp covered) eligible⟩

/-- The commit rule, for every peer list: as long as every stimulus is `Prompt`, no
leader has left an index uncommitted; and a leader raises its commit index to nothing
but the greatest eligible index. -/
theorem commit_rule_exact (config : Config Id) (machine : Machine) (self : Node Id machine)
    (reached : (life config machine).Reach (fun self stimulus => self.Prompt config stimulus)
      self) :
    (self.role = .leader → ¬self.Overdue config) ∧
    ∀ stimulus after, (life config machine).step self stimulus = some after →
      after.role = .leader →
        after.commitIndex = self.commitIndex ∨ self.Raises config after := by
  constructor
  · induction reached with
    | init => exact fun leads => nomatch leads
    | step _ prompt stepped punctual =>
        obtain rfl := Option.some.inj stepped
        exact fun leads => ((respond_leader leads).rule leads).2 prompt punctual
  · rintro stimulus _ ⟨rfl⟩ leads
    exact ((respond_leader leads).rule leads).1

theorem life_respond {self : Node Id machine}
    (lived : (life config machine).Reach (fun _ _ => True) self)
    (stimulus : Stimulus Id machine.Blob) :
    (life config machine).Reach (fun _ _ => True) (self.began.respond config stimulus) :=
  lived.step trivial
    (show (life config machine).step self stimulus = some _ from rfl)

end Node

/-- Replica 0 of three wins term `1`. -/
def victor : Node (Fin 3) canvas :=
  ((Node.start .empty).began.respond ((Cluster.ofFin 3 1).config 0)
    .electionTimeout).began.respond ((Cluster.ofFin 3 1).config 0)
      (.resume (.election 1) [some { term := 1, voteGranted := true }, none])

/-- Replica 1 has acknowledged its first entry. -/
def acknowledgedNoop : Node (Fin 3) canvas :=
  victor.began.respond ((Cluster.ofFin 3 1).config 0)
    (.resume (.appendEntries 1 0 (-1) (victor.db.getRange 0 0))
      [some { term := 1, success := true }])

theorem commit_rule_exact_acknowledged : acknowledgedNoop.role = .leader ∧
    acknowledgedNoop.commitIndex = 0 ∧
      ¬acknowledgedNoop.Overdue ((Cluster.ofFin 3 1).config 0) := by
  let config := (Cluster.ofFin 3 1).config 0
  let prompt (self : Node (Fin 3) canvas) (stimulus) := self.Prompt config stimulus
  have stood : (Node.life config canvas).Reach prompt
      ((Node.start .empty).began.respond config .electionTimeout) :=
    .step .init (show prompt _ .electionTimeout from trivial) rfl
  have won : (Node.life config canvas).Reach prompt victor :=
    stood.step (show prompt _ (.resume (.election 1) _) from
      fun _ _ => (by decide : (Cluster.ofFin 3 1).peers 0 ≠ [])) rfl
  have acknowledged : (Node.life config canvas).Reach prompt acknowledgedNoop :=
    won.step (show prompt _ (.resume (.appendEntries ..) _) from trivial) rfl
  exact ⟨by decide +kernel, by decide +kernel,
    (Node.commit_rule_exact config canvas acknowledgedNoop acknowledged).1
      (by decide +kernel)⟩

/-- A replica without peers wins its election and never commits. -/
theorem commit_rule_missed : ∃ world : World (Fin 1) canvas,
    ((Cluster.ofFin 1 1).system canvas).Reach (fun _ _ => True) world ∧
      (world.node 0).role = .leader ∧
        (world.node 0).Overdue ((Cluster.ofFin 1 1).config 0) := by
  obtain ⟨world, reached, passed⟩ :=
    ((Cluster.ofFin 1 1).system canvas).exists_reach_of_run (fun _ _ => True)
      [.electionTimeout 0, .resume 0 []]
      (fun world => decide ((world.node 0).role = .leader) &&
        (decide ((world.node 0).commitIndex < 0) &&
          (decide (((world.node 0).db.getEntry 0).map LogEntry.term =
              some (world.node 0).currentTerm) &&
            decide (((Cluster.ofFin 1 1).config 0).majority ≤
              (world.node 0).matchCount ((Cluster.ofFin 1 1).config 0) 0))))
      (by decide +kernel)
  simp only [Bool.and_eq_true, decide_eq_true_eq] at passed
  obtain ⟨leads, above, row, enough⟩ := passed
  obtain ⟨entry, found, term⟩ := Option.map_eq_some_iff.mp row
  exact ⟨world, reached, leads, 0, above, ⟨entry, found, term⟩, enough⟩

/-- Whatever happens to the cluster, every node of it lives such a life. -/
theorem World.lives {Id : Type} [DecidableEq Id] {machine : Machine} {cluster : Cluster Id}
    {allowed : World Id machine → Action Id → Prop} {world : World Id machine}
    (reached : (cluster.system machine).Reach allowed world) (self : Id) :
    (Node.life (cluster.config self) machine).Reach (fun _ _ => True) (world.node self) := by
  induction reached with
  | init => exact .init
  | @step world next action _ _ stepped ih =>
      obtain ⟨actor, node, done, reply, progress, advances⟩ := step_progress stepped
      by_cases acting : self = actor
      · subst acting
        rw [advances.node_actor]
        cases progress with
        | handled turn taken =>
            obtain ⟨stimulus, _, same, _⟩ := World.turn_prompts taken
            rw [same]
            exact Node.life_respond ih stimulus
        | interrupted inner effects turn _ taken => exact Node.life_respond ih (.restart _)
        | crashed _ _ => exact Node.life_respond ih (.restart _)
      · rw [advances.node_other acting]
        exact ih

end RaftCanvas
