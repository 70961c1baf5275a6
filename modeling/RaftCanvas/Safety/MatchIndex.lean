import RaftCanvas.Safety.StateMachineSafety

/-!
# What `matchIndex` and a commit say about the files

`matchIndex` is written from replies.  As long as no reply of an earlier leadership is
counted, it is an acknowledgement in the leader's own term, and a raised commit index
is backed by the files of a majority.
-/

namespace RaftCanvas

variable {Id : Type} {machine : Machine}

/-- The file holds `entry` at `index`: as a row, or in the journal of its snapshot. -/
def Database.HasAt (db : Database Id machine.journaled.Blob) (index : Int)
    (entry : LogEntry) : Prop :=
  db.getEntry index = some entry ∨ ∃ snap ∈ db.snapshot, 0 ≤ index ∧
    index ≤ snap.lastIncludedIndex ∧ snap.state.2[index.toNat]? = some entry

/-- The file holds `entry` at `index` and nothing else. -/
def Database.Durable (db : Database Id machine.journaled.Blob) (index : Int)
    (entry : LogEntry) : Prop :=
  ∀ found, db.HasAt index found ↔ found = entry

section Files

variable {tier : Tier} {ideal : Ideal Id} {member : Id}
  {node : Node Id machine.journaled}

/-- The journal of a file's snapshot is the part of the log it covers. -/
theorem NodeSafe.journal (safe : NodeSafe tier ideal member node)
    (matching : NodeMatches ideal member node) {snap : Snapshot machine.journaled.Blob}
    (held : node.db.snapshot = some snap) :
    snap.state.2 = (ideal.log member).take (node.db.lastSnapshotIndex + 1).toNat := by
  rw [safe.saved snap held,
    machine.journaled_replay (matching.file.log.indexed.take _)]
  rfl

theorem NodeSafe.hasAt_iff (safe : NodeSafe tier ideal member node)
    (matching : NodeMatches ideal member node) {index : Int} {entry : LogEntry} :
    node.db.HasAt index entry ↔
      0 ≤ index ∧ (ideal.log member)[index.toNat]? = some entry := by
  have stores := matching.file.log
  constructor
  · rintro (row | ⟨snap, held, positive, covered, inside⟩)
    · exact stores.getEntry_some row
    · rw [safe.journal matching held] at inside
      have bound := (List.getElem?_eq_some_iff.mp inside).1
      rw [List.length_take] at bound
      rw [List.getElem?_take_of_lt (by omega)] at inside
      exact ⟨positive, inside⟩
  · rintro ⟨positive, inside⟩
    by_cases above : node.db.lastSnapshotIndex < index
    · exact Or.inl ((stores.getEntry_above above).trans inside)
    · cases held : node.db.snapshot with
      | none =>
          have bare := matching.file.unsaved held
          omega
      | some snap =>
          obtain ⟨_, same, _⟩ := matching.file.saved snap held
          refine Or.inr ⟨snap, held, positive, by omega, ?_⟩
          rw [safe.journal matching held, List.getElem?_take_of_lt (by omega), inside]

theorem NodeSafe.durable (safe : NodeSafe tier ideal member node)
    (matching : NodeMatches ideal member node) {index : Int} {entry : LogEntry}
    (positive : 0 ≤ index) (inside : (ideal.log member)[index.toNat]? = some entry) :
    node.db.Durable index entry := by
  intro found
  rw [safe.hasAt_iff matching, inside]
  simp [positive, eq_comm]

end Files

/-- Orderly, and no reply to a snapshot of an earlier leadership is counted. -/
def World.Timely [DecidableEq Id] (world : World Id machine) (action : Action Id) : Prop :=
  world.Orderly action ∧ world.staleInstall action = false

instance [DecidableEq Id] (world : World Id machine) (action : Action Id) :
    Decidable (world.Timely action) :=
  inferInstanceAs (Decidable (_ ∧ _))

/-- Every `matchIndex` is followed as well. -/
def Tier.matches : Tier := ⟨True, True, False⟩

section Runs

variable [DecidableEq Id] [Fintype Id] {cluster : Cluster Id}

theorem WorldMatches.of_timely {world : World Id machine}
    (reached : (cluster.system machine).Reach World.Timely world) :
    ∃ ideal, WorldMatches .matches ideal world :=
  WorldMatches.of_reach (fun _ _ _ _ timely =>
    { orderly := fun _ => timely.1
      exact := fun _ => ⟨trivial, timely.2⟩
      faithful := False.elim
      uncompacted := fun lax => (lax trivial).elim }) reached

variable {tier : Tier} {ideal : Ideal Id} {world : World Id machine.journaled}

omit [DecidableEq Id] in
/-- A peer that has not left the leader's term for a later one agrees with the leader
up to `matchIndex`. -/
theorem WorldMatches.match_agrees (matching : WorldMatches tier ideal world)
    (strict : tier.strict) (exact : tier.exact) {leader peer : Id} {last : Int}
    (leads : (world.node leader).role = .leader)
    (known : (world.node leader).matchIndex peer = some last)
    (seen : (world.node peer).currentTerm ≤ (world.node leader).currentTerm)
    {index : Int} (positive : 0 ≤ index) (below : index ≤ last) :
    ∃ entry, (world.node leader).db.Durable index entry ∧
      (world.node peer).db.Durable index entry := by
  have nodes := (matching.safe strict).nodes
  have own := matching.nodes leader
  have others := matching.nodes peer
  have acked := ((nodes leader).matched leads peer last known).resolve_right
    fun lax => lax.1 exact
  obtain ⟨_, reached, within⟩ := matching.sound.acked_led peer _
    (show 0 < ideal.acked peer (world.node leader).currentTerm by omega)
  have current : ideal.current peer = (world.node leader).currentTerm :=
    le_antisymm (others.current.trans_le seen) reached
  have held := matching.sound.acked_held peer
  rw [current] at held
  obtain ⟨entry, found⟩ : ∃ entry,
      (ideal.ledger (world.node leader).currentTerm)[index.toNat]? = some entry :=
    ⟨_, List.getElem?_eq_getElem (by omega)⟩
  refine ⟨entry, (nodes leader).durable own positive ?_,
    (nodes peer).durable others positive ?_⟩
  · rw [own.ledger matching.sound leads, found]
  · obtain ⟨suffix, whole⟩ := held
    rw [← whole, List.getElem?_append_left (by rw [List.length_take]; omega),
      List.getElem?_take_of_lt (by omega), found]

/-- What the winner of a term decided is in the files of a majority with the winner. -/
theorem WorldMatches.decided_durable (matching : WorldMatches tier ideal world)
    (strict : tier.strict) {who : Id} {era position : Nat}
    (won : ideal.elected era = some who) (below : position < ideal.decided era)
    {entry : LogEntry} (found : (ideal.ledger era)[position]? = some entry) :
    ∃ group : Finset Id, Quorum.Majority group ∧ who ∈ group ∧
      ∀ member ∈ group, (world.node member).db.Durable position entry := by
  have committed := matching.sound.decided era (by omega)
  obtain ⟨led, above, within, group, majority, acked⟩ := matching.sound.decided era (by omega)
  refine ⟨insert who group, ?_, Finset.mem_insert_self _ _, ?_⟩
  · have larger := Finset.card_le_card (Finset.subset_insert who group)
    simp only [Quorum.Majority] at majority ⊢
    omega
  · intro member inGroup
    have reached : ideal.decided era ≤ ideal.acked member era := by
      rcases Finset.mem_insert.mp inGroup with rfl | inside
      · rw [(matching.sound.winner era member won).2.2]
        exact within
      · exact acked member inside
    obtain ⟨suffix, whole⟩ := matching.sound.committed_held committed reached
    refine ((matching.safe strict).nodes member).durable (matching.nodes member)
      (Int.natCast_nonneg position) ?_
    rw [Int.toNat_natCast, ← whole,
      List.getElem?_append_left (by rw [List.length_take]; omega),
      List.getElem?_take_of_lt below, found]

/-- What a leader has committed is in the files of a majority that it belongs to. -/
theorem WorldMatches.commit_durable (matching : WorldMatches tier ideal world)
    (strict : tier.strict) {who : Id} {n : Int}
    (committed : (who, .commit n) ∈ world.history) :
    0 ≤ n ∧ ∃ (entry : LogEntry) (group : Finset Id), Quorum.Majority group ∧
      who ∈ group ∧ ∀ member ∈ group, (world.node member).db.Durable n entry := by
  obtain ⟨positive, era, won, decided⟩ := (matching.safe strict).events _ _ committed
  have within := (matching.sound.decided era (by omega)).2.2.1
  obtain ⟨entry, found⟩ : ∃ entry, (ideal.ledger era)[n.toNat]? = some entry :=
    ⟨_, List.getElem?_eq_getElem (by omega)⟩
  have durable := matching.decided_durable strict won (by omega) found
  rw [Int.toNat_of_nonneg positive] at durable
  exact ⟨positive, entry, durable⟩

end Runs

/-- In timely runs `matchIndex` is sound for every peer that has not moved to a later
term, and every commit index a leader announces is durable on a majority. -/
theorem match_index_sound {Id : Type} [DecidableEq Id] [Fintype Id] (cluster : Cluster Id)
    (machine : Machine) (world : World Id machine.journaled)
    (reached : (cluster.system machine.journaled).Reach World.Timely world) :
    (∀ leader peer last, (world.node leader).role = .leader →
      (world.node leader).matchIndex peer = some last →
      (world.node peer).currentTerm ≤ (world.node leader).currentTerm →
      ∀ index, 0 ≤ index → index ≤ last → ∃ entry,
        (world.node leader).db.Durable index entry ∧
          (world.node peer).db.Durable index entry) ∧
    ∀ who n, (who, .commit n) ∈ world.history →
      0 ≤ n ∧ ∃ (entry : LogEntry) (group : Finset Id), Quorum.Majority group ∧
        who ∈ group ∧ ∀ member ∈ group, (world.node member).db.Durable n entry := by
  obtain ⟨ideal, matching⟩ := WorldMatches.of_timely reached
  exact ⟨fun _ _ _ leads known seen _ positive below =>
      matching.match_agrees trivial trivial leads known seen positive below,
    fun _ _ committed => matching.commit_durable trivial committed⟩

theorem match_index_sound_committing : ∃ world : World (Fin 3) canvas.journaled,
    ((Cluster.ofFin 3 1).system canvas.journaled).Reach World.Timely world ∧
      ∃ entry, (world.node 0).db.Durable 1 entry ∧ (world.node 1).db.Durable 1 entry := by
  obtain ⟨world, reached, passed⟩ :=
    ((Cluster.ofFin 3 1).system canvas.journaled).exists_reach_of_run World.Timely
      committing
      (fun world => decide ((world.node 0).role = .leader ∧
        (world.node 0).matchIndex 1 = some 1 ∧
          (world.node 1).currentTerm ≤ (world.node 0).currentTerm))
      (by decide +kernel)
  obtain ⟨leads, known, seen⟩ := of_decide_eq_true passed
  exact ⟨world, reached, (match_index_sound _ _ world reached).1 0 1 1 leads known seen 1
    (by decide) (by decide)⟩

/-- A follower acknowledges the entry of a leader it has heard of alone, and then
follows the winner of the next term, who replaces that entry. -/
def deposing : List (Action (Fin 5)) :=
  [.electionTimeout 0, .deliver 0 1, .deliver 0 2,
    .resume 0 [some { term := 1, voteGranted := true },
      some { term := 1, voteGranted := true }, none, none],
    .deliver 1 1, .resume 1 [some { term := 1, success := true }],
    .electionTimeout 2, .deliver 5 3, .deliver 5 4,
    .resume 5 [none, none, some { term := 2, voteGranted := true },
      some { term := 2, voteGranted := true }],
    .deliver 7 1]

/-- A deposed leader that has not heard of its successor keeps a `matchIndex` that no
longer describes the follower's file. -/
theorem match_index_deposed : ∃ world : World (Fin 5) canvas.journaled,
    ((Cluster.ofFin 5 1).system canvas.journaled).Reach World.Timely world ∧
      (world.node 0).role = .leader ∧ (world.node 0).matchIndex 1 = some 0 ∧
        ¬∃ entry, (world.node 0).db.Durable 0 entry ∧ (world.node 1).db.Durable 0 entry := by
  obtain ⟨world, reached, passed⟩ :=
    ((Cluster.ofFin 5 1).system canvas.journaled).exists_reach_of_run World.Timely
      deposing
      (fun world => decide ((world.node 0).role = .leader ∧
        (world.node 0).matchIndex 1 = some 0 ∧
          (∃ row ∈ (world.node 0).db.getEntry 0, row.term = 1) ∧
            ∃ row ∈ (world.node 1).db.getEntry 0, row.term = 2))
      (by decide +kernel)
  obtain ⟨leads, known, ⟨left, leftRow, leftTerm⟩, right, rightRow, rightTerm⟩ :=
    of_decide_eq_true passed
  refine ⟨world, reached, leads, known, fun ⟨entry, own, other⟩ => ?_⟩
  obtain rfl := (own left).mp (Or.inl leftRow)
  obtain rfl := (other right).mp (Or.inl rightRow)
  omega

end RaftCanvas
