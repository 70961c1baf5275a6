import RaftCanvas.Cluster.Electable
import RaftCanvas.Safety.Rounds
import RaftCanvas.Simulation.Run

/-!
# Convergence

In an orderly run every leader and every other node that is not ahead of it are as log
repair needs them: the leader sends from a natural index, the files match, and the
follower's snapshot lies within the leader's log.  So from any state the cluster can go on
to elect a leader whose whole log is committed and stored by everybody.
-/

namespace RaftCanvas

variable {Id : Type} {machine : Machine}

/-! ## Indexes from which leaders send -/

/-- The last entry of a request has an index. -/
theorem Replicates.last_nonneg {ideal : Ideal Id} {src : Id} {body : AppendEntries Id}
    (replicates : Replicates ideal src body) (indexed : Indexed (ideal.ledger body.term)) :
    0 ≤ body.entries.getLast?.elim body.prevLogIndex LogEntry.index + 1 := by
  have prev := replicates.prev
  cases last : body.entries.getLast? with
  | none =>
      rw [Option.elim_none]
      omega
  | some entry =>
      have member := List.mem_of_getLast? last
      rcases replicates.quote with ⟨inside, _⟩ | ⟨nothing, _⟩
      · have bound := indexed.numbered.bounds (List.mem_of_mem_drop (inside.subset member))
        rw [Option.elim_some]
        omega
      · rw [nothing] at member
        cases member

variable [DecidableEq Id] [Fintype Id] {cluster : Cluster Id} {world : World Id machine}
  {ideal : Ideal Id} {tier : Tier}

namespace WorldMatches

/-- What a node learns from a reply, or begins with as a leader, is a natural index. -/
theorem suits (matching : WorldMatches tier ideal world) {action : Action Id} {self : Id}
    {stimulus : Stimulus Id machine.Blob} (prompts : world.Prompts action self stimulus) :
    (world.node self).Suits (fun next => 0 ≤ next) stimulus := by
  cases prompts with
  | @resume id results call issued answers =>
      have sent := matching.calls call (List.mem_of_getElem? issued)
      have shape := sent.shape
      have asked := sent.request
      have last := (matching.nodes call.src).lastIndex
      cases request : call.request with
      | requestVote body =>
          cases await : call.await with
          | election termAtStart =>
              show 0 ≤ (world.node call.src).db.lastIndex + 1
              omega
          | _ => simp [Call.WellFormed, request, await] at shape
      | appendEntries body =>
          rw [request] at asked
          cases await : call.await with
          | appendEntries peer next prevLogIndex entries =>
              simp only [Call.WellFormed, request, await] at shape
              obtain ⟨rfl, rfl, _⟩ := shape
              have led : ideal.elected body.term ≠ none := by simp [asked.leader]
              exact ⟨asked.last_nonneg (matching.indexed _ led), le_max_left _ _⟩
          | readIndex id readIdx termAtStart => trivial
          | _ => simp [Call.WellFormed, request, await] at shape
      | installSnapshot body =>
          rw [request] at asked
          cases await : call.await with
          | installSnapshot peer lastIncludedIndex =>
              simp only [Call.WellFormed, request, await] at shape
              have positive := asked.positive
              show 0 ≤ lastIncludedIndex + 1
              omega
          | _ => simp [Call.WellFormed, request, await] at shape
  | _ => trivial

end WorldMatches

/-- No leader ever sends from a negative index. -/
theorem World.poised_nonneg
    (reached : (cluster.system machine).Reach World.Orderly world) :
    world.Poised fun next => 0 ≤ next := by
  induction reached with
  | init => exact fun _ => Node.start_poised _
  | step history _ stepped poised =>
      obtain ⟨_, matching⟩ := WorldMatches.of_orderly history
      exact poised.step (fun _ _ prompts => matching.suits prompts) stepped

/-! ## The two files -/

omit [DecidableEq Id] [Fintype Id] in
theorem FileMatches.metaAgrees {self : Id} {db : Database Id machine.Blob}
    (matching : FileMatches ideal self db) : db.MetaAgrees := by
  rw [Database.MetaAgrees, Database.loadLatestSnapshot]
  cases held : db.snapshot with
  | none => exact matching.unsaved held
  | some snap => exact (matching.saved snap held).2

/-- Numbered rows leave no gap. -/
theorem Numbered.contiguous {start : Nat} {table : LogTable}
    (numbered : Numbered start table.rows) : table.Contiguous := by
  intro low lowest high highest index above below
  have lower := (numbered.bounds lowest).1
  have upper := (numbered.bounds highest).2
  obtain ⟨row, found⟩ : ∃ row, table.rows[index.toNat - start]? = some row :=
    ⟨_, List.getElem?_eq_getElem (by omega)⟩
  have own := numbered _ _ found
  exact ⟨row, List.mem_of_getElem? found, by omega⟩

omit [DecidableEq Id] [Fintype Id] in
theorem Database.Stores.contiguous {Blob : Type} {db : Database Id Blob} {log : List LogEntry}
    (stores : db.Stores log) : db.log.Contiguous := by
  obtain ⟨first, _, rows⟩ := stores.suffix
  exact Numbered.contiguous (rows ▸ stores.indexed.drop first)

omit [DecidableEq Id] [Fintype Id] in
/-- Files of backed logs match, if what the one has saved is in the other. -/
theorem Database.Stores.trails {Blob : Type} {db : Database Id Blob} {own log : List LogEntry}
    (stores : db.Stores own) (backed : ideal.Backed own) (others : ideal.Backed log)
    (saved : own.take (db.lastSnapshotIndex + 1).toNat <+: log) : db.Trails log where
  contiguous := stores.contiguous
  first row head := by
    have first := stores.firstIndex_le
    rw [Database.firstIndex, Option.mem_def.mp head] at first
    exact first
  matching position row entry held found same lower other below heldLower := by
    have inside := (stores.getEntry_some held).2
    have lowerInside := (stores.getEntry_some heldLower).2
    rw [Int.toNat_natCast] at inside lowerInside
    have agree := backed.matching others inside found same
    rw [← List.getElem?_take_of_lt (Nat.lt_succ_of_le below), ← agree,
      List.getElem?_take_of_lt (Nat.lt_succ_of_le below), lowerInside]
  within := by
    have within := stores.within
    have length := saved.length_le
    rw [List.length_take] at length
    omega
  agrees := by
    have within := stores.within
    rw [stores.covered, List.prefix_iff_eq_take.mp saved, List.length_take,
      Nat.min_eq_left (by omega)]

namespace WorldMatches

variable {leader follower : Id}

omit [DecidableEq Id] in
theorem offers (matching : WorldMatches tier ideal world)
    (poised : world.Poised fun next => 0 ≤ next)
    (leads : (world.node leader).role = .leader) :
    (world.node leader).Offers (ideal.log leader) where
  leads := leads
  running := (poised leader).1
  stores := (matching.nodes leader).file.log
  agrees := (matching.nodes leader).file.metaAgrees

omit [DecidableEq Id] in
theorem presides (matching : WorldMatches .commits ideal world)
    (poised : world.Poised fun next => 0 ≤ next)
    (leads : (world.node leader).role = .leader) :
    (world.node leader).Presides (ideal.log leader) := by
  have own := matching.nodes leader
  have safe := (matching.safe trivial).nodes leader
  obtain ⟨elected, longer⟩ := own.leads leads
  have led : ideal.elected (world.node leader).currentTerm ≠ none := by simp [elected]
  refine ⟨matching.offers poised leads, fun entry last => ?_, safe.saved_le,
    safe.applied_le, safe.bound⟩
  have last : (ideal.log leader).getLast? = some entry := last
  rw [List.getLast?_eq_getElem?] at last
  have found := last
  rw [own.ledger matching.sound leads] at found longer
  exact matching.sound.ledger_own _ led _ entry found (by omega)

/-- What a node has saved is decided, and so in the log of a leader it is not ahead of. -/
theorem trails (matching : WorldMatches .commits ideal world)
    (leads : (world.node leader).role = .leader)
    (behind : (world.node follower).currentTerm ≤ (world.node leader).currentTerm) :
    (world.node follower).Trails (world.node leader).currentTerm (ideal.log leader) := by
  have safe := (matching.safe trivial).nodes follower
  have own := matching.nodes leader
  have led : ideal.elected (world.node leader).currentTerm ≠ none := by
    simp [(own.leads leads).1]
  have certified := safe.certified
  rw [(matching.nodes follower).current] at certified
  have decided := matching.sound.certified_inside (certified.mono behind) led
  rw [← own.ledger matching.sound leads] at decided
  have saved_le := safe.saved_le
  have applied_le := safe.applied_le
  have saved : (ideal.log follower).take
      ((world.node follower).db.lastSnapshotIndex + 1).toNat <+: ideal.log leader :=
    (List.take_prefix_take_left (by omega)).trans decided
  exact ⟨behind, saved_le, (matching.nodes follower).file.log.trails
    (matching.sound.backed_log follower) (matching.sound.backed_log leader) saved⟩

end WorldMatches

/-! ## From any state of an orderly run -/

/-- Whoever leads in a term that nobody is ahead of can bring all others to hold its whole
log, and commit it, by heartbeats alone. -/
theorem World.exists_level
    (reached : (cluster.system machine).Reach World.Orderly world) {leader peer : Id}
    (leads : (world.node leader).role = .leader)
    (ahead : ∀ other, (world.node other).currentTerm ≤ (world.node leader).currentTerm)
    (others : peer ≠ leader) :
    ∃ later log, (cluster.system machine).Path (Replicating leader) world later ∧
      (world.node leader).db.Stores log ∧ later.Level leader log ∧
        (later.node leader).currentTerm = (world.node leader).currentTerm := by
  obtain ⟨ideal, matching⟩ := WorldMatches.of_orderly reached
  have poised := World.poised_nonneg reached
  have natural (peer : Id) : ∃ next : Nat,
      ((world.node leader).nextIndex peer).getD 0 = next := by
    refine Int.eq_ofNat_of_zero_le ?_
    cases known : (world.node leader).nextIndex peer with
    | none => exact Int.le_refl 0
    | some next => exact (poised leader).2 peer next known
  have presides := matching.presides poised leads
  obtain ⟨later, levels⟩ := exists_levels (World.Punctual.of_reach reached) presides natural
    (cluster.peers_nodup leader) (fun other => (cluster.mem_peers leader other).mp)
    fun other _ => matching.trails leads (ahead other)
  have peers : cluster.peers leader ≠ [] :=
    List.ne_nil_of_mem ((cluster.mem_peers leader peer).mpr others)
  exact ⟨later, _, levels.path, presides.offers.stores, levels.level peers, levels.currentTerm⟩

omit [Fintype Id] in
/-- An election leaves the protocol nowhere: no log request is delivered or answered. -/
theorem World.Elects.orderly {action : Action Id} (elects : world.Elects action) :
    world.Orderly action := by
  cases action with
  | electionTimeout self => exact ⟨trivial, rfl, rfl⟩
  | deliver id target =>
      obtain ⟨call, body, issued, request⟩ := elects
      exact ⟨trivial, rfl, by simp [clobbers, issued, request]⟩
  | resume id results =>
      obtain ⟨call, termAtStart, issued, await⟩ := elects
      obtain ⟨src, targets, request, _⟩ := call
      subst await
      refine ⟨trivial, ?_, rfl⟩
      rw [staleSuccess, returned, issued]
      cases results.head?.join with
      | none => rfl
      | some reply => cases request <;> rfl
  | _ => cases elects

omit [Fintype Id] in
theorem World.Elects.reach {later : World Id machine}
    (reached : (cluster.system machine).Reach World.Orderly world)
    (path : (cluster.system machine).Path World.Elects world later) :
    (cluster.system machine).Reach World.Orderly later := by
  induction path with
  | refl => exact reached
  | step _ elects stepped ih => exact ih.step elects.orderly stepped

end RaftCanvas
