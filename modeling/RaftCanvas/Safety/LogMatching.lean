import RaftCanvas.Simulation.Run
import RaftCanvas.Raft.StateMachine

/-!
# Log matching

Before any compaction a file holds the whole log of the abstract member, so log
matching is the property of the abstract logs read back from the files.  Nothing
about commit indexes is needed, and processes may die anywhere.
-/

namespace RaftCanvas

namespace Database

variable {Id Blob : Type} {db : Database Id Blob} {log : List LogEntry}

/-- A file without a snapshot holds its whole log. -/
theorem Stores.whole (stores : db.Stores log) (bare : db.lastSnapshotIndex = -1) :
    db.log.rows = log := by
  obtain ⟨first, below, rows⟩ := stores.suffix
  obtain rfl : first = 0 := by omega
  rw [rows, List.drop_zero]

theorem Stores.getEntry_whole (stores : db.Stores log) (bare : db.lastSnapshotIndex = -1)
    {index : Int} (positive : 0 ≤ index) : db.getEntry index = log[index.toNat]? :=
  stores.getEntry_above (by omega)

/-- A file that holds the whole log has the entries of any file with a part of it. -/
theorem Stores.getEntry_prefix {other : Database Id Blob} {own : List LogEntry}
    (stores : db.Stores log) (bare : db.lastSnapshotIndex = -1) (part : other.Stores own)
    (inside : own <+: log) {index : Int} {entry : LogEntry}
    (found : other.getEntry index = some entry) : db.getEntry index = some entry := by
  obtain ⟨positive, held⟩ := part.getEntry_some found
  obtain ⟨rest, rfl⟩ := inside
  rw [stores.getEntry_whole bare positive,
    List.getElem?_append_left (List.getElem?_eq_some_iff.mp held).1, held]

theorem Stores.getEntry_negative (stores : db.Stores log) {index : Int}
    (negative : index < 0) : db.getEntry index = none := by
  cases found : db.getEntry index with
  | none => rfl
  | some entry =>
      have positive := (stores.getEntry_some found).1
      omega

end Database

/-- Two backed logs that share an entry's index and term agree up to it. -/
theorem shared_log {Id : Type} {ideal : Ideal Id} {left right : List LogEntry}
    (leftBacked : ideal.Backed left) (rightBacked : ideal.Backed right)
    (leftIndexed : Indexed left) (rightIndexed : Indexed right)
    {leftEntry rightEntry : LogEntry} (leftHolds : leftEntry ∈ left)
    (rightHolds : rightEntry ∈ right) (sameIndex : leftEntry.index = rightEntry.index)
    (sameTerm : leftEntry.term = rightEntry.term) {position : Nat}
    (below : (position : Int) ≤ leftEntry.index) : left[position]? = right[position]? := by
  obtain ⟨place, found⟩ := List.mem_iff_getElem?.mp leftHolds
  obtain ⟨place', found'⟩ := List.mem_iff_getElem?.mp rightHolds
  have own := leftIndexed place leftEntry found
  have own' := rightIndexed place' rightEntry found'
  obtain rfl : place = place' := by omega
  have agree := leftBacked.matching rightBacked found found' sameTerm
  rw [← List.getElem?_take_of_lt (show position < place + 1 by omega), agree,
    List.getElem?_take_of_lt (by omega)]

/-- Log matching: while nothing is compacted, logs that share an entry's index and
term agree up to it, indexes are contiguous from `0` and terms never decrease. -/
theorem log_matching {Id : Type} [DecidableEq Id] [Fintype Id] (cluster : Cluster Id)
    (machine : Machine) (world : World Id machine)
    (reached : (cluster.system machine).Reach (fun world _ => world.Uncompacted) world)
    (bare : world.Uncompacted) :
    (∀ left right, ∀ leftRow ∈ (world.node left).db.log.rows,
      ∀ rightRow ∈ (world.node right).db.log.rows, leftRow.index = rightRow.index →
        leftRow.term = rightRow.term → ∀ index ≤ leftRow.index,
          (world.node left).db.getEntry index = (world.node right).db.getEntry index) ∧
    (∀ member, Indexed (world.node member).db.log.rows) ∧
    ∀ member, (world.node member).db.log.rows.Pairwise fun earlier later =>
      earlier.term ≤ later.term := by
  obtain ⟨ideal, matching⟩ := WorldMatches.of_uncompacted reached
  have stores := fun member => (matching.nodes member).file.log
  have whole := fun member => (stores member).whole (bare member)
  have backed := matching.sound.backed_log
  refine ⟨?_, ?_, ?_⟩
  · intro left right leftRow leftHolds rightRow rightHolds sameIndex sameTerm index below
    by_cases positive : 0 ≤ index
    · rw [whole] at leftHolds rightHolds
      rw [(stores left).getEntry_whole (bare left) positive,
        (stores right).getEntry_whole (bare right) positive]
      exact shared_log (backed left) (backed right) (stores left).indexed
        (stores right).indexed leftHolds rightHolds sameIndex sameTerm (by omega)
    · rw [(stores left).getEntry_negative (by omega),
        (stores right).getEntry_negative (by omega)]
  · intro member
    rw [whole]
    exact (stores member).indexed
  · intro member
    rw [whole, List.pairwise_iff_getElem]
    intro earlier later inside inside' ordered
    exact matching.sound.terms_mono (backed member) ordered.le
      (List.getElem?_eq_getElem inside) (List.getElem?_eq_getElem inside')

/-- A leader's second entry reaches a follower that dies between truncating and
appending, and a candidate of the next term writes its own entry there. -/
def rewriting : List (Action (Fin 3)) :=
  [.electionTimeout 0, .deliver 0 1,
    .resume 0 [some { term := 1, voteGranted := true }, none],
    .deliver 1 1, .deliver 2 2, .submit 0 .stroke .null,
    .crashDuring (.deliver 3 1) 1, .electionTimeout 1, .deliver 5 2,
    .resume 5 [none, some { term := 2, voteGranted := true }],
    .deliver 7 2, .deliver 4 2]

theorem log_matching_rewriting : ∃ world : World (Fin 3) canvas,
    ((Cluster.ofFin 3 100).system canvas).Reach (fun world _ => world.Uncompacted) world ∧
      (∀ member, (world.node member).db.log.rows.map LogEntry.term =
        if member = 0 then [1, 1] else [1, 2]) ∧
      ∀ index ≤ 0,
        (world.node 0).db.getEntry index = (world.node 2).db.getEntry index := by
  obtain ⟨world, reached, passed⟩ :=
    ((Cluster.ofFin 3 100).system canvas).exists_reach_of_run
      (fun world _ => world.Uncompacted) rewriting
      (fun world => decide (world.Uncompacted ∧ (∀ member,
        (world.node member).db.log.rows.map LogEntry.term =
          if member = 0 then [1, 1] else [1, 2]) ∧
        ((world.node 0).db.log.rows.head?.any fun row => row.index = 0 ∧ row.term = 1) ∧
        (world.node 2).db.log.rows.head?.any fun row => row.index = 0 ∧ row.term = 1))
      (by decide +kernel)
  obtain ⟨bare, terms, left, right⟩ := of_decide_eq_true passed
  obtain ⟨leftRow, first, index, term⟩ := by simpa [Option.any_eq_true] using left
  obtain ⟨rightRow, first', index', term'⟩ := by simpa [Option.any_eq_true] using right
  refine ⟨world, reached, terms, fun below bound => ?_⟩
  exact (log_matching _ _ world reached bare).1 0 2 leftRow (List.mem_of_mem_head? first)
    rightRow (List.mem_of_mem_head? first') (by omega) (by omega) below (by omega)

end RaftCanvas
