import RaftCanvas.Simulation.Run
import RaftCanvas.Safety.StateMachineSafety

/-!
# Acknowledged entries

A follower that answers a log request with success has acknowledged everything the
request covers.  While it stays in the request's term, a later request of that term
does not take any of it away.
-/

namespace RaftCanvas

variable {Id : Type} {machine : Machine}

/-- Index of the last entry a log request covers. -/
def AppendEntries.lastCovered (body : AppendEntries Id) : Int :=
  body.prevLogIndex + body.entries.length

/-- `responder` has acknowledged `body` with success. -/
def World.Acknowledged (world : World Id machine) (responder : Id)
    (body : AppendEntries Id) : Prop :=
  ∃ delivery ∈ world.replies, delivery.responder = responder ∧
    delivery.reply.success = true ∧ ∃ call, world.calls[delivery.call]? = some call ∧
      call.request = .appendEntries body

/-- Whether `responder` has acknowledged a request that passes `test`. -/
def World.acknowledges [DecidableEq Id] (world : World Id machine) (responder : Id)
    (test : AppendEntries Id → Bool) : Bool :=
  world.replies.any fun delivery =>
    decide (delivery.responder = responder) && (delivery.reply.success &&
      match (world.calls[delivery.call]?).map Call.request with
      | some (.appendEntries body) => test body
      | _ => false)

theorem World.acknowledged_of_acknowledges [DecidableEq Id] {world : World Id machine}
    {responder : Id} {test : AppendEntries Id → Bool}
    (acknowledges : world.acknowledges responder test = true) :
    ∃ body, world.Acknowledged responder body ∧ test body = true := by
  obtain ⟨delivery, member, passed⟩ := List.any_eq_true.mp acknowledges
  simp only [Bool.and_eq_true, decide_eq_true_eq] at passed
  obtain ⟨own, success, passed⟩ := passed
  cases issued : world.calls[delivery.call]? with
  | none => simp [issued] at passed
  | some call =>
      simp only [issued, Option.map_some] at passed
      cases request : call.request with
      | requestVote | installSnapshot => simp [request] at passed
      | appendEntries body =>
          simp only [request] at passed
          exact ⟨body, ⟨delivery, member, own, success, call, issued, request⟩, passed⟩

namespace WorldMatches

variable [Fintype Id] {tier : Tier} {ideal : Ideal Id} {world : World Id machine}

/-- What was acknowledged in the current term is the ledger of that term. -/
theorem acknowledged (matching : WorldMatches tier ideal world) {responder : Id}
    {body : AppendEntries Id} (acked : world.Acknowledged responder body) :
    ∃ src, Replicates ideal src body ∧ body.count ≤ ideal.acked responder body.term := by
  obtain ⟨delivery, member, rfl, success, call, issued, request⟩ := acked
  obtain ⟨call', issued', _, answers⟩ := matching.replies delivery member
  obtain rfl : call' = call := by simpa [issued'] using issued
  rw [request] at answers
  have shape := (matching.calls call' (List.mem_of_getElem? issued)).request
  rw [request] at shape
  exact ⟨_, shape, answers success⟩

/-- A follower that is still in the term holds what it acknowledged. -/
theorem held (matching : WorldMatches tier ideal world) {responder : Id}
    {body : AppendEntries Id} (acked : body.count ≤ ideal.acked responder body.term)
    (current : ideal.current responder = body.term) :
    (ideal.ledger body.term).take body.count <+: ideal.log responder := by
  have own := matching.sound.acked_held responder
  rw [current] at own
  exact (List.take_prefix_take_left acked).trans own

/-- A request covers entries that its own ledger holds at their indexes. -/
theorem carried (matching : WorldMatches tier ideal world) {src : Id}
    {body : AppendEntries Id} (quoting : Replicates ideal src body) {entry : LogEntry}
    (member : entry ∈ body.entries) :
    0 ≤ entry.index ∧ entry.index.toNat < body.count ∧
      (ideal.ledger body.term)[entry.index.toNat]? = some entry := by
  rcases quoting.quote with ⟨⟨suffix, whole⟩, _⟩ | ⟨nothing, _⟩
  · have led : ideal.elected body.term ≠ none := by simp [quoting.leader]
    obtain ⟨position, found⟩ := List.mem_iff_getElem?.mp member
    have bound := (List.getElem?_eq_some_iff.mp found).1
    have inside : ((ideal.ledger body.term).drop (body.prevLogIndex + 1).toNat)[position]? =
        some entry := by
      rw [← whole, List.getElem?_append_left bound, found]
    rw [List.getElem?_drop] at inside
    have own := matching.indexed _ led _ _ inside
    refine ⟨by omega, ?_, by rw [own]; exact inside⟩
    simp only [AppendEntries.count]
    omega
  · simp [nothing] at member

end WorldMatches

namespace Database.Stores

variable {Blob : Type} {db : Database Id Blob} {log : List LogEntry}

theorem kept (stores : db.Stores log) {index : Int} {entry : LogEntry}
    (found : log[index.toNat]? = some entry) :
    db.getEntry index = some entry ∨ index ≤ db.lastSnapshotIndex := by
  by_cases covered : index ≤ db.lastSnapshotIndex
  · exact Or.inr covered
  · exact Or.inl ((stores.getEntry_above (Int.not_le.mp covered)).trans found)

theorem holds (stores : db.Stores log) {index : Int} (positive : 0 ≤ index)
    (below : index < log.length) : db.Holds index :=
  (stores.kept (List.getElem?_eq_getElem (show index.toNat < log.length by omega))).imp
    (fun found => by simp [found]) id

end Database.Stores

/-- In orderly runs what a follower acknowledged in a term stays in its log or below
its snapshot while it is in that term, and its log does not end before it. -/
theorem acknowledged_kept {Id : Type} [DecidableEq Id] [Fintype Id] (cluster : Cluster Id)
    (machine : Machine) (world later : World Id machine)
    (reached : (cluster.system machine).Reach World.Orderly world)
    (path : (cluster.system machine).Path World.Orderly world later)
    (responder : Id) (body : AppendEntries Id)
    (acked : world.Acknowledged responder body)
    (still : (later.node responder).currentTerm = body.term) :
    body.lastCovered ≤ (later.node responder).db.lastIndex ∧
    (∀ index, 0 ≤ index → index ≤ body.lastCovered →
      (later.node responder).db.Holds index) ∧
    (∀ index row, index ≤ body.lastCovered →
      (world.node responder).db.getEntry index = some row →
        (later.node responder).db.getEntry index = some row ∨
          index ≤ (later.node responder).db.lastSnapshotIndex) ∧
    ∀ entry ∈ body.entries,
      (later.node responder).db.getEntry entry.index = some entry ∨
        entry.index ≤ (later.node responder).db.lastSnapshotIndex := by
  obtain ⟨ideal, matching⟩ := WorldMatches.of_orderly reached
  obtain ⟨after, moved, extended⟩ :=
    matching.onward (fun _ _ _ _ => Permitted.of_orderly) reached path
  obtain ⟨src, quoting, counted⟩ := matching.acknowledged acked
  have low := quoting.prev
  have own := quoting.own
  obtain ⟨led, seen, within⟩ := matching.sound.acked_led responder body.term (by omega)
  have current : after.current responder = body.term := by
    rw [(moved.nodes responder).current, still]
  have before : ideal.current responder = body.term :=
    le_antisymm ((extended.current responder).trans current.le) seen
  -- both logs begin with what the ledger held when the request was answered
  have start := matching.held counted before
  have finish := moved.held (counted.trans (extended.acked _ _)) current
  rw [extended.take_ledger led (counted.trans within)] at finish
  have reach := finish.length_le
  rw [List.length_take, Nat.min_eq_left (counted.trans within)] at reach
  have stores := (moved.nodes responder).file.log
  have covered : body.lastCovered = body.count - 1 := by
    simp only [AppendEntries.lastCovered, AppendEntries.count]
    omega
  have later_at : ∀ {position : Nat} {entry : LogEntry}, position < body.count →
      (ideal.ledger body.term)[position]? = some entry →
      (after.log responder)[position]? = some entry := by
    intro position entry below found
    obtain ⟨suffix, whole⟩ := finish
    rw [← whole, List.getElem?_append_left (by rw [List.length_take]; omega),
      List.getElem?_take_of_lt below, found]
  refine ⟨?_, ?_, ?_, ?_⟩
  · rw [(moved.nodes responder).lastIndex]
    omega
  · intro index positive bound
    exact stores.holds positive (by omega)
  · intro index row bound found
    obtain ⟨positive, inside⟩ := (matching.nodes responder).file.log.getEntry_some found
    refine stores.kept (later_at (by omega) ?_)
    obtain ⟨suffix, whole⟩ := start
    rwa [← whole, List.getElem?_append_left (by rw [List.length_take]; omega),
      List.getElem?_take_of_lt (by omega)] at inside
  · intro entry member
    obtain ⟨_, below, found⟩ := matching.carried quoting member
    exact stores.kept (later_at below found)

/-- In `committing` the follower compacts the entry it acknowledged first. -/
theorem acknowledged_kept_committing : ∃ (world later : World (Fin 3) canvas)
    (body : AppendEntries (Fin 3)),
    ((Cluster.ofFin 3 1).system canvas).Reach World.Orderly world ∧
      ((Cluster.ofFin 3 1).system canvas).Path World.Orderly world later ∧
        world.Acknowledged 1 body ∧ (later.node 1).db.lastSnapshotIndex = 0 ∧
          body.lastCovered ≤ (later.node 1).db.lastIndex := by
  obtain ⟨world, later, reached, path, passed⟩ :=
    ((Cluster.ofFin 3 1).system canvas).exists_path_of_run World.Orderly
      (committing.take 4) (committing.drop 4)
      (fun world later => world.acknowledges 1 fun body =>
        decide ((later.node 1).currentTerm = body.term ∧
          (later.node 1).db.lastSnapshotIndex = 0))
      (by decide +kernel)
  obtain ⟨body, acked, passed⟩ := World.acknowledged_of_acknowledges passed
  obtain ⟨still, compacted⟩ := of_decide_eq_true passed
  exact ⟨world, later, body, reached, path, acked, compacted,
    (acknowledged_kept _ _ world later reached path 1 body acked still).1⟩

/-- When the first request of `committing` arrives once more, the follower loses the
entry it acknowledged second. -/
theorem acknowledged_kept_clobbering : ∃ (world : World (Fin 3) canvas)
    (body : AppendEntries (Fin 3)) (entry : LogEntry),
    ((Cluster.ofFin 3 1).system canvas).Reach (fun _ action => action.Atomic) world ∧
      world.Acknowledged 1 body ∧ (world.node 1).currentTerm = body.term ∧
        entry ∈ body.entries ∧ ¬(world.node 1).db.Holds entry.index ∧
          (world.node 1).db.lastIndex < body.lastCovered := by
  obtain ⟨world, reached, passed⟩ :=
    ((Cluster.ofFin 3 1).system canvas).exists_reach_of_run
      (fun _ action => action.Atomic) (committing ++ [.deliver 1 1])
      (fun world => world.acknowledges 1 fun body =>
        decide ((world.node 1).currentTerm = body.term ∧
          (∃ entry ∈ body.entries, ¬(world.node 1).db.Holds entry.index) ∧
            (world.node 1).db.lastIndex < body.lastCovered))
      (by decide +kernel)
  obtain ⟨body, acked, passed⟩ := World.acknowledged_of_acknowledges passed
  obtain ⟨still, ⟨entry, member, lost⟩, shorter⟩ := of_decide_eq_true passed
  exact ⟨world, body, entry, reached, acked, still, member, lost, shorter⟩

end RaftCanvas
