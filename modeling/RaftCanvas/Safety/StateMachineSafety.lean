import RaftCanvas.Simulation.Run
import RaftCanvas.Raft.StateMachine

/-!
# State machine safety

With a journaled machine a snapshot lists the entries it stands for, so what a
replica applied and what it covered by a snapshot can be compared.
-/

namespace RaftCanvas

/-- `found` is what `member` has at `index`: it applied it, or took or installed a
snapshot that covers `index` and stands for `found` there. -/
def World.Has {Id : Type} {machine : Machine} (world : World Id machine.journaled)
    (member : Id) (index : Int) (found : Option LogEntry) : Prop :=
  (∃ entry, (member, .applied entry) ∈ world.history ∧ entry.index = index ∧
    found = some entry) ∨
  ∃ last blob, ((member, .snapshotTaken last blob) ∈ world.history ∨
      (member, .snapshotInstalled last blob) ∈ world.history) ∧
    0 ≤ index ∧ index ≤ last ∧ found = blob.2[index.toNat]?

/-- Whether `member` has applied an entry of `term` at `index`. -/
def World.applies {Id : Type} [DecidableEq Id] {machine : Machine}
    (world : World Id machine) (member : Id) (index : Int) (term : Nat) : Bool :=
  world.history.any fun seen =>
    match seen.2 with
    | .applied entry => decide (seen.1 = member ∧ entry.index = index ∧ entry.term = term)
    | _ => false

theorem World.has_of_applies {Id : Type} [DecidableEq Id] {machine : Machine}
    {world : World Id machine.journaled} {member : Id} {index : Int} {term : Nat}
    (applies : world.applies member index term = true) :
    ∃ entry, world.Has member index (some entry) ∧ entry.term = term := by
  obtain ⟨⟨who, event⟩, seen, matched⟩ := List.any_eq_true.mp applies
  cases event with
  | applied entry =>
      obtain ⟨rfl, own, era⟩ := of_decide_eq_true matched
      exact ⟨entry, Or.inl ⟨entry, seen, own, rfl⟩, era⟩
  | role | commit | snapshotTaken | snapshotInstalled | submitResolved | submitRejected
  | readCalled | readReturned | readRejected => simp at matched

section Covered

variable {Id : Type} {machine : Machine} {ideal : Ideal Id}

/-- A snapshot of a decided log lists that log. -/
theorem Captures.journal {last : Int} {blob : machine.journaled.Blob}
    (captures : Captures machine.journaled ideal last blob) :
    ∃ limit, ideal.Certified limit blob.2 ∧ Indexed blob.2 ∧
      (blob.2.length : Int) = last + 1 := by
  obtain ⟨limit, log, certified, indexed, length, rfl⟩ := captures
  have journal : (machine.journaled.getSnapshot (machine.journaled.replay log)).2 = log := by
    rw [machine.journaled_replay indexed]
    rfl
  rw [journal]
  exact ⟨limit, certified, indexed, length⟩

theorem Captures.settled {last : Int} {blob : machine.journaled.Blob}
    (captures : Captures machine.journaled ideal last blob) {index : Int}
    (positive : 0 ≤ index) (covered : index ≤ last) :
    ∃ entry, blob.2[index.toNat]? = some entry ∧ entry.index = index ∧
      Settled ideal entry := by
  obtain ⟨limit, certified, indexed, length⟩ := captures.journal
  obtain ⟨entry, found⟩ : ∃ entry, blob.2[index.toNat]? = some entry :=
    ⟨_, List.getElem?_eq_getElem (by omega)⟩
  refine ⟨entry, found, ?_, limit, blob.2, certified, indexed, List.mem_of_getElem? found⟩
  have own := indexed _ _ found
  omega

/-- Whatever a replica has at an index is decided there. -/
theorem World.Has.settled [DecidableEq Id] [Fintype Id] {tier : Tier}
    {world : World Id machine.journaled} (matching : WorldMatches tier ideal world)
    (strict : tier.strict) {member : Id} {index : Int} {found : Option LogEntry}
    (has : world.Has member index found) :
    ∃ entry, found = some entry ∧ entry.index = index ∧ Settled ideal entry := by
  have events := (matching.safe strict).events
  rcases has with ⟨entry, applied, same, rfl⟩ | ⟨last, blob, snapshot, positive, covered, rfl⟩
  · exact ⟨entry, rfl, same, events _ _ applied⟩
  · have captures : Captures machine.journaled ideal last blob := by
      rcases snapshot with taken | installed
      · exact events _ _ taken
      · exact events _ _ installed
    exact captures.settled positive covered

end Covered

/-- State machine safety: in orderly runs, what two replicas applied at an index, or
covered there by a snapshot, is the same entry. -/
theorem state_machine_safety {Id : Type} [DecidableEq Id] [Fintype Id]
    (cluster : Cluster Id) (machine : Machine) (world : World Id machine.journaled)
    (reached : (cluster.system machine.journaled).Reach World.Orderly world)
    (left right : Id) (index : Int) (leftFound rightFound : Option LogEntry)
    (leftHas : world.Has left index leftFound)
    (rightHas : world.Has right index rightFound) :
    ∃ entry, leftFound = some entry ∧ rightFound = some entry ∧ entry.index = index := by
  obtain ⟨ideal, matching⟩ := WorldMatches.of_orderly reached
  obtain ⟨entry, rfl, own, settled⟩ := leftHas.settled matching trivial
  obtain ⟨entry', rfl, own', settled'⟩ := rightHas.settled matching trivial
  obtain rfl := settled.unique matching.sound settled' (own.trans own'.symm)
  exact ⟨entry, rfl, rfl, own⟩

/-- A leader commits its first entry, compacts it away and passes the commit on. -/
def committing : List (Action (Fin 3)) :=
  [.electionTimeout 0, .deliver 0 1,
    .resume 0 [some { term := 1, voteGranted := true }, none],
    .deliver 1 1, .resume 1 [some { term := 1, success := true }],
    .submit 0 .stroke .null, .deliver 3 1, .resume 3 [some { term := 1, success := true }]]

theorem state_machine_safety_committing : ∃ world : World (Fin 3) canvas.journaled,
    ((Cluster.ofFin 3 1).system canvas.journaled).Reach World.Orderly world ∧
      ∃ entry, world.Has 0 0 (some entry) ∧ world.Has 1 0 (some entry) := by
  obtain ⟨world, reached, passed⟩ :=
    ((Cluster.ofFin 3 1).system canvas.journaled).exists_reach_of_run World.Orderly
      committing (fun world => world.applies 0 0 1 && world.applies 1 0 1)
      (by decide +kernel)
  obtain ⟨applied, applied'⟩ := Bool.and_eq_true_iff.mp passed
  obtain ⟨left, leftHas, _⟩ := World.has_of_applies applied
  obtain ⟨right, rightHas, _⟩ := World.has_of_applies applied'
  obtain ⟨entry, same, same', _⟩ := state_machine_safety _ _ world reached 0 1 0
    (some left) (some right) leftHas rightHas
  exact ⟨world, reached, entry, same ▸ leftHas, same' ▸ rightHas⟩

/-- After `committing`, the leader's first request is delivered once more: the
follower has compacted that entry, takes it for missing and drops the committed entry
after it.  A candidate without that entry then wins with the follower's vote. -/
def clobbering : List (Action (Fin 3)) :=
  committing ++ [.deliver 1 1, .deliver 2 2, .electionTimeout 2, .deliver 5 1,
    .resume 5 [none, some { term := 2, voteGranted := true }],
    .deliver 7 1, .resume 7 [some { term := 2, success := true }]]

/-- Without the restriction to orderly steps two replicas apply different entries. -/
theorem state_machine_safety_clobbering : ∃ world : World (Fin 3) canvas.journaled,
    ((Cluster.ofFin 3 1).system canvas.journaled).Reach
        (fun _ action => action.Atomic) world ∧
      ∃ left right : LogEntry, world.Has 0 1 (some left) ∧ world.Has 2 1 (some right) ∧
        left ≠ right := by
  obtain ⟨world, reached, passed⟩ :=
    ((Cluster.ofFin 3 1).system canvas.journaled).exists_reach_of_run
      (fun _ action => action.Atomic) clobbering
      (fun world => world.applies 0 1 1 && world.applies 2 1 2) (by decide +kernel)
  obtain ⟨applied, applied'⟩ := Bool.and_eq_true_iff.mp passed
  obtain ⟨left, leftHas, leftTerm⟩ := World.has_of_applies applied
  obtain ⟨right, rightHas, rightTerm⟩ := World.has_of_applies applied'
  refine ⟨world, reached, left, right, leftHas, rightHas, fun same => ?_⟩
  rw [same] at leftTerm
  omega

end RaftCanvas
