import RaftCanvas.Safety.MatchIndex

/-!
# Acknowledged writes

A `submit` call waits for the commit index to pass its entry's index and then
resolves.  It resolves for its own entry exactly when the node still holds that entry
as it resumes: a leader that was deposed and elected again may hold another one.
-/

namespace RaftCanvas

variable {Id : Type} {machine : Machine}

/-- The file holds an entry of `term` at `index`. -/
def Database.hasTerm (db : Database Id machine.journaled.Blob) (index : Int)
    (term : Nat) : Bool :=
  (db.getEntry index).any (fun row => row.term = term) ||
    db.snapshot.any fun snap => decide (0 ≤ index ∧ index ≤ snap.lastIncludedIndex) &&
      (snap.state.2[index.toNat]?).any fun entry => entry.term = term

theorem Database.hasTerm_iff {db : Database Id machine.journaled.Blob} {index : Int}
    {term : Nat} :
    db.hasTerm index term = true ↔ ∃ entry, db.HasAt index entry ∧ entry.term = term := by
  simp only [hasTerm, HasAt, Bool.or_eq_true, Option.any_eq_true, Bool.and_eq_true,
    decide_eq_true_eq]
  constructor
  · rintro (⟨row, found, same⟩ | ⟨snap, held, ⟨positive, covered⟩, entry, found, same⟩)
    · exact ⟨row, Or.inl found, same⟩
    · exact ⟨entry, Or.inr ⟨snap, held, positive, covered, found⟩, same⟩
  · rintro ⟨entry, found | ⟨snap, held, positive, covered, found⟩, same⟩
    · exact Or.inl ⟨entry, found, same⟩
    · exact Or.inr ⟨snap, held, ⟨positive, covered⟩, entry, found, same⟩

/-- A `submit` call that resumes still finds an entry of its term at its index. -/
def World.resumesOwn [DecidableEq Id] (world : World Id machine.journaled) :
    Action Id → Bool
  | .resumeSubmit self id =>
      ((world.node self).resumable.find? fun waiter => waiter.id = id).all fun waiter =>
        (world.node self).db.hasTerm waiter.entry.index waiter.entry.term
  | _ => true

/-- Orderly, and `submit` calls resume with their own entry in the log. -/
def World.Faithful [DecidableEq Id] (world : World Id machine.journaled)
    (action : Action Id) : Prop :=
  world.Orderly action ∧ world.resumesOwn action = true

instance [DecidableEq Id] (world : World Id machine.journaled) (action : Action Id) :
    Decidable (world.Faithful action) :=
  inferInstanceAs (Decidable (_ ∧ _))

/-- Whether a `submit` call that appended an entry of `term` at `index` has resolved
with that index. -/
def World.resolves [DecidableEq Id] (world : World Id machine) (who : Id) (index : Int)
    (term : Nat) : Bool :=
  world.history.any fun seen =>
    match seen.2 with
    | .submitResolved _ (some entry) result =>
        decide (seen.1 = who ∧ entry.index = index ∧ entry.term = term ∧
          result.index = index)
    | _ => false

theorem World.exists_of_resolves [DecidableEq Id] {world : World Id machine} {who : Id}
    {index : Int} {term : Nat} (resolves : world.resolves who index term = true) :
    ∃ id entry result, (who, .submitResolved id (some entry) result) ∈ world.history ∧
      entry.index = index ∧ entry.term = term ∧ result.index = entry.index := by
  obtain ⟨⟨actor, event⟩, seen, matched⟩ := List.any_eq_true.mp resolves
  cases event with
  | submitResolved id appended result =>
      cases appended with
      | none => simp at matched
      | some entry =>
          obtain ⟨rfl, rfl, rfl, own⟩ := of_decide_eq_true matched
          exact ⟨id, entry, result, seen, rfl, rfl, own⟩
  | role | applied | commit | snapshotTaken | snapshotInstalled | submitRejected
  | readCalled | readReturned | readRejected => simp at matched

/-- Answers to `submit` calls are followed as well. -/
def Tier.answers : Tier := ⟨True, False, True⟩

/-- An entry's creator and its index determine it. -/
theorem Recorded.unique {ideal : Ideal Id} {left right : LogEntry}
    (leftRecorded : Recorded ideal left) (rightRecorded : Recorded ideal right)
    (sameIndex : left.index = right.index) (sameTerm : left.term = right.term) :
    left = right := by
  obtain ⟨_, _, leftFound⟩ := leftRecorded
  obtain ⟨_, _, rightFound⟩ := rightRecorded
  rw [sameIndex, sameTerm, rightFound] at leftFound
  exact (Option.some.inj leftFound).symm

section Runs

variable [DecidableEq Id] [Fintype Id] {cluster : Cluster Id} {tier : Tier}
  {ideal : Ideal Id} {world : World Id machine.journaled}

omit [DecidableEq Id] in
/-- The term of the entry a node holds at a waiter's index tells whether it is the
waiter's own. -/
theorem WorldMatches.own_entry (matching : WorldMatches tier ideal world)
    (strict : tier.strict) {self : Id} {id : Nat}
    (own : ((world.node self).resumable.find? fun waiter => waiter.id = id).all
      (fun waiter => (world.node self).db.hasTerm waiter.entry.index waiter.entry.term) =
        true) :
    OwnEntry ideal self (world.node self) id := by
  intro waiter found
  rw [found] at own
  have safe := (matching.safe strict).nodes self
  obtain ⟨_, recorded⟩ := safe.resumed waiter (List.mem_of_find?_eq_some found)
  obtain ⟨entry, held, same⟩ := Database.hasTerm_iff.mp own
  obtain ⟨positive, inside⟩ := (safe.hasAt_iff (matching.nodes self)).mp held
  have indexed := (matching.nodes self).file.log.indexed
  have index := indexed _ _ inside
  have other := Recorded.of_backed (matching.sound.backed_log self) indexed inside
  obtain rfl := other.unique recorded (by omega) same
  exact inside

theorem WorldMatches.of_faithful
    (reached : (cluster.system machine.journaled).Reach World.Faithful world) :
    ∃ ideal, WorldMatches .answers ideal world :=
  WorldMatches.of_reach (fun _ world _ matching faithful =>
    { orderly := fun _ => faithful.1
      exact := False.elim
      faithful := fun _ => ⟨trivial, fun self id resumes =>
        matching.own_entry trivial (by
          have own := faithful.2
          rw [resumes] at own
          exact own)⟩
      uncompacted := fun lax => (lax trivial).elim }) reached

/-- A decided entry is in the files of a majority. -/
theorem WorldMatches.settled_durable (matching : WorldMatches tier ideal world)
    (strict : tier.strict) {entry : LogEntry} (settled : Settled ideal entry) :
    ∃ group : Finset Id, Quorum.Majority group ∧
      ∀ member ∈ group, (world.node member).db.Durable entry.index entry := by
  obtain ⟨_, log, ⟨era, _, covered⟩, indexed, member⟩ := settled
  obtain ⟨position, found⟩ := List.mem_iff_getElem?.mp member
  have bound := (List.getElem?_eq_some_iff.mp found).1
  have decided := covered.length_le
  rw [List.length_take] at decided
  have led := (matching.sound.decided era (by omega)).1
  obtain ⟨who, won⟩ := Option.ne_none_iff_exists'.mp led
  have inside : (ideal.ledger era)[position]? = some entry := by
    obtain ⟨suffix, whole⟩ := covered
    rw [← List.getElem?_take_of_lt (show position < ideal.decided era by omega), ← whole,
      List.getElem?_append_left bound, found]
  obtain ⟨group, majority, _, durable⟩ :=
    matching.decided_durable strict won (by omega) inside
  rw [indexed _ _ found]
  exact ⟨group, majority, durable⟩

end Runs

/-- In faithful runs a `submit` call that resolves with the index of the entry it
appended names the committed entry: it is durable on a majority, and the only entry
any replica ever applies or covers there. -/
theorem acknowledged_write_committed {Id : Type} [DecidableEq Id] [Fintype Id]
    (cluster : Cluster Id) (machine : Machine) (world : World Id machine.journaled)
    (reached : (cluster.system machine.journaled).Reach World.Faithful world)
    (who : Id) (id : Nat) (entry : LogEntry) (result : SubmitResult)
    (resolved : (who, .submitResolved id (some entry) result) ∈ world.history)
    (own : result.index = entry.index) :
    (∃ group : Finset Id, Quorum.Majority group ∧
      ∀ member ∈ group, (world.node member).db.Durable entry.index entry) ∧
    ∀ member found, world.Has member entry.index found → found = some entry := by
  obtain ⟨ideal, matching⟩ := WorldMatches.of_faithful reached
  obtain ⟨_, faithful⟩ := (matching.safe trivial).events _ _ resolved
  have settled := faithful trivial entry rfl own
  refine ⟨matching.settled_durable trivial settled, fun member found has => ?_⟩
  obtain ⟨other, rfl, index, settled'⟩ := has.settled matching trivial
  rw [settled'.unique matching.sound settled index]

theorem acknowledged_write_committing : ∃ (world : World (Fin 3) canvas.journaled)
    (entry : LogEntry),
    ((Cluster.ofFin 3 1).system canvas.journaled).Reach World.Faithful world ∧
      entry.index = 1 ∧ world.resolves 0 1 1 = true ∧
        ∀ member found, world.Has member 1 found → found = some entry := by
  obtain ⟨world, reached, passed⟩ :=
    ((Cluster.ofFin 3 1).system canvas.journaled).exists_reach_of_run World.Faithful
      (committing ++ [.resumeSubmit 0 5]) (fun world => world.resolves 0 1 1)
      (by decide +kernel)
  obtain ⟨id, entry, result, resolved, index, _, own⟩ := World.exists_of_resolves passed
  refine ⟨world, entry, reached, index, passed, ?_⟩
  exact index ▸
    (acknowledged_write_committed _ _ world reached 0 id entry result resolved own).2

/-- A leader with a waiting `submit` call is deposed, its entry is replaced, and it
leads again before the call times out. -/
def replacing : List (Action (Fin 3)) :=
  [.electionTimeout 0, .deliver 0 1,
    .resume 0 [some { term := 1, voteGranted := true }, none],
    .deliver 1 1, .deliver 2 2, .resume 1 [some { term := 1, success := true }],
    .submit 0 .stroke .null,
    .electionTimeout 1, .deliver 5 2,
    .resume 5 [none, some { term := 2, voteGranted := true }],
    .deliver 7 2, .resume 7 [some { term := 2, success := true }], .deliver 6 0,
    .electionTimeout 0, .deliver 8 2,
    .resume 8 [none, some { term := 3, voteGranted := true }],
    .deliver 10 2, .resume 10 [some { term := 3, success := true }], .resumeSubmit 0 6]

/-- The call resolves with the index of its entry although another leader's entry was
committed and applied there. -/
theorem acknowledged_write_replaced : ∃ (world : World (Fin 3) canvas.journaled)
    (id : Nat) (entry : LogEntry) (result : SubmitResult) (found : LogEntry),
    ((Cluster.ofFin 3 100).system canvas.journaled).Reach World.Orderly world ∧
      (0, .submitResolved id (some entry) result) ∈ world.history ∧
        result.index = entry.index ∧ world.Has 1 entry.index (some found) ∧
          found ≠ entry := by
  obtain ⟨world, reached, passed⟩ :=
    ((Cluster.ofFin 3 100).system canvas.journaled).exists_reach_of_run World.Orderly
      replacing (fun world => world.resolves 0 1 1 && world.applies 1 1 2)
      (by decide +kernel)
  obtain ⟨resolves, applies⟩ := Bool.and_eq_true_iff.mp passed
  obtain ⟨id, entry, result, resolved, index, term, own⟩ :=
    World.exists_of_resolves resolves
  obtain ⟨found, has, term'⟩ := World.has_of_applies applies
  refine ⟨world, id, entry, result, found, reached, resolved, own, index ▸ has, ?_⟩
  rintro rfl
  omega

end RaftCanvas
