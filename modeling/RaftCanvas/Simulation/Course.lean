import RaftCanvas.Raft.Votes
import RaftCanvas.Simulation.Commitment

/-!
# Running a handler along the abstract protocol

A handler appends effects one after the other.  `Course` says that what it has done
so far is matched by steps of its member, at every point where a crash may cut the
effects off if the run is `calm`.  The lemmas below extend a course by one effect.
-/

namespace RaftCanvas

open Replication.State (Steps)

variable {Id : Type} {machine : Machine} [DecidableEq Id] [Fintype Id]

/-- The effects `done`, begun on the file `db`, take the abstract state from `origin`
to `ideal`. -/
structure Cut {Blob : Type} (actor : Id) (origin : Ideal Id) (db : Database Id Blob)
    (done : List (Effect Id Blob)) (ideal : Ideal Id) : Prop where
  steps : Steps actor origin ideal
  file : FileMatches ideal actor (Effect.file db done)
  calls : ∀ call ∈ Effect.sends done, call.src = actor ∧ CallMatches ideal call
  elected : ∀ era, ideal.elected era ≠ none →
    origin.elected era ≠ none ∨ era ∈ leaderTerms (Effect.events done)
  indexed : ∀ era, ideal.elected era ≠ none → Indexed (ideal.ledger era)
  kept : 0 ≤ db.lastSnapshotIndex → 0 ≤ (Effect.file db done).lastSnapshotIndex
  installs : ∀ call ∈ Effect.sends done, ∀ body, call.request = .installSnapshot body →
    0 ≤ (Effect.file db done).lastSnapshotIndex

theorem Cut.append {Blob : Type} {actor : Id} {origin mid ideal : Ideal Id}
    {db : Database Id Blob} {done more : List (Effect Id Blob)} (sound : origin.Sound)
    (left : Cut actor origin db done mid)
    (right : Cut actor mid (Effect.file db done) more ideal) :
    Cut actor origin db (done ++ more) ideal where
  steps := left.steps.trans right.steps
  file := by
    rw [Effect.file_append]
    exact right.file
  calls call member := by
    rw [Effect.sends_append, List.mem_append] at member
    rcases member with before | after
    · obtain ⟨soundMid, _, _⟩ := left.steps.sound sound
      obtain ⟨_, extended, _⟩ := right.steps.sound soundMid
      exact ⟨(left.calls call before).1, (left.calls call before).2.extends extended⟩
    · exact right.calls call after
  elected era led := by
    rw [Effect.events_append, leaderTerms_append, List.mem_append]
    rcases right.elected era led with before | after
    · exact (left.elected era before).imp id Or.inl
    · exact Or.inr (Or.inr after)
  indexed := right.indexed
  kept := by
    rw [Effect.file_append]
    exact fun compacted => right.kept (left.kept compacted)
  installs call member body request := by
    rw [Effect.sends_append, List.mem_append] at member
    rw [Effect.file_append]
    rcases member with before | after
    · exact right.kept (left.installs call before body request)
    · exact right.installs call after body request

/-- The commit side of the effects `more` that lead to the node `after`. -/
structure Prudent (tier : Tier) (actor : Id) (ideal : Ideal Id)
    (before : Database Id machine.Blob) (after : Node Id machine)
    (more : List (Effect Id machine.Blob)) : Prop where
  safe : NodeSafe tier ideal actor after
  events : ∀ event ∈ Effect.events more, EventSafe tier ideal actor event
  requests : ∀ call ∈ Effect.sends more, RequestSafe ideal call.request
  grows : before.lastSnapshotIndex ≤ after.db.lastSnapshotIndex
  installs : ∀ call ∈ Effect.sends more, ∀ body,
    call.request = .installSnapshot body →
      body.lastIncludedIndex ≤ after.db.lastSnapshotIndex

/-- Where a handler starts from and what is asked of it. -/
structure Stage (Id : Type) (machine : Machine) where
  tier : Tier
  /-- The process may die at any effect. -/
  calm : Prop
  origin : Ideal Id
  actor : Id
  file : Database Id machine.Blob

/-- The handler has reached `node`, and the abstract protocol `ideal`. -/
structure Course (stage : Stage Id machine) (ideal : Ideal Id) (node : Node Id machine) :
    Prop where
  origin : stage.origin.Sound
  cut : Cut stage.actor stage.origin stage.file node.trace ideal
  matching : NodeMatches ideal stage.actor node
  file : node.db = Effect.file stage.file node.trace
  cuts : stage.calm → Effect.Always
    (fun done => ∃ mid, Cut stage.actor stage.origin stage.file done mid) node.trace
  prudent : stage.tier.strict →
    Prudent stage.tier stage.actor ideal stage.file node node.trace

namespace Course

variable {stage : Stage Id machine} {ideal next : Ideal Id} {node after : Node Id machine}

theorem sound (course : Course stage ideal node) : ideal.Sound :=
  (course.cut.steps.sound course.origin).1

theorem safe (course : Course stage ideal node) (strict : stage.tier.strict) :
    NodeSafe stage.tier ideal stage.actor node :=
  (course.prudent strict).safe

/-- Append several effects at once. -/
theorem extend (course : Course stage ideal node) (more : List (Effect Id machine.Blob))
    (trace : after.trace = node.trace ++ more)
    (file : after.db = Effect.file node.db more)
    (matching : NodeMatches next stage.actor after)
    (cut : Cut stage.actor ideal node.db more next)
    (cuts : stage.calm →
      Effect.Always (fun done => ∃ mid, Cut stage.actor ideal node.db done mid) more)
    (prudent : stage.tier.strict → NodeSafe stage.tier ideal stage.actor node →
      Prudent stage.tier stage.actor next node.db after more) :
    Course stage next after where
  origin := course.origin
  cut := by
    rw [trace]
    exact course.cut.append course.origin (course.file ▸ cut)
  matching := matching
  file := by rw [trace, Effect.file_append, ← course.file, file]
  cuts calm := by
    rw [trace, Effect.always_append]
    refine ⟨course.cuts calm, fun done inside => ?_⟩
    obtain ⟨mid, later⟩ := cuts calm done inside
    exact ⟨mid, course.cut.append course.origin (course.file ▸ later)⟩
  prudent strict := by
    have before := course.prudent strict
    have later := prudent strict before.safe
    obtain ⟨_, extended, _⟩ := cut.steps.sound course.sound
    exact {
      safe := later.safe
      events := fun event member => by
        rw [trace, Effect.events_append, List.mem_append] at member
        rcases member with old | new
        · exact (before.events event old).extends course.sound extended
        · exact later.events event new
      requests := fun call member => by
        rw [trace, Effect.sends_append, List.mem_append] at member
        rcases member with old | new
        · exact (before.requests call old).extends course.sound extended
            (course.cut.calls call old).2.request
        · exact later.requests call new
      grows := before.grows.trans later.grows
      installs := fun call member body request => by
        rw [trace, Effect.sends_append, List.mem_append] at member
        rcases member with old | new
        · exact (before.installs call old body request).trans later.grows
        · exact later.installs call new body request }

/-- The empty sequence of effects, with steps that leave the file alone. -/
theorem cut_nil (course : Course stage ideal node) :
    Cut stage.actor ideal node.db [] ideal where
  steps := .refl ideal
  file := course.matching.file
  calls := fun call member => by simp at member
  elected := fun _ led => Or.inl led
  indexed := course.cut.indexed
  kept := id
  installs := fun call member => by simp at member

theorem emit (course : Course stage ideal node) {event : Event machine.Blob}
    (safe : stage.tier.strict → NodeSafe stage.tier ideal stage.actor node →
      EventSafe stage.tier ideal stage.actor event) :
    Course stage ideal (node.emit event) := by
  have cut : Cut stage.actor ideal node.db [.event event] ideal :=
    { course.cut_nil with
      calls := fun call member => by simp at member
      elected := fun _ led => Or.inl led
      installs := fun call member => by simp at member }
  refine course.extend [.event event] rfl rfl
    { course.matching with } cut (fun _ => ?_) fun strict before => ?_
  · rw [Effect.always_singleton]
    exact ⟨⟨ideal, course.cut_nil⟩, ⟨ideal, cut⟩⟩
  · exact {
      safe := { before with }
      events := by simpa using safe strict before
      requests := by simp
      grows := Int.le_refl _
      installs := by simp }

theorem send (course : Course stage ideal node) {call : Call Id machine.Blob}
    (src : call.src = stage.actor) (matching : CallMatches ideal call)
    (safe : stage.tier.strict → NodeSafe stage.tier ideal stage.actor node →
      RequestSafe ideal call.request)
    (installs : ∀ body, call.request = .installSnapshot body →
      body.lastIncludedIndex ≤ node.db.lastSnapshotIndex) :
    Course stage ideal (node.send call) := by
  have cut : Cut stage.actor ideal node.db [.send call] ideal :=
    { course.cut_nil with
      calls := by simpa using And.intro src matching
      elected := fun _ led => Or.inl led
      installs := fun asked member body request => by
        obtain rfl : asked = call := by simpa using member
        have positive : 0 ≤ body.lastIncludedIndex := by
          have shape := matching.request
          rw [request] at shape
          exact Installs.positive shape
        exact positive.trans (installs body request) }
  refine course.extend [.send call] rfl rfl
    { course.matching with } cut (fun _ => ?_) fun strict before => ?_
  · rw [Effect.always_singleton]
    exact ⟨⟨ideal, course.cut_nil⟩, ⟨ideal, cut⟩⟩
  · exact {
      safe := { before with }
      events := by simp
      requests := by simpa using safe strict before
      grows := Int.le_refl _
      installs := by simpa [Node.send] using installs }

/-- One transaction, matched by steps that elect nobody. -/
theorem write (course : Course stage ideal node) {db : Database Id machine.Blob}
    (trace : after.trace = node.trace ++ [.write db]) (stored : after.db = db)
    (steps : Steps stage.actor ideal next)
    (matching : NodeMatches next stage.actor after)
    (elected : next.elected = ideal.elected)
    (indexed : ∀ era, next.elected era ≠ none → Indexed (next.ledger era))
    (safe : stage.tier.strict → NodeSafe stage.tier ideal stage.actor node →
      NodeSafe stage.tier next stage.actor after)
    (kept : 0 ≤ node.db.lastSnapshotIndex → 0 ≤ db.lastSnapshotIndex)
    (grows : stage.tier.strict → NodeSafe stage.tier ideal stage.actor node →
      node.db.lastSnapshotIndex ≤ db.lastSnapshotIndex) :
    Course stage next after := by
  have cut : Cut stage.actor ideal node.db [.write db] next :=
    { steps
      file := stored ▸ matching.file
      calls := by simp
      elected := fun _ led => Or.inl (elected ▸ led)
      indexed
      kept
      installs := by simp }
  refine course.extend [.write db] trace stored matching cut (fun _ => ?_) fun strict before => ?_
  · rw [Effect.always_singleton]
    exact ⟨⟨ideal, course.cut_nil⟩, ⟨next, cut⟩⟩
  · exact {
      safe := safe strict before
      events := by simp
      requests := by simp
      grows := by rw [stored]; exact grows strict before
      installs := by simp }

/-- Steps of the abstract protocol that show neither in the file nor on the wire. -/
theorem silent (course : Course stage ideal node) (trace : after.trace = node.trace)
    (file : after.db = node.db) (steps : Steps stage.actor ideal next)
    (matching : NodeMatches next stage.actor after)
    (elected : next.elected = ideal.elected)
    (indexed : ∀ era, next.elected era ≠ none → Indexed (next.ledger era))
    (safe : stage.tier.strict → NodeSafe stage.tier ideal stage.actor node →
      NodeSafe stage.tier next stage.actor after) : Course stage next after := by
  have cut : Cut stage.actor ideal node.db [] next :=
    { steps
      file := file ▸ matching.file
      calls := by simp
      elected := fun _ led => Or.inl (elected ▸ led)
      indexed
      kept := id
      installs := by simp }
  refine course.extend [] (by simpa using trace) (by simpa using file) matching
    cut (fun _ => ?_) fun strict before => ?_
  · rw [Effect.always_nil]
    exact ⟨next, cut⟩
  · exact {
      safe := safe strict before
      events := by simp
      requests := by simp
      grows := by rw [file]
      installs := by simp }

/-- Only the node's memory changes. -/
theorem memory (course : Course stage ideal node) (trace : after.trace = node.trace)
    (file : after.db = node.db) (matching : NodeMatches ideal stage.actor after)
    (safe : stage.tier.strict → NodeSafe stage.tier ideal stage.actor node →
      NodeSafe stage.tier ideal stage.actor after) : Course stage ideal after :=
  course.silent trace file (.refl ideal) matching rfl course.cut.indexed safe

end Course

end RaftCanvas
