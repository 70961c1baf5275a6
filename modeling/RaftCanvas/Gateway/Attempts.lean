import Mathlib.Data.List.Perm.Subperm
import RaftCanvas.Gateway.Overwrite
import RaftCanvas.Library.Recording

/-!
# Attempts

A forwarded stroke goes on by events of its own: an answer of a replica it polls, or of
the leader it posts to.  Whatever the other forwards do to the leader in between, it
settles after a bounded number of them, and posts its stroke at most three times.
-/

namespace RaftCanvas

namespace Gateway

variable {Stroke Data : Type}

/-- Own events that may still come before the forward settles. -/
def Stage.rank : Stage Data → Nat
  | .polling attempt _ remaining => 5 * (2 - attempt) + 3 + remaining.length
  | .polled attempt => 5 * (2 - attempt) + 2
  | .posting attempt _ _ => 5 * (2 - attempt) + 1
  | .returned _ | .thrown _ => 0

/-- The first attempt that may still post. -/
def Stage.next : Stage Data → Nat
  | .polling attempt _ _ | .polled attempt => attempt
  | .posting attempt _ _ => attempt + 1
  | .returned _ | .thrown _ => 3

/-- An attempt is one of three and asks one of three replicas. -/
def Stage.Within : Stage Data → Prop
  | .polling attempt _ remaining => attempt ≤ 2 ∧ remaining.length ≤ 2
  | .polled attempt | .posting attempt _ _ => attempt ≤ 2
  | .returned _ | .thrown _ => True

def Stage.settled : Stage Data → Bool
  | .returned _ | .thrown _ => true
  | _ => false

theorem Stage.rank_eq_zero {stage : Stage Data} :
    stage.rank = 0 ↔ stage.settled = true := by
  cases stage <;> simp [rank, settled]

theorem Stage.Within.next {stage : Stage Data} (within : stage.Within) : stage.next ≤ 3 := by
  cases stage with
  | polling attempt url remaining => exact Nat.le_succ_of_le within.1
  | polled attempt => exact Nat.le_succ_of_le within
  | posting attempt url sent => exact Nat.succ_le_succ within
  | returned | thrown => exact Nat.le_refl 3

/-- A POST of a forwarded stroke. -/
structure Post (Stroke : Type) where
  attempt : Nat
  url : String
  stroke : Stroke

/-- A forward starts or goes on, and may post. -/
structure Event (Stroke : Type) where
  forward : Nat
  post : Option (Post Stroke)

def Forward.post (forward : Forward Stroke Data) : Option (Post Stroke) :=
  match forward.stage with
  | .posting attempt url _ => some { attempt, url, stroke := forward.stroke }
  | _ => none

/-- The forward an action is about. -/
def target (self : Gateway Stroke Data) : Action Stroke Data → Option Nat
  | .stroke _ => some self.forwards.length
  | action => action.actor

/-- The event of a step; a forward that has just entered a POST has sent it. -/
def observe (self : Gateway Stroke Data) (action : Action Stroke Data) :
    List (Event Stroke) :=
  match self.step action, self.target action with
  | some next, some forward =>
      [{ forward, post := next.forwards[forward]?.bind Forward.post }]
  | _, _ => []

/-- What follows a stage: fewer events are left, and a POST is a new attempt. -/
structure Succeeds (stage later : Stage Data) : Prop where
  rank : later.rank < stage.rank
  next : stage.next ≤ later.next
  within : later.Within
  posts : ∀ attempt url sent, later = .posting attempt url sent → stage.next ≤ attempt

theorem poll_within {attempt : Nat} (bound : attempt ≤ 2) {urls : List String}
    (length : urls.length ≤ 3) : (poll attempt urls : Stage Data).Within := by
  cases urls with
  | nil => exact bound
  | cons url urls => exact ⟨bound, Nat.le_of_succ_le_succ length⟩

theorem tryLeader_within (self : Gateway Stroke Data) {attempt : Nat}
    (bound : attempt ≤ 2) : (self.tryLeader attempt).Within := by
  unfold tryLeader
  split
  · exact bound
  · exact poll_within bound (Nat.le_refl 3)

theorem tryLeader_rank (self : Gateway Stroke Data) (attempt : Nat) :
    (self.tryLeader attempt).rank ≤ 5 * (2 - attempt) + 5 := by
  unfold tryLeader
  split
  · simp only [Stage.rank]
    omega
  · simp [poll, replicaUrls, Stage.rank]

theorem tryLeader_next (self : Gateway Stroke Data) (attempt : Nat) :
    attempt ≤ (self.tryLeader attempt).next := by
  unfold tryLeader
  split
  · exact Nat.le_succ attempt
  · exact Nat.le_refl attempt

/-- The next attempt follows whatever ended the last one. -/
theorem Succeeds.retry (self : Gateway Stroke Data) {stage : Stage Data} {attempt : Nat}
    (bound : attempt + 1 ≤ 2) (next : stage.next ≤ attempt + 1)
    (rank : 5 * (2 - attempt) < stage.rank) :
    Succeeds stage (self.tryLeader (attempt + 1)) := by
  refine ⟨?_, Nat.le_trans next (self.tryLeader_next _), self.tryLeader_within bound, ?_⟩
  · have fewer := self.tryLeader_rank (attempt + 1)
    omega
  · intro later url sent posting
    unfold tryLeader at posting
    split at posting
    · cases posting
      exact next
    · cases posting

theorem Succeeds.poll {attempt : Nat} {url : String} {remaining : List String}
    (within : (Stage.polling attempt url remaining : Stage Data).Within) :
    Succeeds (Stage.polling attempt url remaining : Stage Data)
      (poll attempt remaining) := by
  obtain ⟨bound, length⟩ := within
  cases remaining with
  | nil => exact ⟨by simp [Stage.rank, Gateway.poll], Nat.le_refl _, bound, nofun⟩
  | cons url' remaining =>
      exact ⟨by simp [Stage.rank, Gateway.poll], Nat.le_refl _,
        ⟨bound, Nat.le_of_succ_le length⟩, nofun⟩

theorem Succeeds.resume (self : Gateway Stroke Data) {attempt : Nat}
    (bound : attempt ≤ 2) : Succeeds (Stage.polled attempt) (self.resume attempt) := by
  unfold Gateway.resume
  split
  next url known =>
      refine ⟨by simp [Stage.rank], Nat.le_succ attempt, bound, ?_⟩
      rintro _ _ _ ⟨⟩
      exact Nat.le_refl _
  next unknown =>
      split
      next last =>
          subst last
          exact ⟨by simp [Stage.rank], by simp [Stage.next], trivial, nofun⟩
      next more =>
          exact .retry self (by omega) (Nat.le_succ attempt) (by simp [Stage.rank])

/-- What a step does to the forwards: nothing, start one, or take one a stage further. -/
inductive Goes (before next : Gateway Stroke Data) : List (Event Stroke) → Prop where
  | rest : next.forwards = before.forwards → Goes before next []
  | starts (forward : Forward Stroke Data) : forward.stage.Within → forward.stage.rank ≤ 15 →
      next.forwards = before.forwards ++ [forward] →
      Goes before next [⟨before.forwards.length, forward.post⟩]
  | goes (index : Nat) (stroke : Stroke) (stage later : Stage Data) :
      before.forwards[index]? = some ⟨stroke, stage⟩ →
      (stage.Within → Succeeds stage later) →
      next.forwards = before.forwards.set index ⟨stroke, later⟩ →
      Goes before next [⟨index, Forward.post ⟨stroke, later⟩⟩]

/-- A forward takes the stage it has come to. -/
theorem Goes.suspend {before mid : Gateway Stroke Data} {action : Action Stroke Data}
    {index : Nat} {stroke : Stroke} {stage later : Stage Data}
    (acts : before.target action = some index)
    (stepped : before.step action = some (mid.suspend index stroke later))
    (found : before.forwards[index]? = some ⟨stroke, stage⟩)
    (same : mid.forwards = before.forwards) (succeeds : stage.Within → Succeeds stage later) :
    Goes before (mid.suspend index stroke later) (before.observe action) := by
  have taken : (mid.suspend index stroke later).forwards =
      before.forwards.set index ⟨stroke, later⟩ := by
    rw [Gateway.suspend, same]
  obtain ⟨bound, _⟩ := List.getElem?_eq_some_iff.mp found
  have observed : before.observe action = [⟨index, Forward.post ⟨stroke, later⟩⟩] := by
    simp only [observe, acts, stepped, taken, List.getElem?_set_self bound, Option.bind_some]
  rw [observed]
  exact .goes index stroke stage later found succeeds taken

theorem Goes.step {before next : Gateway Stroke Data} {action : Action Stroke Data}
    (stepped : before.step action = some next) :
    Goes before next (before.observe action) := by
  cases action with
  | stroke stroke =>
      obtain rfl := Option.some.inj stepped
      have started : before.observe (.stroke stroke) =
          [⟨before.forwards.length, Forward.post ⟨stroke, before.tryLeader 0⟩⟩] := by
        simp [observe, Gateway.step, target, forwardStrokeToLeader]
      rw [started]
      exact .starts ⟨stroke, before.tryLeader 0⟩ (before.tryLeader_within (Nat.zero_le 2))
        (before.tryLeader_rank 0) rfl
  | leader leaderId leaderUrl =>
      obtain rfl := Option.some.inj stepped
      refine .rest ?_
      unfold register
      split <;> rfl
  | status index response =>
      have taken := stepped
      simp only [Gateway.step, Option.bind_eq_bind, Option.bind_eq_some_iff] at taken
      obtain ⟨⟨stroke, stage⟩, found, taken⟩ := taken
      cases stage with
      | polling attempt url remaining =>
          dsimp only at taken
          split at taken
          next data leads =>
              obtain rfl := Option.some.inj taken
              exact .suspend rfl stepped found rfl fun within =>
                ⟨by simp only [Stage.rank]; omega, Nat.le_refl _, within.1, by rintro _ _ _ ⟨⟩⟩
          next =>
              obtain rfl := Option.some.inj taken
              exact .suspend rfl stepped found rfl .poll
      | polled | posting | returned | thrown => cases taken
  | discovered index =>
      have taken := stepped
      simp only [Gateway.step, Option.bind_eq_bind, Option.bind_eq_some_iff] at taken
      obtain ⟨⟨stroke, stage⟩, found, taken⟩ := taken
      cases stage with
      | polled attempt =>
          obtain rfl := Option.some.inj taken
          exact .suspend rfl stepped found rfl fun within => .resume before within
      | polling | posting | returned | thrown => cases taken
  | answer index result =>
      have taken := stepped
      simp only [Gateway.step, Option.bind_eq_bind, Option.bind_eq_some_iff] at taken
      obtain ⟨⟨stroke, stage⟩, found, taken⟩ := taken
      cases stage with
      | posting attempt url sent =>
          cases result with
          | ok data =>
              obtain rfl := Option.some.inj taken
              exact .suspend rfl stepped found rfl fun within =>
                ⟨by simp [Stage.rank], Nat.succ_le_succ within, trivial, by rintro _ _ _ ⟨⟩⟩
          | error err =>
              obtain rfl := Option.some.inj taken
              refine .suspend rfl stepped found ?_ fun within => ?_
              · unfold fail
                split <;> rfl
              · split
                next last =>
                    exact ⟨by simp [Stage.rank], Nat.succ_le_succ within, trivial, by rintro _ _ _ ⟨⟩⟩
                next more =>
                    have bound : attempt ≤ 2 := within
                    exact .retry _ (by omega) (Nat.le_refl _) (Nat.lt_succ_self _)
      | polling | polled | returned | thrown => cases result <;> cases taken

/-! ## The strokes that are forwarded -/

/-- The stroke that arrives with an action. -/
def arrival : Action Stroke Data → Option Stroke
  | .stroke stroke => some stroke
  | _ => none

theorem suspend_strokes {self mid : Gateway Stroke Data} {index : Nat} {stroke : Stroke}
    {stage : Stage Data} (later : Stage Data) (same : mid.forwards = self.forwards)
    (found : self.forwards[index]? = some ⟨stroke, stage⟩) :
    (mid.suspend index stroke later).forwards.map Forward.stroke =
      self.forwards.map Forward.stroke := by
  obtain ⟨bound, held⟩ := List.getElem?_eq_some_iff.mp found
  have inside : index < (self.forwards.map Forward.stroke).length := by
    rwa [List.length_map]
  have kept : (self.forwards.map Forward.stroke)[index] = stroke := by
    rw [List.getElem_map, held]
  rw [suspend, same, List.map_set]
  conv_lhs => rw [← kept]
  exact List.set_getElem_self _

/-- Every stroke is forwarded as it arrived. -/
theorem step_strokes {self next : Gateway Stroke Data} {action : Action Stroke Data}
    (stepped : self.step action = some next) :
    next.forwards.map Forward.stroke =
      self.forwards.map Forward.stroke ++ (arrival action).toList := by
  cases action with
  | stroke stroke =>
      obtain rfl := Option.some.inj stepped
      simp [forwardStrokeToLeader, arrival]
  | leader leaderId leaderUrl =>
      obtain rfl := Option.some.inj stepped
      unfold register
      split <;> simp [arrival, writeLeader]
  | status index response =>
      simp only [Gateway.step, Option.bind_eq_bind, Option.bind_eq_some_iff] at stepped
      obtain ⟨⟨stroke, stage⟩, found, taken⟩ := stepped
      refine Eq.trans ?_ (List.append_nil _).symm
      split at taken
      · split at taken <;>
          obtain rfl := Option.some.inj taken <;>
          exact suspend_strokes _ rfl found
      · cases taken
  | discovered index =>
      simp only [Gateway.step, Option.bind_eq_bind, Option.bind_eq_some_iff] at stepped
      obtain ⟨⟨stroke, stage⟩, found, taken⟩ := stepped
      refine Eq.trans ?_ (List.append_nil _).symm
      split at taken
      · obtain rfl := Option.some.inj taken
        exact suspend_strokes _ rfl found
      · cases taken
  | answer index result =>
      simp only [Gateway.step, Option.bind_eq_bind, Option.bind_eq_some_iff] at stepped
      obtain ⟨⟨stroke, stage⟩, found, taken⟩ := stepped
      refine Eq.trans ?_ (List.append_nil _).symm
      split at taken
      · obtain rfl := Option.some.inj taken
        exact suspend_strokes _ rfl found
      · obtain rfl := Option.some.inj taken
        refine suspend_strokes _ ?_ found
        unfold fail
        split <;> rfl
      · cases taken

/-- The events of one forward. -/
def events (record : List (Event Stroke)) (index : Nat) : List (Event Stroke) :=
  record.filter fun event => event.forward = index

/-- The POSTs of one forward. -/
def postsOf (record : List (Event Stroke)) (index : Nat) : List (Post Stroke) :=
  (events record index).filterMap Event.post

/-- What a forward has used up. -/
structure Spent (record : List (Event Stroke)) (index : Nat) (forward : Forward Stroke Data) :
    Prop where
  within : forward.stage.Within
  events : (events record index).length + forward.stage.rank ≤ 16
  attempts : ((postsOf record index).map Post.attempt).Pairwise (· < ·)
  earlier : ∀ post ∈ postsOf record index, post.attempt < forward.stage.next
  stroke : ∀ post ∈ postsOf record index, post.stroke = forward.stroke

/-- Every forward has spent what it may, and nothing is recorded of those to come. -/
structure Accounted (state : Gateway Stroke Data) (record : List (Event Stroke)) : Prop where
  spent : ∀ (index : Nat) forward, state.forwards[index]? = some forward →
    Spent record index forward
  known : ∀ event ∈ record, event.forward < state.forwards.length

section

variable {record : List (Event Stroke)} {index : Nat}

theorem events_append (record : List (Event Stroke)) (event : Event Stroke) (index : Nat) :
    events (record ++ [event]) index =
      events record index ++ if event.forward = index then [event] else [] := by
  by_cases same : event.forward = index <;> simp [events, same]

theorem postsOf_append (record : List (Event Stroke)) (post : Option (Post Stroke))
    (index : Nat) :
    postsOf (record ++ [⟨index, post⟩]) index = postsOf record index ++ post.toList := by
  cases post <;> simp [postsOf, events_append]

/-- A forward that has just posted says so. -/
theorem Forward.post_eq_some {forward : Forward Stroke Data} {post : Post Stroke}
    (posted : forward.post = some post) :
    ∃ sent, forward.stage = .posting post.attempt post.url sent ∧
      post.stroke = forward.stroke := by
  unfold Forward.post at posted
  split at posted
  next attempt url sent stage =>
      obtain rfl := Option.some.inj posted
      exact ⟨sent, stage, rfl⟩
  · cases posted

namespace Spent

/-- The events of other forwards cost nothing. -/
theorem other {forward : Forward Stroke Data} (spent : Spent record index forward)
    {event : Event Stroke} (different : event.forward ≠ index) :
    Spent (record ++ [event]) index forward := by
  have same : Gateway.events (record ++ [event]) index = Gateway.events record index := by
    rw [events_append, if_neg different, List.append_nil]
  have posts : postsOf (record ++ [event]) index = postsOf record index := by
    rw [postsOf, same, postsOf]
  exact ⟨spent.within, same ▸ spent.events, posts ▸ spent.attempts, posts ▸ spent.earlier,
    posts ▸ spent.stroke⟩

theorem goes {stroke : Stroke} {stage later : Stage Data}
    (spent : Spent record index ⟨stroke, stage⟩) (succeeds : Succeeds stage later) :
    Spent (record ++ [⟨index, Forward.post ⟨stroke, later⟩⟩]) index ⟨stroke, later⟩ := by
  have latest : ∀ post, Forward.post ⟨stroke, later⟩ = some post →
      stage.next ≤ post.attempt ∧ post.attempt < later.next ∧ post.stroke = stroke := by
    intro post posted
    obtain ⟨sent, posting, same⟩ := Forward.post_eq_some posted
    refine ⟨succeeds.posts _ _ _ posting, ?_, same⟩
    dsimp only at posting
    rw [posting]
    exact Nat.lt_succ_self _
  constructor
  case within => exact succeeds.within
  case events =>
    have before := spent.events
    have fewer := succeeds.rank
    rw [events_append, if_pos rfl, List.length_append, List.length_singleton]
    dsimp only at before ⊢
    omega
  case attempts =>
    rw [postsOf_append, List.map_append, List.pairwise_append]
    refine ⟨spent.attempts, ?_, ?_⟩
    · cases Forward.post (⟨stroke, later⟩ : Forward Stroke Data) <;> simp
    · intro earlier old attempt new
      obtain ⟨post, member, rfl⟩ := List.mem_map.mp old
      obtain ⟨last, posted, rfl⟩ := List.mem_map.mp new
      have after := (latest last (Option.mem_toList.mp posted)).1
      exact Nat.lt_of_lt_of_le (spent.earlier post member) after
  case earlier =>
    intro post member
    rw [postsOf_append, List.mem_append] at member
    rcases member with old | new
    · exact Nat.lt_of_lt_of_le (spent.earlier post old) succeeds.next
    · exact (latest post (Option.mem_toList.mp new)).2.1
  case stroke =>
    intro post member
    rw [postsOf_append, List.mem_append] at member
    rcases member with old | new
    · exact spent.stroke post old
    · exact (latest post (Option.mem_toList.mp new)).2.2

theorem starts {forward : Forward Stroke Data} (within : forward.stage.Within)
    (rank : forward.stage.rank ≤ 15) (new : Gateway.events record index = []) :
    Spent (record ++ [⟨index, forward.post⟩]) index forward := by
  have posts : postsOf (record ++ [⟨index, forward.post⟩]) index = forward.post.toList := by
    rw [postsOf_append, postsOf, new, List.filterMap_nil, List.nil_append]
  constructor
  case within => exact within
  case events =>
    rw [events_append, if_pos rfl, new, List.nil_append, List.length_singleton]
    omega
  case attempts =>
    rw [posts]
    cases forward.post <;> simp
  case earlier =>
    intro post member
    obtain ⟨sent, posting, _⟩ := Forward.post_eq_some (Option.mem_toList.mp (posts ▸ member))
    rw [posting]
    exact Nat.lt_succ_self _
  case stroke =>
    intro post member
    obtain ⟨_, _, same⟩ := Forward.post_eq_some (Option.mem_toList.mp (posts ▸ member))
    exact same

end Spent

namespace Accounted

variable {before next : Gateway Stroke Data}

theorem step (accounted : before.Accounted record) {observed : List (Event Stroke)}
    (goes : Goes before next observed) : next.Accounted (record ++ observed) := by
  cases goes with
  | rest same =>
      rw [List.append_nil]
      exact ⟨same ▸ accounted.spent, same ▸ accounted.known⟩
  | starts forward within rank same =>
      constructor
      case spent =>
        intro index found started
        rw [same, List.getElem?_append] at started
        split at started
        next earlier =>
          exact (accounted.spent index found started).other (Nat.ne_of_gt earlier)
        next =>
          rw [List.getElem?_singleton] at started
          split at started
          next last =>
            obtain rfl := Option.some.inj started
            obtain rfl : before.forwards.length = index := by omega
            refine .starts within rank (List.filter_eq_nil_iff.mpr fun event member => ?_)
            simpa using Nat.ne_of_lt (accounted.known event member)
          · cases started
      case known =>
        intro event member
        rw [same, List.length_append, List.length_singleton]
        rcases List.mem_append.mp member with old | new
        · exact Nat.lt_succ_of_lt (accounted.known event old)
        · rw [List.mem_singleton.mp new]
          exact Nat.lt_succ_self _
  | goes acting stroke stage later held succeeds same =>
      obtain ⟨bound, _⟩ := List.getElem?_eq_some_iff.mp held
      constructor
      case spent =>
        intro index found gone
        rw [same, List.getElem?_set] at gone
        have spent := accounted.spent acting ⟨stroke, stage⟩ held
        by_cases own : acting = index
        · subst own
          rw [if_pos rfl, if_pos bound] at gone
          obtain rfl := Option.some.inj gone
          exact spent.goes (succeeds spent.within)
        · rw [if_neg own] at gone
          exact (accounted.spent index found gone).other own
      case known =>
        intro event member
        rw [same, List.length_set]
        rcases List.mem_append.mp member with old | new
        · exact accounted.known event old
        · rw [List.mem_singleton.mp new]
          exact bound

end Accounted

end

end Gateway

namespace Gateway

/-- A forward that has not settled can go on. -/
theorem exists_step {Stroke Data : Type} {self : Gateway Stroke Data} {index : Nat}
    {forward : Forward Stroke Data} (found : self.forwards[index]? = some forward)
    (waits : forward.stage.settled = false) :
    ∃ action next, action.actor = some index ∧ self.step action = some next := by
  obtain ⟨stroke, stage⟩ := forward
  cases stage with
  | polling attempt url remaining =>
      exact ⟨.status index none, _, rfl, by simp [Gateway.step, found]; rfl⟩
  | polled attempt => exact ⟨.discovered index, _, rfl, by simp [Gateway.step, found]; rfl⟩
  | posting attempt url sent =>
      exact ⟨.answer index (.error ⟨"timeout", none, none⟩), _, rfl,
        by simp [Gateway.step, found]; rfl⟩
  | returned | thrown => cases waits

end Gateway

/-- The gateway with the record of its forwards. -/
def recordedGateway (Stroke Data : Type) :
    Transition.System (Gateway Stroke Data × List (Gateway.Event Stroke))
      (Gateway.Action Stroke Data) :=
  (gateway Stroke Data).recording Gateway.observe

section

variable {Stroke Data : Type} {state : Gateway Stroke Data × List (Gateway.Event Stroke)}

theorem Gateway.Accounted.reach
    (reached : (recordedGateway Stroke Data).Reach (fun _ _ => True) state) :
    Gateway.Accounted state.1 state.2 := by
  refine Transition.System.Reach.along Gateway.Accounted ?_ ?_ reached
  · exact ⟨fun _ _ found => (nomatch found), fun _ member => (nomatch member)⟩
  intro before record action next _ accounted _ stepped
  exact accounted.step (.step stepped)

/-- Every forwarded stroke settles after at most sixteen events of its own, whatever the
other forwards and the replicas do in between.  It is posted in at most three attempts, one
after the other, and always as the client sent it. -/
theorem forward_bounded
    (reached : (recordedGateway Stroke Data).Reach (fun _ _ => True) state) {index : Nat}
    {forward : Gateway.Forward Stroke Data} (found : state.1.forwards[index]? = some forward) :
    (Gateway.events state.2 index).length ≤ 16 ∧
      ((Gateway.events state.2 index).length = 16 → forward.stage.settled = true) ∧
      (Gateway.postsOf state.2 index).length ≤ 3 ∧
      ((Gateway.postsOf state.2 index).map Gateway.Post.attempt).Pairwise (· < ·) ∧
      (∀ post ∈ Gateway.postsOf state.2 index, post.stroke = forward.stroke) ∧
      (forward.stage.settled = false →
        ∃ action next, action.actor = some index ∧ state.1.step action = some next) := by
  obtain ⟨within, events, attempts, earlier, stroke⟩ :=
    (Gateway.Accounted.reach reached).spent index forward found
  refine ⟨by omega, ?_, ?_, attempts, stroke, ?_⟩
  · intro used
    rw [← Gateway.Stage.rank_eq_zero]
    omega
  · have bounded : ((Gateway.postsOf state.2 index).map Gateway.Post.attempt) ⊆
        List.range 3 := by
      intro attempt member
      obtain ⟨post, posted, rfl⟩ := List.mem_map.mp member
      have next := Gateway.Stage.Within.next within
      have before := earlier post posted
      rw [List.mem_range]
      omega
    have distinct := attempts.imp Nat.ne_of_lt
    simpa using (List.Nodup.subperm distinct bounded).length_le
  · exact fun waits => Gateway.exists_step found waits

end

/-- Replica 3 is found in every attempt, and fails every POST. -/
def refused : List (Gateway.Action Nat Unit) :=
  let down : Gateway.Action Nat Unit := .status 0 none
  let attempt : List (Gateway.Action Nat Unit) :=
    [down, down, .status 0 (some ⟨"leader", some "replica3"⟩), .discovered 0,
      .answer 0 (.error ⟨"timeout", none, none⟩)]
  .stroke 7 :: attempt ++ attempt ++ attempt

theorem forward_bounded_refused :
    ∃ state, (recordedGateway Nat Unit).Reach (fun _ _ => True) state ∧
      ∃ forward, state.1.forwards[0]? = some forward ∧
        (Gateway.events state.2 0).length = 16 ∧ forward.stage.settled = true := by
  obtain ⟨state, reached, used⟩ := Transition.System.exists_reach_of_run
    (recordedGateway Nat Unit) (fun _ _ => True) refused
    (fun state => state.1.forwards[0]?.isSome &&
      decide ((Gateway.events state.2 0).length = 16)) (by decide +kernel)
  rw [Bool.and_eq_true, Option.isSome_iff_exists, decide_eq_true_iff] at used
  obtain ⟨⟨forward, found⟩, used⟩ := used
  exact ⟨state, reached, forward, found, used, (forward_bounded reached found).2.1 used⟩

end RaftCanvas
