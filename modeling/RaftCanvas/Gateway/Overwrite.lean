import RaftCanvas.Gateway.Gateway

/-!
# Overwritten leaders

A failed POST replaces the leader without looking at it.  What it finds there is the
leader it was sent to, unless somebody else has written another one since: the failure of
a POST discards a leader that was registered or discovered while the POST was in flight.
-/

namespace RaftCanvas

namespace Gateway

variable {Stroke Data : Type}

/-- The forward that goes on in a step. -/
def Action.actor : Action Stroke Data → Option Nat
  | .stroke _ | .leader _ _ => none
  | .status forward _ | .discovered forward | .answer forward _ => some forward

/-- A stage entered now: a POST is sent to the leader known now. -/
def Prompt (self : Gateway Stroke Data) (stage : Stage Data) : Prop :=
  ∀ attempt url sent, stage = .posting attempt url sent →
    self.currentLeaderUrl = some url ∧ sent = self.writes.length

/-- What one step does: it writes the leader at most once, in the name of the forward that
goes on, and it enters no stage but promptly. -/
structure Moves (before next : Gateway Stroke Data) (actor : Option Nat) : Prop where
  writes : (next.writes = before.writes ∧
      next.currentLeaderUrl = before.currentLeaderUrl) ∨
    ∃ write : Write, next.writes = before.writes ++ [write] ∧
      write.url = next.currentLeaderUrl ∧ write.author.forward = actor
  forwards : ∀ (index : Nat) forward, next.forwards[index]? = some forward →
    (some index ≠ actor ∧ before.forwards[index]? = some forward) ∨
      next.Prompt forward.stage

theorem truthy_eq_some {value : Option String} {text : String}
    (holds : truthy value = some text) : value = some text :=
  (Option.filter_eq_some_iff.mp holds).1

theorem poll_prompt (self : Gateway Stroke Data) (attempt : Nat) (urls : List String) :
    self.Prompt (poll attempt urls) := by
  cases urls <;> exact nofun

theorem tryLeader_prompt (self : Gateway Stroke Data) (attempt : Nat) :
    self.Prompt (self.tryLeader attempt) := by
  unfold tryLeader
  split
  next url known =>
      rintro _ _ _ ⟨⟩
      exact ⟨truthy_eq_some known, rfl⟩
  next => exact self.poll_prompt attempt replicaUrls

theorem resume_prompt (self : Gateway Stroke Data) (attempt : Nat) :
    self.Prompt (self.resume attempt) := by
  unfold resume
  split
  next url known =>
      rintro _ _ _ ⟨⟩
      exact ⟨truthy_eq_some known, rfl⟩
  next =>
      split
      next => exact nofun
      next => exact self.tryLeader_prompt (attempt + 1)

namespace Moves

variable {before mid next : Gateway Stroke Data} {actor : Option Nat}

theorem writeLeader (before : Gateway Stroke Data) (author : Author)
    (url id : Option String) (unsuspended : author.forward = none) :
    Moves before (before.writeLeader author url id) none where
  writes := .inr ⟨⟨author, url⟩, rfl, rfl, unsuspended⟩
  forwards := fun _ _ found => .inl ⟨nofun, found⟩

/-- A forward goes on, after it has written the leader or not. -/
theorem suspend {index : Nat} {stroke : Stroke} {stage : Stage Data}
    (writes : (mid.writes = before.writes ∧
        mid.currentLeaderUrl = before.currentLeaderUrl) ∨
      ∃ write : Write, mid.writes = before.writes ++ [write] ∧
        write.url = mid.currentLeaderUrl ∧ write.author.forward = some index)
    (same : mid.forwards = before.forwards) (prompt : mid.Prompt stage) :
    Moves before (mid.suspend index stroke stage) (some index) where
  writes := writes
  forwards := by
    intro other forward found
    rw [Gateway.suspend, same, List.getElem?_set] at found
    by_cases own : index = other
    · rw [if_pos own] at found
      split at found
      · obtain rfl := Option.some.inj found
        exact .inr prompt
      · cases found
    · rw [if_neg own] at found
      exact .inl ⟨fun equal => own (Option.some.inj equal).symm, found⟩

theorem forwardStrokeToLeader (before : Gateway Stroke Data) (stroke : Stroke) :
    Moves before (before.forwardStrokeToLeader stroke) none where
  writes := .inl ⟨rfl, rfl⟩
  forwards := by
    intro index forward found
    rw [Gateway.forwardStrokeToLeader, List.getElem?_append] at found
    split at found
    · exact .inl ⟨nofun, found⟩
    · rw [List.getElem?_singleton] at found
      split at found
      · obtain rfl := Option.some.inj found
        exact .inr (before.tryLeader_prompt 0)
      · cases found

theorem register (before : Gateway Stroke Data) (leaderId leaderUrl : Option String) :
    Moves before (before.register leaderId leaderUrl).1 none := by
  unfold Gateway.register
  split
  next id url named placed => exact .writeLeader before .registration url id rfl
  next => exact ⟨.inl ⟨rfl, rfl⟩, fun _ _ found => .inl ⟨nofun, found⟩⟩

theorem answer {index attempt : Nat} {stroke : Stroke} (before : Gateway Stroke Data)
    (err : PostError) :
    Moves before ((before.fail index err).suspend index stroke
      (if attempt = 2 then .thrown (.post err)
        else (before.fail index err).tryLeader (attempt + 1))) (some index) := by
  refine .suspend ?_ ?_ ?_
  · unfold fail
    split <;> exact .inr ⟨_, rfl, rfl, rfl⟩
  · unfold fail
    split <;> rfl
  · split
    · exact nofun
    · exact tryLeader_prompt _ _

theorem step {action : Action Stroke Data} (stepped : before.step action = some next) :
    Moves before next action.actor := by
  cases action with
  | stroke stroke =>
      exact Option.some.inj stepped ▸ .forwardStrokeToLeader before stroke
  | leader leaderId leaderUrl =>
      exact Option.some.inj stepped ▸ .register before leaderId leaderUrl
  | status index response =>
      simp only [Gateway.step, Option.bind_eq_bind, Option.bind_eq_some_iff] at stepped
      obtain ⟨⟨stroke, stage⟩, found, stepped⟩ := stepped
      cases stage with
      | polling attempt url remaining =>
          dsimp only at stepped
          split at stepped
          next data leads =>
              exact Option.some.inj stepped ▸
                .suspend (.inr ⟨_, rfl, rfl, rfl⟩) rfl nofun
          next =>
              exact Option.some.inj stepped ▸
                .suspend (.inl ⟨rfl, rfl⟩) rfl (before.poll_prompt attempt remaining)
      | polled | posting | returned | thrown => cases stepped
  | discovered index =>
      simp only [Gateway.step, Option.bind_eq_bind, Option.bind_eq_some_iff] at stepped
      obtain ⟨⟨stroke, stage⟩, found, stepped⟩ := stepped
      cases stage with
      | polled attempt =>
          exact Option.some.inj stepped ▸
            .suspend (.inl ⟨rfl, rfl⟩) rfl (before.resume_prompt attempt)
      | polling | posting | returned | thrown => cases stepped
  | answer index result =>
      simp only [Gateway.step, Option.bind_eq_bind, Option.bind_eq_some_iff] at stepped
      obtain ⟨⟨stroke, stage⟩, found, stepped⟩ := stepped
      cases stage with
      | posting attempt url sent =>
          cases result with
          | ok data =>
              exact Option.some.inj stepped ▸ .suspend (.inl ⟨rfl, rfl⟩) rfl nofun
          | error err => exact Option.some.inj stepped ▸ .answer before err
      | polling | polled | returned | thrown => cases result <;> cases stepped

end Moves

/-- The history ends with the present leader, and a POST in flight went to it unless
others have written since. -/
structure Traced (state : Gateway Stroke Data) : Prop where
  last : ∀ write, state.writes.getLast? = some write → write.url = state.currentLeaderUrl
  sent : ∀ (index : Nat) forward attempt url sent,
    state.forwards[index]? = some forward → forward.stage = .posting attempt url sent →
      sent ≤ state.writes.length ∧
      (sent = state.writes.length → state.currentLeaderUrl = some url) ∧
      ∀ write ∈ state.writes.drop sent, write.author.forward ≠ some index

/-- A POST that is sent now goes to the present leader, and nobody has written since. -/
theorem Prompt.sent {state : Gateway Stroke Data} {stage : Stage Data}
    (prompt : state.Prompt stage) {index attempt : Nat} {url : String} {sent : Nat}
    (posting : stage = .posting attempt url sent) :
    sent ≤ state.writes.length ∧
      (sent = state.writes.length → state.currentLeaderUrl = some url) ∧
      ∀ write ∈ state.writes.drop sent, write.author.forward ≠ some index := by
  obtain ⟨known, rfl⟩ := prompt attempt url sent posting
  refine ⟨Nat.le_refl _, fun _ => known, fun write member => ?_⟩
  simp at member

theorem Traced.moves {before next : Gateway Stroke Data} {actor : Option Nat}
    (traced : before.Traced) (moves : Moves before next actor) : next.Traced := by
  constructor
  case last =>
    intro latest found
    rcases moves.writes with ⟨same, kept⟩ | ⟨write, appended, written, _⟩
    · rw [same] at found
      rw [kept]
      exact traced.last latest found
    · rw [appended, List.getLast?_concat] at found
      exact Option.some.inj found ▸ written
  case sent =>
    intro index forward attempt url sent found posting
    rcases moves.forwards index forward found with ⟨other, earlier⟩ | prompt
    · obtain ⟨bound, direct, others⟩ :=
        traced.sent index forward attempt url sent earlier posting
      rcases moves.writes with ⟨same, kept⟩ | ⟨write, appended, _, author⟩
      · rw [same, kept]
        exact ⟨bound, direct, others⟩
      · rw [appended, List.length_append, List.length_singleton]
        refine ⟨by omega, fun full => by omega, fun later member => ?_⟩
        rw [List.drop_append_of_le_length bound, List.mem_append, List.mem_singleton] at member
        rcases member with old | rfl
        · exact others later old
        · rw [author]
          exact other.symm
    · exact prompt.sent posting

theorem Traced.reach {state : Gateway Stroke Data}
    (reached : (gateway Stroke Data).Reach (fun _ _ => True) state) : state.Traced :=
  reached.invariant ⟨nofun, nofun⟩ fun _ _ _ _ traced _ stepped =>
    traced.moves (.step stepped)

/-- Unless the leader is the one the POST went to, somebody else wrote it last, while the
POST was in flight. -/
theorem Traced.overtaken {state : Gateway Stroke Data} (traced : state.Traced)
    {index : Nat} {stroke : Stroke} {attempt : Nat} {url : String} {sent : Nat}
    (posting : state.forwards[index]? = some ⟨stroke, .posting attempt url sent⟩)
    (moved : state.currentLeaderUrl ≠ some url) :
    ∃ write, state.writes.getLast? = some write ∧ sent < state.writes.length ∧
      write.author.forward ≠ some index ∧ write.url = state.currentLeaderUrl := by
  obtain ⟨bound, direct, others⟩ := traced.sent index _ attempt url sent posting rfl
  have later : sent < state.writes.length :=
    Nat.lt_of_le_of_ne bound fun equal => moved (direct equal)
  have nonempty : state.writes.drop sent ≠ [] := by
    simpa [List.drop_eq_nil_iff] using later
  have latest : state.writes.getLast? = some ((state.writes.drop sent).getLast nonempty) := by
    rw [← List.getLast?_eq_some_getLast nonempty, List.getLast?_drop,
      if_neg (Nat.not_le.mpr later)]
  exact ⟨_, latest, later, others _ (List.getLast_mem nonempty), traced.last _ latest⟩

end Gateway

/-- The failure of a stroke POST takes effect whatever the leader is at that time: the
redirect replaces it, or nobody is known.  Unless it is the one the POST went to, it was
last written by a registration, a discovery or another failure while the POST was in
flight. -/
theorem failure_replaces_leader {Stroke Data : Type} {state : Gateway Stroke Data}
    (reached : (gateway Stroke Data).Reach (fun _ _ => True) state) {index : Nat}
    {stroke : Stroke} {attempt : Nat} {url : String} {sent : Nat}
    (posting : state.forwards[index]? = some ⟨stroke, .posting attempt url sent⟩)
    (err : Gateway.PostError) :
    ∃ next, state.step (.answer index (.error err)) = some next ∧
      (∀ redirectUrl, err.redirectUrl = some redirectUrl →
        next.currentLeaderUrl = some redirectUrl ∧
          next.currentLeaderId = err.redirectId) ∧
      (err.redirectUrl = none →
        next.currentLeaderUrl = none ∧ next.currentLeaderId = state.currentLeaderId) ∧
      (state.currentLeaderUrl ≠ some url →
        ∃ write, state.writes.getLast? = some write ∧ sent < state.writes.length ∧
          write.author.forward ≠ some index ∧ write.url = state.currentLeaderUrl) := by
  refine ⟨_, by rw [Gateway.step, posting]; rfl, ?_, ?_, ?_⟩
  · intro redirectUrl redirected
    simp [Gateway.suspend, Gateway.fail, redirected, Gateway.writeLeader]
  · intro unknown
    simp [Gateway.suspend, Gateway.fail, unknown, Gateway.writeLeader]
  · exact fun moved => (Gateway.Traced.reach reached).overtaken posting moved

namespace Gateway

def timeout : PostError := ⟨"timeout of 1000ms exceeded", some "ECONNABORTED", none⟩

/-- A stroke is posted to replica 1 when replica 2 registers. -/
def registering : List (Action Unit Unit) :=
  [.leader (some "replica1") (some "http://replica1:4001"), .stroke (),
    .leader (some "replica2") (some "http://replica2:4002")]

def registered : Gateway Unit Unit where
  currentLeaderUrl := some "http://replica2:4002"
  currentLeaderId := some "replica2"
  forwards := [⟨(), .posting 0 "http://replica1:4001" 1⟩]
  writes :=
    [⟨.registration, some "http://replica1:4001"⟩,
      ⟨.registration, some "http://replica2:4002"⟩]

theorem registered_reached : (gateway Unit Unit).Reach (fun _ _ => True) registered := by
  have computed : (gateway Unit Unit).run (fun _ _ => True) (gateway Unit Unit).init
      registering = some registered := by rfl
  exact Transition.System.Reach.init.run computed

end Gateway

theorem failure_replaces_leader_registered :
    ∃ next, Gateway.registered.step (.answer 0 (.error Gateway.timeout)) = some next ∧
      next.currentLeaderUrl = none ∧ next.currentLeaderId = some "replica2" := by
  have posting : Gateway.registered.forwards[0]? =
      some ⟨(), .posting 0 "http://replica1:4001" 1⟩ := rfl
  obtain ⟨next, stepped, -, cleared, -⟩ :=
    failure_replaces_leader Gateway.registered_reached posting Gateway.timeout
  exact ⟨next, stepped, cleared (by decide)⟩

/-- The POST to replica 1 times out, and replica 2 is forgotten. -/
theorem newer_leader_discarded :
    ∃ state next, (gateway Unit Unit).Reach (fun _ _ => True) state ∧
      state.forwards = [⟨(), .posting 0 "http://replica1:4001" 1⟩] ∧
      state.currentLeaderUrl = some "http://replica2:4002" ∧
      state.step (.answer 0 (.error Gateway.timeout)) = some next ∧
      next.currentLeaderUrl = none :=
  ⟨Gateway.registered, _, Gateway.registered_reached, rfl, rfl, rfl, by decide⟩

end RaftCanvas
