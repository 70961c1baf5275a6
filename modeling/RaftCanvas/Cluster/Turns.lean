import RaftCanvas.Cluster.Progress
import RaftCanvas.Raft.Roles

/-!
# What an action brings to a node

Every action that is not a crash delivers one stimulus to one node: a call the client
makes, a request that was sent to it, or replies to a call of its own.
-/

namespace RaftCanvas.World

variable {Id : Type} {machine : Machine} [DecidableEq Id]

/-- The action brings the stimulus to `self`. -/
inductive Prompts (world : World Id machine) :
    Action Id → Id → Stimulus Id machine.Blob → Prop where
  | electionTimeout {self : Id} (armed : (world.node self).electionTimer = true) :
      Prompts world (.electionTimeout self) self .electionTimeout
  | heartbeat {self : Id} (armed : (world.node self).heartbeatTimer = true) :
      Prompts world (.heartbeat self) self .heartbeat
  | submit (self : Id) (type : EntryType) (payload : Json) :
      Prompts world (.submit self type payload) self (.submit world.ops type payload)
  | readIndex (self : Id) : Prompts world (.readIndex self) self (.readIndex world.ops)
  | deliver {id : Nat} {target : Id} {call : Call Id machine.Blob}
      (issued : world.calls[id]? = some call) (asked : target ∈ call.targets) :
      Prompts world (.deliver id target) target (.request call.request)
  | resume {id : Nat} {results : List (Option Reply)} {call : Call Id machine.Blob}
      (issued : world.calls[id]? = some call)
      (answers : world.Answers id call.targets results = true) :
      Prompts world (.resume id results) call.src (.resume call.await results)
  | resumeSubmit (self : Id) (id : Nat) :
      Prompts world (.resumeSubmit self id) self (.resumeSubmit id)
  | submitTimeout (self : Id) (id : Nat) :
      Prompts world (.submitTimeout self id) self (.submitTimeout id)
  | pollRead (self : Id) (id : Nat) : Prompts world (.pollRead self id) self (.pollRead id)

variable {cluster : Cluster Id} {world : World Id machine} {action : Action Id}
  {turn : Turn Id machine} {self : Id}

/-- A handler call answers a stimulus, and replies to a request only. -/
theorem turn_prompts (taken : world.turn cluster action = some turn) :
    ∃ stimulus, world.Prompts action turn.self stimulus ∧
      turn.after =
        (world.node turn.self).began.respond (cluster.config turn.self) stimulus ∧
      ∀ delivery, turn.reply = some delivery → ∃ request,
        stimulus = .request request ∧ action = .deliver delivery.call turn.self ∧
          delivery.responder = turn.self ∧ delivery.reply =
            ((world.node turn.self).began.handle (cluster.config turn.self) request).2 := by
  cases action with
  | electionTimeout self =>
      simp only [World.turn, Option.ite_none_right_eq_some, Option.some.injEq] at taken
      obtain ⟨armed, rfl⟩ := taken
      exact ⟨_, .electionTimeout armed, rfl, fun _ replied => by cases replied⟩
  | heartbeat self =>
      simp only [World.turn, Option.ite_none_right_eq_some, Option.some.injEq] at taken
      obtain ⟨armed, rfl⟩ := taken
      exact ⟨_, .heartbeat armed, rfl, fun _ replied => by cases replied⟩
  | submit self type payload =>
      obtain rfl := Option.some.inj taken
      exact ⟨_, .submit self type payload, rfl, fun _ replied => by cases replied⟩
  | readIndex self =>
      obtain rfl := Option.some.inj taken
      exact ⟨_, .readIndex self, rfl, fun _ replied => by cases replied⟩
  | deliver id target =>
      simp only [World.turn] at taken
      split at taken
      · simp at taken
      next call issued =>
          simp only [Option.ite_none_right_eq_some, Option.some.injEq] at taken
          obtain ⟨asked, rfl⟩ := taken
          refine ⟨_, .deliver issued asked, rfl, fun delivery replied => ?_⟩
          obtain rfl := Option.some.inj replied
          exact ⟨call.request, rfl, rfl, rfl, rfl⟩
  | resume id results =>
      simp only [World.turn] at taken
      split at taken
      · simp at taken
      next call issued =>
          simp only [Option.ite_none_right_eq_some, Option.some.injEq] at taken
          obtain ⟨⟨_, answers⟩, rfl⟩ := taken
          exact ⟨_, .resume issued answers, rfl, fun _ replied => by cases replied⟩
  | resumeSubmit self id =>
      obtain rfl := Option.some.inj taken
      exact ⟨_, .resumeSubmit self id, rfl, fun _ replied => by cases replied⟩
  | submitTimeout self id =>
      obtain rfl := Option.some.inj taken
      exact ⟨_, .submitTimeout self id, rfl, fun _ replied => by cases replied⟩
  | pollRead self id =>
      obtain rfl := Option.some.inj taken
      exact ⟨_, .pollRead self id, rfl, fun _ replied => by cases replied⟩
  | crash self => simp [World.turn] at taken
  | crashDuring inner effects => simp [World.turn] at taken

namespace Prompts

theorem armed (prompts : world.Prompts action self .electionTimeout) :
    (world.node self).electionTimer = true := by
  cases prompts with
  | electionTimeout armed => exact armed

/-- A request is that of the call that is delivered. -/
theorem request {request : Request Id machine.Blob}
    (prompts : world.Prompts action self (.request request)) :
    ∃ id call, action = .deliver id self ∧ world.calls[id]? = some call ∧
      self ∈ call.targets ∧ call.request = request := by
  cases prompts with
  | deliver issued asked => exact ⟨_, _, rfl, issued, asked, rfl⟩

/-- Replies belong to a call of the node itself. -/
theorem resumed {await : Await Id} {results : List (Option Reply)}
    (prompts : world.Prompts action self (.resume await results)) :
    ∃ id call, world.calls[id]? = some call ∧ call.src = self ∧ call.await = await ∧
      world.Answers id call.targets results = true := by
  cases prompts with
  | resume issued answers => exact ⟨_, _, issued, rfl, rfl, answers⟩

/-- A read is numbered as it is called. -/
theorem called {id : Nat} (prompts : world.Prompts action self (.readIndex id)) :
    action = .readIndex self ∧ id = world.ops := by
  cases prompts
  exact ⟨rfl, rfl⟩

/-- Only crashes restart a node. -/
theorem lives {stimulus : Stimulus Id machine.Blob}
    (prompts : world.Prompts action self stimulus) (db : Database Id machine.Blob) :
    stimulus ≠ .restart db := by
  rintro rfl
  cases prompts

end Prompts

/-- After a handler call the node has the role that was announced last. -/
theorem turn_announced (taken : world.turn cluster action = some turn) :
    Node.Announced (world.node turn.self).began.role turn.after := by
  obtain ⟨stimulus, prompts, after, _⟩ := turn_prompts taken
  rw [after]
  exact Node.respond_announced _ rfl prompts.lives

/-- It had that role already when it applied anything. -/
theorem turn_settled (taken : world.turn cluster action = some turn) :
    Effect.Settled turn.after.trace := by
  obtain ⟨stimulus, prompts, after, _⟩ := turn_prompts taken
  rw [after]
  exact Node.respond_settled _ rfl prompts.lives

end RaftCanvas.World
