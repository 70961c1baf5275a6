import RaftCanvas.Cluster.Turns
import RaftCanvas.Raft.StateMachine

/-!
# Waiting for a commit

A `submit` call that appended its entry waits until it is resolved or rejected.  Only
`emit("commit", n)`, which only leaders run, and the call's own timer end the wait.
-/

namespace RaftCanvas

/-- The event ends the `submit` call `id`. -/
def Event.Settles {Blob : Type} (id : Nat) : Event Blob → Prop
  | .submitResolved other _ _ => other = id
  | .submitRejected other _ => other = id
  | _ => False

instance {Blob : Type} (id : Nat) : DecidablePred (@Event.Settles Blob id)
  | .submitResolved _ _ _ | .submitRejected _ _ => inferInstanceAs (Decidable (_ = _))
  | .role _ _ | .applied _ | .commit _ | .snapshotTaken _ _ | .snapshotInstalled _ _
  | .readCalled _ | .readReturned _ _ _ _ | .readRejected _ _ => .isFalse fun settles => settles

namespace Node

variable {Id : Type} {machine : Machine}

/-- The call `id` listens for a commit. -/
def Listens (self : Node Id machine) (id : Nat) : Prop :=
  ∃ waiter ∈ self.commitListeners, waiter.id = id

/-- The wait of the call `id` has resolved, and the call has not yet resumed. -/
def Resolved (self : Node Id machine) (id : Nat) : Prop :=
  ∃ waiter ∈ self.resumable, waiter.id = id

/-- The handler has settled the call `id`, or its wait has resolved. -/
def Over (self : Node Id machine) (id : Nat) : Prop :=
  self.Resolved id ∨ ∃ event ∈ Effect.events self.trace, event.Settles id

/-- No wait of the call `id` gets lost between `before` and `after`. -/
structure Carries (id : Nat) (before after : Node Id machine) : Prop where
  listening : before.Listens id → after.Listens id ∨ after.Over id
  resolved : before.Resolved id → after.Over id

/-- No wait is touched between `self` and `after`. -/
def SameWaits (self after : Node Id machine) : Prop :=
  after.commitListeners = self.commitListeners ∧ after.resumable = self.resumable

theorem SameWaits.carries {self after : Node Id machine} (same : self.SameWaits after)
    (id : Nat) : Carries id self after where
  listening := by
    rw [Listens, Listens, same.1]
    exact Or.inl
  resolved := by
    rw [Over, Resolved, Resolved, same.2]
    exact Or.inl

/-- Touching no wait first changes nothing. -/
theorem SameWaits.before {self mid after : Node Id machine} {id : Nat}
    (same : self.SameWaits mid) (carries : Carries id mid after) : Carries id self after where
  listening listens := carries.listening (by rwa [Listens, same.1])
  resolved waits := carries.resolved (by rwa [Resolved, same.2])

theorem SameWaits.trans {self mid after : Node Id machine} (left : self.SameWaits mid)
    (right : mid.SameWaits after) : self.SameWaits after :=
  ⟨right.1.trans left.1, right.2.trans left.2⟩

theorem Works.waits {self after : Node Id machine} (works : self.Works after) :
    self.SameWaits after :=
  ⟨works.commitListeners, works.resumable⟩

/-! ## Methods that touch no wait -/

theorem becomeFollower_waits (self : Node Id machine) (term : Nat)
    (leaderId : Option Id) : self.SameWaits (self.becomeFollower term leaderId) := by
  rw [becomeFollower]
  dsimp only
  split <;> exact ⟨rfl, rfl⟩

theorem followLeader_waits (self : Node Id machine) (term : Nat) (leaderId : Id) :
    self.SameWaits (self.followLeader term leaderId) := by
  rw [followLeader]
  split
  · exact self.becomeFollower_waits term (some leaderId)
  · exact ⟨rfl, rfl⟩

theorem sendAppendEntriesToAll_waits (config : Config Id) (self : Node Id machine) :
    self.SameWaits (self.sendAppendEntriesToAll config) := by
  obtain ⟨calls, sent, _⟩ := self.sendAppendEntriesToAll_sends config
  rw [sent]
  exact ⟨rfl, rfl⟩

theorem startElection_waits (config : Config Id) (self : Node Id machine) :
    self.SameWaits (self.startElection config) :=
  ⟨rfl, rfl⟩

theorem startReadIndex_waits (config : Config Id) (self : Node Id machine) (id : Nat) :
    self.SameWaits (self.startReadIndex config id) := by
  rw [startReadIndex]
  split
  · exact ⟨rfl, rfl⟩
  · split <;> exact ⟨rfl, rfl⟩

theorem awaitApplied_waits (self : Node Id machine) (read : Reading) :
    self.SameWaits (self.awaitApplied read) := by
  rw [awaitApplied]
  split <;> exact ⟨rfl, rfl⟩

theorem pollRead_waits (self : Node Id machine) (id : Nat) :
    self.SameWaits (self.pollRead id) := by
  rw [pollRead]
  split
  · exact ⟨rfl, rfl⟩
  · exact awaitApplied_waits _ _

theorem finishReadIndex_waits (config : Config Id) (self : Node Id machine) (id : Nat)
    (readIdx : Int) (termAtStart : Nat) (results : List (Option Reply)) :
    self.SameWaits (self.finishReadIndex config id readIdx termAtStart results) := by
  rw [finishReadIndex]
  split
  · exact becomeFollower_waits self _ none
  · split
    · exact ⟨rfl, rfl⟩
    · split
      · exact ⟨rfl, rfl⟩
      · exact self.awaitApplied_waits _

section Peers

variable [DecidableEq Id]

theorem becomeLeader_waits (config : Config Id) (self : Node Id machine) :
    self.SameWaits (self.becomeLeader config) := by
  rw [becomeLeader]
  dsimp only
  exact sendAppendEntriesToAll_waits config _

theorem finishElection_waits (config : Config Id) (self : Node Id machine)
    (termAtStart : Nat) (results : List (Option Reply)) :
    self.SameWaits (self.finishElection config termAtStart results) := by
  rw [finishElection]
  split
  · exact ⟨rfl, rfl⟩
  · split
    · exact self.becomeFollower_waits _ none
    · split
      · exact self.becomeLeader_waits config
      · exact ⟨rfl, rfl⟩

theorem finishInstallSnapshot_waits (self : Node Id machine) (peer : Id)
    (lastIncludedIndex : Int) (result : Option Reply) :
    self.SameWaits (self.finishInstallSnapshot peer lastIncludedIndex result) := by
  cases result with
  | none => exact ⟨rfl, rfl⟩
  | some body =>
      simp only [finishInstallSnapshot]
      split
      · exact ⟨rfl, rfl⟩
      · split
        · exact self.becomeFollower_waits _ none
        · exact ⟨rfl, rfl⟩

theorem handleRequestVote_waits (self : Node Id machine) (body : RequestVote Id) :
    self.SameWaits (self.handleRequestVote body).1 := by
  have heard : self.SameWaits
      (if self.currentTerm < body.term then self.becomeFollower body.term none
        else self) := by
    split
    · exact self.becomeFollower_waits _ none
    · exact ⟨rfl, rfl⟩
  rw [handleRequestVote]
  dsimp only
  generalize (if self.currentTerm < body.term then self.becomeFollower body.term none
    else self) = node at heard ⊢
  split
  · exact heard
  · split
    · exact heard
    · split <;> exact heard

/-- A follower that commits past an entry tells nobody who waits for it. -/
theorem handle_waits (config : Config Id) (self : Node Id machine)
    (request : Request Id machine.Blob) :
    self.SameWaits (self.handle config request).1 := by
  cases request with
  | requestVote body => exact self.handleRequestVote_waits body
  | appendEntries body =>
      by_cases recent : self.currentTerm ≤ body.term
      · exact (self.followLeader_waits body.term body.leaderId).trans
          (self.handleAppendEntries_works config body recent).waits
      · rw [handle, handleAppendEntries, if_pos (Nat.not_le.mp recent)]
        exact ⟨rfl, rfl⟩
  | installSnapshot body =>
      by_cases recent : self.currentTerm ≤ body.term
      · exact (self.followLeader_waits body.term body.leaderId).trans
          (self.handleInstallSnapshot_works body recent).waits
      · rw [handle, handleInstallSnapshot, if_pos (Nat.not_le.mp recent)]
        exact ⟨rfl, rfl⟩

end Peers

/-! ## Methods that end a wait -/

/-- Every listener is resolved, rejected or keeps listening. -/
theorem emitCommit_carries (self : Node Id machine) (n : Int) (id : Nat) :
    Carries id self (self.emitCommit n) where
  listening := by
    rintro ⟨waiter, listens, rfl⟩
    cases outcome : self.check waiter with
    | pending =>
        exact Or.inl ⟨waiter, List.mem_filter.mpr ⟨listens, by simp [outcome]⟩, rfl⟩
    | resolved =>
        refine Or.inr (Or.inl ⟨waiter, List.mem_append_right _ ?_, rfl⟩)
        exact List.mem_filter.mpr ⟨listens, by simp [outcome]⟩
    | lostLeadership =>
        refine Or.inr (Or.inr ⟨.submitRejected waiter.id .lostLeadership, ?_, rfl⟩)
        have lost : waiter ∈ self.commitListeners.filter fun other =>
            self.check other = .lostLeadership :=
          List.mem_filter.mpr ⟨listens, by simp [outcome]⟩
        refine List.mem_filterMap.mpr
          ⟨.event (.submitRejected waiter.id .lostLeadership), ?_, rfl⟩
        exact List.mem_append_right _
          (List.mem_cons_of_mem _ (List.mem_map.mpr ⟨waiter, lost, rfl⟩))
  resolved := by
    rintro ⟨waiter, member, rfl⟩
    exact Or.inl ⟨waiter, List.mem_append_left _ member, rfl⟩

theorem maybeAdvanceCommitIndex_carries (config : Config Id) (self : Node Id machine)
    (id : Nat) : Carries id self (self.maybeAdvanceCommitIndex config) := by
  rw [maybeAdvanceCommitIndex]
  split
  · exact SameWaits.carries ⟨rfl, rfl⟩ id
  · dsimp only
    split
    · exact SameWaits.carries ⟨rfl, rfl⟩ id
    next n _ =>
        have raised : self.SameWaits { self with commitIndex := n } := ⟨rfl, rfl⟩
        exact (raised.trans (applyCommitted_works config _).waits).before
          (emitCommit_carries _ n id)

theorem finishAppendEntries_carries [DecidableEq Id] (config : Config Id)
    (self : Node Id machine) (peer : Id) (next prevLogIndex : Int)
    (entries : List LogEntry) (result : Option Reply) (id : Nat) :
    Carries id self
      (self.finishAppendEntries config peer next prevLogIndex entries result) := by
  cases result with
  | none => exact SameWaits.carries ⟨rfl, rfl⟩ id
  | some body =>
      simp only [finishAppendEntries]
      split
      · exact SameWaits.carries ⟨rfl, rfl⟩ id
      · split
        · exact (self.becomeFollower_waits _ none).carries id
        · split
          · refine SameWaits.before ?_ (maybeAdvanceCommitIndex_carries config _ id)
            exact ⟨rfl, rfl⟩
          · refine SameWaits.carries ?_ id
            exact ⟨rfl, rfl⟩

theorem submit_carries (config : Config Id) (self : Node Id machine) (call : Nat)
    (type : EntryType) (payload : Json) (id : Nat) :
    Carries id self (self.submit config call type payload) := by
  have sent := (self.appendLocal_works type payload).waits.trans
    (sendAppendEntriesToAll_waits config _)
  rw [submit]
  split
  · exact (emit_works self _).waits.carries id
  · split
    · exact (emit_works self _).waits.carries id
    · dsimp only
      split
      · refine sent.before ⟨Or.inl, ?_⟩
        rintro ⟨waiter, member, rfl⟩
        exact Or.inl ⟨waiter, List.mem_append_left _ member, rfl⟩
      · exact (sent.trans (emit_works _ _).waits).carries id
      · refine sent.before ⟨?_, Or.inl⟩
        rintro ⟨waiter, member, rfl⟩
        exact Or.inl ⟨waiter, List.mem_append_left _ member, rfl⟩

/-- A call that appends its entry is settled at once, or listens. -/
theorem submit_tracks (config : Config Id) (self : Node Id machine) (call : Nat)
    (type : EntryType) {payload : Json} (leads : self.role = .leader)
    (unknown : self.dedupeIndex payload = none) :
    (self.submit config call type payload).Listens call ∨
      (self.submit config call type payload).Over call := by
  rw [submit, if_neg (not_not.mpr leads), unknown]
  dsimp only
  split
  · exact Or.inr (Or.inl ⟨_, List.mem_append_right _ (List.mem_singleton_self _), rfl⟩)
  · exact Or.inr (Or.inr ⟨.submitRejected call .lostLeadership, by simp [emit], rfl⟩)
  · exact Or.inl ⟨_, List.mem_append_right _ (List.mem_singleton_self _), rfl⟩

/-- A call that resumes is settled by that. -/
theorem resumeSubmit_carries (self : Node Id machine) (call id : Nat) :
    Carries id self (self.resumeSubmit call) := by
  rw [resumeSubmit]
  split
  · exact SameWaits.carries ⟨rfl, rfl⟩ id
  next waiter _ =>
      have settles : ∀ result, Carries id self ({ self with
          resumable := self.resumable.filter fun other => other.id ≠ call }.emit
            (.submitResolved call waiter.entry result)) := by
        intro result
        refine ⟨Or.inl, ?_⟩
        rintro ⟨other, member, rfl⟩
        by_cases own : other.id = call
        · exact Or.inr ⟨.submitResolved call waiter.entry result, by simp [emit], own.symm⟩
        · exact Or.inl ⟨other, List.mem_filter.mpr ⟨member, by simpa using own⟩, rfl⟩
      dsimp only
      split
      · split <;> exact settles _
      · exact settles _

/-- The timer of a call settles it, unless its entry's index has been committed. -/
theorem submitTimeout_carries (self : Node Id machine) (call id : Nat)
    (timely : call = id → ∀ waiter,
      (self.commitListeners.find? fun waiter => waiter.id = call) = some waiter →
        self.commitIndex < waiter.entry.index) :
    Carries id self (self.submitTimeout call) := by
  rw [submitTimeout]
  split
  · exact SameWaits.carries ⟨rfl, rfl⟩ id
  next waiter found =>
      have others : call ≠ id → ∀ waiter ∈ self.commitListeners, waiter.id = id →
          waiter ∈ self.commitListeners.filter fun other => other.id ≠ call :=
        fun different waiter member own => List.mem_filter.mpr
          ⟨member, by simpa [own] using different.symm⟩
      dsimp only
      split
      · refine ⟨?_, Or.inl⟩
        rintro ⟨other, member, rfl⟩
        by_cases own : call = other.id
        · exact Or.inr (Or.inr ⟨.submitRejected call .commitTimeout, by simp [emit], own⟩)
        · exact Or.inl ⟨other, others own other member rfl, rfl⟩
      next late =>
          refine ⟨?_, Or.inl⟩
          rintro ⟨other, member, rfl⟩
          by_cases own : call = other.id
          · exact absurd (timely own waiter found) late
          · exact Or.inl ⟨other, others own other member rfl, rfl⟩

/-- After its timer a call listens no more. -/
theorem submitTimeout_listens (self : Node Id machine) (id : Nat) :
    ¬(self.submitTimeout id).Listens id := by
  rintro ⟨waiter, member, own⟩
  rw [submitTimeout] at member
  split at member
  next missing =>
      have absent := List.find?_eq_none.mp missing waiter member
      simp [own] at absent
  · dsimp only at member
    split at member
    · simp [emit, own] at member
    · simp [own] at member

end Node

/-! ## The cluster -/

namespace World

variable {Id : Type} {machine : Machine}

/-- The promise that the `submit` call `id` of `self` awaits is resolved or rejected. -/
def WaitSettled (world : World Id machine) (self : Id) (id : Nat) : Prop :=
  (world.node self).Resolved id ∨ ∃ event, (self, event) ∈ world.history ∧ event.Settles id

/-- The call is waiting for a commit, or settled. -/
def Tracks (world : World Id machine) (self : Id) (id : Nat) : Prop :=
  (world.node self).Listens id ∨ world.WaitSettled self id

variable [DecidableEq Id]

/-- The process of `self` dies. -/
def dies (cluster : Cluster Id) (world : World Id machine) (self : Id) : Action Id → Bool
  | .crash died => decide (died = self)
  | .crashDuring inner _ => (world.turn cluster inner).any fun turn => decide (turn.self = self)
  | _ => false

/-- The timer of the call `id` of `self` fires while the call is still listening
although the index of its entry has been committed. -/
def abandons (world : World Id machine) (self : Id) (id : Nat) : Action Id → Bool
  | .submitTimeout fired call => decide (fired = self ∧ call = id) &&
      ((world.node self).commitListeners.find? fun waiter => waiter.id = id).any fun waiter =>
        decide (waiter.entry.index ≤ (world.node self).commitIndex)
  | _ => false

variable {cluster : Cluster Id} {world next : World Id machine} {self : Id} {id : Nat}

/-- Once a handler of `self` is over, what it settled is on record. -/
theorem Advances.settled {node : Node Id machine} {reply : Option (Delivery Id)}
    (advances : world.Advances next self node node.trace reply) (ended : node.Over id) :
    next.WaitSettled self id := by
  rcases ended with resolved | ⟨event, emitted, settles⟩
  · exact Or.inl (by rwa [advances.node_actor])
  · exact Or.inr ⟨event, advances.mem_history.mpr (Or.inl ⟨rfl, emitted⟩), settles⟩

theorem turn_carries {action : Action Id} {turn : Turn Id machine}
    (taken : world.turn cluster action = some turn)
    (timely : world.abandons turn.self id action = false) :
    Node.Carries id (world.fresh turn.self) turn.after := by
  obtain ⟨self, after, reply, resumed⟩ := turn
  obtain ⟨stimulus, prompts, same, _⟩ := turn_prompts taken
  dsimp only at prompts same ⊢
  rw [same]
  cases prompts with
  | electionTimeout => exact (Node.startElection_waits _ _).carries id
  | heartbeat => exact (Node.sendAppendEntriesToAll_waits _ _).carries id
  | submit _ type payload => exact Node.submit_carries _ _ _ type payload id
  | readIndex => exact (Node.startReadIndex_waits _ _ _).carries id
  | deliver => exact (Node.handle_waits _ _ _).carries id
  | @resume _ results asked _ _ =>
      cases awaits : asked.await with
      | election => exact (Node.finishElection_waits _ _ _ _).carries id
      | appendEntries => exact Node.finishAppendEntries_carries _ _ _ _ _ _ _ id
      | installSnapshot => exact (Node.finishInstallSnapshot_waits _ _ _ _).carries id
      | readIndex => exact (Node.finishReadIndex_waits _ _ _ _ _ _).carries id
  | resumeSubmit _ call => exact Node.resumeSubmit_carries _ call id
  | submitTimeout _ call =>
      refine Node.submitTimeout_carries _ call id ?_
      rintro rfl waiter found
      have own : ((world.node self).commitListeners.find? fun waiter =>
        waiter.id = call) = some waiter := found
      have due : (world.node self).commitIndex < waiter.entry.index := by
        simpa [abandons, own] using timely
      exact due
  | pollRead _ call => exact (Node.pollRead_waits _ call).carries id

/-- While its process lives and its timer is not late, a step loses no call. -/
theorem step_tracks {action : Action Id} (lives : world.dies cluster self action = false)
    (timely : world.abandons self id action = false)
    (stepped : world.step cluster action = some next) :
    (world.Tracks self id → next.Tracks self id) ∧
      (world.WaitSettled self id → next.WaitSettled self id) := by
  obtain ⟨actor, node, done, reply, progress, advances⟩ := step_progress stepped
  have recorded : (∃ event, (self, event) ∈ world.history ∧ event.Settles id) →
      next.WaitSettled self id := fun ⟨event, seen, settles⟩ =>
    Or.inr ⟨event, advances.mem_history.mpr (Or.inr seen), settles⟩
  -- only a handler call of its own process touches a wait
  by_cases acting : actor = self
  · subst acting
    cases progress with
    | handled turn taken =>
        have carries := turn_carries taken timely
        have settled : world.WaitSettled turn.self id → next.WaitSettled turn.self id := by
          rintro (resolved | seen)
          · exact advances.settled (carries.resolved resolved)
          · exact recorded seen
        refine ⟨?_, settled⟩
        rintro (listens | done)
        · rcases carries.listening listens with still | ended
          · exact Or.inl (by rwa [advances.node_actor])
          · exact Or.inr (advances.settled ended)
        · exact Or.inr (settled done)
    | interrupted inner effects turn cut taken =>
        rw [cut] at lives
        simp [dies, taken] at lives
    | crashed _ died =>
        rw [died] at lives
        simp [dies] at lives
  · have kept := advances.node_other (Ne.symm acting)
    have settled : world.WaitSettled self id → next.WaitSettled self id := by
      rintro (resolved | seen)
      · exact Or.inl (by rwa [kept])
      · exact recorded seen
    refine ⟨?_, settled⟩
    rintro (listens | done)
    · exact Or.inl (by rwa [kept])
    · exact Or.inr (settled done)

/-- The process of `self` lives on, and the timer of its call `id` is not late. -/
def Unhurried (cluster : Cluster Id) (self : Id) (id : Nat) (world : World Id machine)
    (action : Action Id) : Prop :=
  world.dies cluster self action = false ∧ world.abandons self id action = false

instance (world : World Id machine) (action : Action Id) :
    Decidable (Unhurried cluster self id world action) :=
  inferInstanceAs (Decidable (_ ∧ _))

theorem path_tracks {later : World Id machine}
    (path : (cluster.system machine).Path (Unhurried cluster self id) world later) :
    (world.Tracks self id → later.Tracks self id) ∧
      (world.WaitSettled self id → later.WaitSettled self id) := by
  induction path with
  | refl => exact ⟨fun before => before, fun before => before⟩
  | step _ timely stepped ih =>
      obtain ⟨tracks, settled⟩ := step_tracks timely.1 timely.2 stepped
      exact ⟨fun before => tracks (ih.1 before), fun before => settled (ih.2 before)⟩

/-- The submission appends an entry: the node leads and does not know the payload. -/
def Appends (world : World Id machine) (self : Id) (payload : Json) : Prop :=
  (world.node self).role = .leader ∧ (world.node self).dedupeIndex payload = none

theorem submit_tracks {type : EntryType} {payload : Json}
    (appends : world.Appends self payload)
    (stepped : world.step cluster (.submit self type payload) = some next) :
    next.Tracks self world.ops := by
  obtain rfl := Option.some.inj stepped
  have advances := world.finish_advances
    { self, after := (world.fresh self).submit (cluster.config self) world.ops type payload }
  rcases Node.submit_tracks (cluster.config self) (world.fresh self) world.ops type
    appends.1 appends.2 with listens | ended
  · exact Or.inl (by rwa [advances.node_actor])
  · exact Or.inr (advances.settled ended)

/-- After its timer a call does not listen. -/
theorem submitTimeout_listens
    (stepped : world.step cluster (.submitTimeout self id) = some next) :
    ¬(next.node self).Listens id := by
  obtain rfl := Option.some.inj stepped
  have advances := world.finish_advances
    { self, after := (world.fresh self).submitTimeout id }
  rw [advances.node_actor]
  exact (world.fresh self).submitTimeout_listens id

end World

/-- A `submit` call that appended its entry is never lost, and settled from its timer
on, in every run in which its process lives and the timer is not late. -/
theorem submit_settles {Id : Type} [DecidableEq Id] (cluster : Cluster Id)
    (machine : Machine) (world called before after later : World Id machine) (self : Id)
    (type : EntryType) (payload : Json) (appends : world.Appends self payload)
    (submitted : (cluster.system machine).step world (.submit self type payload) = some called)
    (path : (cluster.system machine).Path (World.Unhurried cluster self world.ops) called before)
    (timely : World.Unhurried cluster self world.ops before (.submitTimeout self world.ops))
    (fired : (cluster.system machine).step before (.submitTimeout self world.ops) = some after)
    (onward : (cluster.system machine).Path (World.Unhurried cluster self world.ops) after
      later) : before.Tracks self world.ops ∧ later.WaitSettled self world.ops := by
  have tracked := (World.path_tracks path).1 (World.submit_tracks appends submitted)
  refine ⟨tracked, (World.path_tracks onward).2 ?_⟩
  rcases (World.step_tracks timely.1 timely.2 fired).1 tracked with listens | settled
  · exact absurd listens (World.submitTimeout_listens
      (show before.step cluster (.submitTimeout self world.ops) = some after from fired))
  · exact settled

/-- Replica 0 wins term `1`. -/
def taking : List (Action (Fin 3)) :=
  [.electionTimeout 0, .deliver 0 1,
    .resume 0 [some { term := 1, voteGranted := true }, none]]

/-- A call whose entry nobody else stores is rejected by its timer. -/
theorem submit_settles_unheard : ∃ (world before after : World (Fin 3) canvas),
    ((Cluster.ofFin 3 1).system canvas).Reach (fun _ _ => True) world ∧
      world.Appends 0 .null ∧ before.Tracks 0 world.ops ∧ after.WaitSettled 0 world.ops := by
  obtain ⟨world, reached, passed⟩ :=
    ((Cluster.ofFin 3 1).system canvas).exists_reach_of_run (fun _ _ => True) taking
      (fun world => decide ((world.node 0).role = .leader) &&
        (decide ((world.node 0).dedupeIndex .null = none) &&
          (((Cluster.ofFin 3 1).system canvas).step world (.submit 0 .stroke .null)).any
            fun called => (((Cluster.ofFin 3 1).system canvas).run
              (World.Unhurried (Cluster.ofFin 3 1) 0 world.ops) called [.heartbeat 0]).any
                fun before =>
                  decide (World.Unhurried (Cluster.ofFin 3 1) 0 world.ops before
                    (.submitTimeout 0 world.ops)) &&
                  (((Cluster.ofFin 3 1).system canvas).step before
                    (.submitTimeout 0 world.ops)).isSome))
      (by decide +kernel)
  simp only [Bool.and_eq_true, decide_eq_true_eq] at passed
  obtain ⟨leads, unknown, passed⟩ := passed
  obtain ⟨called, submitted, passed⟩ := (Option.any_eq_true _ _).mp passed
  obtain ⟨before, path, passed⟩ := (Option.any_eq_true _ _).mp passed
  simp only [Bool.and_eq_true, decide_eq_true_eq] at passed
  obtain ⟨after, fired⟩ := Option.isSome_iff_exists.mp passed.2
  exact ⟨world, before, after, reached, ⟨leads, unknown⟩,
    submit_settles _ _ world called before after after 0 .stroke .null ⟨leads, unknown⟩
      submitted (.run .refl path) passed.1 fired .refl⟩

/-- Replica 1 takes the entry over in term `2`, commits it, and tells replica 0. -/
def overtaking : List (Action (Fin 3)) :=
  [.deliver 3 1, .electionTimeout 1, .deliver 5 0,
    .resume 5 [some { term := 2, voteGranted := true }, none], .deliver 6 0,
    .resume 6 [some { term := 2, success := true }], .heartbeat 1, .deliver 8 0]

/-- The entry of a deposed leader is committed by its successor; when the timer fires,
the call neither listens nor is settled. -/
theorem submit_settles_deposed : ∃ (world called before after : World (Fin 3) canvas),
    ((Cluster.ofFin 3 100).system canvas).Reach (fun _ _ => True) world ∧
      world.Appends 0 .null ∧
      ((Cluster.ofFin 3 100).system canvas).step world (.submit 0 .stroke .null) =
        some called ∧
      ((Cluster.ofFin 3 100).system canvas).Path
        (fun world action => world.dies (Cluster.ofFin 3 100) 0 action = false)
          called before ∧
      ((Cluster.ofFin 3 100).system canvas).step before (.submitTimeout 0 world.ops) =
        some after ∧
      ¬after.Tracks 0 world.ops := by
  obtain ⟨world, reached, passed⟩ :=
    ((Cluster.ofFin 3 100).system canvas).exists_reach_of_run (fun _ _ => True) taking
      (fun world => decide ((world.node 0).role = .leader) &&
        (decide ((world.node 0).dedupeIndex .null = none) &&
          (((Cluster.ofFin 3 100).system canvas).step world (.submit 0 .stroke .null)).any
            fun called => (((Cluster.ofFin 3 100).system canvas).run
              (fun world action => world.dies (Cluster.ofFin 3 100) 0 action = false)
                called overtaking).any fun before =>
                  (((Cluster.ofFin 3 100).system canvas).step before
                    (.submitTimeout 0 world.ops)).any fun after =>
                      (after.node 0).commitListeners.isEmpty &&
                        ((after.node 0).resumable.isEmpty &&
                          after.history.all fun seen =>
                            !decide (seen.2.Settles world.ops))))
      (by decide +kernel)
  simp only [Bool.and_eq_true, decide_eq_true_eq] at passed
  obtain ⟨leads, unknown, passed⟩ := passed
  obtain ⟨called, submitted, passed⟩ := (Option.any_eq_true _ _).mp passed
  obtain ⟨before, path, passed⟩ := (Option.any_eq_true _ _).mp passed
  obtain ⟨after, fired, passed⟩ := (Option.any_eq_true _ _).mp passed
  simp only [Bool.and_eq_true, List.isEmpty_iff, List.all_eq_true, Bool.not_eq_true',
    decide_eq_false_iff_not] at passed
  obtain ⟨silent, unresolved, unsettled⟩ := passed
  refine ⟨world, called, before, after, reached, ⟨leads, unknown⟩, submitted,
    .run .refl path, fired, ?_⟩
  rintro (⟨waiter, member, _⟩ | ⟨waiter, member, _⟩ | ⟨event, seen, settles⟩)
  · simp [silent] at member
  · simp [unresolved] at member
  · exact unsettled _ seen settles

end RaftCanvas
