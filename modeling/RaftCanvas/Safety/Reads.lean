import RaftCanvas.Cluster.Turns
import RaftCanvas.Raft.Provenance
import RaftCanvas.Raft.Reads
import RaftCanvas.Safety.StateMachineSafety

/-!
# Linearizable reads

A read returns the commit index its leader had when it was called.  That covers every
write acknowledged by then if the leader had committed an entry of its own term, and if
nobody had won a later term: whoever decides a write in a later term has a majority with
it that can no longer confirm the read.
-/

namespace RaftCanvas

variable {Id : Type} {machine : Machine}

/-- The entry at the commit index, a row or the last of the snapshot, is of the current
term. -/
def Node.warm (self : Node Id machine) : Bool :=
  self.commitIsCurrent || decide (self.commitIndex = self.db.lastSnapshotIndex ∧
    self.db.lastSnapshotTerm = self.currentTerm)

namespace World

/-- A `submit` call had resolved with `index` when the read `id` was called. -/
def Precedes (world : World Id machine) (index : Int) (id : Nat) : Prop :=
  ∃ who earlier, (who, .readCalled id) :: earlier <:+ world.history ∧
    ∃ client call appended result,
      (client, .submitResolved call appended result) ∈ earlier ∧ result.index = index

/-- Whether a `submit` call had resolved with `index` when the read `id` was called. -/
def follows (world : World Id machine) (index : Int) (id : Nat) : Bool :=
  world.history.tails.any fun
    | (_, .readCalled other) :: earlier => decide (other = id) && earlier.any fun seen =>
        match seen.2 with
        | .submitResolved _ _ result => decide (result.index = index)
        | _ => false
    | _ => false

theorem precedes_of_follows {world : World Id machine} {index : Int} {id : Nat}
    (follows : world.follows index id = true) : world.Precedes index id := by
  obtain ⟨seen, suffix, passed⟩ := List.any_eq_true.mp follows
  rw [List.mem_tails] at suffix
  split at passed
  next who other earlier =>
      obtain ⟨same, resolved⟩ := Bool.and_eq_true_iff.mp passed
      obtain rfl := of_decide_eq_true same
      obtain ⟨⟨client, event⟩, member, passed⟩ := List.any_eq_true.mp resolved
      cases event with
      | submitResolved call appended result =>
          exact ⟨who, earlier, suffix, client, call, appended, result, member,
            of_decide_eq_true passed⟩
      | role | applied | commit | snapshotTaken | snapshotInstalled | submitRejected
      | readCalled | readReturned | readRejected => simp at passed
  · cases passed

/-- Where, with which index and in which term the read `id` has returned. -/
def readResult (world : World Id machine) (id : Nat) : Option (Id × Int × Nat) :=
  world.history.findSome? fun seen =>
    match seen.2 with
    | .readReturned other readIdx term _ =>
        if other = id then some (seen.1, readIdx, term) else none
    | _ => none

theorem returned_of_readResult {world : World Id machine} {id term : Nat} {self : Id}
    {readIdx : Int} (result : world.readResult id = some (self, readIdx, term)) :
    ∃ lastApplied, (self, .readReturned id readIdx term lastApplied) ∈ world.history := by
  obtain ⟨⟨who, event⟩, member, found⟩ := List.exists_of_findSome?_eq_some result
  cases event with
  | readReturned other index era lastApplied =>
      simp only [Option.ite_none_right_eq_some, Option.some.injEq, Prod.mk.injEq] at found
      obtain ⟨rfl, rfl, rfl, rfl⟩ := found
      exact ⟨lastApplied, member⟩
  | role | applied | commit | snapshotTaken | snapshotInstalled | submitResolved
  | submitRejected | readCalled | readRejected => simp at found

theorem not_returned_of_readResult {world : World Id machine} {id : Nat}
    (result : world.readResult id = none) (self : Id) (readIdx : Int) (term : Nat)
    (lastApplied : Int) :
    (self, .readReturned id readIdx term lastApplied) ∉ world.history := by
  intro member
  have unseen := List.findSome?_eq_none_iff.mp result _ member
  simp at unseen

/-- A leader is asked to read while its commit index is covered by its snapshot, and the
entry there is of an earlier term. -/
def coldRead (world : World Id machine) : Action Id → Bool
  | .readIndex self => decide ((world.node self).role = .leader) &&
      ((world.node self).commitInSnapshot && !(world.node self).warm)
  | _ => false

/-- The run is orderly, and no leader reads from a snapshot of an earlier term. -/
def Warmed [DecidableEq Id] (world : World Id machine) (action : Action Id) : Prop :=
  world.Orderly action ∧ world.coldRead action = false

instance [DecidableEq Id] (world : World Id machine) (action : Action Id) :
    Decidable (world.Warmed action) :=
  inferInstanceAs (Decidable (_ ∧ _))

/-- All that was acknowledged before the read was called is covered by its index. -/
def Covers (world : World Id machine) (read : Reading) : Prop :=
  read.id < world.ops ∧ ∀ index, world.Precedes index read.id → index ≤ read.readIdx

/-- A majority has gone on to later terms without confirming the call. -/
def Outvoted [DecidableEq Id] [Fintype Id] (world : World Id machine) (call term : Nat) :
    Prop :=
  ∃ group : Finset Id, Quorum.Majority group ∧ ∀ member ∈ group,
    term < (world.node member).currentTerm ∧
      ∀ reply, ⟨call, member, reply⟩ ∈ world.replies → reply.success = false

/-- The invariant of reads. -/
structure Attentive [DecidableEq Id] [Fintype Id] (cluster : Cluster Id)
    (world : World Id machine) : Prop where
  numbered : ∀ who id, (who, .readCalled id) ∈ world.history → id < world.ops
  probes : ∀ (position : Nat) (call : Call Id machine.Blob) id readIdx term,
    world.calls[position]? = some call → call.await = .readIndex id readIdx term →
      call.targets = cluster.peers call.src ∧ id < world.ops ∧
        ∀ index, world.Precedes index id → index ≤ readIdx ∨ world.Outvoted position term
  waiting : ∀ self, ∀ read ∈ (world.node self).reading, world.Covers read
  returned : ∀ who id readIdx term lastApplied,
    (who, .readReturned id readIdx term lastApplied) ∈ world.history →
      world.Covers { id, readIdx, term }

end World

/-! ## The moment a read is called -/

theorem Replication.exists_of_lastTerm {Entry : Type} [Replication.Stamped Entry]
    {log : List Entry} {count era : Nat} (within : count ≤ log.length)
    (last : Replication.lastTerm (log.take count) = era) :
    0 < count ∧ ∃ entry, log[count - 1]? = some entry ∧ Replication.term entry = era := by
  cases ends : (log.take count).getLast? with
  | none => simp [Replication.lastTerm, ends] at last
  | some entry =>
      have positive : 0 < count := by
        by_contra empty
        simp [Nat.eq_zero_of_not_pos empty] at ends
      refine ⟨positive, entry, ?_, ?_⟩
      · rw [List.getLast?_eq_getElem?, List.length_take, Nat.min_eq_left within,
          List.getElem?_take_of_lt (by omega)] at ends
        exact ends
      · rw [Replication.lastTerm, ends] at last
        exact Int.ofNat.inj last

section Runs

variable [DecidableEq Id] [Fintype Id] {cluster : Cluster Id} {ideal : Ideal Id}
  {world next : World Id machine} {action : Action Id} {actor : Id}
  {node : Node Id machine} {done : List (Effect Id machine.Blob)}
  {reply : Option (Delivery Id)}

omit [DecidableEq Id] [Fintype Id] in
/-- A warm node holds an entry of its term at its commit index. -/
theorem NodeMatches.warm {self : Id} {node : Node Id machine}
    (matching : NodeMatches ideal self node) (warm : node.warm = true) :
    0 ≤ node.commitIndex ∧ ∃ entry,
      (ideal.log self)[node.commitIndex.toNat]? = some entry ∧
        entry.term = node.currentTerm := by
  have stores := matching.file.log
  rw [Node.warm, Bool.or_eq_true, decide_eq_true_eq] at warm
  rcases warm with current | ⟨same, last⟩
  · rw [Node.commitIsCurrent, Bool.and_eq_true, decide_eq_true_eq] at current
    obtain ⟨positive, row⟩ := current
    split at row
    next entry found =>
        exact ⟨positive, entry, (stores.getEntry_some found).2, of_decide_eq_true row⟩
    · cases row
  · have within := stores.within
    rw [stores.covered] at last
    obtain ⟨positive, entry, found, era⟩ :=
      Replication.exists_of_lastTerm (by omega) last
    refine ⟨by omega, entry, ?_, era⟩
    rwa [show node.commitIndex.toNat = (node.db.lastSnapshotIndex + 1).toNat - 1 by omega]

/-- A warm leader has committed whatever is acknowledged, or a majority has gone on to a
later term. -/
theorem WorldMatches.asked (matching : WorldMatches .commits ideal world) {self : Id}
    (leads : (world.node self).role = .leader) (warm : (world.node self).warm = true)
    {client : Id} {id : Nat} {appended : Option LogEntry} {result : SubmitResult}
    (resolved : (client, .submitResolved id appended result) ∈ world.history) :
    result.index ≤ (world.node self).commitIndex ∨
      ∃ group : Finset Id, Quorum.Majority group ∧
        ∀ member ∈ group, (world.node self).currentTerm < (world.node member).currentTerm := by
  have own := matching.nodes self
  have sound := matching.sound
  obtain ⟨⟨limit, log, ⟨era, _, covered⟩, inside⟩, _⟩ :=
    (matching.safe trivial).events _ _ resolved
  have decided := covered.length_le
  rw [List.length_take] at decided
  by_cases settled : result.index ≤ -1
  · have warmed := (own.warm warm).1
    exact Or.inl (by omega)
  have committed := sound.decided era (by omega)
  have led : ideal.elected (world.node self).currentTerm ≠ none := by
    simp [(own.leads leads).1]
  rcases Nat.lt_trichotomy era (world.node self).currentTerm with before | same | later
  · -- the leader started its term with all that was decided before
    have inherited := sound.leader_complete committed _ _ before le_rfl led
    have longer := inherited.length_le
    rw [List.length_take, Nat.min_eq_left committed.2.2.1] at longer
    obtain ⟨positive, entry, found, current⟩ := own.warm warm
    rw [own.ledger sound leads] at found
    have above : (ideal.base (world.node self).currentTerm).length ≤
        (world.node self).commitIndex.toNat := by
      by_contra old
      obtain ⟨suffix, grown⟩ := sound.base_prefix _ led
      rw [← grown, List.getElem?_append_left (Nat.not_le.mp old)] at found
      have older := sound.base_old _ led entry (List.mem_of_getElem? found)
      exact absurd current (Nat.ne_of_lt older)
    exact Or.inl (by omega)
  · subst same
    have reached := ((matching.safe trivial).nodes self).decided leads
    exact Or.inl (by omega)
  · obtain ⟨_, above, _, group, majority, acked⟩ := committed
    refine Or.inr ⟨group, majority, fun member inGroup => ?_⟩
    have seen := (sound.acked_led member era ((Nat.zero_lt_of_lt above).trans_le
      (acked member inGroup))).2.1
    rw [(matching.nodes member).current] at seen
    exact later.trans_le seen

/-! ## One step -/

namespace World

omit [Fintype Id] in
/-- The calls of a read keep their place in the history. -/
theorem Precedes.before (advances : world.Advances next actor node done reply) {id : Nat}
    (unseen : .readCalled id ∉ Effect.events done) {index : Int}
    (precedes : next.Precedes index id) : world.Precedes index id := by
  obtain ⟨who, earlier, inside, acknowledged⟩ := precedes
  refine ⟨who, earlier, ?_, acknowledged⟩
  rw [advances.history_eq] at inside
  rcases List.suffix_or_suffix_of_suffix inside (List.suffix_append _ _) with old | ⟨more, new⟩
  · exact old
  · cases more with
    | nil => exact new ▸ List.suffix_rfl
    | cons seen rest =>
        obtain ⟨rfl, _⟩ := List.cons.inj new
        obtain ⟨front, split⟩ := inside
        have member : (who, .readCalled id) ∈
            ((Effect.events done).map fun event => (actor, event)).reverse := by
          have parts := split
          rw [← new, List.cons_append, ← List.cons_append, ← List.append_assoc,
            List.append_left_inj] at parts
          rw [← parts]
          simp
        simp only [List.mem_reverse, List.mem_map, Prod.mk.injEq] at member
        obtain ⟨event, seen, _, rfl⟩ := member
        exact absurd seen unseen

omit [Fintype Id] in
theorem Covers.kept (advances : world.Advances next actor node done reply)
    (grows : world.ops ≤ next.ops)
    (fresh : ∀ id, .readCalled id ∈ Effect.events done → world.ops ≤ id) {read : Reading}
    (covers : world.Covers read) : next.Covers read :=
  ⟨covers.1.trans_le grows, fun index precedes =>
    covers.2 index (precedes.before advances fun called =>
      absurd (fresh _ called) (Nat.not_le.mpr covers.1))⟩

omit [Fintype Id] in
theorem step_ops (stepped : world.step cluster action = some next) :
    world.ops ≤ next.ops ∧ ∀ self, action = .readIndex self → next.ops = world.ops + 1 := by
  cases action with
  | crash self =>
      obtain rfl := Option.some.inj stepped
      exact ⟨Nat.le_refl _, fun _ asked => by cases asked⟩
  | crashDuring inner effects =>
      simp only [step, Option.map_eq_some_iff] at stepped
      obtain ⟨turn, _, rfl⟩ := stepped
      exact ⟨Nat.le_succ _, fun _ asked => by cases asked⟩
  | electionTimeout | heartbeat | submit | readIndex | deliver | resume | resumeSubmit
  | submitTimeout | pollRead =>
      simp only [step, Option.map_eq_some_iff] at stepped
      obtain ⟨turn, _, rfl⟩ := stepped
      exact ⟨Nat.le_succ _, fun _ _ => rfl⟩

/-- A call that was outvoted stays so: whoever has gone on answers it with failure. -/
theorem Outvoted.kept {tier : Tier} (matching : WorldMatches tier ideal world)
    (progress : world.Progress cluster action actor node done reply)
    (advances : world.Advances next actor node done reply)
    (grows : ∀ member, (world.node member).currentTerm ≤ (next.node member).currentTerm)
    {position id term : Nat} {readIdx : Int} {call : Call Id machine.Blob}
    (issued : world.calls[position]? = some call)
    (awaits : call.await = .readIndex id readIdx term)
    (outvoted : world.Outvoted position term) : next.Outvoted position term := by
  obtain ⟨group, majority, past⟩ := outvoted
  refine ⟨group, majority, fun member inGroup => ?_⟩
  obtain ⟨later, refused⟩ := past member inGroup
  refine ⟨later.trans_le (grows member), fun answer replied => ?_⟩
  rcases advances.mem_replies.mp replied with old | fresh
  · exact refused answer old
  · cases progress with
    | handled turn taken =>
        obtain ⟨_, prompts, _, answers⟩ := turn_prompts taken
        obtain ⟨request, rfl, acted, responder, produced⟩ := answers _ fresh
        obtain ⟨_, call', same, issued', _, rfl⟩ := prompts.request
        obtain ⟨rfl, _⟩ := Action.deliver.inj (acted.symm.trans same)
        obtain rfl : call' = call := by simpa [issued'] using issued
        have shape := (matching.calls call' (List.mem_of_getElem? issued)).shape
        rw [Call.WellFormed, awaits] at shape
        cases request : call'.request with
        | requestVote body => simp [request] at shape
        | installSnapshot body => simp [request] at shape
        | appendEntries body =>
            rw [request] at shape produced
            obtain ⟨rfl, _⟩ := shape
            have stale : body.term < (world.node turn.self).began.currentTerm :=
              later.trans_eq (congrArg (fun who => (world.node who).currentTerm) responder)
            exact (congrArg Reply.success produced).trans (Node.handle_stale stale)
    | interrupted => cases fresh
    | crashed => cases fresh

/-- Whatever is confirmed covers all that was acknowledged before. -/
theorem Attentive.confirmed (attentive : world.Attentive cluster) {position id term : Nat}
    {readIdx : Int} {call : Call Id machine.Blob} {results : List (Option Reply)}
    (issued : world.calls[position]? = some call)
    (awaits : call.await = .readIndex id readIdx term)
    (answers : world.Answers position call.targets results = true)
    (confirms : Node.Confirms (cluster.config call.src) (world.node call.src).began term
      results) : world.Covers { id, readIdx, term } := by
  obtain ⟨targets, old, covered⟩ := attentive.probes position call id readIdx term issued awaits
  refine ⟨old, fun index precedes => ?_⟩
  rcases covered index precedes with below | ⟨group, majority, past⟩
  · exact below
  · obtain ⟨acks, counted, enough⟩ := confirms.counted
    rw [targets] at answers
    obtain ⟨group', majority', _, replied⟩ :=
      cluster.majority_of_answers answers counted enough
    obtain ⟨voter, inGroup, inGroup'⟩ := majority.inter majority'
    obtain ⟨later, refused⟩ := past voter inGroup
    by_cases own : voter = call.src
    · subst own
      exact absurd confirms.current (Nat.ne_of_gt later)
    · obtain ⟨answer, member, success⟩ := replied voter inGroup' own
      exact absurd success (by simp [refused answer member])

/-- A probe that was in flight is as before: its read is not called again. -/
theorem Attentive.probed {tier : Tier} (attentive : world.Attentive cluster)
    (matching : WorldMatches tier ideal world)
    (progress : world.Progress cluster action actor node done reply)
    (advances : world.Advances next actor node done reply) (counts : world.ops ≤ next.ops)
    (grows : ∀ member, (world.node member).currentTerm ≤ (next.node member).currentTerm)
    (fresh : ∀ id, .readCalled id ∈ Effect.events done → world.ops ≤ id)
    {position id term : Nat} {readIdx : Int} {call : Call Id machine.Blob}
    (issued : world.calls[position]? = some call)
    (awaits : call.await = .readIndex id readIdx term) :
    call.targets = cluster.peers call.src ∧ id < next.ops ∧
      ∀ index, next.Precedes index id → index ≤ readIdx ∨ next.Outvoted position term := by
  obtain ⟨targets, old, covered⟩ := attentive.probes position call id readIdx term issued awaits
  have unseen : .readCalled id ∉ Effect.events done := fun called =>
    absurd (fresh id called) (Nat.not_le.mpr old)
  refine ⟨targets, old.trans_le counts, fun index precedes => ?_⟩
  exact (covered index (precedes.before advances unseen)).imp_right
    (.kept matching progress advances grows issued awaits)

/-- What is waited for stays covered, if the acting node waits for what is. -/
theorem Attentive.waits (attentive : world.Attentive cluster)
    (advances : world.Advances next actor node done reply) (counts : world.ops ≤ next.ops)
    (fresh : ∀ id, .readCalled id ∈ Effect.events done → world.ops ≤ id)
    (reading : ∀ read ∈ node.reading, world.Covers read) :
    ∀ self, ∀ read ∈ (next.node self).reading, next.Covers read := by
  intro self read waits
  refine Covers.kept advances counts fresh ?_
  by_cases acting : self = actor
  · subst acting
    rw [advances.node_actor] at waits
    exact reading read waits
  · rw [advances.node_other acting] at waits
    exact attentive.waiting self read waits

/-- A step that calls no read. -/
theorem Attentive.served {tier : Tier} (attentive : world.Attentive cluster)
    (matching : WorldMatches tier ideal world)
    (progress : world.Progress cluster action actor node done reply)
    (advances : world.Advances next actor node done reply)
    (counts : world.ops ≤ next.ops)
    (grows : ∀ member, (world.node member).currentTerm ≤ (next.node member).currentTerm)
    {applied : Int} (reading : ∀ read ∈ node.reading, world.Covers read)
    (serves : ∀ effect ∈ done, effect.Serves world.Covers applied) :
    next.Attentive cluster := by
  have silent : ∀ id, .readCalled id ∉ Effect.events done := fun id called =>
    serves _ (Effect.mem_events.mp called)
  have fresh : ∀ id, .readCalled id ∈ Effect.events done → world.ops ≤ id :=
    fun id called => absurd called (silent id)
  constructor
  case numbered =>
    intro who id called
    rcases advances.mem_history.mp called with ⟨_, now⟩ | old
    · exact absurd now (silent id)
    · exact (attentive.numbered who id old).trans_le counts
  case probes =>
    intro position call id readIdx term issued awaits
    rw [advances.calls_eq, List.getElem?_append] at issued
    split at issued
    · exact attentive.probed matching progress advances counts grows fresh issued awaits
    · have sent := Effect.mem_sends.mp (List.mem_of_getElem? issued)
      exact absurd awaits (serves _ sent _ _ _)
  case waiting => exact attentive.waits advances counts fresh reading
  case returned =>
    intro who id readIdx term lastApplied returned
    refine Covers.kept advances counts fresh ?_
    rcases advances.mem_history.mp returned with ⟨_, now⟩ | old
    · exact (serves _ (Effect.mem_events.mp now)).1
    · exact attentive.returned who id readIdx term lastApplied old

/-- What precedes a read that is called now is all that has happened so far: the warm
leader has committed it, or a majority has gone on. -/
theorem Attentive.asked (attentive : world.Attentive cluster)
    (matching : WorldMatches .commits ideal world) (electoral : Electoral cluster world)
    (advances : world.Advances next actor node done none)
    (grows : ∀ member, (world.node member).currentTerm ≤ (next.node member).currentTerm)
    (leads : (world.node actor).role = .leader) (warm : (world.node actor).warm = true)
    (called : Effect.events done = [.readCalled world.ops]) {index : Int}
    (precedes : next.Precedes index world.ops) :
    index ≤ (world.node actor).commitIndex ∨
      next.Outvoted world.calls.length (world.node actor).currentTerm := by
  obtain ⟨who, earlier, inside, client, asked, appended, result, resolved, rfl⟩ := precedes
  have all : earlier = world.history := by
    rw [advances.history_eq, called] at inside
    rcases List.suffix_cons_iff.mp inside with whole | old
    · exact (List.cons.inj whole).2
    · exact absurd (attentive.numbered who _ (old.subset List.mem_cons_self))
        (Nat.lt_irrefl _)
  rw [all] at resolved
  refine (matching.asked leads warm resolved).imp_right ?_
  rintro ⟨group, majority, past⟩
  refine ⟨group, majority, fun member inGroup =>
    ⟨(past member inGroup).trans_le (grows member), fun answer replied => ?_⟩⟩
  -- nobody has answered a call that is only made now
  rcases advances.mem_replies.mp replied with old | fresh
  · have known := electoral.replied _ old
    exact absurd known (Nat.lt_irrefl _)
  · cases fresh

/-- A step that calls a read. -/
theorem Attentive.called (attentive : world.Attentive cluster)
    (matching : WorldMatches .commits ideal world) (electoral : Electoral cluster world)
    (progress : world.Progress cluster action actor node done none)
    (advances : world.Advances next actor node done none)
    (counts : next.ops = world.ops + 1)
    (grows : ∀ member, (world.node member).currentTerm ≤ (next.node member).currentTerm)
    (reading : node.reading = (world.node actor).reading)
    (asks : (world.node actor).began.Asks (cluster.config actor) world.ops done)
    (warm : ∀ call, (world.node actor).began.Probes (cluster.config actor) world.ops call →
      (world.node actor).warm = true) :
    next.Attentive cluster := by
  have only : ∀ id, .readCalled id ∈ Effect.events done → id = world.ops := by
    intro id called
    rcases asks.events called with same | ⟨_, same⟩
    · exact Event.readCalled.inj same
    · cases same
  have fresh : ∀ id, .readCalled id ∈ Effect.events done → world.ops ≤ id :=
    fun id called => (only id called).ge
  have raised : world.ops ≤ next.ops := by omega
  constructor
  case numbered =>
    intro who id called
    rcases advances.mem_history.mp called with ⟨_, now⟩ | old
    · have same := only id now
      omega
    · exact (attentive.numbered who id old).trans_le raised
  case probes =>
    intro position call id readIdx term issued awaits
    rw [advances.calls_eq, List.getElem?_append] at issued
    split at issued
    · exact attentive.probed matching progress advances raised grows fresh issued awaits
    next beyond =>
        rcases asks with ⟨code, rfl⟩ | ⟨probe, probes, rfl⟩
        · simp at issued
        · obtain ⟨rfl, rfl⟩ : position = world.calls.length ∧ probe = call := by
            rw [Effect.sends_cons_event, Effect.sends_cons_send, Effect.sends_nil,
              List.getElem?_singleton] at issued
            split at issued
            · exact ⟨by omega, Option.some.inj issued⟩
            · cases issued
          obtain ⟨rfl, rfl, rfl⟩ := Await.readIndex.inj (probes.await.symm.trans awaits)
          refine ⟨probes.targets.trans (by rw [probes.src]; rfl), by omega, fun index => ?_⟩
          exact attentive.asked matching electoral advances grows probes.leads (warm _ probes)
            rfl
  case waiting =>
    exact attentive.waits advances raised fresh
      fun read waits => attentive.waiting actor read (reading ▸ waits)
  case returned =>
    intro who id readIdx term lastApplied returned
    refine Covers.kept advances raised fresh ?_
    rcases advances.mem_history.mp returned with ⟨_, now⟩ | old
    · rcases asks.events now with same | ⟨_, same⟩ <;> cases same
    · exact attentive.returned who id readIdx term lastApplied old

/-- A step calls a read, or it serves reads that are covered. -/
theorem Attentive.turns (attentive : world.Attentive cluster) (orderly : world.Orderly action)
    (progress : world.Progress cluster action actor node done reply) :
    ((∀ read ∈ node.reading, world.Covers read) ∧
        ∀ effect ∈ done, effect.Serves world.Covers node.lastApplied) ∨
      action = .readIndex actor ∧ reply = none ∧
        node.reading = (world.node actor).reading ∧
          (world.node actor).began.Asks (cluster.config actor) world.ops done := by
  have attending : ∀ (self : Id) (stimulus : Stimulus Id machine.Blob),
      (∀ id, stimulus ≠ .readIndex id) →
      (∀ id readIdx termAtStart results,
        stimulus = .resume (.readIndex id readIdx termAtStart) results →
          Node.Confirms (cluster.config self) (world.node self).began termAtStart results →
            world.Covers { id, readIdx, term := termAtStart }) →
      Node.Attending world.Covers
        ((world.node self).began.respond (cluster.config self) stimulus).lastApplied
        ((world.node self).began.respond (cluster.config self) stimulus) :=
    fun self _ => Node.respond_attending (show (world.node self).began.trace = [] from rfl)
      (attentive.waiting self)
  cases progress with
  | handled turn taken =>
      obtain ⟨stimulus, prompts, same, answers⟩ := turn_prompts taken
      by_cases reads : ∃ id, stimulus = .readIndex id
      · obtain ⟨id, rfl⟩ := reads
        obtain ⟨rfl, rfl⟩ := prompts.called
        have silent : turn.reply = none :=
          Option.eq_none_iff_forall_ne_some.mpr fun delivery replied => by
            obtain ⟨_, other, _⟩ := answers delivery replied
            cases other
        rw [same]
        exact Or.inr ⟨rfl, silent, Node.startReadIndex_asks rfl world.ops⟩
      · have served := attending turn.self stimulus (fun id asked => reads ⟨id, asked⟩)
          fun id readIdx termAtStart results asked confirms => by
            subst asked
            obtain ⟨position, call, issued, src, awaits, replied⟩ := prompts.resumed
            rw [← src] at confirms
            exact attentive.confirmed issued awaits replied confirms
        rw [← same] at served
        exact Or.inl ⟨served.reading, served.effects⟩
  | interrupted inner effects turn cut taken =>
      have whole := orderly.1
      rw [cut] at whole
      exact whole.elim
  | crashed self died =>
      have started := attending actor (.restart (world.node actor).db) nofun nofun
      exact Or.inl ⟨started.reading, fun effect member => nomatch member⟩

/-- What a warmed step does about reads: they stay covered, and one that returns finds
its index applied. -/
theorem Attentive.step (attentive : world.Attentive cluster)
    (matching : WorldMatches .commits ideal world) (electoral : Electoral cluster world)
    (warmed : world.Warmed action) (stepped : world.step cluster action = some next) :
    next.Attentive cluster ∧ ∀ who id readIdx term lastApplied,
      (who, .readReturned id readIdx term lastApplied) ∈ next.history →
        (who, .readReturned id readIdx term lastApplied) ∈ world.history ∨
          readIdx ≤ (next.node who).lastApplied := by
  obtain ⟨orderly, hot⟩ := warmed
  obtain ⟨_, after, steps, moved⟩ :=
    matching.step electoral (Permitted.of_orderly orderly) stepped
  have grows : ∀ member,
      (world.node member).currentTerm ≤ (next.node member).currentTerm := fun member => by
    rw [← (matching.nodes member).current, ← (moved.nodes member).current]
    exact (steps.sound matching.sound).2.1.current member
  obtain ⟨counts, numbers⟩ := step_ops stepped
  obtain ⟨actor, node, done, reply, progress, advances⟩ := step_progress stepped
  rcases attentive.turns orderly progress with ⟨reading, serves⟩ | ⟨rfl, rfl, reading, asks⟩
  · refine ⟨attentive.served matching progress advances counts grows reading serves, ?_⟩
    intro who id readIdx term lastApplied returned
    rcases advances.mem_history.mp returned with ⟨rfl, fresh⟩ | old
    · obtain ⟨_, caught, same⟩ := serves _ (Effect.mem_events.mp fresh)
      rw [advances.node_actor, ← same]
      exact Or.inr caught
    · exact Or.inl old
  · refine ⟨attentive.called matching electoral progress advances (numbers _ rfl) grows
      reading asks fun call probes => ?_, ?_⟩
    · -- a check that only the snapshot passes would make the read a cold one
      have leads : (world.node actor).role = .leader := probes.leads
      rcases probes.warm with covered | current
      · have covered' : (world.node actor).commitInSnapshot = true := covered
        simpa [coldRead, leads, covered'] using hot
      · have current' : (world.node actor).commitIsCurrent = true := current
        rw [Node.warm, current', Bool.true_or]
    · intro who id readIdx term lastApplied returned
      rcases advances.mem_history.mp returned with ⟨_, fresh⟩ | old
      · rcases asks.events fresh with same | ⟨_, same⟩ <;> cases same
      · exact Or.inl old

theorem Attentive.of_reach (reached : (cluster.system machine).Reach World.Warmed world) :
    world.Attentive cluster ∧ ∃ ideal, WorldMatches .commits ideal world := by
  induction reached with
  | init =>
      refine ⟨⟨?_, ?_, ?_, ?_⟩, _, .initial _⟩
      · exact fun who id called => nomatch called
      · exact fun position call id readIdx term issued => by cases issued
      · exact fun self read waits => nomatch waits
      · exact fun who id readIdx term lastApplied returned => nomatch returned
  | step before warmed stepped ih =>
      obtain ⟨attentive, ideal, matching⟩ := ih
      have electoral : Electoral cluster _ := .of_reach before
      obtain ⟨_, after, _, moved⟩ :=
        matching.step electoral (Permitted.of_orderly warmed.1) stepped
      exact ⟨(attentive.step matching electoral warmed stepped).1, after, moved⟩

end World

end Runs

/-- In a warmed run a read returns an index that covers every write acknowledged before
the read was called, and by then the node has applied its log up to that index. -/
theorem reads_linearizable {Id : Type} [DecidableEq Id] [Fintype Id] (cluster : Cluster Id)
    (machine : Machine) (world next : World Id machine) (action : Action Id)
    (reached : (cluster.system machine).Reach World.Warmed world)
    (warmed : world.Warmed action)
    (stepped : (cluster.system machine).step world action = some next) (self : Id)
    (id : Nat) (readIdx : Int) (term : Nat) (lastApplied : Int)
    (returned : (self, .readReturned id readIdx term lastApplied) ∈ next.history)
    (now : (self, .readReturned id readIdx term lastApplied) ∉ world.history) :
    (∀ index, next.Precedes index id → index ≤ readIdx) ∧
      readIdx ≤ (next.node self).lastApplied ∧
      ∃ log, Indexed log ∧ (log.length : Int) = (next.node self).lastApplied + 1 ∧
        (next.node self).stateMachine = machine.replay log := by
  obtain ⟨attentive, ideal, matching⟩ := World.Attentive.of_reach reached
  have electoral : World.Electoral cluster world := .of_reach reached
  obtain ⟨kept, applied⟩ := attentive.step matching electoral warmed stepped
  obtain ⟨_, after, _, moved⟩ :=
    matching.step electoral (Permitted.of_orderly warmed.1) stepped
  have safe := (moved.safe trivial).nodes self
  have stores := (moved.nodes self).file.log
  have bound := safe.bound
  have low := stores.low
  have saved_le := safe.saved_le
  have applied_le := safe.applied_le
  refine ⟨(kept.returned _ _ _ _ _ returned).2,
    (applied _ _ _ _ _ returned).resolve_left now, _, stores.indexed.take _, ?_, safe.state⟩
  rw [List.length_take]
  omega

theorem reads_linearizable_committing : ∃ world next : World (Fin 3) canvas,
    next.Precedes 1 9 ∧ next.readResult 9 = some (0, 1, 1) ∧
      (∀ index, next.Precedes index 9 → index ≤ 1) ∧ 1 ≤ (next.node 0).lastApplied ∧
        world.readResult 9 = none := by
  obtain ⟨world, reached, passed⟩ :=
    ((Cluster.ofFin 3 1).system canvas).exists_reach_of_run World.Warmed
      (committing ++ [.resumeSubmit 0 5, .readIndex 0, .deliver 5 1])
      (fun world =>
        let action : Action (Fin 3) := .resume 5 [some { term := 1, success := true }, none]
        decide (world.Warmed action) && (decide (world.readResult 9 = none) &&
          (world.step (Cluster.ofFin 3 1) action).any fun next : World (Fin 3) canvas =>
            next.follows 1 9 && decide (next.readResult 9 = some (0, 1, 1))))
      (by decide +kernel)
  simp only [Bool.and_eq_true, decide_eq_true_eq, Option.any_eq_true] at passed
  obtain ⟨warmed, waiting, next, stepped, follows, result⟩ := passed
  obtain ⟨lastApplied, returned⟩ := World.returned_of_readResult result
  obtain ⟨covers, applied, _⟩ := reads_linearizable _ _ world next _ reached warmed stepped 0
    9 1 1 lastApplied returned (World.not_returned_of_readResult waiting 0 1 1 lastApplied)
  exact ⟨world, next, World.precedes_of_follows follows, result, covers, applied, waiting⟩

/-- Replica 0 compacts its first entry everywhere it reaches and then acknowledges a
write.  Replica 1 has stored the write, wins the next term, and is asked to read before
it has committed anything itself. -/
def unwarmed : List (Action (Fin 3)) :=
  [.electionTimeout 0, .deliver 0 1,
    .resume 0 [some { term := 1, voteGranted := true }, none],
    .deliver 1 1, .resume 1 [some { term := 1, success := true }], .heartbeat 0,
    .deliver 3 1, .submit 0 .stroke .null, .deliver 5 1,
    .resume 5 [some { term := 1, success := true }], .resumeSubmit 0 7,
    .electionTimeout 1, .deliver 7 2,
    .resume 7 [none, some { term := 2, voteGranted := true }], .readIndex 1,
    .deliver 8 0, .deliver 10 0, .resume 10 [some { term := 2, success := true }, none]]

/-- The read returns the index of the snapshot, behind the acknowledged write. -/
theorem read_behind_write : ∃ world : World (Fin 3) canvas,
    ((Cluster.ofFin 3 1).system canvas).Reach World.Orderly world ∧
      world.Precedes 1 14 ∧ world.readResult 14 = some (1, 0, 2) ∧
        ∃ lastApplied, (1, .readReturned 14 0 2 lastApplied) ∈ world.history := by
  obtain ⟨world, reached, passed⟩ :=
    ((Cluster.ofFin 3 1).system canvas).exists_reach_of_run World.Orderly unwarmed
      (fun world => world.follows 1 14 && decide (world.readResult 14 = some (1, 0, 2)))
      (by decide +kernel)
  simp only [Bool.and_eq_true, decide_eq_true_eq] at passed
  obtain ⟨follows, result⟩ := passed
  exact ⟨world, reached, World.precedes_of_follows follows, result,
    World.returned_of_readResult result⟩

end RaftCanvas
