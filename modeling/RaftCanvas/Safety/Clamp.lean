import RaftCanvas.Cluster.CommitRule
import RaftCanvas.Cluster.Hints
import RaftCanvas.Raft.Forward
import RaftCanvas.Raft.Provenance
import RaftCanvas.Safety.LogMatching

/-!
# The commit clamp of a follower

A follower clamps the leader's commit index to the end of its own log, not to the last
entry of the request.  That is harmless because a request that was accepted leaves it with
nothing that the leader has not had in its log.
-/

namespace RaftCanvas

open Transition (System)

namespace World

variable {Id : Type} {machine : Machine} [DecidableEq Id]

/-! ## Where entries come from -/

/-- The winner of its term has had `entry` in its log, in that term. -/
def Origin (cluster : Cluster Id) (allowed : World Id machine → Action Id → Prop)
    (world : World Id machine) (entry : LogEntry) : Prop :=
  ∃ past winner, (cluster.system machine).Reach allowed past ∧
    (cluster.system machine).Path allowed past world ∧
      past.Leads winner entry.term ∧ (past.node winner).currentTerm = entry.term ∧
        entry ∈ (past.node winner).db.log.rows

/-- An election once won is on record. -/
theorem Leads.onward {cluster : Cluster Id}
    {allowed : World Id machine → Action Id → Prop} {past world : World Id machine}
    {leader : Id} {era : Nat} (won : past.Leads leader era)
    (path : (cluster.system machine).Path allowed past world) : world.Leads leader era := by
  induction path with
  | refl => exact won
  | step _ _ stepped ih =>
      obtain ⟨_, _, _, _, _, advances⟩ := step_progress stepped
      exact advances.mem_history.mpr (Or.inr ih)

/-- All entries stored or in flight are `known`, and leaders have won their terms. -/
structure Sourced (known : LogEntry → Prop) (world : World Id machine) : Prop where
  rows : ∀ member, ∀ row ∈ (world.node member).db.log.rows, known row
  carried : ∀ call ∈ world.calls, ∀ entry ∈ call.request.entries, known entry
  quotes : ∀ call ∈ world.calls, ∀ era leader,
    call.request.leader? = some (era, leader) → world.Leads call.src era
  leads : ∀ member, (world.node member).role = .leader →
    world.Leads member (world.node member).currentTerm

/-- What a step stores and sends: entries that were `known`, and entries that the acting
node creates in a term it has won. -/
structure Extended (known : LogEntry → Prop) (next : World Id machine) (actor : Id)
    (node : Node Id machine) (done : List (Effect Id machine.Blob)) : Prop where
  rows : ∀ row ∈ node.db.log.rows, known row ∨
    row.term = node.currentTerm ∧ next.Leads actor row.term
  sends : ∀ call ∈ Effect.sends done, call.src = actor ∧
    (∀ entry ∈ call.request.entries, known entry ∨ entry ∈ node.db.log.rows) ∧
      ∀ era leader, call.request.leader? = some (era, leader) → next.Leads actor era
  leads : node.role = .leader → next.Leads actor node.currentTerm

section Step

variable {cluster : Cluster Id} {known : LogEntry → Prop} {world next : World Id machine}
  {actor : Id} {node after : Node Id machine} {done : List (Effect Id machine.Blob)}
  {reply : Option (Delivery Id)}

omit [DecidableEq Id] in
/-- Effects of a handler that passes on what is known, cut off anywhere. -/
theorem Extended.of_passing {office : Nat → Prop} {before : Database Id machine.Blob}
    (rows : ∀ row ∈ before.log.rows, known row)
    (passing : after.Passing actor known office) (cut : done <+: after.trace)
    (won : ∀ era, office era → next.Leads actor era)
    (file : node.db = Effect.file before done) (whole : node.role = .leader → node = after) :
    Extended known next actor node done where
  rows row member := by
    rw [file] at member
    refine Or.inl ?_
    rcases Effect.file_eq_or_mem before done with same | written
    · exact rows row (same ▸ member)
    · exact passing.effects _ (cut.subset written) row member
  sends call member := by
    obtain ⟨src, entries, speaks⟩ :=
      passing.effects _ (cut.subset (Effect.mem_sends.mp member))
    exact ⟨src, fun entry carried => Or.inl (entries entry carried),
      fun era leader asked => won era (speaks era leader asked)⟩
  leads leader := by
    obtain rfl := whole leader
    exact won _ (passing.leads leader)

/-- Effects of a handler that creates an entry, cut off anywhere. -/
theorem Extended.of_creates {before : Node Id machine} {entry : LogEntry}
    (rows : ∀ row ∈ before.db.log.rows, known row)
    (leads : before.role = .leader → world.Leads actor before.currentTerm)
    (creates : Node.Creates actor before after entry) (cut : done <+: after.trace)
    (advances : world.Advances next actor node done reply)
    (term : node.currentTerm = node.db.currentTerm)
    (current : before.db.currentTerm = before.currentTerm)
    (file : node.db = Effect.file before.db done)
    (whole : node.role = .leader → node = after ∧ done = after.trace) :
    Extended known next actor node done := by
  obtain ⟨front, back, trace, begun, last⟩ := creates.trace
  have quiet : ∀ more, more <+: front → Effect.file before.db more = before.db ∧
      Effect.sends more = [] := by
    intro more inside
    rcases begun with ⟨rfl, _⟩ | rfl
    · obtain rfl := List.prefix_nil.mp inside
      exact ⟨rfl, rfl⟩
    · rcases List.prefix_cons_iff.mp inside with rfl | ⟨rest, rfl, nothing⟩
      · exact ⟨rfl, rfl⟩
      · obtain rfl := List.prefix_nil.mp nothing
        exact ⟨rfl, rfl⟩
  have early : done <+: front → Extended known next actor node done := by
    intro inside
    obtain ⟨same, nothing⟩ := quiet done inside
    refine ⟨fun row member => Or.inl (rows row ?_), fun call member => ?_, fun leader => ?_⟩
    · rwa [file, same] at member
    · rw [nothing] at member
      cases member
    · obtain ⟨_, complete⟩ := whole leader
      have longer := (complete ▸ inside).length_le
      rw [trace, List.length_append, List.length_cons] at longer
      omega
  rw [trace] at cut
  rcases List.prefix_or_prefix_of_prefix cut (List.prefix_append _ _) with inside | ⟨rest, rfl⟩
  · exact early inside
  rcases List.prefix_cons_iff.mp ((List.prefix_append_right_inj front).mp cut) with
    rfl | ⟨sent, rfl, later⟩
  · exact early (by simp)
  -- the entry has been written, and the election announced if it is a new one
  have won : next.Leads actor before.currentTerm := by
    rcases begun with ⟨_, leader⟩ | rfl
    · exact advances.mem_history.mpr (Or.inr (leads leader))
    · exact advances.mem_history.mpr (Or.inl ⟨rfl, by simp⟩)
  have stored : node.db = before.db.appendEntries [entry] := by
    rw [file, Effect.file_append, (quiet front List.prefix_rfl).1, Effect.file_cons_write]
    rcases Effect.file_eq_or_mem (before.db.appendEntries [entry]) sent with same | written
    · exact same
    · exact absurd (later.subset written) (last _)
  refine ⟨?_, ?_, fun leader => ?_⟩
  · intro row member
    rw [stored] at member
    rcases LogTable.mem_foldl_replace member with new | old
    · obtain rfl := List.mem_singleton.mp new
      refine Or.inr ⟨?_, creates.term ▸ won⟩
      rw [term, stored, creates.term, ← current]
      rfl
    · exact Or.inl (rows row old)
  · intro call member
    have whole : Effect.send call ∈ after.trace := by
      rw [trace]
      exact cut.subset (Effect.mem_sends.mp member)
    obtain ⟨src, entries, speaks⟩ := creates.passing.effects _ whole
    refine ⟨src, fun entry carried => Or.inr ?_, fun era leader asked => ?_⟩
    · rw [stored]
      exact entries entry carried
    · exact speaks era leader asked ▸ won
  · obtain ⟨rfl, _⟩ := whole leader
    rw [creates.passing.leads leader]
    exact won

/-- One step stores and sends what is known, or what the acting node has created. -/
theorem Sourced.extended [Fintype Id] (sourced : world.Sourced known)
    (electoral : Electoral cluster world) {action : Action Id}
    (progress : world.Progress cluster action actor node done reply)
    (advances : world.Advances next actor node done reply) :
    Extended known next actor node done := by
  have canvassed := electoral.progress_canvassed progress
  have kept : ∀ {era}, world.Leads actor era → next.Leads actor era :=
    fun won => advances.mem_history.mpr (Or.inr won)
  have turned : ∀ {inner : Action Id} {turn : Turn Id machine},
      world.turn cluster inner = some turn → turn.self = actor → done <+: turn.after.trace →
        (node.role = .leader → node = turn.after ∧ done = turn.after.trace) →
          Extended known next actor node done := by
    rintro inner turn taken rfl cut whole
    obtain ⟨stimulus, prompts, same, _⟩ := turn_prompts taken
    have fresh : Node.Passing (cluster.config turn.self).replicaId known
        (world.Leads turn.self) (world.node turn.self).began :=
      ⟨sourced.rows turn.self, sourced.leads turn.self, fun _ member => nomatch member⟩
    rcases Node.respond_passing rfl fresh
      (fun request asked entry member => by
        subst asked
        obtain ⟨_, call, _, issued, _, rfl⟩ := prompts.request
        exact sourced.carried call (List.mem_of_getElem? issued) entry member)
      (fun db restarted => absurd restarted (prompts.lives db)) with passing | ⟨entry, creates⟩
    · rw [← same] at passing
      exact .of_passing fresh.rows passing cut (fun _ => kept) canvassed.file
        fun leader => (whole leader).1
    · rw [← same] at creates
      exact .of_creates fresh.rows fresh.leads creates cut advances canvassed.term
        (electoral.term turn.self).symm canvassed.file whole
  have restarted : ∀ db, (Node.start db : Node Id machine).role ≠ .leader := fun db leader => by
    rw [(Electoral.start_quiet db).1] at leader
    cases leader
  cases progress with
  | handled turn taken => exact turned taken rfl List.prefix_rfl fun _ => ⟨rfl, rfl⟩
  | interrupted inner effects turn _ taken =>
      exact turned taken rfl (List.take_prefix effects _)
        fun leader => absurd leader (restarted _)
  | crashed self _ =>
      refine ⟨fun row member => Or.inl (sourced.rows actor row ?_), (fun _ sent => nomatch sent),
        fun leader => absurd leader (restarted _)⟩
      rwa [canvassed.file] at member

/-- What is known after a step is what was known before, and what the acting node holds
of a term it has won and is in. -/
theorem Sourced.step [Fintype Id] (sourced : world.Sourced known)
    (electoral : Electoral cluster world) {action : Action Id}
    (stepped : world.step cluster action = some next) {known' : LogEntry → Prop}
    (grows : ∀ entry, known entry → known' entry)
    (created : ∀ actor, ∀ row ∈ (next.node actor).db.log.rows,
      row.term = (next.node actor).currentTerm → next.Leads actor row.term → known' row) :
    next.Sourced known' := by
  obtain ⟨actor, node, done, reply, progress, advances⟩ := step_progress stepped
  have extended := sourced.extended electoral progress advances
  have kept : ∀ {leader era}, world.Leads leader era → next.Leads leader era :=
    fun won => advances.mem_history.mpr (Or.inr won)
  have own : ∀ row ∈ node.db.log.rows, known' row := fun row member => by
    rcases extended.rows row member with old | ⟨term, won⟩
    · exact grows row old
    · exact created actor row (advances.node_actor.symm ▸ member)
        (advances.node_actor.symm ▸ term) won
  constructor
  case rows =>
    intro member row holds
    by_cases acting : member = actor
    · subst acting
      exact own row (advances.node_actor ▸ holds)
    · rw [advances.node_other acting] at holds
      exact grows row (sourced.rows member row holds)
  case carried =>
    intro call issued entry carried
    rcases advances.mem_calls.mp issued with old | fresh
    · exact grows entry (sourced.carried call old entry carried)
    · exact ((extended.sends call fresh).2.1 entry carried).elim (grows entry) (own entry)
  case quotes =>
    intro call issued era leader asked
    rcases advances.mem_calls.mp issued with old | fresh
    · exact kept (sourced.quotes call old era leader asked)
    · obtain ⟨rfl, _, quoted⟩ := extended.sends call fresh
      exact quoted era leader asked
  case leads =>
    intro member
    by_cases acting : member = actor
    · subst acting
      rw [advances.node_actor]
      exact extended.leads
    · rw [advances.node_other acting]
      exact fun leader => kept (sourced.leads member leader)

end Step

/-- Every entry, in whatever log or request, has been in the log of the winner of its term
while that node was in the term. -/
theorem Sourced.of_reach [Fintype Id] {cluster : Cluster Id}
    {allowed : World Id machine → Action Id → Prop} {world : World Id machine}
    (reached : (cluster.system machine).Reach allowed world) :
    world.Sourced (Origin cluster allowed world) := by
  induction reached with
  | init => exact ⟨(fun _ _ row => nomatch row), (fun _ issued => nomatch issued),
      (fun _ issued => nomatch issued), fun _ leader => nomatch leader⟩
  | @step world next action before allowance stepped ih =>
      refine ih.step (.of_reach before) stepped ?_ fun actor row member term won => ?_
      · rintro entry ⟨past, winner, reached, path, held⟩
        exact ⟨past, winner, reached, path.step allowance stepped, held⟩
      · exact ⟨next, actor, before.step allowance stepped, .refl, won, term.symm, member⟩

end World

/-! ## The follower's log -/

variable {Id : Type} {machine : Machine} [DecidableEq Id] [Fintype Id]

/-- A request that was answered with success leaves the follower inside the ledger of the
term, up to an entry of that term. -/
theorem Course.accepted_inside {stage : Stage Id machine} {ideal : Ideal Id}
    {node : Node Id machine} (course : Course stage ideal node) {src : Id}
    {body : AppendEntries Id} (replicates : Replicates ideal src body)
    (acked : body.count ≤ ideal.acked stage.actor body.term)
    (current : node.currentTerm = body.term) :
    ideal.log stage.actor <+: ideal.ledger body.term ∧
      ∃ last, (ideal.log stage.actor).getLast? = some last ∧ last.term = body.term := by
  have here : ideal.current stage.actor = body.term := course.matching.current.trans current
  have sound := course.sound
  have own := replicates.own
  have positive : 0 < ideal.acked stage.actor body.term := by omega
  obtain ⟨led, _, within⟩ := sound.acked_led _ _ positive
  have covers := sound.acked_held stage.actor
  rw [here] at covers
  have inside : ideal.log stage.actor <+: ideal.ledger body.term := by
    have whole : ideal.log stage.actor <+: ideal.ledger (ideal.current stage.actor) :=
      sound.log_inside_ledger (here ▸ led) (here.symm ▸ own.trans_le acked)
        (here.symm ▸ within) (here.symm ▸ covers)
    rwa [here] at whole
  refine ⟨inside, ?_⟩
  have long := covers.length_le
  rw [List.length_take] at long
  obtain ⟨last, ends⟩ : ∃ last, (ideal.log stage.actor).getLast? = some last :=
    Option.isSome_iff_exists.mp (List.getLast?_isSome.mpr
      (List.length_pos_iff.mp (by omega)))
  refine ⟨last, ends, ?_⟩
  rw [List.getLast?_eq_getElem?] at ends
  refine sound.ledger_own _ led ((ideal.log stage.actor).length - 1) last ?_ (by omega)
  obtain ⟨rest, grown⟩ := inside
  rw [← grown, List.getElem?_append_left (by omega), ends]

/-! ## Accepted requests -/

section Accepted

variable {cluster : Cluster Id} {world past : World Id machine}

omit [Fintype Id] in
/-- A run that is uncompacted at its end was so at every step. -/
theorem World.Uncompacted.of_path
    (path : (cluster.system machine).Path (fun world _ => world.Uncompacted) past world)
    (bare : world.Uncompacted) : past.Uncompacted := by
  induction path with
  | refl => exact bare
  | step _ allowance _ ih => exact ih allowance

omit [DecidableEq Id] [Fintype Id] in
/-- Two backed logs that hold an entry of one index and term agree up to it. -/
theorem inside_of_shared {ideal : Ideal Id} {own other : List LogEntry}
    (ownBacked : ideal.Backed own) (otherBacked : ideal.Backed other)
    (ownIndexed : Indexed own) (otherIndexed : Indexed other) {last : LogEntry}
    (ends : own.getLast? = some last) (shared : last ∈ other) : own <+: other := by
  rw [List.getLast?_eq_getElem?] at ends
  have bound := (List.getElem?_eq_some_iff.mp ends).1
  obtain ⟨place, found⟩ := List.mem_iff_getElem?.mp shared
  have here := ownIndexed _ last ends
  have there := otherIndexed _ last found
  obtain rfl : place = own.length - 1 := by omega
  have agree := ownBacked.matching otherBacked ends found rfl
  rw [List.take_of_length_le (by omega)] at agree
  rw [agree]
  exact List.take_prefix _ _

omit [DecidableEq Id] [Fintype Id] in
/-- Following a leader and storing its entries is no compaction. -/
theorem Node.storeEntries_saved (self : Node Id machine) (term : Nat) (leaderId : Id)
    (entries : List LogEntry) :
    ((self.followLeader term leaderId).storeEntries entries).db.lastSnapshotIndex =
      self.db.lastSnapshotIndex := by
  have followed : (self.followLeader term leaderId).db.lastSnapshotIndex =
      self.db.lastSnapshotIndex := by
    obtain ⟨_, _, _, file⟩ := self.followLeader_frame term leaderId
    rw [file]
    rfl
  rw [← followed, Node.storeEntries]
  dsimp only
  split <;> rfl

omit [DecidableEq Id] [Fintype Id] in
/-- A successful answer is given in the term of the request. -/
theorem Node.handleAppendEntries_accepted {config : Config Id} {self : Node Id machine}
    {body : AppendEntries Id}
    (success : (self.handleAppendEntries config body).2.success = true) :
    (self.handleAppendEntries config body).1.currentTerm = body.term := by
  have recent : self.currentTerm ≤ body.term := by
    by_contra stale
    simp [handleAppendEntries, Nat.lt_of_not_le stale] at success
  exact (handleAppendEntries_works config self body recent).currentTerm.trans
    (followLeader_currentTerm recent _)

/-- The log in which the entries of an accepted request were stored, before anything is
committed or compacted. -/
theorem WorldMatches.accepted {ideal : Ideal Id} (matching : WorldMatches .logs ideal world)
    (bare : world.Uncompacted) {id : Nat} {follower : Id} {call : Call Id machine.Blob}
    {body : AppendEntries Id} (issued : world.calls[id]? = some call)
    (request : call.request = .appendEntries body) (asked : follower ∈ call.targets)
    (config : Config Id)
    (success : ((world.fresh follower).handleAppendEntries config body).2.success = true) :
    ∃ after, ideal.Extends after ∧
      Course (world.stage .logs ideal follower) after
        ((world.fresh follower).handleAppendEntries config body).1 ∧
      after.log follower = (((world.fresh follower).followLeader body.term
        body.leaderId).storeEntries body.entries).db.log.rows ∧
      ∃ last, (after.log follower).getLast? = some last ∧ last.term = body.term := by
  have shape := matching.calls call (List.mem_of_getElem? issued)
  have replicates : Replicates ideal call.src body := by
    have quoted := shape.request
    rwa [request] at quoted
  have other : call.src ≠ follower := by
    rintro rfl
    exact shape.others asked
  have own : (world.fresh follower).db.lastSnapshotIndex = -1 := bare follower
  obtain ⟨after, course, acked, stored⟩ := (matching.fresh follower).handleAppendEntries config
    replicates other (fun strict => strict.elim) (fun _ => own)
    (fun _ _ clobbered => by
      obtain ⟨positive, covered, _⟩ := clobbered
      omega)
    fun _ => own
  have extended := (course.cut.steps.sound matching.sound).2.1
  have whole := (stored success).whole (by rw [Node.storeEntries_saved]; exact own)
  exact ⟨after, extended, course, whole.symm,
    (course.accepted_inside (replicates.extends extended) (acked success)
      (Node.handleAppendEntries_accepted success)).2⟩

omit [Fintype Id] in
/-- The follower has taken the request of the call when it is delivered. -/
theorem World.deliver_node {next : World Id machine} {id : Nat} {follower : Id}
    {call : Call Id machine.Blob} {body : AppendEntries Id}
    (issued : world.calls[id]? = some call) (request : call.request = .appendEntries body)
    (delivered : (cluster.system machine).step world (.deliver id follower) = some next) :
    follower ∈ call.targets ∧ next.node follower =
      ((world.fresh follower).handleAppendEntries (cluster.config follower) body).1 := by
  simp only [Cluster.system, World.step, World.turn, issued, Option.map_eq_some_iff,
    Option.ite_none_right_eq_some, Option.some.injEq] at delivered
  obtain ⟨_, ⟨asked, rfl⟩, rfl⟩ := delivered
  exact ⟨asked, by simp [World.finish, request, Node.handle]⟩

/-- The sender of an accepted request has had the last entry of the log that the request
leaves, in the term of the request. -/
theorem World.accepted_origin
    (reached : (cluster.system machine).Reach (fun world _ => world.Uncompacted) world)
    (bare : world.Uncompacted) {id : Nat} {follower : Id} {call : Call Id machine.Blob}
    {body : AppendEntries Id} (issued : world.calls[id]? = some call)
    (request : call.request = .appendEntries body) (asked : follower ∈ call.targets)
    (config : Config Id)
    (success : ((world.fresh follower).handleAppendEntries config body).2.success = true) :
    ∃ last past, (((world.fresh follower).followLeader body.term
        body.leaderId).storeEntries body.entries).db.log.rows.getLast? = some last ∧
      (cluster.system machine).Reach (fun world _ => world.Uncompacted) past ∧
      (cluster.system machine).Path (fun world _ => world.Uncompacted) past world ∧
      past.Leads call.src body.term ∧ (past.node call.src).currentTerm = body.term ∧
        last ∈ (past.node call.src).db.log.rows := by
  have member := List.mem_of_getElem? issued
  have sourced := Sourced.of_reach reached
  obtain ⟨_, started⟩ := WorldMatches.of_uncompacted reached
  obtain ⟨_, _, _, rows, last, ends, term⟩ :=
    started.accepted bare issued request asked config success
  rw [rows] at ends
  have passing : Node.Passing follower
      (Origin cluster (fun world _ => world.Uncompacted) world)
      (world.Leads follower) (world.fresh follower) :=
    ⟨sourced.rows follower, sourced.leads follower, fun _ member => by cases member⟩
  have carried := sourced.carried call member
  rw [request] at carried
  obtain ⟨past, winner, earlier, path, won, inTerm, held⟩ :=
    ((passing.followLeader body.term body.leaderId).storeEntries carried).rows last
      (List.mem_of_getLast? ends)
  rw [term] at won inTerm
  have quoted : world.Leads call.src body.term :=
    sourced.quotes call member body.term body.leaderId (by rw [request]; rfl)
  obtain rfl : winner = call.src :=
    (Electoral.of_reach reached).winner_unique (won.onward path) quoted
  exact ⟨last, past, ends, earlier, path, won, inTerm, held⟩

end Accepted

/-- While nothing is compacted, a follower that answers a request of term `T` with success
holds nothing that the leader has not had in its log in term `T`: at some moment of the
run that leader, having won the term and still in it, had all of the follower's log.  So
whatever the clamped commit index newly covers is an entry of the leader. -/
theorem follower_clamp_safe {Id : Type} [DecidableEq Id] [Fintype Id] (cluster : Cluster Id)
    (machine : Machine) (world next : World Id machine)
    (reached : (cluster.system machine).Reach (fun world _ => world.Uncompacted) world)
    (bare : world.Uncompacted) (id : Nat) (follower : Id) (call : Call Id machine.Blob)
    (body : AppendEntries Id) (issued : world.calls[id]? = some call)
    (request : call.request = .appendEntries body)
    (delivered : (cluster.system machine).step world (.deliver id follower) = some next)
    (success : ((world.fresh follower).handleAppendEntries (cluster.config follower)
      body).2.success = true) :
    ∃ past, (cluster.system machine).Reach (fun world _ => world.Uncompacted) past ∧
      (cluster.system machine).Path (fun world _ => world.Uncompacted) past world ∧
      past.Leads call.src body.term ∧
      (past.node call.src).currentTerm = body.term ∧
      (next.node follower).db.lastIndex ≤ (past.node call.src).db.lastIndex ∧
      (∀ index entry, (next.node follower).db.getEntry index = some entry →
        (past.node call.src).db.getEntry index = some entry) ∧
      (next.Uncompacted →
        (next.node follower).db.log.rows <+: (past.node call.src).db.log.rows) ∧
      ∀ index, 0 ≤ index → (world.node follower).commitIndex < index →
        index ≤ (next.node follower).commitIndex →
          ∃ entry, (past.node call.src).db.getEntry index = some entry := by
  obtain ⟨asked, moved⟩ := World.deliver_node issued request delivered
  obtain ⟨last, past, ends, earlier, path, won, inTerm, held⟩ :=
    World.accepted_origin reached bare issued request asked _ success
  -- both logs are backed by the abstract state reached from that moment on
  obtain ⟨then_, before⟩ := WorldMatches.of_uncompacted earlier
  have barePast := bare.of_path path
  have leader := (before.nodes call.src).file.log
  have leaderRows := leader.whole (barePast call.src)
  obtain ⟨now, matching, grown⟩ := WorldMatches.onward
    (fun _ _ _ _ => Permitted.of_uncompacted) earlier path before
  obtain ⟨after, extended, course, stored, _⟩ :=
    matching.accepted bare issued request asked _ success
  have file : (next.node follower).db.Stores (after.log follower) := by
    rw [moved]
    exact course.matching.file.log
  have inside : after.log follower <+: then_.log call.src :=
    inside_of_shared (course.sound.backed_log follower)
      ((before.sound.backed_log call.src).extends (grown.trans extended)) file.indexed
      leader.indexed (stored.symm ▸ ends) (leaderRows ▸ held)
  have shorter := inside.length_le
  have lastIndex := file.lastIndex_eq
  have theirEnd := leader.lastIndex_eq
  refine ⟨past, earlier, path, won, inTerm, ?_, fun index entry found => ?_, fun quiet => ?_,
    fun index positive above below => ?_⟩
  · omega
  · exact leader.getEntry_prefix (barePast call.src) file inside found
  · rw [file.whole (quiet follower), leaderRows]
    exact inside
  · have bounded := Node.handleAppendEntries_bound (cluster.config follower)
      (world.fresh follower) body
    rw [← moved, show (world.fresh follower).commitIndex =
      (world.node follower).commitIndex from rfl] at bounded
    exact ⟨_, (leader.getEntry_whole (barePast call.src) positive).trans
      (List.getElem?_eq_getElem (by omega))⟩

/-- Replica 1 has won term `2` with one entry of term `1`, and its request is about to reach
replica 0, which holds another one that nobody else has. -/
def overruling : List (Action (Fin 3)) := rewriting.take 10

def Request.appendEntries? {Id Blob : Type} : Request Id Blob → Option (AppendEntries Id)
  | .appendEntries body => some body
  | .requestVote _ | .installSnapshot _ => none

theorem Request.appendEntries?_eq_some {Id Blob : Type} {request : Request Id Blob}
    {body : AppendEntries Id} (found : request.appendEntries? = some body) :
    request = .appendEntries body := by
  cases request with
  | appendEntries own => exact congrArg Request.appendEntries (Option.some.inj found)
  | requestVote | installSnapshot => cases found

theorem follower_clamp_safe_overruled : ∃ next past : World (Fin 3) canvas,
    past.Leads 1 2 ∧ (past.node 1).currentTerm = 2 ∧
      (next.node 0).db.log.rows.map LogEntry.term = [1, 2] ∧
      (next.node 0).db.log.rows <+: (past.node 1).db.log.rows := by
  obtain ⟨world, reached, passed⟩ :=
    ((Cluster.ofFin 3 100).system canvas).exists_reach_of_run
      (fun world _ => world.Uncompacted) overruling
      (fun world => decide world.Uncompacted && ((world.calls[6]?).any fun call =>
        call.request.appendEntries?.any fun body => decide (call.src = 1) &&
          (decide (body.term = 2) &&
            (((world.fresh 0).handleAppendEntries ((Cluster.ofFin 3 100).config 0)
              body).2.success && (world.step (Cluster.ofFin 3 100) (.deliver 6 0)).any
                fun next => decide (next.Uncompacted ∧
                  (next.node 0).db.log.rows.map LogEntry.term = [1, 2])))))
      (by decide +kernel)
  rw [Bool.and_eq_true, decide_eq_true_eq, Option.any_eq_true] at passed
  obtain ⟨bare, call, issued, answered⟩ := passed
  obtain ⟨body, request, answered⟩ := (Option.any_eq_true _ _).mp answered
  have request := Request.appendEntries?_eq_some request
  simp only [Bool.and_eq_true, decide_eq_true_eq, Option.any_eq_true] at answered
  obtain ⟨src, term, success, next, delivered, quiet, terms⟩ := answered
  obtain ⟨past, _, _, won, inTerm, _, _, inside, _⟩ := follower_clamp_safe _ _ world next
    reached bare 6 0 call body issued request delivered success
  rw [src, term] at won
  rw [src, term] at inTerm
  rw [src] at inside
  exact ⟨next, past, won, inTerm, terms, inside quiet⟩

end RaftCanvas
