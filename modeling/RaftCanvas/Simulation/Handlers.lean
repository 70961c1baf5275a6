import RaftCanvas.Simulation.Append

/-!
# The RPC handlers
-/

namespace RaftCanvas

open Replication.State (Steps)

variable {Id : Type} {machine : Machine} [Fintype Id] [DecidableEq Id]

omit [Fintype Id] [DecidableEq Id] in
/-- The leader's log covers the whole snapshot. -/
theorem Installs.length {ideal : Ideal Id} {src : Id} {body : InstallSnapshot Id machine.Blob}
    (installs : Installs ideal src body) :
    ((ideal.ledger body.term).take (body.lastIncludedIndex + 1).toNat).length =
      (body.lastIncludedIndex + 1).toNat := by
  have within := installs.within
  rw [List.length_take, Nat.min_eq_left (by omega)]

namespace Course

variable {stage : Stage Id machine} {ideal next : Ideal Id} {node after : Node Id machine}

/-! ## RequestVote -/

/-- A vote that is granted is cast, for a candidate whose log is recent enough. -/
theorem handleRequestVote (course : Course stage ideal node) {src : Id}
    {body : RequestVote Id}
    (asked : RequestMatches ideal src (.requestVote body : Request Id machine.Blob)) :
    ∃ next, Course stage next (node.handleRequestVote body).1 ∧
      ReplyMatches next stage.actor (node.handleRequestVote body).2
        (.requestVote body : Request Id machine.Blob) := by
  obtain ⟨candidate, offered, campaigned, lastLogIndex, lastLogTerm⟩ := asked
  have following : Course stage (heard ideal stage.actor body.term)
      (if node.currentTerm < body.term then node.becomeFollower body.term none
        else node) := by
    split
    · exact course.becomeFollower body.term none
    next low =>
        have same : heard ideal stage.actor body.term = ideal :=
          if_neg (by rw [course.matching.current]; exact low)
        rw [same]
        exact course
  have current : body.term ≤ (heard ideal stage.actor body.term).current stage.actor := by
    rw [heard_current]
    exact Nat.le_max_right _ _
  have campaigning : (heard ideal stage.actor body.term).campaign src body.term =
      some offered := by
    rw [heard_campaign]
    exact campaigned
  rw [Node.handleRequestVote]
  dsimp only
  generalize heard ideal stage.actor body.term = mid at *
  generalize (if node.currentTerm < body.term then node.becomeFollower body.term none
    else node) = follower at *
  split
  · exact ⟨mid, following, fun granted => by simp at granted⟩
  next fresh =>
      split
      · exact ⟨mid, following, fun granted => by simp at granted⟩
      · split
        · exact ⟨mid, following, fun granted => by simp at granted⟩
        next recent =>
            have here : mid.current stage.actor = body.term := by
              have own := following.matching.current
              omega
            have upToDate : Replication.UpToDate offered (mid.log stage.actor) := by
              have last := following.matching.lastIndex
              have term := following.matching.file.log.lastTerm_eq
              simp only [Node.upToDate, Bool.not_eq_true', decide_eq_false_iff_not,
                not_not] at recent
              simp only [Replication.UpToDate]
              omega
            have steps : Steps stage.actor mid (mid.vote stage.actor body.candidateId) :=
              .single (.vote body.candidateId offered
                (by rw [here, candidate]; exact campaigning) upToDate)
            have saved : Course stage (mid.vote stage.actor body.candidateId)
                (Node.write { follower with votedFor := some body.candidateId } fun db =>
                  db.saveTermAndVote follower.currentTerm (some body.candidateId)) := by
              refine following.write rfl rfl steps ?_ rfl following.cut.indexed ?_ id
                fun _ _ => Int.le_refl _
              · exact {
                  file := {
                    current := following.matching.current.symm
                    log := following.matching.file.log.saveTermAndVote _ _
                    unsaved := following.matching.file.unsaved
                    saved := following.matching.file.saved }
                  term := rfl
                  leads := following.matching.leads
                  stands := fun standing =>
                    ⟨(following.matching.stands standing).1,
                      Or.inr (following.matching.stands standing).2⟩ }
              · intro _ safe
                exact { safe.carry following.sound steps fun _ => rfl with }
            refine ⟨_, saved.memory rfl rfl { saved.matching with } fun _ safe =>
              { safe with }, fun _ => Or.inl ⟨rfl, here.symm, rfl⟩⟩

/-! ## InstallSnapshot -/

/-- What `installSnapshot` writes, and the log its file stores afterwards. -/
theorem install_log (course : Course stage ideal node)
    {body : InstallSnapshot Id machine.Blob} {src : Id}
    (installs : Installs ideal src body)
    (above : node.db.lastSnapshotIndex < body.lastIncludedIndex) :
    ∃ discarded log, node.discardLog body.lastIncludedIndex body.lastIncludedTerm =
        node.write (fun _ => discarded) ∧
      discarded.currentTerm = node.db.currentTerm ∧
      (discarded.saveSnapshot body.lastIncludedIndex body.lastIncludedTerm
        body.data).Stores log ∧
      (ideal.ledger body.term).take (body.lastIncludedIndex + 1).toNat <+: log ∧
      (log <+: ideal.log stage.actor ∨
        log = (ideal.ledger body.term).take (body.lastIncludedIndex + 1).toNat) ∧
      ∀ shared, shared <+: ideal.log stage.actor → shared <+: ideal.ledger body.term →
        shared <+: log := by
  have stores := course.matching.file.log
  have led : ideal.elected body.term ≠ none := by simp [installs.leader]
  have positive := installs.positive
  have within := installs.within
  have indexed := course.cut.indexed _ led
  obtain ⟨entry, theirs⟩ : ∃ entry,
      (ideal.ledger body.term)[body.lastIncludedIndex.toNat]? = some entry :=
    ⟨_, List.getElem?_eq_getElem (by omega)⟩
  have start : (body.lastIncludedIndex + 1).toNat = body.lastIncludedIndex.toNat + 1 := by
    omega
  have term : body.lastIncludedTerm = entry.term := by
    rw [installs.term, start, List.take_add_one, theirs, Option.toList_some,
      Replication.lastTerm_concat, stamped_term]
  by_cases kept : ∃ row, node.db.getEntry body.lastIncludedIndex = some row ∧
      row.term = entry.term
  · obtain ⟨row, present, sameTerm⟩ := kept
    obtain ⟨_, own⟩ := stores.getEntry_some present
    have matching := (course.sound.backed_log stage.actor).matching
      (course.sound.backed_ledger _ led) own theirs (by simpa using sameTerm)
    refine ⟨node.db.truncateUpTo body.lastIncludedIndex, ideal.log stage.actor, ?_, rfl, ?_,
      ?_, Or.inl List.prefix_rfl, fun _ own _ => own⟩
    · rw [Node.discardLog, present]
      simp [term, sameTerm]
      rfl
    · rw [term, ← sameTerm]
      exact stores.install_kept body.data present
    · rw [start, ← matching]
      exact List.take_prefix _ _
  · have length := installs.length
    refine ⟨node.db.truncateAll, _, ?_, rfl, ?_, List.prefix_rfl, Or.inr rfl,
      fun shared own theirsShared => ?_⟩
    · rw [Node.discardLog]
      split
      next row present =>
          rw [if_neg]
          · rfl
          · intro sameTerm
            refine kept ⟨row, present, ?_⟩
            rw [term] at sameTerm
            exact_mod_cast sameTerm
      · rfl
    · rw [installs.term]
      exact Database.Stores.install_all (indexed.take _) (by rw [length]; omega) body.data
    · -- sharing more would have shown as a row of the snapshot's term
      have short : shared.length ≤ (body.lastIncludedIndex + 1).toNat := by
        by_contra longer
        obtain ⟨row, inside⟩ : ∃ row, shared[body.lastIncludedIndex.toNat]? = some row :=
          ⟨_, List.getElem?_eq_getElem (by omega)⟩
        have bound : body.lastIncludedIndex.toNat < shared.length := by omega
        obtain ⟨rest, ownWhole⟩ := own
        obtain ⟨rest', theirWhole⟩ := theirsShared
        refine kept ⟨row, ?_, ?_⟩
        · rw [stores.getEntry_above above, ← ownWhole, List.getElem?_append_left bound,
            inside]
        · rw [← theirWhole, List.getElem?_append_left bound, inside] at theirs
          rw [Option.some.inj theirs]
      rw [List.prefix_iff_eq_take] at theirsShared
      rw [theirsShared]
      exact List.take_prefix_take_left short

/-- Installing a snapshot that lies above one's own.  A crash between the two
transactions would lose rows, so the run must not be `calm`. -/
theorem installSnapshot (course : Course stage ideal node) (role : node.role = .follower)
    {src : Id} {body : InstallSnapshot Id machine.Blob}
    (installs : Installs ideal src body) (other : src ≠ stage.actor)
    (current : ideal.current stage.actor = body.term)
    (prudent : stage.tier.strict → RequestSafe ideal (.installSnapshot body))
    (above : node.db.lastSnapshotIndex < body.lastIncludedIndex)
    (rough : ¬stage.calm) :
    ∃ next, Course stage next (node.installSnapshot body) ∧
      next.current stage.actor = body.term ∧
      (body.lastIncludedIndex + 1).toNat ≤ next.acked stage.actor body.term := by
  have led : ideal.elected body.term ≠ none := by simp [installs.leader]
  have rival : ideal.elected body.term ≠ some stage.actor := by
    simpa [installs.leader] using other
  have positive := installs.positive
  have within := installs.within
  have indexed := course.cut.indexed _ led
  obtain ⟨discarded, log, discards, sameTerm, stored, covers, source, keeps⟩ :=
    course.install_log installs above
  have steps : Steps stage.actor ideal (ideal.accept stage.actor
      (body.lastIncludedIndex + 1).toNat log) := by
    refine .single (.accept _ log ?_ ?_ ?_ ?_ ?_ ?_) <;> rw [current]
    · exact led
    · exact rival
    · omega
    · exact covers
    · exact source
    · exact keeps
  have newLog : (ideal.accept stage.actor (body.lastIncludedIndex + 1).toNat log).log
      stage.actor = log := by simp [Replication.State.accept]
  have length := installs.length
  have reach := covers.length_le
  rw [length] at reach
  have firstPart : log.take (body.lastIncludedIndex + 1).toNat =
      (ideal.ledger body.term).take (body.lastIncludedIndex + 1).toNat := by
    have whole := covers
    rw [List.prefix_iff_eq_take, length] at whole
    exact whole.symm
  have saved : ∀ snap,
      (discarded.saveSnapshot body.lastIncludedIndex body.lastIncludedTerm
        body.data).snapshot = some snap →
      snap = ⟨body.lastIncludedIndex, body.lastIncludedTerm, body.data⟩ :=
    fun snap present => (Option.some.inj present).symm
  have file : FileMatches (ideal.accept stage.actor (body.lastIncludedIndex + 1).toNat log)
      stage.actor (discarded.saveSnapshot body.lastIncludedIndex body.lastIncludedTerm
        body.data) := by
    refine accept_file (sameTerm.trans course.matching.file.current) stored ?_ ?_
    · intro absent
      simp [Database.saveSnapshot] at absent
    · intro snap present
      rw [saved snap present]
      exact ⟨positive, rfl, rfl⟩
  have installed : Course stage
      (ideal.accept stage.actor (body.lastIncludedIndex + 1).toNat log)
      { (node.write fun _ => discarded).write fun db =>
          db.saveSnapshot body.lastIncludedIndex body.lastIncludedTerm body.data with
        stateMachine := machine.restoreSnapshot body.data body.lastIncludedIndex
        commitIndex := max node.commitIndex body.lastIncludedIndex } := by
    refine course.extend
      [.write discarded, .write (discarded.saveSnapshot body.lastIncludedIndex
        body.lastIncludedTerm body.data)]
      (List.append_assoc _ _ _) rfl ?_ ?_ (fun dying => absurd dying rough)
      fun strict safe => ?_
    · exact {
        file
        term := course.matching.term.trans sameTerm.symm
        leads := fun leader => by
          have same : node.role = .leader := leader
          simp [role] at same
        stands := fun candidate => by
          have same : node.role = .candidate := candidate
          simp [role] at same }
    · exact {
        steps
        file
        calls := by simp
        elected := fun _ led => Or.inl led
        indexed := course.cut.indexed
        kept := fun _ => positive
        installs := by simp }
    · obtain ⟨certified, data⟩ := prudent strict
      obtain ⟨_, extended, _⟩ := steps.sound course.sound
      have carried := safe.carry course.sound steps fun leader => by simp [role] at leader
      exact {
        safe := by
          refine carried.install role ?_ positive ?_ ?_ ?_ rfl
            (fun snap present => congrArg Snapshot.state (saved snap present)) _
          · rw [newLog]
            exact stored.indexed
          · rw [newLog]
            omega
          · rw [newLog, firstPart]
            exact current ▸ certified.extends course.sound extended
          · rw [newLog, firstPart, data]
        events := by simp
        requests := by simp
        grows := above.le
        installs := by simp }
  rw [Node.installSnapshot, discards]
  refine ⟨_, installed.emit fun strict safe => ?_, current, ?_⟩
  · obtain ⟨certified, data⟩ := prudent strict
    obtain ⟨_, extended, _⟩ := steps.sound course.sound
    exact ⟨_, _, certified.extends course.sound extended, indexed.take _,
      by rw [length]; omega, data⟩
  · simp [Replication.State.accept, ← current]

/-- A reply in the request's term acknowledges what the snapshot covers. -/
theorem handleInstallSnapshot (course : Course stage ideal node) {src : Id}
    {body : InstallSnapshot Id machine.Blob} (installs : Installs ideal src body)
    (other : src ≠ stage.actor)
    (prudent : stage.tier.strict → RequestSafe ideal (.installSnapshot body))
    (trusted : ¬stage.tier.strict → node.db.lastSnapshotIndex = -1)
    (rough : ¬stage.calm) :
    ∃ next, Course stage next (node.handleInstallSnapshot body).1 ∧
      ReplyMatches next stage.actor (node.handleInstallSnapshot body).2
        (.installSnapshot body) := by
  rw [Node.handleInstallSnapshot]
  split
  next stale =>
      refine ⟨ideal, course, stale.le, fun same => ?_⟩
      have term : node.currentTerm = body.term := same
      omega
  next fresh =>
      have followed := course.followLeader body.term body.leaderId
      obtain ⟨role, era, votedFor, file⟩ :=
        Node.followLeader_frame node body.term body.leaderId
      have steps := heard_steps ideal stage.actor body.term
      obtain ⟨_, extended, _⟩ := steps.sound course.sound
      have current : (heard ideal stage.actor body.term).current stage.actor =
          body.term := by
        rw [heard_current, course.matching.current]
        exact Nat.max_eq_right (Nat.le_of_not_lt fresh)
      have installing := installs.extends extended
      have cautious : stage.tier.strict →
          RequestSafe (heard ideal stage.actor body.term) (.installSnapshot body) :=
        fun strict => RequestSafe.extends course.sound extended
          (show RequestMatches ideal src (.installSnapshot body) from installs)
          (prudent strict)
      dsimp only
      generalize heard ideal stage.actor body.term = mid at *
      generalize node.followLeader body.term body.leaderId = follower at *
      have led : mid.elected body.term ≠ none := by simp [installing.leader]
      split
      next covered =>
          have trust := followed.trust (fun lax => by rw [file]; exact trusted lax) led
            current.le
          have bound := followed.matching.file.log.within
          have positive := installing.positive
          have within := installing.within
          have agrees : (mid.ledger body.term).take (body.lastIncludedIndex + 1).toNat <+:
              mid.log stage.actor := by
            have own : (mid.log stage.actor).take (body.lastIncludedIndex + 1).toNat <+:
                mid.ledger body.term :=
              (List.take_prefix_take_left (by omega)).trans trust
            rw [List.prefix_iff_eq_take, List.length_take,
              Nat.min_eq_left (by omega)] at own
            rw [← own]
            exact List.take_prefix _ _
          have accepting : Steps stage.actor mid (mid.accept stage.actor
              (body.lastIncludedIndex + 1).toNat (mid.log stage.actor)) := by
            refine .single (.accept _ _ ?_ ?_ ?_ ?_ (Or.inl List.prefix_rfl)
              fun _ own _ => own) <;> rw [current]
            · exact led
            · simpa [installing.leader] using other
            · omega
            · exact agrees
          refine ⟨_, followed.silent rfl rfl accepting ?_ rfl followed.cut.indexed ?_,
            (followed.matching.current.symm.trans current).ge,
            fun _ => by simp [Replication.State.accept, ← current]⟩
          · exact {
              file := accept_file followed.matching.file.current followed.matching.file.log
                followed.matching.file.unsaved followed.matching.file.saved
              term := followed.matching.term
              leads := fun leader => by simp [role] at leader
              stands := fun candidate => by simp [role] at candidate }
          · exact fun _ safe => safe.carry followed.sound accepting fun leader => by
              simp [role] at leader
      next above =>
          obtain ⟨next, installed, reached, acked⟩ := followed.installSnapshot role installing other
            current cautious (Int.not_le.mp above) rough
          exact ⟨next, installed, (installed.matching.current.symm.trans reached).ge, fun _ => acked⟩

/-! ## Any request -/

theorem handle (course : Course stage ideal node) (config : Config Id) {src : Id}
    {request : Request Id machine.Blob} (asked : RequestMatches ideal src request)
    (other : src ≠ stage.actor) (prudent : stage.tier.strict → RequestSafe ideal request)
    (trusted : ¬stage.tier.strict → node.db.lastSnapshotIndex = -1)
    (unharmed : ∀ body, request = .appendEntries body → node.currentTerm ≤ body.term →
      Node.matchesPrev node.db body.prevLogIndex body.prevLogTerm = true →
        ¬node.db.Clobbers body.entries)
    (calm : stage.calm → node.db.lastSnapshotIndex = -1 ∧
      ∀ body, request ≠ .installSnapshot body) :
    ∃ next, Course stage next (node.handle config request).1 ∧
      ReplyMatches next stage.actor (node.handle config request).2 request := by
  cases request with
  | requestVote body => exact course.handleRequestVote asked
  | appendEntries body =>
      obtain ⟨next, answered, acked, _⟩ := course.handleAppendEntries config asked other
        prudent trusted (unharmed body rfl) fun dying => (calm dying).1
      exact ⟨next, answered, acked⟩
  | installSnapshot body =>
      exact course.handleInstallSnapshot asked other prudent trusted
        fun dying => (calm dying).2 body rfl

end Course

end RaftCanvas
