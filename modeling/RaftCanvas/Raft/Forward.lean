import RaftCanvas.Raft.Life

/-!
# What happens to the commit index

The commit index is written in four places: a leader's commit, a follower's clamp, a
snapshot that is installed, and a restart.  Each of them but the installation is followed
by applying whatever the file has.
-/

namespace RaftCanvas.Node

variable {Id : Type} {machine : Machine}

/-- Nothing is left to apply: the next entry is not committed, or not in the file. -/
def Exhausted (self : Node Id machine) : Prop :=
  self.lastApplied < self.commitIndex → self.db.getEntry (self.lastApplied + 1) = none

/-- The commit index falls only if the log has become shorter, and then to its end. -/
structure Forward (before after : Node Id machine) : Prop where
  commit : min before.commitIndex after.db.lastIndex ≤ after.commitIndex
  exhausted : after.Exhausted

/-- The commit index and the state machine are left alone. -/
def Still (before after : Node Id machine) : Prop :=
  after.commitIndex = before.commitIndex ∧ after.stateMachine = before.stateMachine

namespace Still

variable {self mid after : Node Id machine}

theorem refl (self : Node Id machine) : self.Still self := ⟨rfl, rfl⟩

theorem trans (left : self.Still mid) (right : mid.Still after) : self.Still after :=
  ⟨right.1.trans left.1, right.2.trans left.2⟩

theorem forward (still : self.Still after) (caught : self.lastApplied = self.commitIndex) :
    self.Forward after := by
  obtain ⟨commit, state⟩ := still
  refine ⟨by omega, fun behind => ?_⟩
  have same : after.lastApplied = self.lastApplied := by rw [lastApplied, state]; rfl
  omega

end Still

/-! ## Applying -/

theorem applyLoop_exhausted (fuel : Nat) (self : Node Id machine)
    (enough : self.commitIndex - self.lastApplied ≤ fuel) : (applyLoop fuel self).Exhausted := by
  induction fuel generalizing self with
  | zero =>
      intro behind
      rw [applyLoop] at behind
      omega
  | succ fuel ih =>
      rw [applyLoop]
      split
      · split
        next missing => exact fun _ => missing
        next entry found =>
            have index := (Database.getEntry_mem found).2
            have applied : ({ self with
                stateMachine := machine.apply self.stateMachine entry }.emit
                  (.applied entry)).lastApplied = self.lastApplied + 1 :=
              (machine.lastApplied_apply _ _ (by rw [index]; exact Int.lt_succ _)).trans index
            refine ih _ ?_
            rw [applied]
            push_cast at enough
            simp only [emit]
            omega
      next reached => exact fun behind => absurd behind reached

theorem applyCommitted_exhausted (config : Config Id) (self : Node Id machine) :
    (self.applyCommitted config).Exhausted := by
  have loop := applyLoop_exhausted (self.commitIndex - self.lastApplied).toNat self (by omega)
  obtain ⟨db, more, snapshot, _⟩ := maybeSnapshot_effects config
    (applyLoop (self.commitIndex - self.lastApplied).toNat self)
  have commit : (self.applyCommitted config).commitIndex =
      (applyLoop (self.commitIndex - self.lastApplied).toNat self).commitIndex := by
    rw [applyCommitted, snapshot]
  have applied : (self.applyCommitted config).lastApplied =
      (applyLoop (self.commitIndex - self.lastApplied).toNat self).lastApplied := by
    rw [applyCommitted, snapshot]
    rfl
  intro behind
  rw [commit, applied] at behind
  rw [applied]
  cases found : (self.applyCommitted config).db.getEntry
      ((applyLoop (self.commitIndex - self.lastApplied).toNat self).lastApplied + 1) with
  | none => rfl
  | some entry =>
      have kept := applyCommitted_rows config self _ entry found
      have file : (applyLoop (self.commitIndex - self.lastApplied).toNat self).db =
          self.db := by rw [applyLoop_eq _ _ le_rfl]
      have missing := loop behind
      rw [file, kept] at missing
      cases missing

theorem applyCommitted_commitIndex (config : Config Id) (self : Node Id machine) :
    (self.applyCommitted config).commitIndex = self.commitIndex := by
  obtain ⟨db, more, same, _⟩ := self.applyCommitted_eq config
  rw [same]

/-- The clamp of a follower. -/
theorem followCommit_clamp (config : Config Id) (self : Node Id machine)
    (leaderCommit : Int) :
    leaderCommit ≤ self.commitIndex ∧ self.followCommit config leaderCommit = self ∨
      self.commitIndex < leaderCommit ∧
        (self.followCommit config leaderCommit).commitIndex =
          min leaderCommit (self.followCommit config leaderCommit).db.lastIndex ∧
        (self.followCommit config leaderCommit).Exhausted := by
  rw [followCommit]
  split
  next behind =>
      refine Or.inr ⟨behind, ?_, applyCommitted_exhausted config _⟩
      rw [applyCommitted_commitIndex, applyCommitted_lastIndex]
  next caught => exact Or.inl ⟨Int.not_lt.mp caught, rfl⟩

theorem storeEntries_still (self : Node Id machine) (entries : List LogEntry) :
    self.Still (self.storeEntries entries) := by
  rw [storeEntries]
  dsimp only
  split <;> exact ⟨rfl, rfl⟩

theorem followLeader_still (self : Node Id machine) (term : Nat) (leaderId : Id) :
    self.Still (self.followLeader term leaderId) :=
  (self.followLeader_memory term leaderId).symm

/-- What a request adds to the commit index lies in the log, and what it takes away lay
beyond it. -/
theorem handleAppendEntries_clamp (config : Config Id) (self : Node Id machine)
    (body : AppendEntries Id) :
    self.Still (self.handleAppendEntries config body).1 ∨
      (self.handleAppendEntries config body).1.Exhausted ∧
        min self.commitIndex (self.handleAppendEntries config body).1.db.lastIndex ≤
          (self.handleAppendEntries config body).1.commitIndex ∧
        (self.handleAppendEntries config body).1.commitIndex ≤
          (self.handleAppendEntries config body).1.db.lastIndex := by
  have followed := self.followLeader_still body.term body.leaderId
  rw [handleAppendEntries]
  split
  · exact Or.inl (.refl self)
  · dsimp only
    split
    · have stored := followed.trans (storeEntries_still _ body.entries)
      rcases followCommit_clamp config ((self.followLeader body.term body.leaderId).storeEntries
        body.entries) body.leaderCommit with ⟨_, same⟩ | ⟨behind, clamped, exhausted⟩
      · rw [same]
        exact Or.inl stored
      · rw [stored.1] at behind
        refine Or.inr ⟨exhausted, ?_, ?_⟩
        · rw [clamped]
          exact min_le_min_right _ behind.le
        · rw [clamped]
          exact min_le_right _ _
    · exact Or.inl followed

theorem handleAppendEntries_bound (config : Config Id) (self : Node Id machine)
    (body : AppendEntries Id) :
    (self.handleAppendEntries config body).1.commitIndex ≤
      max self.commitIndex (self.handleAppendEntries config body).1.db.lastIndex := by
  rcases handleAppendEntries_clamp config self body with still | ⟨_, _, bounded⟩
  · rw [still.1]
    exact le_max_left _ _
  · exact bounded.trans (le_max_right _ _)

/-- The request installs a snapshot that lies behind what is applied. -/
def RollsBack (self : Node Id machine) (body : InstallSnapshot Id machine.Blob) : Prop :=
  self.currentTerm ≤ body.term ∧ self.db.lastSnapshotIndex < body.lastIncludedIndex ∧
    body.lastIncludedIndex < self.lastApplied

instance (self : Node Id machine) (body : InstallSnapshot Id machine.Blob) :
    Decidable (self.RollsBack body) :=
  inferInstanceAs (Decidable (_ ∧ _ ∧ _))

theorem installSnapshot_indexes (self : Node Id machine)
    (body : InstallSnapshot Id machine.Blob) :
    (self.installSnapshot body).commitIndex = max self.commitIndex body.lastIncludedIndex ∧
      (self.installSnapshot body).lastApplied = body.lastIncludedIndex := by
  refine ⟨?_, machine.lastApplied_restore _ _⟩
  rw [installSnapshot, discardLog]
  split
  · split <;> rfl
  · rfl

theorem handleInstallSnapshot_forward {self : Node Id machine}
    (caught : self.lastApplied = self.commitIndex) {body : InstallSnapshot Id machine.Blob}
    (ahead : ¬self.RollsBack body) : self.Forward (self.handleInstallSnapshot body).1 := by
  have followed := self.followLeader_still body.term body.leaderId
  obtain ⟨_, _, _, file⟩ := self.followLeader_frame body.term body.leaderId
  rw [handleInstallSnapshot]
  split
  · exact (Still.refl self).forward caught
  next recent =>
      dsimp only
      split
      · exact followed.forward caught
      next above =>
          rw [file] at above
          have reaches : self.lastApplied ≤ body.lastIncludedIndex := by
            by_contra behind
            exact ahead ⟨Nat.not_lt.mp recent, Int.not_le.mp above, Int.not_le.mp behind⟩
          obtain ⟨commit, applied⟩ :=
            (self.followLeader body.term body.leaderId).installSnapshot_indexes body
          rw [followed.1] at commit
          refine ⟨(min_le_left _ _).trans (commit ▸ le_max_left _ _), fun behind => ?_⟩
          have short : ((self.followLeader body.term body.leaderId).installSnapshot
            body).lastApplied < _ := behind
          rw [applied, commit] at short
          omega

/-! ## Whatever reaches the node -/

theorem becomeFollower_still (self : Node Id machine) (term : Nat) (leaderId : Option Id) :
    self.Still (self.becomeFollower term leaderId) := by
  rw [becomeFollower]
  dsimp only
  split <;> exact ⟨rfl, rfl⟩

theorem sendAppendEntriesToAll_still (config : Config Id) (self : Node Id machine) :
    self.Still (self.sendAppendEntriesToAll config) := by
  obtain ⟨_, sent, _⟩ := self.sendAppendEntriesToAll_sends config
  rw [sent]
  exact ⟨rfl, rfl⟩

theorem awaitApplied_still (self : Node Id machine) (read : Reading) :
    self.Still (self.awaitApplied read) := by
  rw [awaitApplied]
  split <;> exact ⟨rfl, rfl⟩

theorem submit_still (config : Config Id) (self : Node Id machine) (id : Nat)
    (type : EntryType) (payload : Json) : self.Still (self.submit config id type payload) := by
  have sent : self.Still
      ((self.appendLocal type payload).1.sendAppendEntriesToAll config) :=
    sendAppendEntriesToAll_still config _
  rw [submit]
  split
  · exact ⟨rfl, rfl⟩
  · split
    · exact ⟨rfl, rfl⟩
    · dsimp only
      split <;> exact sent

theorem startReadIndex_still (config : Config Id) (self : Node Id machine) (id : Nat) :
    self.Still (self.startReadIndex config id) := by
  rw [startReadIndex]
  split
  · exact ⟨rfl, rfl⟩
  · split <;> exact ⟨rfl, rfl⟩

theorem resumeSubmit_still (self : Node Id machine) (id : Nat) :
    self.Still (self.resumeSubmit id) := by
  rw [resumeSubmit]
  split
  · exact .refl self
  · dsimp only
    split
    · split <;> exact ⟨rfl, rfl⟩
    · exact ⟨rfl, rfl⟩

theorem submitTimeout_still (self : Node Id machine) (id : Nat) :
    self.Still (self.submitTimeout id) := by
  rw [submitTimeout]
  split
  · exact .refl self
  · dsimp only
    split <;> exact ⟨rfl, rfl⟩

theorem pollRead_still (self : Node Id machine) (id : Nat) : self.Still (self.pollRead id) := by
  rw [pollRead]
  split
  · exact .refl self
  · exact awaitApplied_still _ _

theorem finishReadIndex_still (config : Config Id) (self : Node Id machine) (id : Nat)
    (readIdx : Int) (termAtStart : Nat) (results : List (Option Reply)) :
    self.Still (self.finishReadIndex config id readIdx termAtStart results) := by
  rw [finishReadIndex]
  split
  · exact self.becomeFollower_still _ none
  · split
    · exact ⟨rfl, rfl⟩
    · split
      · exact ⟨rfl, rfl⟩
      · exact awaitApplied_still _ _

variable [DecidableEq Id]

theorem finishInstallSnapshot_still (self : Node Id machine) (peer : Id)
    (lastIncludedIndex : Int) (result : Option Reply) :
    self.Still (self.finishInstallSnapshot peer lastIncludedIndex result) := by
  cases result with
  | none => exact .refl self
  | some body =>
      simp only [finishInstallSnapshot]
      split
      · exact .refl self
      · split
        · exact self.becomeFollower_still _ none
        · exact ⟨rfl, rfl⟩

theorem handleRequestVote_still (self : Node Id machine) (body : RequestVote Id) :
    self.Still (self.handleRequestVote body).1 := by
  have raised : self.Still
      (if self.currentTerm < body.term then self.becomeFollower body.term none else self) := by
    split
    · exact self.becomeFollower_still _ none
    · exact .refl self
  rw [handleRequestVote]
  dsimp only
  generalize (if self.currentTerm < body.term then self.becomeFollower body.term none
    else self) = follower at *
  split
  · exact raised
  · split
    · exact raised
    · split <;> exact raised

theorem finishElection_still (config : Config Id) (self : Node Id machine)
    (termAtStart : Nat) (results : List (Option Reply)) :
    self.Still (self.finishElection config termAtStart results) := by
  rw [finishElection]
  split
  · exact .refl self
  · split
    · exact self.becomeFollower_still _ none
    · split
      · exact sendAppendEntriesToAll_still config _
      · exact .refl self

omit [DecidableEq Id] in
/-- A leader commits above its commit index. -/
theorem maybeAdvanceCommitIndex_forward (config : Config Id) {self credited : Node Id machine}
    (still : self.Still credited) (caught : self.lastApplied = self.commitIndex) :
    self.Forward (credited.maybeAdvanceCommitIndex config) := by
  rw [maybeAdvanceCommitIndex]
  split
  · exact still.forward caught
  · dsimp only
    split
    · exact still.forward caught
    next n scanned =>
        obtain ⟨above, _, _⟩ := commitScan_some scanned
        have committed : (({ credited with commitIndex := n } : Node Id
            machine).applyCommitted config).commitIndex = n :=
          applyCommitted_commitIndex config _
        refine ⟨(min_le_left _ _).trans ?_,
          applyCommitted_exhausted config { credited with commitIndex := n }⟩
        show self.commitIndex ≤ (({ credited with commitIndex := n } : Node Id
          machine).applyCommitted config).commitIndex
        rw [committed, ← still.1]
        omega

theorem finishAppendEntries_forward {self : Node Id machine}
    (caught : self.lastApplied = self.commitIndex) (config : Config Id) (peer : Id)
    (next prevLogIndex : Int) (entries : List LogEntry) (result : Option Reply) :
    self.Forward (self.finishAppendEntries config peer next prevLogIndex entries result) := by
  have idle := (Still.refl self).forward caught
  cases result with
  | none => exact idle
  | some body =>
      simp only [finishAppendEntries]
      split
      · exact idle
      · split
        · exact (self.becomeFollower_still _ none).forward caught
        · split
          · exact maybeAdvanceCommitIndex_forward config ⟨rfl, rfl⟩ caught
          · exact Still.forward ⟨rfl, rfl⟩ caught

/-- A node that is caught up stays so, and its commit index goes back at most to the end
of its log, unless a snapshot rolls it back. -/
theorem respond_forward {self : Node Id machine} (caught : self.lastApplied = self.commitIndex)
    (config : Config Id) {stimulus : Stimulus Id machine.Blob}
    (lives : ∀ db, stimulus ≠ .restart db)
    (ahead : ∀ body, stimulus = .request (.installSnapshot body) → ¬self.RollsBack body) :
    self.Forward (self.respond config stimulus) := by
  cases stimulus with
  | electionTimeout => exact Still.forward ⟨rfl, rfl⟩ caught
  | heartbeat => exact (sendAppendEntriesToAll_still config self).forward caught
  | submit id type payload => exact (submit_still config self id type payload).forward caught
  | readIndex id => exact (startReadIndex_still config self id).forward caught
  | request request =>
      cases request with
      | requestVote body => exact (self.handleRequestVote_still body).forward caught
      | appendEntries body =>
          rcases handleAppendEntries_clamp config self body with still | ⟨done, kept, _⟩
          · exact still.forward caught
          · exact ⟨kept, done⟩
      | installSnapshot body => exact handleInstallSnapshot_forward caught (ahead body rfl)
  | resume await results =>
      cases await with
      | election => exact (finishElection_still config self _ results).forward caught
      | appendEntries => exact finishAppendEntries_forward caught config _ _ _ _ _
      | installSnapshot => exact (finishInstallSnapshot_still self _ _ _).forward caught
      | readIndex => exact (finishReadIndex_still config self _ _ _ results).forward caught
  | resumeSubmit id => exact (self.resumeSubmit_still id).forward caught
  | submitTimeout id => exact (self.submitTimeout_still id).forward caught
  | pollRead id => exact (self.pollRead_still id).forward caught
  | restart db => exact absurd rfl (lives db)

end RaftCanvas.Node
