import RaftCanvas.Raft.FullLog
import RaftCanvas.Raft.RaftNode

/-!
# What `_applyCommitted` applies

The loop applies a stretch of consecutive rows, from the one after `lastApplied` up to
the commit index or the first row that is missing.
-/

namespace RaftCanvas

/-- Up to `count` consecutive rows from `first` on, as far as they are there. -/
def Database.stretch {Id Blob : Type} (db : Database Id Blob) : Nat → Int → List LogEntry
  | 0, _ => []
  | count + 1, first =>
      match db.getEntry first with
      | none => []
      | some entry => entry :: db.stretch count (first + 1)

/-- The rows of a stretch are numbered from its first index. -/
theorem Database.stretch_index {Id Blob : Type} {db : Database Id Blob} {count : Nat}
    {first : Int} {position : Nat} {entry : LogEntry}
    (found : (db.stretch count first)[position]? = some entry) :
    entry.index = first + position := by
  induction count generalizing first position with
  | zero => simp [stretch] at found
  | succ count ih =>
      rw [stretch] at found
      cases row : db.getEntry first with
      | none => simp [row] at found
      | some head =>
          rw [row] at found
          cases position with
          | zero =>
              obtain rfl : head = entry := by simpa using found
              simpa using (getEntry_mem row).2
          | succ position =>
              have later := ih (found : (db.stretch count (first + 1))[position]? = _)
              rw [later]
              push_cast
              omega

/-- Above the snapshot a stretch is part of the log. -/
theorem Database.Stores.stretch_eq {Id Blob : Type} {db : Database Id Blob}
    {log : List LogEntry} (stores : db.Stores log) {first : Int}
    (above : db.lastSnapshotIndex < first) (count : Nat) :
    db.stretch count first = (log.drop first.toNat).take count := by
  have low := stores.low
  induction count generalizing first with
  | zero => simp [stretch]
  | succ count ih =>
      rw [stretch, stores.getEntry_above above]
      cases found : log[first.toNat]? with
      | none =>
          rw [List.drop_of_length_le (List.getElem?_eq_none_iff.mp found), List.take_nil]
      | some entry =>
          obtain ⟨bound, rfl⟩ := List.getElem?_eq_some_iff.mp found
          rw [List.drop_eq_getElem_cons bound, List.take_succ_cons]
          dsimp only
          rw [ih (by omega), show (first + 1).toNat = first.toNat + 1 by omega]

/-- Applying a stretch behind `lastApplied` raises it by one for every row. -/
theorem Machine.lastApplied_stretch (machine : Machine) {Id Blob : Type}
    (db : Database Id Blob) (state : machine.State) (count : Nat) {position : Nat}
    (within : position ≤ (db.stretch count (machine.lastApplied state + 1)).length) :
    machine.lastApplied (((db.stretch count (machine.lastApplied state + 1)).take
      position).foldl machine.apply state) = machine.lastApplied state + position := by
  induction position with
  | zero => simp
  | succ position ih =>
      obtain ⟨entry, found⟩ : ∃ entry,
          (db.stretch count (machine.lastApplied state + 1))[position]? = some entry :=
        ⟨_, List.getElem?_eq_getElem within⟩
      have before := ih (by omega)
      have index := Database.stretch_index found
      rw [List.take_add_one, found, Option.toList_some, List.foldl_append, List.foldl_cons,
        List.foldl_nil, machine.lastApplied_apply _ _ (by omega), index]
      push_cast
      omega

namespace Node

variable {Id : Type} {machine : Machine}

/-- The node as a handler call begins. -/
def began (self : Node Id machine) : Node Id machine :=
  { self with trace := [] }

/-- The entries `_applyCommitted` applies. -/
def committable (self : Node Id machine) : List LogEntry :=
  self.db.stretch (self.commitIndex - self.lastApplied).toNat (self.lastApplied + 1)

theorem applyLoop_eq (fuel : Nat) (self : Node Id machine)
    (enough : (fuel : Int) ≤ (self.commitIndex - self.lastApplied).toNat) :
    applyLoop fuel self =
      { self with
        stateMachine := (self.db.stretch fuel (self.lastApplied + 1)).foldl machine.apply
          self.stateMachine
        trace := self.trace ++ (self.db.stretch fuel (self.lastApplied + 1)).map
          fun entry => .event (.applied entry) } := by
  induction fuel generalizing self with
  | zero => simp [applyLoop, Database.stretch]
  | succ fuel ih =>
      rw [applyLoop, Database.stretch, if_pos (by push_cast at enough; omega)]
      cases row : self.db.getEntry (self.lastApplied + 1) with
      | none => simp
      | some entry =>
          have index := (Database.getEntry_mem row).2
          have applied : ({ self with
              stateMachine := machine.apply self.stateMachine entry }.emit
                (.applied entry)).lastApplied = self.lastApplied + 1 :=
            (machine.lastApplied_apply _ _ (by rw [index]; exact Int.lt_succ _)).trans index
          dsimp only
          rw [ih _ (by rw [applied]; push_cast at enough; simp only [emit]; omega), applied]
          simp [emit]

/-- Compacting emits nothing that says an entry was applied. -/
theorem maybeSnapshot_effects (config : Config Id) (self : Node Id machine) :
    ∃ db more, self.maybeSnapshot config = { self with db, trace := self.trace ++ more } ∧
      ∀ event ∈ Effect.events more, ∃ index blob, event = .snapshotTaken index blob := by
  rw [maybeSnapshot]
  split
  · exact ⟨self.db, [], by simp, by simp⟩
  · split
    · exact ⟨self.db, [], by simp, by simp⟩
    · split
      · exact ⟨self.db, [], by simp, by simp⟩
      next row _ =>
          let saved := self.db.saveSnapshot self.lastApplied row.term
            (machine.getSnapshot self.stateMachine)
          refine ⟨saved.truncateUpTo self.lastApplied,
            [.write saved, .write (saved.truncateUpTo self.lastApplied),
              .event (.snapshotTaken self.lastApplied
                (machine.getSnapshot self.stateMachine))], by simp [write, emit, saved], ?_⟩
          intro event member
          obtain rfl : event = _ := by simpa using member
          exact ⟨_, _, rfl⟩

/-- `_applyCommitted` applies the committable rows and may compact then. -/
theorem applyCommitted_eq (config : Config Id) (self : Node Id machine) :
    ∃ db more, self.applyCommitted config =
        { self with
          db
          stateMachine := self.committable.foldl machine.apply self.stateMachine
          trace := self.trace ++ (self.committable.map fun entry =>
            .event (.applied entry)) ++ more } ∧
      ∀ event ∈ Effect.events more, ∃ index blob, event = .snapshotTaken index blob := by
  obtain ⟨db, more, snapshot, quiet⟩ := maybeSnapshot_effects config
    (applyLoop (self.commitIndex - self.lastApplied).toNat self)
  refine ⟨db, more, ?_, quiet⟩
  rw [applyCommitted, snapshot, applyLoop_eq _ _ le_rfl]
  rfl

/-- Compacting keeps the log, and the snapshot behind what is applied. -/
theorem maybeSnapshot_stores {log : List LogEntry} (config : Config Id)
    {self : Node Id machine} (stores : self.db.Stores log)
    (saved_le : self.db.lastSnapshotIndex ≤ self.lastApplied) :
    (self.maybeSnapshot config).db.Stores log ∧
      (self.maybeSnapshot config).db.lastSnapshotIndex ≤ self.lastApplied := by
  rw [maybeSnapshot]
  split
  · exact ⟨stores, saved_le⟩
  · split
    · exact ⟨stores, saved_le⟩
    · split
      · exact ⟨stores, saved_le⟩
      next found =>
          exact ⟨(stores.saveSnapshot _ found).truncateUpTo (Int.le_refl _), Int.le_refl _⟩

/-- With the whole log at hand `_applyCommitted` reaches the commit index. -/
theorem applyCommitted_stores {log : List LogEntry} (config : Config Id)
    {self : Node Id machine} (stores : self.db.Stores log)
    (bound : self.commitIndex < log.length)
    (saved_le : self.db.lastSnapshotIndex ≤ self.lastApplied)
    (applied_le : self.lastApplied ≤ self.commitIndex) :
    (self.applyCommitted config).db.Stores log ∧
      (self.applyCommitted config).db.lastSnapshotIndex ≤ self.commitIndex ∧
      (self.applyCommitted config).lastApplied = self.commitIndex ∧
      (self.applyCommitted config).stateMachine =
        ((log.drop (self.lastApplied + 1).toNat).take
          (self.commitIndex - self.lastApplied).toNat).foldl machine.apply
            self.stateMachine := by
  have low := stores.low
  have stretch := stores.stretch_eq (show self.db.lastSnapshotIndex < self.lastApplied + 1 by
    omega) (self.commitIndex - self.lastApplied).toNat
  have loop := applyLoop_eq (self.commitIndex - self.lastApplied).toNat self le_rfl
  have reached : (applyLoop (self.commitIndex - self.lastApplied).toNat self).lastApplied =
      self.commitIndex := by
    have raised := machine.lastApplied_stretch self.db self.stateMachine
      (self.commitIndex - self.lastApplied).toNat le_rfl
    rw [List.take_length] at raised
    rw [loop]
    refine raised.trans ?_
    rw [show machine.lastApplied self.stateMachine = self.lastApplied from rfl, stretch,
      List.length_take, List.length_drop]
    omega
  have before : (applyLoop (self.commitIndex - self.lastApplied).toNat self).db = self.db := by
    rw [loop]
  obtain ⟨kept, saved⟩ := maybeSnapshot_stores config (before.symm ▸ stores)
    (by rw [before, reached]; omega)
  obtain ⟨db, trace, frame, _⟩ := maybeSnapshot_effects config
    (applyLoop (self.commitIndex - self.lastApplied).toNat self)
  have machines : (self.applyCommitted config).stateMachine =
      (applyLoop (self.commitIndex - self.lastApplied).toNat self).stateMachine := by
    rw [applyCommitted, frame]
  refine ⟨kept, saved.trans_eq reached, ?_, ?_⟩
  · rw [lastApplied, machines]
    exact reached
  · rw [machines, loop, stretch]

/-- Applying and compacting removes rows at most. -/
theorem applyCommitted_rows (config : Config Id) (self : Node Id machine) (n : Int)
    (entry : LogEntry) (found : (self.applyCommitted config).db.getEntry n = some entry) :
    self.db.getEntry n = some entry := by
  have loop : (applyLoop (self.commitIndex - self.lastApplied).toNat self).db = self.db := by
    rw [applyLoop_eq _ _ le_rfl]
  rw [applyCommitted, maybeSnapshot] at found
  split at found
  · rwa [loop] at found
  · split at found
    · rwa [loop] at found
    · split at found
      · rwa [loop] at found
      · obtain ⟨kept, rfl⟩ := Database.getEntry_mem found
        refine Database.getEntry_of_mem ?_
        rw [← loop]
        exact List.mem_of_mem_filter kept

theorem applyCommitted_lastIndex (config : Config Id) (self : Node Id machine) :
    (self.applyCommitted config).db.lastIndex = self.db.lastIndex := by
  have loop : (applyLoop (self.commitIndex - self.lastApplied).toNat self).db = self.db := by
    rw [applyLoop_eq _ _ le_rfl]
  rw [applyCommitted, maybeSnapshot]
  split
  · rw [loop]
  · split
    · rw [loop]
    · split
      · rw [loop]
      next found =>
          rw [← loop]
          exact Database.lastIndex_compact found _ _

end Node

end RaftCanvas
