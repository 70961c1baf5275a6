import RaftCanvas.Raft.Forward
import RaftCanvas.Raft.Provenance

/-!
# What a follower stores and counts

The rows that storing a request leaves, the rows each write adds, and the entries that
are committed: those that are rows when the commit index passes them.
-/

namespace RaftCanvas

theorem Numbered.of_infix {start : Nat} {whole entries : List LogEntry}
    (numbered : Numbered start whole) (slice : entries <:+: whole) :
    ∃ first, Numbered first entries := by
  obtain ⟨front, back, rfl⟩ := slice
  refine ⟨start + front.length, fun position entry found => ?_⟩
  have inside : (front ++ entries ++ back)[front.length + position]? = some entry := by
    rw [List.append_assoc, List.getElem?_append_right (Nat.le_add_right _ _),
      Nat.add_sub_cancel_left,
      List.getElem?_append_left (List.getElem?_eq_some_iff.mp found).1, found]
  have own := numbered _ entry inside
  push_cast at own ⊢
  omega

theorem Numbered.head_le {start : Nat} {first : LogEntry} {rest : List LogEntry}
    (numbered : Numbered start (first :: rest)) :
    ∀ entry ∈ first :: rest, first.index ≤ entry.index := by
  intro entry member
  rw [numbered.head]
  exact (numbered.bounds member).1

/-- Whatever lies between the first entry and another one is there. -/
theorem Numbered.exists_between {start : Nat} {first last : LogEntry}
    {rest : List LogEntry} (numbered : Numbered start (first :: rest))
    (member : last ∈ first :: rest) {index : Int} (above : first.index ≤ index)
    (below : index ≤ last.index) : ∃ entry ∈ first :: rest, entry.index = index := by
  have head := numbered.head
  have bound := (numbered.bounds member).2
  have inside : (index - start).toNat < (first :: rest).length := by omega
  refine ⟨_, List.getElem_mem inside, ?_⟩
  rw [numbered _ _ (List.getElem?_eq_getElem inside)]
  omega

namespace Database

variable {Id Blob : Type} {db : Database Id Blob}

theorem getEntry_eq_some {index : Int} {row : LogEntry} :
    db.getEntry index = some row ↔ row ∈ db.log.rows ∧ row.index = index := by
  constructor
  · exact getEntry_mem
  · rintro ⟨member, rfl⟩
    exact getEntry_of_mem member

/-- A row with the index and the term of the entry: the conflict scan passes it. -/
def Knows (db : Database Id Blob) (entry : LogEntry) : Prop :=
  ∃ row, db.getEntry entry.index = some row ∧ row.term = entry.term

theorem Knows.le_lastIndex {entry : LogEntry} (knows : db.Knows entry) :
    entry.index ≤ db.lastIndex := by
  obtain ⟨row, found, _⟩ := knows
  exact getEntry_le found

/-- A stretch consists of rows. -/
theorem stretch_rows {count : Nat} {first : Int} {entry : LogEntry}
    (member : entry ∈ db.stretch count first) : db.getEntry entry.index = some entry := by
  induction count generalizing first with
  | zero => cases member
  | succ count ih =>
      rw [stretch] at member
      cases found : db.getEntry first with
      | none => simp [found] at member
      | some head =>
          rw [found] at member
          rcases List.mem_cons.mp member with rfl | later
          · rw [(getEntry_mem found).2, found]
          · exact ih later

end Database

namespace Effect

variable {Id Blob : Type} {allowed : Database Id Blob → LogEntry → Prop}

/-- Every row that a write adds to the file it finds is `allowed` in the file it
leaves. -/
def AddsOnly (allowed : Database Id Blob → LogEntry → Prop) :
    Database Id Blob → List (Effect Id Blob) → Prop
  | _, [] => True
  | before, .write db :: rest =>
      (∀ row ∈ db.log.rows, row ∉ before.log.rows → allowed db row) ∧
        AddsOnly allowed db rest
  | before, .event _ :: rest | before, .send _ :: rest => AddsOnly allowed before rest

theorem addsOnly_append {before : Database Id Blob} {left right : List (Effect Id Blob)} :
    AddsOnly allowed before (left ++ right) ↔
      AddsOnly allowed before left ∧ AddsOnly allowed (file before left) right := by
  induction left generalizing before with
  | nil => simp [AddsOnly]
  | cons effect rest ih => cases effect <;> simp [AddsOnly, ih, and_assoc]

theorem file_events (before : Database Id Blob) {entries : List LogEntry}
    (event : LogEntry → Event Blob) :
    file before (entries.map fun entry => .event (event entry)) = before := by
  induction entries with
  | nil => rfl
  | cons entry rest ih => exact ih

/-- Events write nothing. -/
theorem addsOnly_events (before : Database Id Blob) {entries : List LogEntry}
    (event : LogEntry → Event Blob) :
    AddsOnly allowed before (entries.map fun entry => .event (event entry)) := by
  induction entries with
  | nil => trivial
  | cons entry rest ih => exact ih

end Effect

namespace Node

variable {Id : Type} {machine : Machine}

/-- The conflict scan passes known entries up to the first that is not. -/
theorem writeStart_split (db : Database Id machine.Blob) (entries : List LogEntry) :
    (writeStart db entries = -1 ∧ ∀ entry ∈ entries, db.Knows entry) ∨
      ∃ held entry rest, entries = held ++ entry :: rest ∧
        (∀ known ∈ held, db.Knows known) ∧ ¬db.Knows entry ∧
          writeStart db entries = entry.index := by
  induction entries with
  | nil => exact Or.inl ⟨rfl, nofun⟩
  | cons entry rest ih =>
      by_cases known : db.Knows entry
      · obtain ⟨row, found, same⟩ := known
        have passed : writeStart db (entry :: rest) = writeStart db rest := by
          simp [writeStart, found, same]
        rw [passed]
        rcases ih with ⟨all, others⟩ | ⟨held, stop, later, rfl, others, differs, stops⟩
        · exact Or.inl ⟨all, List.forall_mem_cons.mpr ⟨⟨row, found, same⟩, others⟩⟩
        · exact Or.inr ⟨entry :: held, stop, later, rfl,
            List.forall_mem_cons.mpr ⟨⟨row, found, same⟩, others⟩, differs, stops⟩
      · refine Or.inr ⟨[], entry, rest, rfl, nofun, known, ?_⟩
        rw [writeStart]
        split
        next row found =>
            rw [if_neg fun same => known ⟨row, found, same⟩]
        next => rfl

/-- What `handleAppendEntries` does with consecutive entries: nothing, if it knows all of
them, or it replaces everything from the first one that it does not know. -/
theorem storeEntries_split (self : Node Id machine) {start : Nat}
    {entries : List LogEntry} (numbered : Numbered start entries) :
    (self.storeEntries entries = self ∧ ∀ entry ∈ entries, self.db.Knows entry) ∨
      ∃ held entry rest db, entries = held ++ entry :: rest ∧
        (∀ known ∈ held, self.db.Knows known) ∧ ¬self.db.Knows entry ∧
        db.lastSnapshotIndex = self.db.lastSnapshotIndex ∧
        db.log.rows =
          self.db.log.rows.filter (fun row => row.index < entry.index) ++ entry :: rest ∧
        self.storeEntries entries =
          { self with
            db
            trace := self.trace ++
              [.write (self.db.truncateFrom entry.index), .write db] } := by
  rcases writeStart_split self.db entries with
    ⟨all, known⟩ | ⟨held, entry, rest, split, known, differs, stops⟩
  · refine Or.inl ⟨?_, known⟩
    rw [storeEntries, all]
    rfl
  · obtain ⟨first, consecutive⟩ :=
      numbered.of_infix (split ▸ List.suffix_append held (entry :: rest)).isInfix
    have sorted := numbered.sorted
    rw [split, List.pairwise_append] at sorted
    obtain ⟨_, sortedRest, earlier⟩ := sorted
    have positive : 0 ≤ entry.index := by
      rw [consecutive.head]
      exact Int.natCast_nonneg first
    have above : ∀ fresh ∈ entry :: rest, entry.index ≤ fresh.index := consecutive.head_le
    have kept : entries.filter (fun fresh => entry.index ≤ fresh.index) = entry :: rest := by
      rw [split, List.filter_append, List.filter_eq_nil_iff.mpr, List.nil_append,
        List.filter_eq_self.mpr]
      · exact fun fresh member => by simpa using above fresh member
      · exact fun old member => by
          simpa using earlier old member entry List.mem_cons_self
    refine Or.inr ⟨held, entry, rest,
      (self.db.truncateFrom entry.index).appendEntries (entry :: rest), split, known,
      differs, rfl, self.db.rewrite_rows above sortedRest, ?_⟩
    rw [storeEntries, stops, if_pos positive, kept]
    simp [write]

/-- The entry is what the node holds at its index: a row, or one that it applied in the
running stretch of code and may have compacted since. -/
def Counts (self : Node Id machine) (entry : LogEntry) : Prop :=
  self.db.getEntry entry.index = some entry ∨ .event (.applied entry) ∈ self.trace

/-- Compacting drops no row above the last applied one. -/
theorem maybeSnapshot_keeps (config : Config Id) (self : Node Id machine) {row : LogEntry}
    (found : self.db.getEntry row.index = some row) (above : self.lastApplied < row.index) :
    (self.maybeSnapshot config).db.getEntry row.index = some row := by
  rw [maybeSnapshot]
  split
  · exact found
  · split
    · exact found
    · split
      · exact found
      · refine Database.getEntry_of_mem (List.mem_filter.mpr ⟨?_, by simpa using above⟩)
        exact (Database.getEntry_mem found).1

/-- A committable row is applied, or still beyond what is applied. -/
theorem mem_committable (self : Node Id machine) {row : LogEntry}
    (found : self.db.getEntry row.index = some row)
    (above : self.lastApplied < row.index)
    (reached : row.index ≤ machine.lastApplied
      (self.committable.foldl machine.apply self.stateMachine)) :
    row ∈ self.committable := by
  have raised := machine.lastApplied_stretch self.db self.stateMachine
    (self.commitIndex - self.lastApplied).toNat le_rfl
  rw [List.take_length] at raised
  have applied : row.index ≤ self.lastApplied + self.committable.length :=
    reached.trans_eq raised
  have inside : (row.index - self.lastApplied - 1).toNat < self.committable.length := by
    omega
  obtain ⟨entry, taken⟩ : ∃ entry,
      self.committable[(row.index - self.lastApplied - 1).toNat]? = some entry :=
    ⟨_, List.getElem?_eq_getElem inside⟩
  have member := List.mem_of_getElem? taken
  have index := Database.stretch_index taken
  have same : entry.index = row.index := by omega
  have stored := Database.stretch_rows member
  rw [same, found] at stored
  exact Option.some.inj stored ▸ member

/-- What is above `lastApplied` and counted after applying was a row before. -/
theorem applyCommitted_counts (config : Config Id) (self : Node Id machine)
    (fresh : ∀ entry, .event (.applied entry) ∉ self.trace) {entry : LogEntry}
    (above : self.lastApplied < entry.index) :
    (self.applyCommitted config).Counts entry ↔
      self.db.getEntry entry.index = some entry := by
  obtain ⟨db, more, applied, quiet⟩ := self.applyCommitted_eq config
  constructor
  · rintro (row | effect)
    · exact applyCommitted_rows config self entry.index entry row
    · rw [applied] at effect
      rcases List.mem_append.mp effect with earlier | later
      · rcases List.mem_append.mp earlier with before | now
        · exact absurd before (fresh entry)
        · obtain ⟨row, member, same⟩ := List.mem_map.mp now
          cases same
          exact Database.stretch_rows member
      · obtain ⟨_, _, taken⟩ := quiet _ (Effect.mem_events.mpr later)
        cases taken
  · intro found
    have loop := applyLoop_eq (self.commitIndex - self.lastApplied).toNat self le_rfl
    by_cases reached : entry.index ≤ machine.lastApplied
        (self.committable.foldl machine.apply self.stateMachine)
    · refine Or.inr ?_
      rw [applied]
      refine List.mem_append_left _ (List.mem_append_right _ (List.mem_map.mpr ?_))
      exact ⟨entry, self.mem_committable found above reached, rfl⟩
    · refine Or.inl (maybeSnapshot_keeps config _ ?_ ?_)
      · rw [loop]
        exact found
      · rw [loop]
        exact Int.not_le.mp reached

/-- A follower newly counts exactly the rows that its commit index passes. -/
theorem followCommit_counts (config : Config Id) (self : Node Id machine)
    (leaderCommit : Int) (fresh : ∀ entry, .event (.applied entry) ∉ self.trace)
    (applied_le : self.lastApplied ≤ self.commitIndex) {entry : LogEntry}
    (above : self.commitIndex < entry.index)
    (below : entry.index ≤ (self.followCommit config leaderCommit).commitIndex) :
    (self.followCommit config leaderCommit).Counts entry ↔
      self.db.getEntry entry.index = some entry := by
  rw [followCommit] at below ⊢
  split at below
  · rw [if_pos (by assumption)]
    exact applyCommitted_counts config
      { self with commitIndex := min leaderCommit self.db.lastIndex } fresh
      (applied_le.trans_lt above)
  · exact absurd below (Int.not_le.mpr above)

theorem followCommit_commitIndex (config : Config Id) (self : Node Id machine)
    (leaderCommit : Int) :
    (self.followCommit config leaderCommit).commitIndex =
      if self.commitIndex < leaderCommit then min leaderCommit self.db.lastIndex
      else self.commitIndex := by
  rw [followCommit]
  split
  · exact applyCommitted_commitIndex config _
  · rfl

/-! ## What the handlers write -/

/-- The writes since `before` add only `allowed` rows. -/
def Adds (allowed : Database Id machine.Blob → LogEntry → Prop)
    (before after : Node Id machine) : Prop :=
  ∃ more, after.trace = before.trace ++ more ∧ after.db = Effect.file before.db more ∧
    Effect.AddsOnly allowed before.db more

namespace Adds

variable {allowed : Database Id machine.Blob → LogEntry → Prop}
  {before mid after : Node Id machine}

theorem refl (before : Node Id machine) : Adds allowed before before :=
  ⟨[], (List.append_nil _).symm, rfl, trivial⟩

theorem trans (left : Adds allowed before mid) (right : Adds allowed mid after) :
    Adds allowed before after := by
  obtain ⟨first, trace, file, adds⟩ := left
  obtain ⟨second, trace', file', adds'⟩ := right
  refine ⟨first ++ second, ?_, ?_, ?_⟩
  · rw [trace', trace, List.append_assoc]
  · rw [file', file, Effect.file_append]
  · exact Effect.addsOnly_append.mpr ⟨adds, file ▸ adds'⟩

/-- A transaction that adds no row. -/
theorem write (before : Node Id machine)
    {transaction : Database Id machine.Blob → Database Id machine.Blob}
    (kept : ∀ row ∈ (transaction before.db).log.rows, row ∈ before.db.log.rows) :
    Adds allowed before (before.write transaction) :=
  ⟨[.write (transaction before.db)], rfl, rfl,
    fun row member fresh => absurd (kept row member) fresh, trivial⟩

theorem emit (before : Node Id machine) (event : Event machine.Blob) :
    Adds allowed before (before.emit event) :=
  ⟨[.event event], rfl, rfl, trivial⟩

/-- Nothing but memory changes. -/
theorem memory (db : after.db = before.db) (trace : after.trace = before.trace) :
    Adds allowed before after :=
  ⟨[], by rw [trace, List.append_nil], db, trivial⟩

theorem becomeFollower (before : Node Id machine) (term : Nat) (leaderId : Option Id) :
    Adds allowed before (before.becomeFollower term leaderId) := by
  rw [Node.becomeFollower]
  dsimp only
  refine .trans ?_ (.emit _ _)
  split
  · exact ⟨[_], rfl, rfl, fun row member fresh => absurd member fresh, trivial⟩
  · exact .memory rfl rfl

theorem followLeader (before : Node Id machine) (term : Nat) (leaderId : Id) :
    Adds allowed before (before.followLeader term leaderId) := by
  rw [Node.followLeader]
  split
  · exact .becomeFollower before term (some leaderId)
  · exact .memory rfl rfl

theorem maybeSnapshot (config : Config Id) (before : Node Id machine) :
    Adds allowed before (before.maybeSnapshot config) := by
  rw [Node.maybeSnapshot]
  split
  · exact .refl before
  · split
    · exact .refl before
    · split
      · exact .refl before
      · refine .trans (.trans (.write before fun _ member => member) (.write _ ?_)) (.emit _ _)
        exact fun _ member => List.mem_of_mem_filter member

theorem applyCommitted (config : Config Id) (before : Node Id machine) :
    Adds allowed before (before.applyCommitted config) := by
  refine .trans ?_ (.maybeSnapshot config _)
  rw [applyLoop_eq _ _ le_rfl]
  refine ⟨_, rfl, ?_, Effect.addsOnly_events _ _⟩
  exact (Effect.file_events _ _).symm

theorem followCommit (config : Config Id) (before : Node Id machine) (leaderCommit : Int) :
    Adds allowed before (before.followCommit config leaderCommit) := by
  rw [Node.followCommit]
  split
  · exact .trans (.memory rfl rfl) (.applyCommitted config _)
  · exact .refl before

/-- What is added later is allowed anyway. -/
theorem addsOnly_iff {db : Database Id machine.Blob} (adds : Adds allowed mid after)
    (file : mid.db = Effect.file db mid.trace) :
    Effect.AddsOnly allowed db after.trace ↔ Effect.AddsOnly allowed db mid.trace := by
  obtain ⟨more, trace, _, only⟩ := adds
  rw [trace, Effect.addsOnly_append, ← file]
  exact and_iff_left only

end Adds

/-- A request is stored as allowed if all the entries that it brings are. -/
theorem storeEntries_addsOnly (self : Node Id machine)
    {allowed : Database Id machine.Blob → LogEntry → Prop} {entry : LogEntry}
    {fresh : List LogEntry} {db : Database Id machine.Blob}
    (above : ∀ new ∈ fresh, entry.index ≤ new.index)
    (rows : db.log.rows =
      self.db.log.rows.filter (fun row => row.index < entry.index) ++ fresh) :
    Effect.AddsOnly allowed self.db [.write (self.db.truncateFrom entry.index), .write db] ↔
      ∀ new ∈ fresh, allowed db new := by
  have truncated : (self.db.truncateFrom entry.index).log.rows =
      self.db.log.rows.filter fun row => row.index < entry.index := rfl
  simp only [Effect.AddsOnly, and_true, truncated, rows]
  constructor
  · rintro ⟨-, added⟩ new member
    refine added new (List.mem_append_right _ member) fun old => ?_
    have below : new.index < entry.index := by simpa using (List.mem_filter.mp old).2
    exact absurd (above new member) (Int.not_le.mpr below)
  · refine fun all => ⟨fun row member gone => absurd (List.mem_of_mem_filter member) gone, ?_⟩
    intro row member gone
    exact all row ((List.mem_append.mp member).resolve_left gone)

end Node

end RaftCanvas
