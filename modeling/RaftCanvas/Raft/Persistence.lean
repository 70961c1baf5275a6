import RaftCanvas.Raft.Types

/-!
# Persistence

The SQLite file of one replica.  Every function that returns a `Database` is one
transaction of the source: the file holds either all of it or none of it.
-/

namespace RaftCanvas

/-- The `log_entries` table: rows in the order of their primary key `idx`. -/
structure LogTable where
  rows : List LogEntry
  sorted : rows.Pairwise fun left right => left.index < right.index

namespace LogTable

theorem ext {left right : LogTable} (same : left.rows = right.rows) : left = right := by
  cases left
  cases right
  simp_all

def empty : LogTable := ⟨[], .nil⟩

/-- `DELETE FROM log_entries WHERE ...`, keeping the rows that satisfy `keep`. -/
def retain (table : LogTable) (keep : LogEntry → Bool) : LogTable :=
  ⟨table.rows.filter keep, table.sorted.filter keep⟩

/-- `SELECT ... WHERE idx = ?` -/
def get (table : LogTable) (index : Int) : Option LogEntry :=
  table.rows.find? fun row => row.index = index

/-- `INSERT OR REPLACE INTO log_entries` -/
def replace (table : LogTable) (entry : LogEntry) : LogTable where
  rows := table.rows.filter (fun row => row.index < entry.index) ++
    entry :: table.rows.filter (fun row => entry.index < row.index)
  sorted := by
    rw [List.pairwise_append]
    refine ⟨table.sorted.filter _, ?_, ?_⟩
    · rw [List.pairwise_cons]
      refine ⟨fun row member => ?_, table.sorted.filter _⟩
      simpa using (List.mem_filter.mp member).2
    · intro left leftMember right rightMember
      have below : left.index < entry.index := by
        simpa using (List.mem_filter.mp leftMember).2
      rcases List.mem_cons.mp rightMember with rfl | rightMember
      · exact below
      · have above : entry.index < right.index := by
          simpa using (List.mem_filter.mp rightMember).2
        exact below.trans above

end LogTable

/-- A row of the `snapshots` table. -/
structure Snapshot (Blob : Type) where
  lastIncludedIndex : Int
  lastIncludedTerm : Int
  state : Blob

/-- The three tables.  `saveSnapshot` deletes all older snapshot rows in the
transaction that inserts a new one, so at most one row exists. -/
structure Database (Id Blob : Type) where
  currentTerm : Nat
  votedFor : Option Id
  lastSnapshotIndex : Int
  lastSnapshotTerm : Int
  log : LogTable
  snapshot : Option (Snapshot Blob)

namespace Database

variable {Id Blob : Type}

/-- A file as the constructor creates it. -/
def empty : Database Id Blob where
  currentTerm := 0
  votedFor := none
  lastSnapshotIndex := -1
  lastSnapshotTerm := -1
  log := .empty
  snapshot := none

def saveTermAndVote (db : Database Id Blob) (term : Nat) (votedFor : Option Id) :
    Database Id Blob :=
  { db with currentTerm := term, votedFor }

/-- The highest log index held, or the last snapshot index if the log is empty. -/
def lastIndex (db : Database Id Blob) : Int :=
  match db.log.rows.getLast? with
  | some row => row.index
  | none => db.lastSnapshotIndex

/-- The term of the entry at `lastIndex`, or the snapshot term. -/
def lastTerm (db : Database Id Blob) : Int :=
  match db.log.rows.getLast? with
  | some row => row.term
  | none => db.lastSnapshotTerm

/-- The lowest log index still available, or one past the snapshot. -/
def firstIndex (db : Database Id Blob) : Int :=
  match db.log.rows.head? with
  | some row => row.index
  | none => db.lastSnapshotIndex + 1

def getEntry (db : Database Id Blob) (index : Int) : Option LogEntry :=
  db.log.get index

/-- Inclusive on both ends. -/
def getRange (db : Database Id Blob) (fromIdx toIdx : Int) : List LogEntry :=
  if toIdx < fromIdx then []
  else db.log.rows.filter fun row => fromIdx ≤ row.index ∧ row.index ≤ toIdx

/-- Append or overwrite a batch in one transaction. -/
def appendEntries (db : Database Id Blob) (entries : List LogEntry) :
    Database Id Blob :=
  { db with log := entries.foldl .replace db.log }

/-- Delete every entry with `idx >= fromIdx`. -/
def truncateFrom (db : Database Id Blob) (fromIdx : Int) : Database Id Blob :=
  { db with log := db.log.retain fun row => row.index < fromIdx }

/-- Compaction: delete every entry with `idx <= toIdx`. -/
def truncateUpTo (db : Database Id Blob) (toIdx : Int) : Database Id Blob :=
  { db with log := db.log.retain fun row => toIdx < row.index }

def truncateAll (db : Database Id Blob) : Database Id Blob :=
  { db with log := .empty }

/-- Insert the snapshot, update the meta row and delete older snapshots. -/
def saveSnapshot (db : Database Id Blob) (lastIncludedIndex lastIncludedTerm : Int)
    (state : Blob) : Database Id Blob :=
  { db with
    snapshot := some { lastIncludedIndex, lastIncludedTerm, state }
    lastSnapshotIndex := lastIncludedIndex
    lastSnapshotTerm := lastIncludedTerm }

def loadLatestSnapshot (db : Database Id Blob) : Option (Snapshot Blob) :=
  db.snapshot

/-- `index` is a row of the log or covered by the snapshot. -/
def Holds (db : Database Id Blob) (index : Int) : Prop :=
  (db.getEntry index).isSome = true ∨ index ≤ db.lastSnapshotIndex

instance (db : Database Id Blob) (index : Int) : Decidable (db.Holds index) :=
  inferInstanceAs (Decidable (_ ∨ _))

theorem getEntry_isSome {db : Database Id Blob} {index : Int} :
    (db.getEntry index).isSome = true ↔ ∃ row ∈ db.log.rows, row.index = index := by
  simp [getEntry, LogTable.get]

theorem getEntry_mem {db : Database Id Blob} {index : Int} {row : LogEntry}
    (found : db.getEntry index = some row) : row ∈ db.log.rows ∧ row.index = index :=
  ⟨List.mem_of_find?_eq_some found, by simpa using List.find?_some found⟩

/-- The greatest index of a row is `lastIndex`. -/
theorem getEntry_le {db : Database Id Blob} {index : Int} {entry : LogEntry}
    (found : db.getEntry index = some entry) : index ≤ db.lastIndex := by
  obtain ⟨member, rfl⟩ := getEntry_mem found
  have sorted := db.log.sorted
  rw [lastIndex]
  cases last : db.log.rows.getLast? with
  | none => simp [List.getLast?_eq_none_iff.mp last] at member
  | some row =>
      obtain ⟨front, rows⟩ := List.getLast?_eq_some_iff.mp last
      rw [rows] at member sorted
      rcases List.mem_append.mp member with before | same
      · exact ((List.pairwise_append.mp sorted).2.2 entry before row
          (List.mem_singleton_self _)).le
      · obtain rfl := List.mem_singleton.mp same
        exact Int.le_refl _

/-- A row is found under its index. -/
theorem getEntry_of_mem {db : Database Id Blob} {row : LogEntry}
    (member : row ∈ db.log.rows) : db.getEntry row.index = some row := by
  obtain ⟨found, held⟩ := Option.isSome_iff_exists.mp (getEntry_isSome.mpr ⟨row, member, rfl⟩)
  obtain ⟨inside, same⟩ := getEntry_mem held
  have symmetric : Std.Symm fun left right : LogEntry => left.index ≠ right.index :=
    ⟨fun _ _ => Ne.symm⟩
  have distinct : db.log.rows.Pairwise fun left right => left.index ≠ right.index :=
    db.log.sorted.imp ne_of_lt
  by_contra other
  rw [held, Option.some.injEq] at other
  exact distinct.forall inside member other same

/-- Compacting up to a row keeps the last index. -/
theorem lastIndex_compact {db : Database Id Blob} {index : Int} {entry : LogEntry}
    (found : db.getEntry index = some entry) (term : Int) (state : Blob) :
    ((db.saveSnapshot index term state).truncateUpTo index).lastIndex = db.lastIndex := by
  have below := getEntry_le found
  obtain ⟨member, _⟩ := getEntry_mem found
  rw [lastIndex, lastIndex] at *
  cases ends : db.log.rows.getLast? with
  | none => simp [List.getLast?_eq_none_iff.mp ends] at member
  | some last =>
      rw [ends] at below
      obtain ⟨front, rows⟩ := List.getLast?_eq_some_iff.mp ends
      have sorted := db.log.sorted
      rw [rows, List.pairwise_append] at sorted
      simp only [truncateUpTo, saveSnapshot, LogTable.retain, rows]
      by_cases above : index < last.index
      · simp [above]
      · have emptied : (front ++ [last]).filter (fun row => index < row.index) = [] := by
          refine List.filter_eq_nil_iff.mpr fun row inside => ?_
          have bounded : row.index ≤ last.index := by
            rcases List.mem_append.mp inside with earlier | same
            · exact (sorted.2.2 row earlier last (List.mem_singleton_self _)).le
            · exact (List.mem_singleton.mp same ▸ Int.le_refl _)
          simpa using (show row.index ≤ index by omega)
        rw [emptied]
        exact Int.le_antisymm below (Int.not_lt.mp above)

end Database

end RaftCanvas
