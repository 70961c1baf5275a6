import RaftCanvas.Library.Table
import RaftCanvas.Raft.Persistence

/-!
# The SQLite file

The tables of a replica's file and the prepared statements that `Persistence` runs on
them.  Read in the order of their keys, the tables are the `Database` of the replica, after
any operations and any number of restarts.
-/

namespace RaftCanvas

/-- A row of `raft_meta`. -/
structure MetaRow where
  id : Int
  currentTerm : Int
  votedFor : Option String
  lastSnapshotIndex : Int
  lastSnapshotTerm : Int

/-- A row of `log_entries`.  A payload is stored as JSON text, which stands for its value;
`null` is stored as `NULL`. -/
structure EntryRow where
  idx : Int
  term : Int
  entryType : String
  payload : Option Json

/-- A row of `snapshots`. -/
structure SnapshotRow (Blob : Type) where
  id : Int
  lastIncludedIndex : Int
  lastIncludedTerm : Int
  stateBlob : Blob
  createdAt : Int

/-- What `getEntry` returns and `appendEntries` takes. -/
structure StoredEntry where
  index : Int
  term : Int
  type : String
  payload : Json

/-- What `loadMeta` returns. -/
structure Meta where
  currentTerm : Int
  votedFor : Option String
  lastSnapshotIndex : Int
  lastSnapshotTerm : Int

/-- The tables in the order of storage, and the counter behind `AUTOINCREMENT`. -/
structure Tables (Blob : Type) where
  raftMeta : List MetaRow := []
  logEntries : List EntryRow := []
  snapshots : List (SnapshotRow Blob) := []
  sequence : Int := 0

/-- `_row2entry` -/
def EntryRow.toEntry (row : EntryRow) : StoredEntry where
  index := row.idx
  term := row.term
  type := row.entryType
  payload := row.payload.getD .null

/-- The text of an entry's payload, `NULL` for `null`. -/
def payloadText : Json → Option Json
  | .null => none
  | payload => some payload

namespace Tables

variable {Blob : Type}

/-! ## Statements -/

def getMeta (self : Tables Blob) : Option MetaRow :=
  self.raftMeta.find? fun row => row.id = 1

def setMeta (self : Tables Blob) (set : MetaRow → MetaRow) : Tables Blob :=
  { self with raftMeta := Table.update (fun row => row.id = 1) set self.raftMeta }

def replaceEntry (self : Tables Blob) (entry : StoredEntry) : Tables Blob :=
  { self with
    logEntries := Table.insertOrReplace EntryRow.idx
      { idx := entry.index
        term := entry.term
        entryType := entry.type
        payload := payloadText entry.payload } self.logEntries }

def deleteEntries (self : Tables Blob) (condition : EntryRow → Bool) : Tables Blob :=
  { self with logEntries := Table.delete condition self.logEntries }

def getLast (self : Tables Blob) : Option EntryRow :=
  (Table.descending EntryRow.idx self.logEntries).head?

def getFirst (self : Tables Blob) : Option EntryRow :=
  (Table.ascending EntryRow.idx self.logEntries).head?

/-- The new row's id is above all that were ever given. -/
def insertSnapshot (self : Tables Blob) (lastIncludedIndex lastIncludedTerm : Int)
    (stateBlob : Blob) (createdAt : Int) : Tables Blob :=
  { self with
    sequence := self.sequence + 1
    snapshots := self.snapshots ++
      [{ id := self.sequence + 1, lastIncludedIndex, lastIncludedTerm, stateBlob, createdAt }] }

def getLastSnap (self : Tables Blob) : Option (SnapshotRow Blob) :=
  (Table.descending SnapshotRow.id self.snapshots).head?

/-! ## Methods -/

/-- The constructor: the tables exist, and so does the row of `raft_meta`. -/
def construct (self : Tables Blob) : Tables Blob :=
  { self with
    raftMeta := Table.insertOrIgnore MetaRow.id
      { id := 1
        currentTerm := 0
        votedFor := none
        lastSnapshotIndex := -1
        lastSnapshotTerm := -1 } self.raftMeta }

def loadMeta (self : Tables Blob) : Option Meta :=
  self.getMeta.map fun row =>
    { currentTerm := row.currentTerm
      votedFor := row.votedFor
      lastSnapshotIndex := row.lastSnapshotIndex
      lastSnapshotTerm := row.lastSnapshotTerm }

def saveTermAndVote (self : Tables Blob) (term : Int) (votedFor : Option String) :
    Tables Blob :=
  self.setMeta fun row => { row with currentTerm := term, votedFor }

def saveSnapshotMeta (self : Tables Blob) (index term : Int) : Tables Blob :=
  self.setMeta fun row => { row with lastSnapshotIndex := index, lastSnapshotTerm := term }

def lastIndex (self : Tables Blob) : Option Int :=
  match self.getLast with
  | some row => some row.idx
  | none => self.getMeta.map MetaRow.lastSnapshotIndex

def lastTerm (self : Tables Blob) : Option Int :=
  match self.getLast with
  | some row => some row.term
  | none => self.getMeta.map MetaRow.lastSnapshotTerm

def firstIndex (self : Tables Blob) : Option Int :=
  match self.getFirst with
  | some row => some row.idx
  | none => self.getMeta.map fun row => row.lastSnapshotIndex + 1

def count (self : Tables Blob) : Nat :=
  self.logEntries.length

def getEntry (self : Tables Blob) (index : Int) : Option StoredEntry :=
  (self.logEntries.find? fun row => row.idx = index).map EntryRow.toEntry

def getRange (self : Tables Blob) (fromIdx toIdx : Int) : List StoredEntry :=
  if toIdx < fromIdx then []
  else
    (Table.ascending EntryRow.idx (self.logEntries.filter fun row =>
      fromIdx ≤ row.idx ∧ row.idx ≤ toIdx)).map EntryRow.toEntry

/-- One transaction for the whole batch. -/
def appendEntries (self : Tables Blob) (entries : List StoredEntry) : Tables Blob :=
  entries.foldl replaceEntry self

def truncateFrom (self : Tables Blob) (fromIdx : Int) : Tables Blob :=
  self.deleteEntries fun row => fromIdx ≤ row.idx

def truncateUpTo (self : Tables Blob) (toIdx : Int) : Tables Blob :=
  self.deleteEntries fun row => row.idx ≤ toIdx

def truncateAll (self : Tables Blob) : Tables Blob :=
  self.deleteEntries fun _ => true

/-- One transaction; `now` is `Date.now()`. -/
def saveSnapshot (self : Tables Blob) (lastIncludedIndex lastIncludedTerm : Int)
    (stateBlob : Blob) (now : Int) : Tables Blob :=
  let self := self.insertSnapshot lastIncludedIndex lastIncludedTerm stateBlob now
  let lastInsertRowid := self.sequence
  let self := self.saveSnapshotMeta lastIncludedIndex lastIncludedTerm
  { self with snapshots := Table.delete (fun row => row.id < lastInsertRowid) self.snapshots }

def loadLatestSnapshot (self : Tables Blob) : Option (Snapshot Blob × Int) :=
  self.getLastSnap.map fun row =>
    ({ lastIncludedIndex := row.lastIncludedIndex
       lastIncludedTerm := row.lastIncludedTerm
       state := row.stateBlob }, row.createdAt)

end Tables

/-! ## What the tables stand for -/

/-- `ENTRY_TYPE` -/
def EntryType.text : EntryType → String
  | .stroke => "stroke"
  | .noop => "noop"

namespace LogEntry

def stored (entry : LogEntry) : StoredEntry where
  index := entry.index
  term := entry.term
  type := entry.type.text
  payload := entry.payload

def row (entry : LogEntry) : EntryRow where
  idx := entry.index
  term := entry.term
  entryType := entry.type.text
  payload := payloadText entry.payload

theorem row_toEntry (entry : LogEntry) : entry.row.toEntry = entry.stored := by
  have text : (payloadText entry.payload).getD .null = entry.payload := by
    unfold payloadText
    split
    next same => rw [same, Option.getD_none]
    · rfl
  rw [EntryRow.toEntry, stored, row, text]

end LogEntry

section

variable {Id Blob : Type}

/-- What happens to a file.  Every operation is one transaction. -/
inductive Operation (Id Blob : Type) where
  | construct
  | saveTermAndVote (term : Nat) (votedFor : Option Id)
  | appendEntries (entries : List LogEntry)
  | truncateFrom (fromIdx : Int)
  | truncateUpTo (toIdx : Int)
  | truncateAll
  | saveSnapshot (lastIncludedIndex lastIncludedTerm : Int) (state : Blob)

def Database.perform (self : Database Id Blob) : Operation Id Blob → Database Id Blob
  | .construct => self
  | .saveTermAndVote term votedFor => self.saveTermAndVote term votedFor
  | .appendEntries entries => self.appendEntries entries
  | .truncateFrom fromIdx => self.truncateFrom fromIdx
  | .truncateUpTo toIdx => self.truncateUpTo toIdx
  | .truncateAll => self.truncateAll
  | .saveSnapshot lastIncludedIndex lastIncludedTerm state =>
      self.saveSnapshot lastIncludedIndex lastIncludedTerm state

/-- Replicas are named by texts, and `now` is the time. -/
def Tables.perform (name : Id → String) (now : Int) (self : Tables Blob) :
    Operation Id Blob → Tables Blob
  | .construct => self.construct
  | .saveTermAndVote term votedFor => self.saveTermAndVote term (votedFor.map name)
  | .appendEntries entries => self.appendEntries (entries.map LogEntry.stored)
  | .truncateFrom fromIdx => self.truncateFrom fromIdx
  | .truncateUpTo toIdx => self.truncateUpTo toIdx
  | .truncateAll => self.truncateAll
  | .saveSnapshot lastIncludedIndex lastIncludedTerm state =>
      self.saveSnapshot lastIncludedIndex lastIncludedTerm state now

/-- Operations in order, each at its time. -/
def Tables.run (name : Id → String) (self : Tables Blob)
    (timed : List (Operation Id Blob × Int)) : Tables Blob :=
  timed.foldl (fun self (operation, now) => self.perform name now operation) self

def SnapshotRow.content (row : SnapshotRow Blob) : Snapshot Blob where
  lastIncludedIndex := row.lastIncludedIndex
  lastIncludedTerm := row.lastIncludedTerm
  state := row.stateBlob

def Database.metaRow (name : Id → String) (db : Database Id Blob) : MetaRow where
  id := 1
  currentTerm := db.currentTerm
  votedFor := db.votedFor.map name
  lastSnapshotIndex := db.lastSnapshotIndex
  lastSnapshotTerm := db.lastSnapshotTerm

/-- The tables hold the database. -/
structure Represents (name : Id → String) (tables : Tables Blob) (db : Database Id Blob) :
    Prop where
  raftMeta : tables.raftMeta = [db.metaRow name]
  keyed : Table.Keyed EntryRow.idx tables.logEntries
  log : Table.ascending EntryRow.idx tables.logEntries = db.log.rows.map LogEntry.row
  snapshots : tables.snapshots.map SnapshotRow.content = db.snapshot.toList
  sequence : ∀ row ∈ tables.snapshots, row.id ≤ tables.sequence

namespace Represents

variable {name : Id → String} {tables : Tables Blob} {db : Database Id Blob}

theorem open_empty : Represents name (Tables.construct {} : Tables Blob) .empty :=
  ⟨rfl, .nil, rfl, rfl, nofun⟩

theorem getMeta_eq (represents : Represents name tables db) :
    tables.getMeta = some (db.metaRow name) := by
  rw [Tables.getMeta, represents.raftMeta]
  rfl

/-- The row of `raft_meta` is written, and with it the same fields of the database. -/
theorem setMeta (represents : Represents name tables db) {set : MetaRow → MetaRow}
    {after : Database Id Blob} (same : set (db.metaRow name) = after.metaRow name)
    (log : after.log = db.log) (snapshot : after.snapshot = db.snapshot) :
    Represents name (tables.setMeta set) after where
  raftMeta := by
    rw [Tables.setMeta, represents.raftMeta, ← same]
    rfl
  keyed := represents.keyed
  log := log ▸ represents.log
  snapshots := snapshot ▸ represents.snapshots
  sequence := represents.sequence

theorem construct (represents : Represents name tables db) :
    Represents name tables.construct db where
  raftMeta := by
    rw [Tables.construct, represents.raftMeta]
    rfl
  keyed := represents.keyed
  log := represents.log
  snapshots := represents.snapshots
  sequence := represents.sequence

/-! ## The log -/

theorem replaceEntry (represents : Represents name tables db) (entry : LogEntry) :
    Represents name (tables.replaceEntry entry.stored)
      { db with log := db.log.replace entry } where
  raftMeta := represents.raftMeta
  keyed := represents.keyed.insertOrReplace
  log := by
    rw [Tables.replaceEntry, represents.keyed.ascending_insertOrReplace, represents.log,
      List.filter_map, List.filter_map]
    simp only [LogTable.replace, List.map_append, List.map_cons]
    rfl
  snapshots := represents.snapshots
  sequence := represents.sequence

theorem appendEntries (represents : Represents name tables db) (entries : List LogEntry) :
    Represents name (tables.appendEntries (entries.map LogEntry.stored))
      (db.appendEntries entries) := by
  rw [Tables.appendEntries, Database.appendEntries]
  induction entries generalizing tables db with
  | nil => exact represents
  | cons entry entries ih => exact ih (represents.replaceEntry entry)

/-- Deleted are the rows that the table of the database does not retain. -/
theorem deleteEntries (represents : Represents name tables db) {condition : EntryRow → Bool}
    {keep : LogEntry → Bool} (same : ∀ entry, (!condition entry.row) = keep entry) :
    Represents name (tables.deleteEntries condition) { db with log := db.log.retain keep } where
  raftMeta := represents.raftMeta
  keyed := represents.keyed.filter _
  log := by
    rw [Tables.deleteEntries, Table.delete, represents.keyed.ascending_filter, represents.log,
      List.filter_map, LogTable.retain]
    exact congrArg _ (List.filter_congr fun entry _ => same entry)
  snapshots := represents.snapshots
  sequence := represents.sequence

theorem truncateFrom (represents : Represents name tables db) (fromIdx : Int) :
    Represents name (tables.truncateFrom fromIdx) (db.truncateFrom fromIdx) :=
  represents.deleteEntries fun entry => by
    rw [LogEntry.row, ← decide_not, decide_eq_decide, Int.not_le]

theorem truncateUpTo (represents : Represents name tables db) (toIdx : Int) :
    Represents name (tables.truncateUpTo toIdx) (db.truncateUpTo toIdx) :=
  represents.deleteEntries fun entry => by
    rw [LogEntry.row, ← decide_not, decide_eq_decide, Int.not_le]

theorem truncateAll (represents : Represents name tables db) :
    Represents name tables.truncateAll db.truncateAll := by
  have emptied : db.log.retain (fun _ => false) = .empty := by
    exact LogTable.ext (List.filter_false _)
  rw [Database.truncateAll, ← emptied]
  exact represents.deleteEntries fun entry => rfl

/-! ## Snapshots -/

theorem saveSnapshot (represents : Represents name tables db)
    (lastIncludedIndex lastIncludedTerm : Int) (state : Blob) (now : Int) :
    Represents name (tables.saveSnapshot lastIncludedIndex lastIncludedTerm state now)
      (db.saveSnapshot lastIncludedIndex lastIncludedTerm state) := by
  have marked : Represents name
      (tables.saveSnapshotMeta lastIncludedIndex lastIncludedTerm)
      { db with lastSnapshotIndex := lastIncludedIndex, lastSnapshotTerm := lastIncludedTerm } :=
    represents.setMeta rfl rfl rfl
  let saved : SnapshotRow Blob :=
    { id := tables.sequence + 1, lastIncludedIndex, lastIncludedTerm
      stateBlob := state, createdAt := now }
  have alone : Table.delete (fun row => row.id < tables.sequence + 1)
      (tables.snapshots ++ [saved]) = [saved] := by
    have older : tables.snapshots.filter (fun row => !decide (row.id < tables.sequence + 1)) =
        [] := by
      refine List.filter_eq_nil_iff.mpr fun row member => ?_
      simp [Int.lt_add_one_of_le (represents.sequence row member)]
    rw [Table.delete, List.filter_append, older]
    simp [saved]
  refine ⟨marked.raftMeta, marked.keyed, marked.log, congrArg (List.map _) alone,
    fun row member => ?_⟩
  have only : row ∈ [saved] := alone ▸ member
  rw [List.mem_singleton.mp only]
  exact Int.le_refl _

theorem perform (represents : Represents name tables db) (now : Int)
    (operation : Operation Id Blob) :
    Represents name (tables.perform name now operation) (db.perform operation) := by
  cases operation with
  | construct => exact represents.construct
  | saveTermAndVote term votedFor => exact represents.setMeta rfl rfl rfl
  | appendEntries entries => exact represents.appendEntries entries
  | truncateFrom fromIdx => exact represents.truncateFrom fromIdx
  | truncateUpTo toIdx => exact represents.truncateUpTo toIdx
  | truncateAll => exact represents.truncateAll
  | saveSnapshot index term state => exact represents.saveSnapshot index term state now

theorem run (represents : Represents name tables db)
    (timed : List (Operation Id Blob × Int)) :
    Represents name (tables.run name timed)
      ((timed.map Prod.fst).foldl Database.perform db) := by
  induction timed generalizing tables db with
  | nil => exact represents
  | cons first rest ih => exact ih (represents.perform first.2 first.1)

/-! ## Queries -/

theorem lastIndex (represents : Represents name tables db) :
    tables.lastIndex = some db.lastIndex := by
  rw [Tables.lastIndex, Tables.getLast, represents.keyed.last, represents.log,
    List.getLast?_map, represents.getMeta_eq, Database.lastIndex]
  cases db.log.rows.getLast? <;> rfl

theorem lastTerm (represents : Represents name tables db) :
    tables.lastTerm = some db.lastTerm := by
  rw [Tables.lastTerm, Tables.getLast, represents.keyed.last, represents.log,
    List.getLast?_map, represents.getMeta_eq, Database.lastTerm]
  cases db.log.rows.getLast? <;> rfl

theorem firstIndex (represents : Represents name tables db) :
    tables.firstIndex = some db.firstIndex := by
  rw [Tables.firstIndex, Tables.getFirst, represents.log, List.head?_map,
    represents.getMeta_eq, Database.firstIndex]
  cases db.log.rows.head? <;> rfl

theorem count (represents : Represents name tables db) :
    tables.count = db.log.rows.length := by
  have same : (Table.ascending EntryRow.idx tables.logEntries).Perm tables.logEntries :=
    Table.ascending_perm _
  rw [Tables.count, ← same.length_eq, represents.log, List.length_map]

theorem getEntry (represents : Represents name tables db) (index : Int) :
    tables.getEntry index = (db.getEntry index).map LogEntry.stored := by
  rw [Tables.getEntry, ← represents.keyed.find?_ascending, represents.log, List.find?_map,
    Option.map_map, Database.getEntry, LogTable.get]
  exact congrArg (Option.map · _) (funext LogEntry.row_toEntry)

theorem getRange (represents : Represents name tables db) (fromIdx toIdx : Int) :
    tables.getRange fromIdx toIdx = (db.getRange fromIdx toIdx).map LogEntry.stored := by
  rw [Tables.getRange, Database.getRange]
  split
  · rfl
  · rw [represents.keyed.ascending_filter, represents.log, List.filter_map, List.map_map]
    exact List.map_congr_left fun entry _ => entry.row_toEntry

theorem loadLatestSnapshot (represents : Represents name tables db) :
    tables.loadLatestSnapshot.map Prod.fst = db.loadLatestSnapshot := by
  rw [Tables.loadLatestSnapshot, Tables.getLastSnap, Database.loadLatestSnapshot,
    Option.map_map]
  have held := represents.snapshots
  cases kept : tables.snapshots with
  | nil =>
      rw [kept] at held
      exact (Option.toList_eq_nil_iff.mp held.symm).symm
  | cons row others =>
      rw [kept, List.map_cons] at held
      cases saved : db.snapshot with
      | none => simp [saved] at held
      | some snapshot =>
          rw [saved, Option.toList_some, List.cons.injEq, List.map_eq_nil_iff] at held
          obtain ⟨same, rfl⟩ := held
          exact congrArg some same

/-- The file is there: opening it once more changes nothing. -/
theorem reopen (represents : Represents name tables db) : tables.construct = tables := by
  rw [Tables.construct, represents.raftMeta]
  cases tables
  exact congrArg (Tables.mk · _ _ _) represents.raftMeta.symm

theorem snapshots_le (represents : Represents name tables db) : tables.snapshots.length ≤ 1 := by
  rw [← List.length_map SnapshotRow.content, represents.snapshots]
  cases db.snapshot <;> simp

end Represents

/-- The tables answer every query of `Persistence` as the database does, and keep at most
one snapshot. -/
structure Tables.Serves (name : Id → String) (tables : Tables Blob) (db : Database Id Blob) :
    Prop where
  loadMeta : tables.loadMeta = some
    { currentTerm := db.currentTerm
      votedFor := db.votedFor.map name
      lastSnapshotIndex := db.lastSnapshotIndex
      lastSnapshotTerm := db.lastSnapshotTerm }
  lastIndex : tables.lastIndex = some db.lastIndex
  lastTerm : tables.lastTerm = some db.lastTerm
  firstIndex : tables.firstIndex = some db.firstIndex
  count : tables.count = db.log.rows.length
  getEntry : ∀ index, tables.getEntry index = (db.getEntry index).map LogEntry.stored
  getRange : ∀ fromIdx toIdx,
    tables.getRange fromIdx toIdx = (db.getRange fromIdx toIdx).map LogEntry.stored
  loadLatestSnapshot : tables.loadLatestSnapshot.map Prod.fst = db.loadLatestSnapshot
  snapshots : tables.snapshots.length ≤ 1
  reopen : tables.construct = tables

theorem Represents.serves {name : Id → String} {tables : Tables Blob} {db : Database Id Blob}
    (represents : Represents name tables db) : tables.Serves name db where
  loadMeta := by
    rw [Tables.loadMeta, represents.getMeta_eq]
    rfl
  lastIndex := represents.lastIndex
  lastTerm := represents.lastTerm
  firstIndex := represents.firstIndex
  count := represents.count
  getEntry := represents.getEntry
  getRange := represents.getRange
  loadLatestSnapshot := represents.loadLatestSnapshot
  snapshots := represents.snapshots_le
  reopen := represents.reopen

end

end RaftCanvas
