import RaftCanvas.Raft.Machine
import RaftCanvas.Raft.Persistence

/-!
# The log behind a compacted file

A file keeps the rows after a snapshot and forgets the ones before it.  `Stores`
relates it to the log it stands for, the one no compaction ever shortened, and
every operation of the file is characterised by what it does to that log.
-/

namespace RaftCanvas

/-! ## Numbered entries -/

/-- Consecutive indexes from `start` on. -/
def Numbered (start : Nat) (entries : List LogEntry) : Prop :=
  ∀ (position : Nat) (entry : LogEntry),
    entries[position]? = some entry → entry.index = start + position

namespace Numbered

theorem head {start : Nat} {entry : LogEntry} {rest : List LogEntry}
    (numbered : Numbered start (entry :: rest)) : entry.index = start := by
  simpa using numbered 0 entry rfl

theorem tail {start : Nat} {entry : LogEntry} {rest : List LogEntry}
    (numbered : Numbered start (entry :: rest)) : Numbered (start + 1) rest := by
  intro position found inside
  have own := numbered (position + 1) found (by simpa using inside)
  omega

/-- Every entry lies within the range of the list. -/
theorem bounds {start : Nat} {entries : List LogEntry}
    (numbered : Numbered start entries) {entry : LogEntry} (member : entry ∈ entries) :
    (start : Int) ≤ entry.index ∧ entry.index < start + entries.length := by
  obtain ⟨position, found⟩ := List.mem_iff_getElem?.mp member
  have own := numbered position entry found
  have bound := (List.getElem?_eq_some_iff.mp found).1
  omega

theorem sorted {start : Nat} {entries : List LogEntry}
    (numbered : Numbered start entries) :
    entries.Pairwise fun left right => left.index < right.index := by
  induction entries generalizing start with
  | nil => exact .nil
  | cons entry rest ih =>
      refine List.pairwise_cons.mpr ⟨fun later member => ?_, ih numbered.tail⟩
      have own := numbered.head
      have bound := (numbered.tail.bounds member).1
      omega

/-- Selecting the entries below an index keeps a prefix. -/
theorem filter_lt {start : Nat} {entries : List LogEntry}
    (numbered : Numbered start entries) (limit : Int) :
    entries.filter (fun entry => entry.index < limit) =
      entries.take (limit - start).toNat := by
  induction entries generalizing start with
  | nil => simp
  | cons entry rest ih =>
      have own := numbered.head
      rw [List.filter_cons, ih numbered.tail]
      by_cases below : entry.index < limit
      · rw [if_pos (by simpa using below),
          show (limit - start).toNat = (limit - (start + 1 : Nat)).toNat + 1 by omega,
          List.take_succ_cons]
      · rw [if_neg (by simpa using below), show (limit - start).toNat = 0 by omega,
          show (limit - (start + 1 : Nat)).toNat = 0 by omega]
        simp

/-- Selecting the entries from an index on keeps a suffix. -/
theorem filter_ge {start : Nat} {entries : List LogEntry}
    (numbered : Numbered start entries) (limit : Int) :
    entries.filter (fun entry => limit ≤ entry.index) =
      entries.drop (limit - start).toNat := by
  induction entries generalizing start with
  | nil => simp
  | cons entry rest ih =>
      have own := numbered.head
      rw [List.filter_cons, ih numbered.tail]
      by_cases above : limit ≤ entry.index
      · rw [if_pos (by simpa using above), show (limit - start).toNat = 0 by omega,
          show (limit - (start + 1 : Nat)).toNat = 0 by omega]
        simp
      · rw [if_neg (by simpa using above),
          show (limit - start).toNat = (limit - (start + 1 : Nat)).toNat + 1 by omega,
          List.drop_succ_cons]

/-- Looking an index up finds the entry at its position. -/
theorem find?_index {start : Nat} {entries : List LogEntry}
    (numbered : Numbered start entries) (index : Int) :
    entries.find? (fun entry => entry.index = index) =
      if (start : Int) ≤ index then entries[(index - start).toNat]? else none := by
  induction entries generalizing start with
  | nil => simp
  | cons entry rest ih =>
      have own := numbered.head
      rw [List.find?_cons, ih numbered.tail]
      by_cases same : entry.index = index
      · have here : (start : Int) ≤ index := by omega
        have first : (index - start).toNat = 0 := by omega
        simp [same, here, first]
      · by_cases above : (start : Int) ≤ index
        · have later : ((start + 1 : Nat) : Int) ≤ index := by omega
          have next : (index - start).toNat = (index - (start + 1 : Nat)).toNat + 1 := by
            omega
          rw [if_pos later, if_pos above, next, List.getElem?_cons_succ]
          simp [same]
        · have earlier : ¬((start + 1 : Nat) : Int) ≤ index := by omega
          rw [if_neg earlier, if_neg above]
          simp [same]

end Numbered

namespace Indexed

theorem numbered {log : List LogEntry} (indexed : Indexed log) : Numbered 0 log := by
  intro position entry found
  simpa using indexed position entry found

theorem drop {log : List LogEntry} (indexed : Indexed log) (first : Nat) :
    Numbered first (log.drop first) := by
  intro position entry found
  rw [List.getElem?_drop] at found
  simpa using indexed (first + position) entry found

theorem take {log : List LogEntry} (indexed : Indexed log) (count : Nat) :
    Indexed (log.take count) :=
  indexed.restrict (List.take_prefix _ _)

end Indexed

/-- Inserting rows above all others appends them. -/
theorem LogTable.foldl_replace {table : LogTable} {entries : List LogEntry}
    (above : ∀ row ∈ table.rows, ∀ entry ∈ entries, row.index < entry.index)
    (sorted : entries.Pairwise fun left right => left.index < right.index) :
    (entries.foldl .replace table).rows = table.rows ++ entries := by
  induction entries generalizing table with
  | nil => simp
  | cons entry rest ih =>
      obtain ⟨first, sortedRest⟩ := List.pairwise_cons.mp sorted
      have inserted : (table.replace entry).rows = table.rows ++ [entry] := by
        have below : table.rows.filter (fun row => row.index < entry.index) =
            table.rows :=
          List.filter_eq_self.mpr fun row member => by
            simpa using above row member entry (by simp)
        have none_above : table.rows.filter (fun row => entry.index < row.index) = [] :=
          List.filter_eq_nil_iff.mpr fun row member => by
            have ordered := above row member entry (by simp)
            simp only [decide_eq_true_eq]
            omega
        simp only [LogTable.replace, below, none_above]
      rw [List.foldl_cons, ih ?_ sortedRest, inserted, List.append_assoc,
        List.singleton_append]
      intro row member later memberRest
      rw [inserted, List.mem_append, List.mem_singleton] at member
      rcases member with member | rfl
      · exact above row member later (List.mem_cons_of_mem _ memberRest)
      · exact first later memberRest

namespace Database

variable {Id Blob : Type}

/-- What replacing the rows from an index on leaves. -/
theorem rewrite_rows (db : Database Id Blob) {start : Int} {fresh : List LogEntry}
    (above : ∀ entry ∈ fresh, start ≤ entry.index)
    (sorted : fresh.Pairwise fun left right => left.index < right.index) :
    ((db.truncateFrom start).appendEntries fresh).log.rows =
      db.log.rows.filter (fun row => row.index < start) ++ fresh := by
  refine LogTable.foldl_replace (fun row member entry new => ?_) sorted
  have below : row.index < start := by simpa using (List.mem_filter.mp member).2
  exact below.trans_le (above entry new)

/-- The rows are a suffix of `log` and the snapshot covers at least the rest. -/
structure Stores (db : Database Id Blob) (log : List LogEntry) : Prop where
  indexed : Indexed log
  suffix : ∃ first : Nat, (first : Int) ≤ db.lastSnapshotIndex + 1 ∧
    db.log.rows = log.drop first
  within : db.lastSnapshotIndex < log.length
  covered : db.lastSnapshotTerm =
    Replication.lastTerm (log.take (db.lastSnapshotIndex + 1).toNat)

theorem stores_empty : (empty : Database Id Blob).Stores [] where
  indexed := .nil
  suffix := ⟨0, by simp [empty], by simp [empty, LogTable.empty]⟩
  within := by simp [empty]
  covered := by simp [empty]

namespace Stores

variable {db : Database Id Blob} {log : List LogEntry} (stores : db.Stores log)
include stores

theorem low : -1 ≤ db.lastSnapshotIndex := by
  obtain ⟨first, below, _⟩ := stores.suffix
  omega

/-! ### Reading -/

theorem lastIndex_eq : db.lastIndex = log.length - 1 := by
  obtain ⟨first, below, rows⟩ := stores.suffix
  have within := stores.within
  simp only [lastIndex, rows, List.getLast?_drop]
  split
  next row found =>
      rw [List.getLast?_eq_getElem?] at found
      split at found
      · simp at found
      · have own := stores.indexed _ _ found
        have bound := (List.getElem?_eq_some_iff.mp found).1
        omega
  next absent =>
      split at absent
      · omega
      · have nonempty : log = [] := by simpa using absent
        subst nonempty
        simp only [List.length_nil] at within ⊢
        omega

theorem lastTerm_eq : db.lastTerm = Replication.lastTerm log := by
  obtain ⟨first, below, rows⟩ := stores.suffix
  have within := stores.within
  simp only [Database.lastTerm, rows, List.getLast?_drop]
  by_cases short : log.length ≤ first
  · have whole : (db.lastSnapshotIndex + 1).toNat = log.length := by omega
    rw [if_pos short, stores.covered, whole, List.take_length]
  · rw [if_neg short]
    cases ends : log.getLast? with
    | some row => simp [Replication.lastTerm, ends]
    | none =>
        rw [List.getLast?_eq_none_iff] at ends
        simp [ends] at short

theorem getEntry_eq {first : Nat} (rows : db.log.rows = log.drop first) (index : Int) :
    db.getEntry index = if (first : Int) ≤ index then log[index.toNat]? else none := by
  simp only [getEntry, LogTable.get, rows]
  rw [(stores.indexed.drop first).find?_index index]
  by_cases above : (first : Int) ≤ index
  · rw [if_pos above, if_pos above, List.getElem?_drop]
    congr 1
    omega
  · rw [if_neg above, if_neg above]

/-- What the file returns for an index is what the log holds there. -/
theorem getEntry_some {index : Int} {entry : LogEntry}
    (found : db.getEntry index = some entry) :
    0 ≤ index ∧ log[index.toNat]? = some entry := by
  obtain ⟨first, below, rows⟩ := stores.suffix
  rw [stores.getEntry_eq rows] at found
  split at found
  · exact ⟨by omega, found⟩
  · simp at found

/-- Nothing above the snapshot is missing. -/
theorem getEntry_above {index : Int} (above : db.lastSnapshotIndex < index) :
    db.getEntry index = log[index.toNat]? := by
  obtain ⟨first, below, rows⟩ := stores.suffix
  rw [stores.getEntry_eq rows, if_pos (by omega)]

theorem getEntry_index {index : Int} {entry : LogEntry}
    (found : db.getEntry index = some entry) : entry.index = index := by
  obtain ⟨positive, inside⟩ := stores.getEntry_some found
  have own := stores.indexed _ _ inside
  omega

theorem firstIndex_nonneg : 0 ≤ db.firstIndex := by
  obtain ⟨first, below, rows⟩ := stores.suffix
  simp only [firstIndex, rows, List.head?_drop]
  split
  next row found =>
      have own := stores.indexed _ _ found
      omega
  next => have low := stores.low; omega

/-- Nothing is missing between the snapshot and the first row. -/
theorem firstIndex_le : db.firstIndex ≤ db.lastSnapshotIndex + 1 := by
  obtain ⟨first, below, rows⟩ := stores.suffix
  simp only [firstIndex, rows, List.head?_drop]
  split
  next row found =>
      have own := stores.indexed _ _ found
      omega
  next => exact Int.le_refl _

/-- From the first row on, a range up to the end is a suffix of the log. -/
theorem getRange_eq {fromIdx : Int} (available : db.firstIndex ≤ fromIdx)
    (present : fromIdx ≤ db.lastIndex) :
    db.getRange fromIdx db.lastIndex = log.drop fromIdx.toNat := by
  have last := stores.lastIndex_eq
  obtain ⟨first, below, rows⟩ := stores.suffix
  have after : (first : Int) ≤ fromIdx := by
    simp only [firstIndex, rows, List.head?_drop] at available
    split at available
    next row found =>
        have own := stores.indexed _ _ found
        omega
    next absent => omega
  have bounded : ∀ entry ∈ log.drop first, entry.index ≤ db.lastIndex := by
    intro entry member
    have bound := (stores.indexed.drop first).bounds member
    rw [List.length_drop] at bound
    omega
  have select : db.log.rows.filter
      (fun row => fromIdx ≤ row.index ∧ row.index ≤ db.lastIndex) =
      (log.drop first).filter (fun row => fromIdx ≤ row.index) := by
    rw [rows]
    refine List.filter_congr fun entry member => ?_
    simp [bounded entry member]
  rw [getRange, if_neg (by omega), select,
    (stores.indexed.drop first).filter_ge, List.drop_drop]
  congr 1
  omega

/-! ### Writing -/

theorem saveTermAndVote (term : Nat) (votedFor : Option Id) :
    (db.saveTermAndVote term votedFor).Stores log :=
  ⟨stores.indexed, stores.suffix, stores.within, stores.covered⟩

theorem appendEntries (entries : List LogEntry) (indexed : Indexed (log ++ entries)) :
    (db.appendEntries entries).Stores (log ++ entries) := by
  obtain ⟨first, below, rows⟩ := stores.suffix
  have within := stores.within
  have numbered : Numbered log.length entries := by
    intro position entry found
    have inside : (log ++ entries)[log.length + position]? = some entry := by
      rw [List.getElem?_append_right (by omega)]
      simpa using found
    simpa using indexed _ entry inside
  have appended : (db.appendEntries entries).log.rows = db.log.rows ++ entries := by
    refine LogTable.foldl_replace (fun row member entry new => ?_) numbered.sorted
    rw [rows] at member
    have old := (stores.indexed.numbered.bounds (List.mem_of_mem_drop member)).2
    have fresh := (numbered.bounds new).1
    omega
  refine ⟨indexed, ⟨first, below, ?_⟩, ?_, ?_⟩
  · rw [appended, rows, List.drop_append_of_le_length (by omega)]
  · simp only [Database.appendEntries, List.length_append]
    omega
  · simp only [Database.appendEntries]
    rw [List.take_append_of_le_length (by omega)]
    exact stores.covered

/-- Truncating above the snapshot. -/
theorem truncateFrom {fromIdx : Int} (above : db.lastSnapshotIndex < fromIdx) :
    (db.truncateFrom fromIdx).Stores (log.take fromIdx.toNat) := by
  obtain ⟨first, below, rows⟩ := stores.suffix
  have within := stores.within
  have low := stores.low
  refine ⟨stores.indexed.take _, ⟨first, below, ?_⟩, ?_, ?_⟩
  · simp only [Database.truncateFrom, LogTable.retain, rows]
    rw [(stores.indexed.drop first).filter_lt, List.drop_take]
    congr 1
    omega
  · simp only [Database.truncateFrom, List.length_take]
    omega
  · simp only [Database.truncateFrom]
    rw [List.take_take, Nat.min_eq_left (by omega)]
    exact stores.covered

/-- Truncating at or below the snapshot, where no row is left: what is written next
replaces the log, which has to reach the snapshot again and agree with it. -/
theorem replaceFrom {fromIdx : Int} {whole : List LogEntry} (positive : 0 ≤ fromIdx)
    (covered : fromIdx ≤ db.lastSnapshotIndex)
    (missing : db.getEntry fromIdx = none) (indexed : Indexed whole)
    (reaches : db.lastSnapshotIndex < whole.length)
    (agrees : whole.take (db.lastSnapshotIndex + 1).toNat =
      log.take (db.lastSnapshotIndex + 1).toNat) :
    ((db.truncateFrom fromIdx).appendEntries (whole.drop fromIdx.toNat)).Stores
      whole := by
  obtain ⟨first, below, rows⟩ := stores.suffix
  have within := stores.within
  have gone : fromIdx < first := by
    by_contra reached
    rw [stores.getEntry_eq rows, if_pos (by omega), List.getElem?_eq_none_iff] at missing
    omega
  have cleared : (db.truncateFrom fromIdx).log.rows = [] := by
    simp only [Database.truncateFrom, LogTable.retain, rows]
    rw [(stores.indexed.drop first).filter_lt,
      show (fromIdx - first).toNat = 0 by omega, List.take_zero]
  refine ⟨indexed, ⟨fromIdx.toNat, ?_, ?_⟩, reaches, ?_⟩
  · simp only [Database.appendEntries, Database.truncateFrom]
    omega
  · refine (LogTable.foldl_replace (fun row member => ?_)
      (indexed.drop fromIdx.toNat).sorted).trans ?_
    · simp [cleared] at member
    · rw [cleared, List.nil_append]
  · simp only [Database.appendEntries, Database.truncateFrom]
    rw [agrees]
    exact stores.covered

theorem saveSnapshot {index : Int} {entry : LogEntry} (state : Blob)
    (found : db.getEntry index = some entry) :
    (db.saveSnapshot index entry.term state).Stores log := by
  obtain ⟨positive, inside⟩ := stores.getEntry_some found
  have bound := (List.getElem?_eq_some_iff.mp inside).1
  obtain ⟨first, below, rows⟩ := stores.suffix
  have reached : (first : Int) ≤ index := by
    rw [stores.getEntry_eq rows] at found
    by_contra early
    simp [early] at found
  refine ⟨stores.indexed, ⟨first, ?_, rows⟩, ?_, ?_⟩
  · simp only [Database.saveSnapshot]
    omega
  · simp only [Database.saveSnapshot]
    omega
  · simp only [Database.saveSnapshot]
    rw [show (index + 1).toNat = index.toNat + 1 by omega, List.take_add_one, inside]
    simp

theorem truncateUpTo {toIdx : Int} (covered : toIdx ≤ db.lastSnapshotIndex) :
    (db.truncateUpTo toIdx).Stores log := by
  obtain ⟨first, below, rows⟩ := stores.suffix
  have within := stores.within
  have low := stores.low
  refine ⟨stores.indexed, ⟨max first (toIdx + 1).toNat, ?_, ?_⟩, within, stores.covered⟩
  · simp only [Database.truncateUpTo]
    omega
  · simp only [Database.truncateUpTo, LogTable.retain, rows]
    have select : (log.drop first).filter (fun row => toIdx < row.index) =
        (log.drop first).filter (fun row => toIdx + 1 ≤ row.index) :=
      List.filter_congr fun entry _ => decide_eq_decide.mpr Int.lt_iff_add_one_le
    rw [select, (stores.indexed.drop first).filter_ge, List.drop_drop]
    congr 1
    omega

/-- Installing a snapshot of an entry the log holds keeps the log. -/
theorem install_kept {index : Int} {entry : LogEntry} (state : Blob)
    (found : db.getEntry index = some entry) :
    ((db.truncateUpTo index).saveSnapshot index entry.term state).Stores log := by
  have saved := stores.saveSnapshot state found
  exact saved.truncateUpTo (Int.le_refl _)

omit stores in
/-- Installing a snapshot over an emptied table. -/
theorem install_all {whole : List LogEntry} (indexed : Indexed whole) {index : Int}
    (reaches : (whole.length : Int) = index + 1) (state : Blob) :
    (db.truncateAll.saveSnapshot index (Replication.lastTerm whole) state).Stores whole where
  indexed := indexed
  suffix := ⟨whole.length, by simp [Database.saveSnapshot, reaches],
    by simp [Database.saveSnapshot, truncateAll, LogTable.empty]⟩
  within := by simp only [Database.saveSnapshot]; omega
  covered := by
    simp only [Database.saveSnapshot]
    rw [List.take_of_length_le (by omega)]

end Stores

end Database

end RaftCanvas
