import RaftCanvas.Library.Replication.State
import RaftCanvas.Raft.Json

/-!
# Constants and log entries shared by the Raft modules
-/

namespace RaftCanvas

/-- `ROLE` -/
inductive Role where
  | follower
  | candidate
  | leader
  deriving DecidableEq, Repr

/-- `ENTRY_TYPE` -/
inductive EntryType where
  | stroke
  | noop
  deriving DecidableEq, Repr

/-- A log entry.  Indexes count from `0`; `-1` stands for "before the log". -/
structure LogEntry where
  index : Int
  term : Nat
  type : EntryType
  payload : Json

instance : Replication.Stamped LogEntry := ⟨LogEntry.term⟩

@[simp] theorem stamped_term (entry : LogEntry) : Replication.term entry = entry.term :=
  rfl

/-- Replicas of a cluster of three are named by numerals. -/
instance instNeZeroThree : @NeZero Nat Zero.ofOfNat0 3 := ⟨by decide⟩

end RaftCanvas
