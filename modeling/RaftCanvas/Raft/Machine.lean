import RaftCanvas.Raft.Types

/-!
# The state machine a replica is given

`RaftNode` receives its state machine from outside and uses it only through five
operations.  `Machine` is that interface with the properties the node relies on.
`Machine.journaled` adds a history variable, the entries a state stands for; the
node treats every machine alike, so it cannot depend on the journal.
-/

namespace RaftCanvas

/-- What `RaftNode` calls on `this.stateMachine`. -/
structure Machine where
  State : Type
  Blob : Type
  init : State
  lastApplied : State → Int
  apply : State → LogEntry → State
  getSnapshot : State → Blob
  restoreSnapshot : Blob → Int → State
  getDedupeIndex : State → Json → Json → Option Int
  lastApplied_init : lastApplied init = -1
  apply_stale : ∀ state entry, entry.index ≤ lastApplied state →
    apply state entry = state
  lastApplied_apply : ∀ state entry, lastApplied state < entry.index →
    lastApplied (apply state entry) = entry.index
  lastApplied_restore : ∀ blob index,
    lastApplied (restoreSnapshot blob index) = index
  /-- A snapshot survives `JSON.stringify` and `JSON.parse`. -/
  restore_getSnapshot : ∀ state,
    restoreSnapshot (getSnapshot state) (lastApplied state) = state
  /-- Dedupe answers point at applied entries. -/
  dedupe_le : ∀ (entries : List LogEntry) clientId seq index,
    getDedupeIndex (entries.foldl apply init) clientId seq = some index →
      index ≤ lastApplied (entries.foldl apply init)

/-- Entries at their own positions: the `i`-th entry has index `i`. -/
def Indexed (log : List LogEntry) : Prop :=
  ∀ (position : Nat) (entry : LogEntry),
    log[position]? = some entry → entry.index = position

namespace Indexed

@[simp] theorem nil : Indexed [] := by
  intro position entry found
  simp at found

theorem restrict {log whole : List LogEntry} (indexed : Indexed whole)
    (inside : log <+: whole) : Indexed log := by
  intro position entry found
  obtain ⟨suffix, rfl⟩ := inside
  apply indexed
  rw [List.getElem?_append_left (List.getElem?_eq_some_iff.mp found).1, found]

theorem concat {log : List LogEntry} (indexed : Indexed log) {entry : LogEntry}
    (last : entry.index = log.length) : Indexed (log ++ [entry]) := by
  intro position found inside
  by_cases old : position < log.length
  · rw [List.getElem?_append_left old] at inside
    exact indexed position found inside
  · have bound := (List.getElem?_eq_some_iff.mp inside).1
    simp only [List.length_append, List.length_singleton] at bound
    obtain rfl : position = log.length := by omega
    simp only [List.getElem?_concat_length, Option.some.injEq] at inside
    exact inside ▸ last

theorem index_of_concat {log : List LogEntry} {entry : LogEntry}
    (indexed : Indexed (log ++ [entry])) : entry.index = log.length :=
  indexed log.length entry (by simp)

end Indexed

namespace Machine

variable (machine : Machine)

/-- The state after applying `entries` in order. -/
def replay (entries : List LogEntry) : machine.State :=
  entries.foldl machine.apply machine.init

@[simp] theorem replay_nil : machine.replay [] = machine.init := rfl

@[simp] theorem replay_concat (entries : List LogEntry) (entry : LogEntry) :
    machine.replay (entries ++ [entry]) =
      machine.apply (machine.replay entries) entry := by
  simp [replay]

theorem lastApplied_replay {entries : List LogEntry} (indexed : Indexed entries) :
    machine.lastApplied (machine.replay entries) = entries.length - 1 := by
  induction entries using List.reverseRecOn with
  | nil => simp [machine.lastApplied_init]
  | append_singleton entries entry ih =>
      have before := ih (indexed.restrict (List.prefix_append _ _))
      have own := indexed.index_of_concat
      rw [replay_concat, machine.lastApplied_apply _ _ (by omega), own]
      simp

/-- A machine whose states and snapshots also list the entries they stand for. -/
def journaled : Machine where
  State := machine.State × List LogEntry
  Blob := machine.Blob × List LogEntry
  init := (machine.init, [])
  lastApplied state := machine.lastApplied state.1
  apply state entry :=
    if entry.index ≤ machine.lastApplied state.1 then state
    else (machine.apply state.1 entry, state.2 ++ [entry])
  getSnapshot state := (machine.getSnapshot state.1, state.2)
  restoreSnapshot blob index := (machine.restoreSnapshot blob.1 index, blob.2)
  getDedupeIndex state := machine.getDedupeIndex state.1
  lastApplied_init := machine.lastApplied_init
  apply_stale state entry stale := by simp [stale]
  lastApplied_apply state entry fresh := by
    simp [Int.not_le.mpr fresh, machine.lastApplied_apply _ _ fresh]
  lastApplied_restore blob index := machine.lastApplied_restore blob.1 index
  restore_getSnapshot state := by simp [machine.restore_getSnapshot]
  dedupe_le entries clientId seq index := by
    have forget : ∀ (state : machine.State × List LogEntry),
        (entries.foldl (fun state entry =>
          if entry.index ≤ machine.lastApplied state.1 then state
          else (machine.apply state.1 entry, state.2 ++ [entry])) state).1 =
        entries.foldl machine.apply state.1 := by
      induction entries with
      | nil => intro state; rfl
      | cons entry entries ih =>
          intro state
          simp only [List.foldl_cons]
          rw [ih]
          split
          next stale => rw [machine.apply_stale _ _ stale]
          next => rfl
    simp only [forget]
    exact machine.dedupe_le entries clientId seq index

/-- Replaying a log leaves exactly that log in the journal. -/
theorem journaled_replay {entries : List LogEntry} (indexed : Indexed entries) :
    machine.journaled.replay entries = (machine.replay entries, entries) := by
  induction entries using List.reverseRecOn with
  | nil => rfl
  | append_singleton entries entry ih =>
      have inside := indexed.restrict (List.prefix_append _ _)
      have own := indexed.index_of_concat
      have before := machine.lastApplied_replay inside
      have fresh : ¬entry.index ≤ machine.lastApplied (machine.replay entries) := by
        omega
      rw [replay_concat, replay_concat, ih inside]
      simp [journaled, fresh]

end Machine

end RaftCanvas
