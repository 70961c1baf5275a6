import RaftCanvas.Library.Transition
import RaftCanvas.Raft.StateMachine

/-!
# Snapshots, restarts and replay

A snapshot travels as JSON text.  A replica that applies entries, applies old ones
again, and restarts from any snapshot it once took is always in the state that
applying the log once, in order, leads to.
-/

namespace RaftCanvas

/-- `JSON.stringify` and `JSON.parse`. -/
structure JsonText where
  Text : Type
  stringify : Json → Text
  parse : Text → Option Json
  parse_stringify : ∀ value, parse (stringify value) = some value

namespace StateMachine

/-! ## Snapshots as JSON -/

namespace Blob

/-- One item of `Array.from(this._dedupe.entries())`. -/
def itemToJson (item : Json × DedupeEntry) : Json :=
  .arr [item.1, .obj [("seq", item.2.seq), ("index", .num item.2.index)]]

def toJson (blob : Blob) : Json :=
  .obj [("strokes", .arr blob.strokes), ("dedupe", .arr (blob.dedupe.map itemToJson))]

/-- What `new Map(items)` takes from one item. -/
def itemOfJson : Json → Option (Json × DedupeEntry)
  | .arr [clientId, .obj fields] =>
      match fields.lookup "seq", fields.lookup "index" with
      | some seq, some (.num index) => some (clientId, { seq, index := index.num })
      | _, _ => none
  | _ => none

/-- `snap.strokes || []` and `snap.dedupe || []` -/
def ofJson (snap : Json) : Blob where
  strokes :=
    match snap.field? "strokes" with
    | some (.arr items) => items
    | _ => []
  dedupe :=
    match snap.field? "dedupe" with
    | some (.arr items) => items.filterMap itemOfJson
    | _ => []

@[simp] theorem itemOfJson_itemToJson (item : Json × DedupeEntry) :
    itemOfJson (itemToJson item) = some item := by
  simp [itemOfJson, itemToJson, List.lookup_cons]

/-- A snapshot is read back as it was written. -/
theorem ofJson_toJson (blob : Blob) : ofJson blob.toJson = blob := by
  obtain ⟨strokes, dedupe⟩ := blob
  simp [ofJson, toJson, Json.field?, List.lookup_cons, List.filterMap_map]

end Blob

end StateMachine

/-! ## Schedules -/

/-- A replica's machine and the snapshots it has taken, each with `lastApplied`. -/
structure Replica (json : JsonText) where
  state : StateMachine
  saved : List (json.Text × Int)

/-- What can happen to the machine of a replica. -/
inductive Move where
  /-- Apply the entry after the last one. -/
  | next
  /-- Apply an entry again. -/
  | again (position : Nat)
  | snapshot
  /-- Restart from a snapshot. -/
  | restore (slot : Nat)

namespace Replica

variable {json : JsonText} (js : Relational) (dedupeMaxClients : Nat)

/-- The state after the entries of `log` in order. -/
def replay (log : List LogEntry) : StateMachine :=
  (StateMachine.machine js dedupeMaxClients).replay log

def step (log : List LogEntry) (replica : Replica json) : Move → Option (Replica json)
  | .next =>
      (log[(replica.state.lastApplied + 1).toNat]?).map fun entry =>
        { replica with state := replica.state.apply js dedupeMaxClients entry }
  | .again position =>
      if (position : Int) ≤ replica.state.lastApplied then
        (log[position]?).map fun entry =>
          { replica with state := replica.state.apply js dedupeMaxClients entry }
      else none
  | .snapshot =>
      some { replica with
        saved := replica.saved ++
          [(json.stringify replica.state.getSnapshot.toJson, replica.state.lastApplied)] }
  | .restore slot =>
      (replica.saved[slot]?).bind fun save =>
        (json.parse save.1).map fun snap =>
          { replica with state := StateMachine.restoreSnapshot (.ofJson snap) save.2 }

/-- All schedules over a log. -/
def schedules (json : JsonText) (log : List LogEntry) :
    Transition.System (Replica json) Move where
  init := ⟨StateMachine.init, []⟩
  step := step js dedupeMaxClients log

/-! ## Every schedule ends where the log leads -/

variable {js : Relational} {dedupeMaxClients : Nat} {log : List LogEntry}

/-- The machine and all its snapshots stand for the first entries of the log. -/
structure Faithful (js : Relational) (dedupeMaxClients : Nat) (log : List LogEntry)
    (replica : Replica json) : Prop where
  within : -1 ≤ replica.state.lastApplied ∧ replica.state.lastApplied < log.length
  state : replica.state = replay js dedupeMaxClients
    (log.take (replica.state.lastApplied + 1).toNat)
  saved : ∀ save ∈ replica.saved, ∃ count ≤ log.length, save.2 = (count : Int) - 1 ∧
    save.1 = json.stringify (replay js dedupeMaxClients (log.take count)).getSnapshot.toJson

theorem lastApplied_replay (js : Relational) (dedupeMaxClients : Nat)
    (indexed : Indexed log) {count : Nat} (within : count ≤ log.length) :
    (replay js dedupeMaxClients (log.take count)).lastApplied = (count : Int) - 1 := by
  have applied := (StateMachine.machine js dedupeMaxClients).lastApplied_replay
    (indexed.restrict (List.take_prefix count log))
  rw [List.length_take, Nat.min_eq_left within] at applied
  exact applied

/-- A state that stands for a whole number of entries. -/
theorem Faithful.of_count (indexed : Indexed log) {replica : Replica json} {count : Nat}
    (within : count ≤ log.length)
    (state : replica.state = replay js dedupeMaxClients (log.take count))
    (saved : ∀ save ∈ replica.saved, ∃ count ≤ log.length, save.2 = (count : Int) - 1 ∧
      save.1 = json.stringify
        (replay js dedupeMaxClients (log.take count)).getSnapshot.toJson) :
    Faithful js dedupeMaxClients log replica := by
  have applied := lastApplied_replay js dedupeMaxClients indexed within
  rw [← state] at applied
  refine ⟨by omega, ?_, saved⟩
  rw [applied, show ((count : Int) - 1 + 1).toNat = count by omega]
  exact state

theorem Faithful.step (indexed : Indexed log) {replica next : Replica json} {move : Move}
    (faithful : Faithful js dedupeMaxClients log replica)
    (stepped : replica.step js dedupeMaxClients log move = some next) :
    Faithful js dedupeMaxClients log next := by
  obtain ⟨within, state, saved⟩ := faithful
  cases move with
  | next =>
      obtain ⟨entry, found, rfl⟩ := Option.map_eq_some_iff.mp stepped
      have bound := (List.getElem?_eq_some_iff.mp found).1
      refine .of_count indexed (Nat.succ_le_of_lt bound) ?_ saved
      show replica.state.apply js dedupeMaxClients entry = _
      rw [List.take_add_one, found, Option.toList_some, replay, Machine.replay_concat]
      exact congrArg (StateMachine.apply js dedupeMaxClients · entry) state
  | again position =>
      simp only [Replica.step, Option.ite_none_right_eq_some] at stepped
      obtain ⟨old, stepped⟩ := stepped
      obtain ⟨entry, found, rfl⟩ := Option.map_eq_some_iff.mp stepped
      have same : replica.state.apply js dedupeMaxClients entry = replica.state := by
        have own := indexed position entry found
        have stale : entry.index ≤ replica.state.lastApplied := by omega
        exact (StateMachine.machine js dedupeMaxClients).apply_stale _ _ stale
      simp only [same]
      exact ⟨within, state, saved⟩
  | snapshot =>
      obtain rfl := Option.some.inj stepped
      refine ⟨within, state, fun save member => ?_⟩
      rcases List.mem_append.mp member with old | new
      · exact saved save old
      · obtain rfl := List.mem_singleton.mp new
        refine ⟨(replica.state.lastApplied + 1).toNat, by omega, by simp only; omega, ?_⟩
        rw [← state]
  | restore slot =>
      obtain ⟨save, found, stepped⟩ := Option.bind_eq_some_iff.mp stepped
      obtain ⟨count, bounded, index, text⟩ := saved save (List.mem_of_getElem? found)
      rw [text, json.parse_stringify] at stepped
      obtain rfl := Option.some.inj stepped
      refine .of_count indexed bounded ?_ saved
      show StateMachine.restoreSnapshot (.ofJson _) save.2 = _
      rw [StateMachine.Blob.ofJson_toJson, index,
        ← lastApplied_replay js dedupeMaxClients indexed bounded]
      exact (StateMachine.machine js dedupeMaxClients).restore_getSnapshot _

variable (js dedupeMaxClients)

/-- A schedule that has reached an index leaves the strokes, the dedupe table in its
order and `lastApplied` as applying the log up to that index once does. -/
theorem replay_invisible (json : JsonText) (indexed : Indexed log) {replica : Replica json}
    (reached : (schedules js dedupeMaxClients json log).Reach (fun _ _ => True) replica) :
    replica.state.lastApplied < log.length ∧
      replica.state =
        replay js dedupeMaxClients (log.take (replica.state.lastApplied + 1).toNat) := by
  have faithful : Faithful js dedupeMaxClients log replica := by
    refine reached.invariant ?_ fun state move next _ before _ stepped =>
      before.step indexed stepped
    exact {
      within := by
        simp only [schedules, StateMachine.init]
        omega
      state := by simp [schedules, StateMachine.init, replay]; rfl
      saved := fun save member => nomatch member }
  exact ⟨faithful.within.2, faithful.state⟩

/-- A stroke, one by the same client, and a no-op. -/
def threeEntries : List LogEntry :=
  [⟨0, 1, .stroke, .obj [("clientId", .str "a"), ("seq", .num 1), ("x", .num 4)]⟩,
    ⟨1, 1, .stroke, .obj [("clientId", .str "a"), ("seq", .num 2)]⟩,
    ⟨2, 1, .noop, .null⟩]

theorem threeEntries_indexed : Indexed threeEntries := by
  rintro (_ | _ | _ | position) entry found
  all_goals simp [threeEntries] at found
  all_goals simp [← found]

/-- Restarting from the snapshot behind the first entry and replaying the rest. -/
theorem replay_invisible_restored :
    ∃ (json : JsonText) (replica : Replica json),
      (schedules .numeric 1 json threeEntries).Reach (fun _ _ => True) replica ∧
      replica.state.lastApplied = 2 ∧
      replica.state = replay .numeric 1
        (threeEntries.take (replica.state.lastApplied + 1).toNat) := by
  let json : JsonText := ⟨Json, id, some, fun _ => rfl⟩
  obtain ⟨replica, reached, passed⟩ :=
    (schedules .numeric 1 json threeEntries).exists_reach_of_run (fun _ _ => True)
      [.next, .snapshot, .next, .next, .restore 0, .next, .again 0, .next]
      (fun replica => decide (replica.state.lastApplied = 2)) (by decide +kernel)
  exact ⟨json, replica, reached, of_decide_eq_true passed,
    (replay_invisible .numeric 1 json threeEntries_indexed reached).2⟩

end Replica

end RaftCanvas
