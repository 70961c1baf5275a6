import RaftCanvas.Raft.Machine

/-!
# StateMachine

The canvas: strokes in log order, and a bounded table of the newest sequence
number each client had accepted, in order of last use.
-/

namespace RaftCanvas

/-- What the dedupe `Map` stores for a client. -/
structure DedupeEntry where
  seq : Json
  index : Int

/-- A `Map` from client ids, in insertion order. -/
structure DedupeTable where
  entries : List (Json × DedupeEntry)
  distinct : entries.Pairwise fun left right =>
    Json.sameValueZero left.1 right.1 = false

namespace DedupeTable

theorem ext {left right : DedupeTable} (same : left.entries = right.entries) :
    left = right := by
  cases left
  cases right
  simp_all

def empty : DedupeTable := ⟨[], .nil⟩

def size (table : DedupeTable) : Nat := table.entries.length

def get (table : DedupeTable) (clientId : Json) : Option DedupeEntry :=
  (table.entries.find? fun item => Json.sameValueZero item.1 clientId).map (·.2)

def delete (table : DedupeTable) (clientId : Json) : DedupeTable :=
  ⟨table.entries.filter fun item => !Json.sameValueZero item.1 clientId,
    table.distinct.filter _⟩

/-- `Map.prototype.set`: an existing key keeps its place, a new one goes last. -/
def set (table : DedupeTable) (clientId : Json) (value : DedupeEntry) : DedupeTable :=
  if present : table.entries.any fun item => Json.sameValueZero item.1 clientId then
    ⟨table.entries.map fun item =>
      if Json.sameValueZero item.1 clientId then (item.1, value) else item, by
        rw [List.pairwise_map]
        refine table.distinct.imp fun {left right} different => ?_
        split <;> split <;> simpa using different⟩
  else
    ⟨table.entries ++ [(clientId, value)], by
      rw [List.pairwise_append]
      refine ⟨table.distinct, List.pairwise_singleton _ _, ?_⟩
      intro left member right last
      obtain rfl := List.mem_singleton.mp last
      simp only [List.any_eq_true, not_exists, not_and] at present
      simpa using present left member⟩

/-- Delete the key that comes first. -/
def dropOldest (table : DedupeTable) : DedupeTable :=
  ⟨table.entries.tail, table.distinct.tail⟩

/-- `new Map(items)` -/
def ofEntries (items : List (Json × DedupeEntry)) : DedupeTable :=
  items.foldl (fun table item => table.set item.1 item.2) empty

theorem mem_set {table : DedupeTable} {clientId : Json} {value : DedupeEntry}
    {item : Json × DedupeEntry} (member : item ∈ (table.set clientId value).entries) :
    item ∈ table.entries ∨ item.2 = value := by
  unfold set at member
  split at member
  · simp only [List.mem_map] at member
    obtain ⟨other, inside, rfl⟩ := member
    split
    · exact Or.inr rfl
    · exact Or.inl inside
  · simp only [List.mem_append, List.mem_singleton] at member
    rcases member with inside | rfl
    · exact Or.inl inside
    · exact Or.inr rfl

private theorem foldl_set (items : List (Json × DedupeEntry)) (table : DedupeTable)
    (distinct : (table.entries ++ items).Pairwise fun left right =>
      Json.sameValueZero left.1 right.1 = false) :
    (items.foldl (fun table item => table.set item.1 item.2) table).entries =
      table.entries ++ items := by
  induction items generalizing table with
  | nil => simp
  | cons item items ih =>
      have absent : ¬(table.entries.any fun other =>
          Json.sameValueZero other.1 item.1) = true := by
        simp only [List.any_eq_true, not_exists, not_and]
        intro other member
        rw [List.pairwise_append] at distinct
        simpa using distinct.2.2 other member item (by simp)
      have added : (table.set item.1 item.2).entries = table.entries ++ [item] := by
        simp [set, absent]
      rw [List.foldl_cons, ih _ (by simpa [added] using distinct), added]
      simp

/-- Rebuilding a table from its entries gives the table back. -/
theorem ofEntries_entries (table : DedupeTable) : ofEntries table.entries = table :=
  ext (foldl_set table.entries empty table.distinct)

end DedupeTable

/-- `StateMachine` without its configuration. -/
structure StateMachine where
  strokes : List Json
  lastApplied : Int
  dedupe : DedupeTable

namespace StateMachine

/-- `getSnapshot()` as stored and sent. -/
structure Blob where
  strokes : List Json
  dedupe : List (Json × DedupeEntry)

def init : StateMachine := ⟨[], -1, .empty⟩

variable (js : Relational) (dedupeMaxClients : Nat)

def getDedupeIndex (self : StateMachine) (clientId seq : Json) : Option Int :=
  match self.dedupe.get clientId with
  | none => none
  | some entry => if js.ge entry.seq seq then some entry.index else none

def touchDedupe (self : StateMachine) (clientId seq : Json) (index : Int) :
    StateMachine :=
  let table := (self.dedupe.delete clientId).set clientId { seq, index }
  { self with
    dedupe := if dedupeMaxClients < table.size then table.dropOldest else table }

/-- `const { clientId, seq, ...canvasFields } = payload` -/
def canvasFields (payload : Json) : List (String × Json) :=
  payload.ownProperties.filter fun property =>
    property.1 ≠ "clientId" ∧ property.1 ≠ "seq"

/-- `{ index: entry.index, ...canvasFields }` -/
def strokeOf (index : Int) (payload : Json) : Json :=
  .obj (Json.spread [("index", .num index)] (canvasFields payload))

/-- `entry.payload || {}` -/
def payloadOf (entry : LogEntry) : Json :=
  if entry.payload.truthy then entry.payload else .obj []

def pushStroke (self : StateMachine) (entry : LogEntry) : StateMachine :=
  { self with
    strokes := self.strokes ++ [strokeOf entry.index (payloadOf entry)]
    lastApplied := entry.index }

def apply (self : StateMachine) (entry : LogEntry) : StateMachine :=
  if entry.index ≤ self.lastApplied then self
  else
    match entry.type with
    | .noop => { self with lastApplied := entry.index }
    | .stroke =>
        match (payloadOf entry).field? "clientId", (payloadOf entry).field? "seq" with
        | some clientId, some seq =>
            match self.dedupe.get clientId with
            | some prev =>
                if js.ge prev.seq seq then { self with lastApplied := entry.index }
                else
                  (self.touchDedupe dedupeMaxClients clientId seq entry.index).pushStroke
                    entry
            | none =>
                (self.touchDedupe dedupeMaxClients clientId seq entry.index).pushStroke
                  entry
        | _, _ => self.pushStroke entry

def getSnapshot (self : StateMachine) : Blob where
  strokes := self.strokes
  dedupe := self.dedupe.entries

def restoreSnapshot (snap : Blob) (lastIncludedIndex : Int) : StateMachine where
  strokes := snap.strokes
  dedupe := .ofEntries snap.dedupe
  lastApplied := lastIncludedIndex

/-- The table only mentions applied entries. -/
def Applied (self : StateMachine) : Prop :=
  ∀ item ∈ self.dedupe.entries, item.2.index ≤ self.lastApplied

theorem applied_touchDedupe {self : StateMachine} {clientId seq : Json} {index : Int}
    (fresh : self.lastApplied < index) (applied : self.Applied)
    {item : Json × DedupeEntry}
    (member : item ∈ (self.touchDedupe dedupeMaxClients clientId seq index).dedupe.entries) :
    item.2.index ≤ index := by
  have inSet : item ∈ ((self.dedupe.delete clientId).set clientId
      { seq, index }).entries := by
    simp only [touchDedupe] at member
    split at member
    · exact List.mem_of_mem_tail member
    · exact member
  rcases DedupeTable.mem_set inSet with old | new
  · have bound := applied item (List.mem_filter.mp old).1
    omega
  · simp [new]

theorem lastApplied_apply (self : StateMachine) (entry : LogEntry) :
    (self.apply js dedupeMaxClients entry).lastApplied =
      max self.lastApplied entry.index := by
  unfold apply
  split
  · omega
  · split
    · simp only
      omega
    · split
      · split
        · split
          · simp only
            omega
          · simp only [pushStroke]
            omega
        · simp only [pushStroke]
          omega
      · simp only [pushStroke]
        omega

theorem applied_apply {self : StateMachine} (applied : self.Applied) (entry : LogEntry) :
    (self.apply js dedupeMaxClients entry).Applied := by
  intro item member
  rw [lastApplied_apply]
  unfold apply at member
  split at member
  · exact (applied item member).trans (le_max_left _ _)
  next fresh =>
    have old : item ∈ self.dedupe.entries →
        item.2.index ≤ max self.lastApplied entry.index :=
      fun inside => (applied item inside).trans (le_max_left _ _)
    have touched : ∀ clientId seq,
        item ∈ (self.touchDedupe dedupeMaxClients clientId seq entry.index).dedupe.entries →
        item.2.index ≤ max self.lastApplied entry.index :=
      fun clientId seq inside =>
        (applied_touchDedupe dedupeMaxClients (by omega) applied inside).trans
          (le_max_right _ _)
    split at member
    · exact old member
    · split at member
      · split at member
        · split at member
          · exact old member
          · exact touched _ _ member
        · exact touched _ _ member
      · exact old member

theorem applied_replay (entries : List LogEntry) :
    (entries.foldl (fun self => self.apply js dedupeMaxClients) init).Applied := by
  induction entries using List.reverseRecOn with
  | nil =>
      intro item member
      simp [init, DedupeTable.empty] at member
  | append_singleton entries entry ih =>
      rw [List.foldl_append]
      exact applied_apply js dedupeMaxClients ih entry

theorem getDedupeIndex_le {self : StateMachine} (applied : self.Applied)
    {clientId seq : Json} {index : Int}
    (found : self.getDedupeIndex js clientId seq = some index) :
    index ≤ self.lastApplied := by
  unfold getDedupeIndex DedupeTable.get at found
  cases lookup : self.dedupe.entries.find? fun item =>
      Json.sameValueZero item.1 clientId with
  | none => simp [lookup] at found
  | some item =>
      simp only [lookup, Option.map_some] at found
      split at found
      · simp only [Option.some.injEq] at found
        exact found ▸ applied item (List.mem_of_find?_eq_some lookup)
      · simp at found

/-- The canvas as the machine a node is given. -/
def machine : Machine where
  State := StateMachine
  Blob := Blob
  init := init
  lastApplied := lastApplied
  apply self := self.apply js dedupeMaxClients
  getSnapshot := getSnapshot
  restoreSnapshot := restoreSnapshot
  getDedupeIndex self := self.getDedupeIndex js
  lastApplied_init := rfl
  apply_stale state entry stale := by simp [apply, stale]
  lastApplied_apply state entry fresh := by
    rw [lastApplied_apply]
    omega
  lastApplied_restore _ _ := rfl
  restore_getSnapshot state := by
    simp [restoreSnapshot, getSnapshot, DedupeTable.ofEntries_entries]
  dedupe_le entries _ _ _ found :=
    getDedupeIndex_le js (applied_replay js dedupeMaxClients entries) found

end StateMachine

/-- A canvas small enough to compute with. -/
def canvas : Machine :=
  StateMachine.machine .numeric 10

end RaftCanvas
