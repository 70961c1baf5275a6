import RaftCanvas.Canvas.Gate
import RaftCanvas.Raft.Persistence

/-!
# History replay

`getLogEntries` reads the log index of a stroke from the stroke itself, next to the
client's own fields.  It is exact as long as no client sends a field of that name.
-/

namespace RaftCanvas

/-- A log has one entry at an index. -/
theorem Indexed.eq_of_index {log : List LogEntry} (indexed : Indexed log)
    {left right : LogEntry} (leftMember : left ∈ log) (rightMember : right ∈ log)
    (same : left.index = right.index) : left = right := by
  obtain ⟨position, found⟩ := List.mem_iff_getElem?.mp leftMember
  obtain ⟨position', found'⟩ := List.mem_iff_getElem?.mp rightMember
  have own := indexed position left found
  have own' := indexed position' right found'
  obtain rfl : position = position' := by omega
  exact Option.some.inj (found.symm.trans found')

/-- How SQLite compares a bound value with the integer column `idx`: binding may throw,
and a value may equal no integer. -/
structure Binding where
  bind : Json → Option (Option Int)
  bind_num : ∀ index : Int, bind (.num index) = some (some index)

/-- `persistence.getEntry(value)` for a value that came out of a stroke. -/
def Database.getEntryBy {Id Blob : Type} (db : Database Id Blob) (binding : Binding)
    (value : Json) : Option (Option LogEntry) :=
  (binding.bind value).map fun key => key.bind db.getEntry

/-- One element of what `GET /log` answers. -/
structure LogElement where
  index : Json
  term : Option Nat
  stroke : Json

namespace StateMachine

/-- `stroke.index` -/
def indexOf : Json → Option Json
  | .obj fields => fields.lookup "index"
  | _ => none

/-- `const { index, ...strokePayload } = stroke` -/
def strokePayload : Json → Json
  | .obj fields => .obj (fields.filter fun property => property.1 ≠ "index")
  | other => other

section History

variable (js : Relational)

def getStrokesFrom (self : StateMachine) (fromIndex : Int) : List Json :=
  if fromIndex ≤ 0 then self.strokes
  else self.strokes.filter fun stroke =>
    (indexOf stroke).any fun index => js.ge index (.num fromIndex)

/-- `getLogEntries`; `none` if a lookup throws.  JavaScript computes `a <= b` as
`b >= a`. -/
def getLogEntries {Id Blob : Type} (binding : Binding) (db : Database Id Blob)
    (self : StateMachine) (fromIndex toIndex : Int) : Option (List LogElement) :=
  ((self.getStrokesFrom js fromIndex).filter fun stroke =>
    (indexOf stroke).any fun index => js.ge (.num toIndex) index).mapM fun stroke =>
      let index := (indexOf stroke).getD .null
      (db.getEntryBy binding index).map fun entry =>
        { index, term := entry.map LogEntry.term, stroke := strokePayload stroke }

/-! ## What the answer should be -/

/-- The entry's log index lies in the range. -/
def InRange (fromIndex toIndex : Int) (entry : LogEntry) : Prop :=
  max fromIndex 0 ≤ entry.index ∧ entry.index ≤ toIndex

instance (fromIndex toIndex : Int) : DecidablePred (InRange fromIndex toIndex) :=
  fun _ => inferInstanceAs (Decidable (_ ∧ _))

/-- What is to be answered for an entry, if the log is compacted up to `compacted`. -/
def elementOf (compacted : Int) (entry : LogEntry) : LogElement where
  index := .num entry.index
  term := if compacted < entry.index then some entry.term else none
  stroke := .obj (canvasFields entry.payload)

/-- The payload's own field `index`. -/
def ownIndex (entry : LogEntry) : Option Json :=
  (canvasFields entry.payload).lookup "index"

/-- A value of `index` that both filters let through. -/
def Passes (fromIndex toIndex : Int) (value : Json) : Prop :=
  (fromIndex ≤ 0 ∨ js.ge value (.num fromIndex) = true) ∧ js.ge (.num toIndex) value = true

instance (fromIndex toIndex : Int) : DecidablePred (Passes js fromIndex toIndex) :=
  fun _ => inferInstanceAs (Decidable (_ ∧ _))

/-- A payload as `JSON.parse` gives it: an object, each name once. -/
def ObjectPayload (entry : LogEntry) : Prop :=
  ∃ fields, entry.payload = .obj fields ∧ (fields.map Prod.fst).Nodup

end History

/-! ## Strokes -/

section Strokes

variable {entry : LogEntry}

theorem ObjectPayload.canvasFields_nodup (object : ObjectPayload entry) :
    ((canvasFields entry.payload).map Prod.fst).Nodup := by
  obtain ⟨fields, payload, distinct⟩ := object
  rw [payload]
  exact distinct.sublist (List.filter_sublist.map _)

theorem ObjectPayload.payloadOf_eq (object : ObjectPayload entry) :
    payloadOf entry = entry.payload := by
  obtain ⟨fields, payload, _⟩ := object
  rw [payloadOf, payload]
  rfl

/-- A stroke carries the log index, unless the client sent one. -/
theorem indexOf_strokeOf (object : ObjectPayload entry) :
    indexOf (strokeOf entry.index (payloadOf entry)) =
      some ((ownIndex entry).getD (.num entry.index)) := by
  rw [object.payloadOf_eq, strokeOf, indexOf, Json.lookup_spread object.canvasFields_nodup,
    ← ownIndex]
  cases ownIndex entry <;> rfl

/-- The rest of a stroke never has a field `index`. -/
theorem strokePayload_strokeOf (object : ObjectPayload entry) :
    strokePayload (strokeOf entry.index (payloadOf entry)) =
      .obj ((canvasFields entry.payload).filter fun property => property.1 ≠ "index") := by
  have distinct := object.canvasFields_nodup
  rw [object.payloadOf_eq, strokeOf, strokePayload]
  refine congrArg Json.obj ?_
  rw [Json.filter_spread fun name => decide (name ≠ "index")]
  exact Json.spread_eq_append (distinct.sublist (List.filter_sublist.map _))

theorem ownIndex_none_iff : ownIndex entry = none ↔
    (canvasFields entry.payload).filter (fun property => property.1 ≠ "index") =
      canvasFields entry.payload := by
  rw [ownIndex, List.lookup_eq_none_iff, List.filter_eq_self]
  refine forall₂_congr fun property _ => ?_
  rw [bne_iff_ne, decide_eq_true_eq]
  exact ne_comm

end Strokes

/-! ## The answer -/

theorem mapM_eq_some_iff {Item Value : Type} {f : Item → Option Value} {items : List Item}
    {values : List Value} :
    items.mapM f = some values ↔ items.map f = values.map some := by
  induction items generalizing values with
  | nil => cases values <;> simp
  | cons item items ih =>
      cases values with
      | nil => cases item' : f item <;> cases rest : items.mapM f <;> simp [item', rest]
      | cons value values =>
          rw [List.map_cons, List.map_cons, List.cons.injEq, ← ih]
          cases item' : f item <;> cases rest : items.mapM f <;> simp [item', rest]

theorem filter_mapM_map {Item Other Value : Type} {rename : Item → Other}
    {keep : Other → Bool} {keep' : Item → Bool} {f : Other → Option Value}
    {f' : Item → Option Value} {items : List Item}
    (same : ∀ item ∈ items, keep (rename item) = keep' item ∧ f (rename item) = f' item) :
    ((items.map rename).filter keep).mapM f = (items.filter keep').mapM f' := by
  induction items with
  | nil => rfl
  | cons item items ih =>
      obtain ⟨kept, value⟩ := same item List.mem_cons_self
      have rest := ih fun other member => same other (List.mem_cons_of_mem _ member)
      rw [List.map_cons, List.filter_cons, List.filter_cons, kept]
      split
      · rw [List.mapM_cons, List.mapM_cons, rest, value]
      · exact rest

section Answer

variable (js : Relational) (dedupeMaxClients : Nat) {Id Blob : Type}

/-- What `getLogEntries` makes of the stroke of an accepted entry. -/
def answerOf (binding : Binding) (db : Database Id Blob) (entry : LogEntry) :
    Option LogElement :=
  (db.getEntryBy binding ((ownIndex entry).getD (.num entry.index))).map fun found =>
    { index := (ownIndex entry).getD (.num entry.index)
      term := found.map LogEntry.term
      stroke := .obj ((canvasFields entry.payload).filter fun property =>
        property.1 ≠ "index") }

variable {js dedupeMaxClients} {binding : Binding} {db : Database Id Blob}

/-- The answer in terms of the entries whose strokes are on the canvas. -/
theorem getLogEntries_eq {self : StateMachine} {entries : List LogEntry}
    (strokes : self.strokes = entries.map fun entry =>
      strokeOf entry.index (payloadOf entry))
    (objects : ∀ entry ∈ entries, ObjectPayload entry) (fromIndex toIndex : Int) :
    getLogEntries js binding db self fromIndex toIndex =
      (entries.filter fun entry => Passes js fromIndex toIndex
        ((ownIndex entry).getD (.num entry.index))).mapM (answerOf binding db) := by
  have both : (self.getStrokesFrom js fromIndex).filter (fun stroke =>
      (indexOf stroke).any fun index => js.ge (.num toIndex) index) =
        self.strokes.filter fun stroke =>
          (indexOf stroke).any fun index => Passes js fromIndex toIndex index := by
    unfold getStrokesFrom
    split
    next low => exact List.filter_congr fun stroke _ => by simp [Passes, low]
    next high =>
        rw [List.filter_filter]
        refine List.filter_congr fun stroke _ => ?_
        cases indexOf stroke with
        | none => rfl
        | some index => simp [Passes, high, Bool.and_comm]
  rw [getLogEntries, both, strokes]
  refine filter_mapM_map fun entry member => ⟨?_, ?_⟩
  · rw [indexOf_strokeOf (objects entry member), Option.any_some]
  · simp only [indexOf_strokeOf (objects entry member),
      strokePayload_strokeOf (objects entry member), Option.getD_some]
    rfl

/-- An entry without an index of its own is answered for as it should be. -/
theorem answerOf_plain {log : List LogEntry} (indexed : Indexed log) {compacted : Int}
    (rows : db.log.rows = log.filter fun entry => compacted < entry.index)
    {entry : LogEntry} (member : entry ∈ log) (plain : ownIndex entry = none) :
    answerOf binding db entry = some (elementOf compacted entry) := by
  have held : (db.getEntry entry.index).map LogEntry.term =
      if compacted < entry.index then some entry.term else none := by
    split
    next kept =>
        have row : entry ∈ db.log.rows := by
          rw [rows]
          exact List.mem_filter.mpr ⟨member, by simpa using kept⟩
        obtain ⟨found, read⟩ := Option.isSome_iff_exists.mp
          (Database.getEntry_isSome.mpr ⟨entry, row, rfl⟩)
        obtain ⟨inside, same⟩ := Database.getEntry_mem read
        rw [rows] at inside
        rw [read, indexed.eq_of_index (List.mem_filter.mp inside).1 member same,
          Option.map_some]
    next gone =>
        cases read : db.getEntry entry.index with
        | none => rfl
        | some found =>
            obtain ⟨inside, same⟩ := Database.getEntry_mem read
            rw [rows] at inside
            have above := (List.mem_filter.mp inside).2
            simp only [decide_eq_true_eq] at above
            omega
  simp only [answerOf, plain, Option.getD_none, Database.getEntryBy, binding.bind_num,
    Option.map_some, Option.bind_some, held, ownIndex_none_iff.mp plain]
  rfl

/-- An answer for every entry in the range says that none of them has an index of its
own: the answered strokes have lost that field. -/
theorem plain_of_answered {answered expected : List LogEntry} {compacted : Int}
    (same : answered.map (answerOf binding db) =
      (expected.map (elementOf compacted)).map some) :
    ∀ entry ∈ expected, ownIndex entry = none := by
  intro entry member
  have target : some (elementOf compacted entry) ∈ answered.map (answerOf binding db) := by
    rw [same]
    exact List.mem_map_of_mem (List.mem_map_of_mem member)
  obtain ⟨source, _, answer⟩ := List.mem_map.mp target
  obtain ⟨_, _, element⟩ := Option.map_eq_some_iff.mp answer
  have stroke := congrArg LogElement.stroke element
  simp only [elementOf, Json.obj.injEq] at stroke
  rw [ownIndex_none_iff, ← stroke, List.filter_filter]
  exact List.filter_congr fun property _ => by simp

/-- An index of its own by which a payload leaves the range, enters it or gets lost. -/
def Intrudes (js : Relational) (fromIndex toIndex : Int) (entry : LogEntry) : Prop :=
  ∃ value, ownIndex entry = some value ∧
    (InRange fromIndex toIndex entry ∨ Passes js fromIndex toIndex value)

/-- Of entries without an index of their own the range and the filters take the same. -/
theorem passes_iff_inRange {log : List LogEntry} (indexed : Indexed log)
    {entry : LogEntry} (member : entry ∈ log) (fromIndex toIndex : Int) :
    Passes js fromIndex toIndex (.num entry.index) ↔ InRange fromIndex toIndex entry := by
  obtain ⟨position, found⟩ := List.mem_iff_getElem?.mp member
  have own := indexed position entry found
  simp only [Passes, InRange, js.ge_num, decide_eq_true_eq, Rat.intCast_le_intCast]
  omega

theorem answered_iff {log entries : List LogEntry} (indexed : Indexed log)
    {compacted : Int} (rows : db.log.rows = log.filter fun entry => compacted < entry.index)
    (inside : ∀ entry ∈ entries, entry ∈ log) (fromIndex toIndex : Int) :
    (entries.filter fun entry => Passes js fromIndex toIndex
        ((ownIndex entry).getD (.num entry.index))).map (answerOf binding db) =
      ((entries.filter fun entry => InRange fromIndex toIndex entry).map
        (elementOf compacted)).map some ↔
    ∀ entry ∈ entries, ¬Intrudes js fromIndex toIndex entry := by
  constructor
  · intro same
    have plain := plain_of_answered same
    -- what is in the range is answered for, and the number of answers is right
    have through : ∀ entry ∈ entries, InRange fromIndex toIndex entry →
        Passes js fromIndex toIndex ((ownIndex entry).getD (.num entry.index)) := by
      intro entry member ranges
      rw [plain entry (List.mem_filter.mpr ⟨member, by simpa using ranges⟩), Option.getD_none]
      exact (passes_iff_inRange indexed (inside entry member) _ _).mpr ranges
    have nested : entries.filter (fun entry => InRange fromIndex toIndex entry) =
        (entries.filter fun entry => Passes js fromIndex toIndex
          ((ownIndex entry).getD (.num entry.index))).filter
            fun entry => InRange fromIndex toIndex entry := by
      rw [List.filter_filter]
      refine List.filter_congr fun entry member => ?_
      by_cases ranges : InRange fromIndex toIndex entry
      · simp [ranges, through entry member ranges]
      · simp [ranges]
    have counted := congrArg List.length same
    rw [List.length_map, List.length_map, List.length_map, nested] at counted
    have all := List.length_filter_eq_length_iff.mp counted.symm
    rintro entry member ⟨value, own, ranges | passes⟩
    · rw [plain entry (List.mem_filter.mpr ⟨member, by simpa using ranges⟩)] at own
      simp at own
    · have ranges := all entry (List.mem_filter.mpr ⟨member, by simpa [own] using passes⟩)
      rw [plain entry (List.mem_filter.mpr ⟨member, ranges⟩)] at own
      simp at own
  · intro harmless
    have filters : (entries.filter fun entry => Passes js fromIndex toIndex
        ((ownIndex entry).getD (.num entry.index))) =
          entries.filter fun entry => InRange fromIndex toIndex entry := by
      refine List.filter_congr fun entry member => ?_
      rw [decide_eq_decide]
      cases own : ownIndex entry with
      | none => exact passes_iff_inRange indexed (inside entry member) _ _
      | some value =>
          have away := harmless entry member
          exact iff_of_false (fun passes => away ⟨value, own, Or.inr passes⟩)
            fun ranges => away ⟨value, own, Or.inl ranges⟩
    rw [filters, List.map_map]
    refine List.map_congr_left fun entry member => ?_
    obtain ⟨member, ranges⟩ := List.mem_filter.mp member
    refine answerOf_plain indexed rows (inside entry member) ?_
    by_contra own
    obtain ⟨value, own⟩ := Option.ne_none_iff_exists'.mp own
    exact harmless entry member ⟨value, own, Or.inl (by simpa using ranges)⟩

end Answer

/-! ## A history with and without a client's index -/

/-- Numbers find the row with that index, nothing else finds one. -/
def numbersOnly : Binding where
  bind
    | .num value => some (if value.den = 1 then some value.num else none)
    | .null | .str _ => some none
    | .bool _ | .arr _ | .obj _ => none
  bind_num index := by simp

/-- Two strokes, of which the first is only in the snapshot. -/
def plainLog : List LogEntry :=
  [⟨0, 1, .stroke, .obj [("clientId", .str "a"), ("seq", .num 1), ("x", .num 4)]⟩,
    ⟨1, 2, .stroke, .obj [("x", .num 5)]⟩]

end StateMachine

end RaftCanvas
