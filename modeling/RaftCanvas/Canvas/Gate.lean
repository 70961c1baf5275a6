import RaftCanvas.Raft.StateMachine

/-!
# The dedupe gate

What `apply` does to strokes and table depends on one test, whether the entry is a
stroke that the table does not already answer for.
-/

namespace RaftCanvas

namespace StateMachine

/-- `clientId` and `seq`, if both are there. -/
def keyOf (entry : LogEntry) : Option (Json × Json) :=
  match entry.payload.field? "clientId", entry.payload.field? "seq" with
  | some clientId, some seq => some (clientId, seq)
  | _, _ => none

/-- A stroke with nothing but its key. -/
def strokeBy (index : Int) (client : String) (seq : Int) : LogEntry where
  index
  term := 1
  type := .stroke
  payload := .obj [("clientId", .str client), ("seq", .num seq)]

@[simp] theorem keyOf_strokeBy (index : Int) (client : String) (seq : Int) :
    keyOf (strokeBy index client seq) = some (.str client, .num seq) := rfl

theorem field?_payloadOf (entry : LogEntry) (key : String) :
    (payloadOf entry).field? key = entry.payload.field? key := by
  unfold payloadOf
  split
  · rfl
  next falsy =>
      cases payload : entry.payload with
      | obj => simp [payload, Json.truthy] at falsy
      | null | bool | num | str | arr => simp [Json.field?]

section Gate

variable (js : Relational) (dedupeMaxClients : Nat)

/-- The table answers for the entry's key. -/
def rejects (self : StateMachine) (entry : LogEntry) : Bool :=
  match keyOf entry with
  | some (clientId, seq) => (self.getDedupeIndex js clientId seq).isSome
  | none => false

/-- The entry is new and its stroke goes onto the canvas. -/
def accepts (self : StateMachine) (entry : LogEntry) : Bool :=
  decide (self.lastApplied < entry.index) && decide (entry.type = .stroke) &&
    !self.rejects js entry

/-- The table after the entry, if it is accepted. -/
def touched (self : StateMachine) (entry : LogEntry) : DedupeTable :=
  match keyOf entry with
  | some (clientId, seq) =>
      (self.touchDedupe dedupeMaxClients clientId seq entry.index).dedupe
  | none => self.dedupe

variable {js dedupeMaxClients} {self : StateMachine} {entry : LogEntry}

/-- An accepted entry. -/
theorem apply_accepted (accepted : self.accepts js entry = true) :
    self.apply js dedupeMaxClients entry =
      { strokes := self.strokes ++ [strokeOf entry.index (payloadOf entry)]
        lastApplied := entry.index
        dedupe := self.touched dedupeMaxClients entry } := by
  simp only [accepts, rejects, Bool.and_eq_true, decide_eq_true_eq, Bool.not_eq_true'] at accepted
  obtain ⟨⟨fresh, type⟩, free⟩ := accepted
  simp only [apply, touched, keyOf, field?_payloadOf, Int.not_le.mpr fresh, type, if_false]
  cases client : entry.payload.field? "clientId" with
  | none => rfl
  | some clientId =>
      cases number : entry.payload.field? "seq" with
      | none => rfl
      | some seq =>
          simp only [keyOf, client, number, getDedupeIndex] at free
          cases known : self.dedupe.get clientId with
          | none => simp [pushStroke, touchDedupe, known]
          | some prev =>
              rw [known] at free
              cases newer : js.ge prev.seq seq with
              | true => simp [newer] at free
              | false => simp [pushStroke, touchDedupe, known, newer]

/-- Any other new entry only counts as applied. -/
theorem apply_skipped (fresh : self.lastApplied < entry.index)
    (skipped : self.accepts js entry = false) :
    self.apply js dedupeMaxClients entry = { self with lastApplied := entry.index } := by
  simp only [accepts, rejects, fresh, decide_true, Bool.true_and] at skipped
  simp only [apply, field?_payloadOf, Int.not_le.mpr fresh, if_false]
  cases type : entry.type with
  | noop => rfl
  | stroke =>
      simp only [type, decide_true, Bool.true_and, Bool.not_eq_false'] at skipped
      unfold keyOf at skipped
      cases client : entry.payload.field? "clientId" with
      | none => simp [client] at skipped
      | some clientId =>
          cases number : entry.payload.field? "seq" with
          | none => simp [client, number] at skipped
          | some seq =>
              simp only [client, number, getDedupeIndex] at skipped
              cases known : self.dedupe.get clientId with
              | none => simp [known] at skipped
              | some prev =>
                  rw [known] at skipped
                  cases newer : js.ge prev.seq seq with
                  | true => simp [known, newer]
                  | false => simp [newer] at skipped

theorem apply_stale (stale : entry.index ≤ self.lastApplied) :
    self.apply js dedupeMaxClients entry = self := by
  simp [apply, stale]

/-- The strokes grow exactly by what is accepted. -/
theorem strokes_apply : (self.apply js dedupeMaxClients entry).strokes = self.strokes ++
    if self.accepts js entry then [strokeOf entry.index (payloadOf entry)] else [] := by
  by_cases accepted : self.accepts js entry = true
  · rw [apply_accepted accepted, if_pos accepted]
  · rw [if_neg accepted, List.append_nil]
    by_cases fresh : self.lastApplied < entry.index
    · rw [apply_skipped fresh (Bool.eq_false_iff.mpr accepted)]
    · rw [apply_stale (Int.not_lt.mp fresh)]

/-- The table changes exactly with what is accepted. -/
theorem dedupe_apply : (self.apply js dedupeMaxClients entry).dedupe =
    if self.accepts js entry then self.touched dedupeMaxClients entry else self.dedupe := by
  by_cases accepted : self.accepts js entry = true
  · rw [apply_accepted accepted, if_pos accepted]
  · rw [if_neg accepted]
    by_cases fresh : self.lastApplied < entry.index
    · rw [apply_skipped fresh (Bool.eq_false_iff.mpr accepted)]
    · rw [apply_stale (Int.not_lt.mp fresh)]

theorem accepts_iff : self.accepts js entry = true ↔
    (self.apply js dedupeMaxClients entry).strokes =
      self.strokes ++ [strokeOf entry.index (payloadOf entry)] := by
  rw [strokes_apply, List.append_cancel_left_eq]
  split <;> simp_all

/-! ## Stretches of a log -/

variable (js dedupeMaxClients self)

/-- Apply several entries. -/
def applyAll (entries : List LogEntry) : StateMachine :=
  entries.foldl (apply js dedupeMaxClients) self

/-- The entries of a stretch whose strokes go onto the canvas. -/
def accepted (self : StateMachine) : List LogEntry → List LogEntry
  | [] => []
  | entry :: rest =>
      (if self.accepts js entry then [entry] else []) ++
        accepted (self.apply js dedupeMaxClients entry) rest

@[simp] theorem applyAll_nil : self.applyAll js dedupeMaxClients [] = self := rfl

@[simp] theorem applyAll_cons (entry : LogEntry) (rest : List LogEntry) :
    self.applyAll js dedupeMaxClients (entry :: rest) =
      (self.apply js dedupeMaxClients entry).applyAll js dedupeMaxClients rest := rfl

theorem applyAll_append (left right : List LogEntry) :
    self.applyAll js dedupeMaxClients (left ++ right) =
      (self.applyAll js dedupeMaxClients left).applyAll js dedupeMaxClients right :=
  List.foldl_append

theorem accepted_append (left right : List LogEntry) :
    self.accepted js dedupeMaxClients (left ++ right) =
      self.accepted js dedupeMaxClients left ++
        (self.applyAll js dedupeMaxClients left).accepted js dedupeMaxClients right := by
  induction left generalizing self with
  | nil => rfl
  | cons entry left ih => simp [accepted, ih]

theorem accepted_concat (entries : List LogEntry) (entry : LogEntry) :
    self.accepted js dedupeMaxClients (entries ++ [entry]) =
      self.accepted js dedupeMaxClients entries ++
        if (self.applyAll js dedupeMaxClients entries).accepts js entry then [entry]
        else [] := by
  rw [accepted_append]
  simp [accepted]

/-- The strokes a stretch adds are those of its accepted entries. -/
theorem strokes_applyAll (entries : List LogEntry) :
    (self.applyAll js dedupeMaxClients entries).strokes = self.strokes ++
      (self.accepted js dedupeMaxClients entries).map fun entry =>
        strokeOf entry.index (payloadOf entry) := by
  induction entries generalizing self with
  | nil => simp [accepted]
  | cons entry entries ih =>
      rw [applyAll_cons, ih, strokes_apply, accepted, List.map_append, List.append_assoc]
      split <;> simp

variable {js dedupeMaxClients self}

theorem mem_accepted {entries : List LogEntry} {entry : LogEntry} :
    entry ∈ self.accepted js dedupeMaxClients entries ↔
      ∃ position, entries[position]? = some entry ∧
        (self.applyAll js dedupeMaxClients (entries.take position)).accepts js entry = true := by
  induction entries generalizing self with
  | nil => simp [accepted]
  | cons first rest ih =>
      rw [accepted, List.mem_append, ih]
      constructor
      · rintro (own | ⟨position, found, gate⟩)
        · split at own
          next gate =>
              obtain rfl := List.mem_singleton.mp own
              exact ⟨0, rfl, gate⟩
          next => simp at own
        · exact ⟨position + 1, found, gate⟩
      · rintro ⟨_ | position, found, gate⟩
        · obtain rfl : first = entry := by simpa using found
          refine Or.inl ?_
          rw [if_pos (by simpa using gate)]
          exact List.mem_singleton.mpr rfl
        · exact Or.inr ⟨position, found, gate⟩

end Gate

end StateMachine

end RaftCanvas
