import RaftCanvas.Raft.Persistence

/-!
# Remote calls, suspended operations and observable events
-/

namespace RaftCanvas

/-- Body of `/request-vote`. -/
structure RequestVote (Id : Type) where
  term : Nat
  candidateId : Id
  lastLogIndex : Int
  lastLogTerm : Int

/-- Body of `/append-entries`. -/
structure AppendEntries (Id : Type) where
  term : Nat
  leaderId : Id
  prevLogIndex : Int
  prevLogTerm : Int
  entries : List LogEntry
  leaderCommit : Int

/-- Body of `/install-snapshot`. -/
structure InstallSnapshot (Id Blob : Type) where
  term : Nat
  leaderId : Id
  lastIncludedIndex : Int
  lastIncludedTerm : Int
  data : Blob

inductive Request (Id Blob : Type) where
  | requestVote (body : RequestVote Id)
  | appendEntries (body : AppendEntries Id)
  | installSnapshot (body : InstallSnapshot Id Blob)

/-- Any reply body; a field the handler does not set reads as falsy. -/
structure Reply where
  term : Nat
  voteGranted : Bool := false
  success : Bool := false
  logLength : Option Int := none
  deriving DecidableEq

/-- An operation suspended at its `await`, with the locals it still uses. -/
inductive Await (Id : Type) where
  | election (termAtStart : Nat)
  | appendEntries (peer : Id) (next prevLogIndex : Int) (entries : List LogEntry)
  | installSnapshot (peer : Id) (lastIncludedIndex : Int)
  | readIndex (id : Nat) (readIdx : Int) (termAtStart : Nat)

/-- One `transport.call` or `transport.broadcast`: the same body to every target. -/
structure Call (Id Blob : Type) where
  src : Id
  targets : List Id
  request : Request Id Blob
  await : Await Id

/-- `err.code` of the failures a client sees. -/
inductive ErrorCode where
  | notLeader
  | lostLeadership
  | commitTimeout
  | leaderWarmingUp
  | leadershipUnconfirmed
  deriving DecidableEq

/-- What `submit` resolves to. -/
structure SubmitResult where
  index : Int
  term : Nat
  deduped : Bool := false
  deriving DecidableEq

/-- What can be observed of a node: emitted events, snapshots, settled calls.
`submitResolved` names the entry the call appended, `readReturned` the value of
`lastApplied` at the return. -/
inductive Event (Blob : Type) where
  | role (role : Role) (term : Nat)
  | applied (entry : LogEntry)
  | commit (index : Int)
  | snapshotTaken (index : Int) (state : Blob)
  | snapshotInstalled (index : Int) (state : Blob)
  | submitResolved (id : Nat) (appended : Option LogEntry) (result : SubmitResult)
  | submitRejected (id : Nat) (code : ErrorCode)
  | readCalled (id : Nat)
  | readReturned (id : Nat) (readIndex : Int) (term : Nat) (lastApplied : Int)
  | readRejected (id : Nat) (code : ErrorCode)

/-- The externally visible effects of one synchronous stretch of code, in order.
A crash cuts the list at any point. -/
inductive Effect (Id Blob : Type) where
  | write (db : Database Id Blob)
  | event (event : Event Blob)
  | send (call : Call Id Blob)

namespace Effect

variable {Id Blob : Type}

/-- The file after the effects, if any of them wrote it. -/
def lastWrite : List (Effect Id Blob) → Option (Database Id Blob)
  | [] => none
  | .write db :: rest => (lastWrite rest).getD db
  | _ :: rest => lastWrite rest

/-- The file after effects that began with the file `db`. -/
def file (db : Database Id Blob) (effects : List (Effect Id Blob)) : Database Id Blob :=
  (lastWrite effects).getD db

def events (effects : List (Effect Id Blob)) : List (Event Blob) :=
  effects.filterMap fun
    | .event seen => some seen
    | _ => none

def sends (effects : List (Effect Id Blob)) : List (Call Id Blob) :=
  effects.filterMap fun
    | .send call => some call
    | _ => none

@[simp] theorem file_nil (db : Database Id Blob) : file db [] = db := rfl

@[simp] theorem file_cons_write (before db : Database Id Blob)
    (rest : List (Effect Id Blob)) : file before (.write db :: rest) = file db rest := rfl

@[simp] theorem file_cons_event (db : Database Id Blob) (event : Event Blob)
    (rest : List (Effect Id Blob)) : file db (.event event :: rest) = file db rest := rfl

@[simp] theorem file_cons_send (db : Database Id Blob) (call : Call Id Blob)
    (rest : List (Effect Id Blob)) : file db (.send call :: rest) = file db rest := rfl

@[simp] theorem file_append (db : Database Id Blob) (left right : List (Effect Id Blob)) :
    file db (left ++ right) = file (file db left) right := by
  induction left generalizing db with
  | nil => rfl
  | cons effect rest ih => cases effect <;> simp [ih]

@[simp] theorem events_nil : events ([] : List (Effect Id Blob)) = [] := rfl

@[simp] theorem events_append (left right : List (Effect Id Blob)) :
    events (left ++ right) = events left ++ events right :=
  List.filterMap_append

@[simp] theorem sends_nil : sends ([] : List (Effect Id Blob)) = [] := rfl

@[simp] theorem sends_append (left right : List (Effect Id Blob)) :
    sends (left ++ right) = sends left ++ sends right :=
  List.filterMap_append

@[simp] theorem events_cons_write (db : Database Id Blob)
    (rest : List (Effect Id Blob)) : events (.write db :: rest) = events rest := rfl

@[simp] theorem events_cons_event (event : Event Blob) (rest : List (Effect Id Blob)) :
    events (.event event :: rest) = event :: events rest := rfl

@[simp] theorem events_cons_send (call : Call Id Blob) (rest : List (Effect Id Blob)) :
    events (.send call :: rest) = events rest := rfl

@[simp] theorem sends_cons_write (db : Database Id Blob)
    (rest : List (Effect Id Blob)) : sends (.write db :: rest) = sends rest := rfl

@[simp] theorem sends_cons_event (event : Event Blob) (rest : List (Effect Id Blob)) :
    sends (.event event :: rest) = sends rest := rfl

@[simp] theorem sends_cons_send (call : Call Id Blob) (rest : List (Effect Id Blob)) :
    sends (.send call :: rest) = call :: sends rest := rfl

/-- Cutting effects off drops observations from the end. -/
theorem events_prefix {done effects : List (Effect Id Blob)} (cut : done <+: effects) :
    events done <+: events effects :=
  cut.filterMap _

theorem sends_prefix {done effects : List (Effect Id Blob)} (cut : done <+: effects) :
    sends done <+: sends effects :=
  cut.filterMap _

/-- `property` holds wherever a crash may cut the effects off. -/
def Always (property : List (Effect Id Blob) → Prop)
    (effects : List (Effect Id Blob)) : Prop :=
  ∀ done, done <+: effects → property done

@[simp] theorem always_nil {property : List (Effect Id Blob) → Prop} :
    Always property [] ↔ property [] := by
  simp [Always]

theorem always_append {property : List (Effect Id Blob) → Prop}
    {left right : List (Effect Id Blob)} :
    Always property (left ++ right) ↔
      Always property left ∧ Always (fun done => property (left ++ done)) right := by
  constructor
  · intro always
    exact ⟨fun done cut => always done (cut.trans (List.prefix_append _ _)),
      fun done cut => always _ ((List.prefix_append_right_inj left).mpr cut)⟩
  · rintro ⟨before, after⟩ done cut
    rcases List.prefix_or_prefix_of_prefix cut (List.prefix_append left right) with
      inside | ⟨rest, rfl⟩
    · exact before done inside
    · exact after rest ((List.prefix_append_right_inj left).mp cut)

@[simp] theorem always_singleton {property : List (Effect Id Blob) → Prop}
    {effect : Effect Id Blob} :
    Always property [effect] ↔ property [] ∧ property [effect] := by
  simp only [Always, List.prefix_cons_iff, List.prefix_nil]
  constructor
  · intro always
    exact ⟨always [] (Or.inl rfl), always [effect] (Or.inr ⟨[], rfl, rfl⟩)⟩
  · rintro ⟨none, all⟩ done (rfl | ⟨rest, rfl, rfl⟩)
    · exact none
    · exact all

theorem always_concat {property : List (Effect Id Blob) → Prop}
    {effects : List (Effect Id Blob)} {effect : Effect Id Blob} :
    Always property (effects ++ [effect]) ↔
      Always property effects ∧ property (effects ++ [effect]) := by
  rw [always_append, always_singleton, List.append_nil]
  exact ⟨fun ⟨before, _, last⟩ => ⟨before, last⟩,
    fun ⟨before, last⟩ => ⟨before, before effects List.prefix_rfl, last⟩⟩

theorem Always.self {property : List (Effect Id Blob) → Prop}
    {effects : List (Effect Id Blob)} (always : Always property effects) :
    property effects :=
  always effects List.prefix_rfl

end Effect

end RaftCanvas
