import RaftCanvas.Canvas.History
import RaftCanvas.Raft.Applying

/-!
# The live feed

The leader posts every stroke entry it applies to the gateway, the canvas keeps the
ones that pass the dedupe gate.
-/

namespace RaftCanvas

/-- Body of `POST /broadcast`. -/
structure Broadcast where
  stroke : Json
  logIndex : Int

/-- The `applied` handler of the replica server. -/
def onApplied (role : Role) (entry : LogEntry) : Option Broadcast :=
  if role ≠ .leader ∨ entry.type ≠ .stroke then none
  else some
    { stroke := .obj (Json.spread [] entry.payload.ownProperties)
      logIndex := entry.index }

/-- What the handler posts for the effects of a node in that role. -/
def broadcasts {Id Blob : Type} (role : Role) (effects : List (Effect Id Blob)) :
    List Broadcast :=
  (Effect.events effects).filterMap fun
    | .applied entry => onApplied role entry
    | _ => none

/-- Only applied entries are posted. -/
theorem broadcasts_applied {Id Blob : Type} (role : Role) (entries : List LogEntry)
    {more : List (Effect Id Blob)}
    (quiet : ∀ event ∈ Effect.events more, ∃ index blob, event = .snapshotTaken index blob) :
    broadcasts role (entries.map (fun entry => .event (.applied entry)) ++ more) =
      entries.filterMap (onApplied role) := by
  have silent : (Effect.events more).filterMap (fun
      | .applied entry => onApplied role entry
      | _ => none) = [] := by
    rw [List.filterMap_eq_nil_iff]
    intro event member
    obtain ⟨index, blob, rfl⟩ := quiet event member
    rfl
  have events : Effect.events (entries.map fun entry =>
      (.event (.applied entry) : Effect Id Blob)) = entries.map Event.applied := by
    simp [Effect.events, List.filterMap_map]
  rw [broadcasts, Effect.events_append, events, List.filterMap_append, silent,
    List.append_nil, List.filterMap_map]
  rfl

/-- A live stroke as index and fields, without `clientId` and `seq`. -/
def Broadcast.view (broadcast : Broadcast) : Option Json × Json :=
  (some (.num broadcast.logIndex),
    match broadcast.stroke with
    | .obj fields => .obj (fields.filter fun property =>
        property.1 ≠ "clientId" ∧ property.1 ≠ "seq")
    | other => other)

namespace StateMachine

/-- A stroke of the canvas as index and fields. -/
def view (stroke : Json) : Option Json × Json :=
  (indexOf stroke, strokePayload stroke)

variable {js : Relational} {dedupeMaxClients : Nat}

/-- No stroke of the stretch is turned down, and none has an index of its own. -/
def Unobstructed (js : Relational) (dedupeMaxClients : Nat) (self : StateMachine)
    (stretch : List LogEntry) : Prop :=
  ∀ (position : Nat) (entry : LogEntry), stretch[position]? = some entry →
    entry.type = .stroke →
      (self.applyAll js dedupeMaxClients (stretch.take position)).rejects js entry = false ∧
        ownIndex entry = none

theorem ownProperties_payloadOf (entry : LogEntry) :
    (payloadOf entry).ownProperties = entry.payload.ownProperties := by
  unfold payloadOf
  split
  · rfl
  next falsy =>
      cases payload : entry.payload with
      | obj | arr => simp [payload, Json.truthy] at falsy
      | null | bool | num => rfl
      | str value =>
          obtain rfl : value = "" := by simpa [payload, Json.truthy] using falsy
          rfl

theorem canvasFields_payloadOf (entry : LogEntry) :
    canvasFields (payloadOf entry) = canvasFields entry.payload := by
  rw [canvasFields, ownProperties_payloadOf, ← canvasFields]

/-- Both views of an entry agree exactly if it has no index of its own. -/
theorem view_strokeOf (entry : LogEntry) :
    view (strokeOf entry.index (payloadOf entry)) =
        Broadcast.view ⟨.obj (Json.spread [] entry.payload.ownProperties), entry.index⟩ ↔
      ownIndex entry = none := by
  have live : (Json.spread [] entry.payload.ownProperties).filter (fun property =>
      property.1 ≠ "clientId" ∧ property.1 ≠ "seq") =
        Json.spread [] (canvasFields entry.payload) :=
    Json.filter_spread fun name => decide (name ≠ "clientId" ∧ name ≠ "seq")
  have kept : (Json.spread [("index", .num entry.index)] (canvasFields entry.payload)).filter
      (fun property => property.1 ≠ "index") =
        Json.spread [] ((canvasFields entry.payload).filter fun property =>
          property.1 ≠ "index") :=
    Json.filter_spread fun name => decide (name ≠ "index")
  rw [view, strokeOf, canvasFields_payloadOf, indexOf, strokePayload, Broadcast.view]
  dsimp only
  rw [live, kept, Prod.mk.injEq, Json.obj.injEq]
  constructor
  · rintro ⟨_, same⟩
    by_contra own
    have held : ((Json.spread [] (canvasFields entry.payload)).lookup "index").isSome =
        true := Json.lookup_spread_isSome (Or.inr (Option.isSome_iff_ne_none.mpr own))
    have missing : ((canvasFields entry.payload).filter fun property =>
        property.1 ≠ "index").lookup "index" = none := by
      rw [List.lookup_eq_none_iff]
      intro property member
      exact bne_iff_ne.mpr fun same => absurd same.symm
        (by simpa using (List.mem_filter.mp member).2)
    rw [← same, Json.lookup_spread_of_none missing] at held
    simp at held
  · intro plain
    rw [ownIndex_none_iff.mp plain, Json.lookup_spread_of_none plain]
    exact ⟨rfl, rfl⟩

theorem accepted_sublist (js : Relational) (dedupeMaxClients : Nat) (self : StateMachine)
    (entries : List LogEntry) :
    (self.accepted js dedupeMaxClients entries).Sublist
      (entries.filter fun entry => entry.type = .stroke) := by
  induction entries generalizing self with
  | nil => exact List.nil_sublist _
  | cons entry entries ih =>
      rw [accepted]
      split
      next gate =>
          have stroke : entry.type = .stroke := by
            simp only [accepts, Bool.and_eq_true, decide_eq_true_eq] at gate
            exact gate.1.2
          rw [List.filter_cons_of_pos (by simpa using stroke)]
          exact (ih _).cons_cons entry
      next =>
          rw [List.nil_append]
          exact (ih _).trans ((List.sublist_cons_self entry entries).filter _)

/-- All strokes are accepted exactly if each is as its turn comes. -/
theorem accepted_eq_iff (self : StateMachine) (entries : List LogEntry) :
    self.accepted js dedupeMaxClients entries =
        entries.filter (fun entry => entry.type = .stroke) ↔
      ∀ (position : Nat) (entry : LogEntry), entries[position]? = some entry →
        entry.type = .stroke →
          (self.applyAll js dedupeMaxClients (entries.take position)).accepts js entry =
            true := by
  induction entries generalizing self with
  | nil => simp [accepted]
  | cons first entries ih =>
      have split : (∀ (position : Nat) (entry : LogEntry),
          (first :: entries)[position]? = some entry → entry.type = .stroke →
            (self.applyAll js dedupeMaxClients ((first :: entries).take position)).accepts
              js entry = true) ↔
          (first.type = .stroke → self.accepts js first = true) ∧
          ∀ (position : Nat) (entry : LogEntry), entries[position]? = some entry →
            entry.type = .stroke →
              ((self.apply js dedupeMaxClients first).applyAll js dedupeMaxClients
                (entries.take position)).accepts js entry = true := by
        constructor
        · exact fun all => ⟨all 0 first rfl, fun position entry found =>
            all (position + 1) entry found⟩
        · rintro ⟨head, tail⟩ (_ | position) entry found
          · obtain rfl : first = entry := by simpa using found
            exact head
          · exact tail position entry found
      rw [split, ← ih, accepted]
      by_cases gate : self.accepts js first = true
      · have stroke : first.type = .stroke := by
          simp only [accepts, Bool.and_eq_true, decide_eq_true_eq] at gate
          exact gate.1.2
        simp [gate, stroke]
      · by_cases stroke : first.type = .stroke
        · have short := (accepted_sublist js dedupeMaxClients
            (self.apply js dedupeMaxClients first) entries).length_le
          refine iff_of_false (fun same => ?_) fun both => gate (both.1 stroke)
          have counted := congrArg List.length same
          simp only [gate, stroke, decide_true, List.filter_cons_of_pos] at counted
          simp at counted
          omega
        · simp [gate, stroke]

theorem posted_eq (stretch : List LogEntry) :
    (stretch.filterMap (onApplied .leader)).map Broadcast.view =
      (stretch.filter fun entry => entry.type = .stroke).map fun entry =>
        Broadcast.view ⟨.obj (Json.spread [] entry.payload.ownProperties), entry.index⟩ := by
  induction stretch with
  | nil => rfl
  | cons entry stretch ih =>
      by_cases stroke : entry.type = .stroke
      · rw [List.filterMap_cons_some (show onApplied .leader entry = some _ by
          simp only [onApplied, stroke, ne_eq, not_true, or_self, if_false]; rfl),
          List.filter_cons_of_pos (by simpa using stroke), List.map_cons, List.map_cons, ih]
      · rw [List.filterMap_cons_none (by simp [onApplied, stroke]),
          List.filter_cons_of_neg (by simpa using stroke), ih]

/-- A stretch in which every entry is new when its turn comes. -/
theorem feed_iff (self : StateMachine) (stretch : List LogEntry)
    (fresh : ∀ (position : Nat) (entry : LogEntry), stretch[position]? = some entry →
      (self.applyAll js dedupeMaxClients (stretch.take position)).lastApplied <
        entry.index) :
    (stretch.filterMap (onApplied .leader)).map Broadcast.view =
        ((self.accepted js dedupeMaxClients stretch).map fun entry =>
          strokeOf entry.index (payloadOf entry)).map view ↔
      Unobstructed js dedupeMaxClients self stretch := by
  have gate : ∀ (position : Nat) (entry : LogEntry), stretch[position]? = some entry →
      entry.type = .stroke →
      ((self.applyAll js dedupeMaxClients (stretch.take position)).accepts js entry = true ↔
        (self.applyAll js dedupeMaxClients (stretch.take position)).rejects js entry =
          false) := by
    intro position entry found stroke
    simp [accepts, fresh position entry found, stroke]
  rw [posted_eq, List.map_map]
  constructor
  · intro same position entry found stroke
    -- as many strokes were pushed as were posted, so all were
    have all := (accepted_sublist js dedupeMaxClients self stretch).eq_of_length
      (by simpa using (congrArg List.length same).symm)
    rw [all] at same
    have views := List.map_inj_left.mp same entry
      (List.mem_filter.mpr ⟨List.mem_of_getElem? found, by simpa using stroke⟩)
    exact ⟨(gate position entry found stroke).mp
      ((accepted_eq_iff self stretch).mp all position entry found stroke),
      (view_strokeOf entry).mp views.symm⟩
  · intro free
    have all := (accepted_eq_iff self stretch).mpr fun position entry found stroke =>
      (gate position entry found stroke).mpr (free position entry found stroke).1
    rw [all]
    refine List.map_congr_left fun entry member => ?_
    obtain ⟨inside, stroke⟩ := List.mem_filter.mp member
    obtain ⟨position, found⟩ := List.mem_iff_getElem?.mp inside
    exact ((view_strokeOf entry).mpr
      (free position entry found (of_decide_eq_true stroke)).2).symm

end StateMachine

/-! ## The node -/

namespace Node

variable {Id : Type} {js : Relational} {dedupeMaxClients : Nat}

/-- `this.stateMachine` of a replica. -/
def canvas (self : Node Id (StateMachine.machine js dedupeMaxClients)) : StateMachine :=
  self.stateMachine

/-- Every committable entry is new when its turn comes. -/
theorem committable_fresh (self : Node Id (StateMachine.machine js dedupeMaxClients))
    (position : Nat) (entry : LogEntry) (found : self.committable[position]? = some entry) :
    (self.canvas.applyAll js dedupeMaxClients (self.committable.take position)).lastApplied <
      entry.index := by
  have within : position ≤ self.committable.length :=
    (List.getElem?_eq_some_iff.mp found).1.le
  have applied := (StateMachine.machine js dedupeMaxClients).lastApplied_stretch self.db
    self.stateMachine (self.commitIndex - self.lastApplied).toNat within
  have index := Database.stretch_index found
  exact applied.trans_lt (by rw [index]; simp only [lastApplied]; omega)

/-- While a leader applies, it posts the strokes that the canvas gains, if and only if
the gate turns none of them down and none brings an index of its own. -/
theorem live_feed_exact (config : Config Id)
    (self : Node Id (StateMachine.machine js dedupeMaxClients))
    (leads : self.role = .leader) :
    (broadcasts (self.began.applyCommitted config).role
        (self.began.applyCommitted config).trace).map Broadcast.view =
      ((self.began.applyCommitted config).canvas.strokes.drop
        self.canvas.strokes.length).map StateMachine.view ↔
    StateMachine.Unobstructed js dedupeMaxClients self.canvas self.committable := by
  obtain ⟨db, more, applied, quiet⟩ := self.began.applyCommitted_eq config
  have strokes : (self.began.applyCommitted config).canvas.strokes =
      self.canvas.strokes ++
        (self.canvas.accepted js dedupeMaxClients self.committable).map fun entry =>
          StateMachine.strokeOf entry.index (StateMachine.payloadOf entry) := by
    rw [applied]
    exact StateMachine.strokes_applyAll js dedupeMaxClients self.canvas self.committable
  have posted : broadcasts (self.began.applyCommitted config).role
      (self.began.applyCommitted config).trace =
        self.committable.filterMap (onApplied .leader) := by
    rw [applied]
    refine (broadcasts_applied self.role self.committable quiet).trans ?_
    rw [leads]
  rw [posted, strokes, List.drop_left]
  exact StateMachine.feed_iff self.canvas self.committable self.committable_fresh

/-- A leader about to apply two committed strokes. -/
def drawing (seq : Int) : Node (Fin 3) (StateMachine.machine .numeric 10) :=
  { start { Database.empty with
      log := ⟨[StateMachine.strokeBy 0 "a" 1, StateMachine.strokeBy 1 "a" seq],
        by simp [StateMachine.strokeBy]⟩ } with
    role := .leader
    commitIndex := 1 }

def threeReplicas : Config (Fin 3) where
  replicaId := 0
  peers := [1, 2]
  snapshotThreshold := 100

theorem live_feed_exact_fresh :
    (broadcasts ((drawing 2).began.applyCommitted threeReplicas).role
        ((drawing 2).began.applyCommitted threeReplicas).trace).map Broadcast.view =
      (((drawing 2).began.applyCommitted threeReplicas).canvas.strokes.drop
        (drawing 2).canvas.strokes.length).map StateMachine.view := by
  refine (live_feed_exact threeReplicas (drawing 2) rfl).mpr ?_
  have stretch : (drawing 2).committable =
      [StateMachine.strokeBy 0 "a" 1, StateMachine.strokeBy 1 "a" 2] := rfl
  rw [stretch]
  rintro (_ | _ | position) entry found stroke
  · obtain rfl := Option.some.inj found
    exact ⟨rfl, rfl⟩
  · obtain rfl := Option.some.inj found
    exact ⟨by decide +kernel, rfl⟩
  · simp at found

/-- A stroke committed twice is posted twice and drawn once. -/
theorem live_feed_exact_repeated :
    (drawing 1).role = .leader ∧
    (broadcasts ((drawing 1).began.applyCommitted threeReplicas).role
        ((drawing 1).began.applyCommitted threeReplicas).trace).map Broadcast.view ≠
      (((drawing 1).began.applyCommitted threeReplicas).canvas.strokes.drop
        (drawing 1).canvas.strokes.length).map StateMachine.view := by
  refine ⟨rfl, fun same => ?_⟩
  have counted := congrArg List.length same
  exact absurd counted (by decide +kernel)

end Node

end RaftCanvas
