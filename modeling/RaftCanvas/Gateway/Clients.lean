import Mathlib.Data.List.Nodup
import Mathlib.Data.List.TakeWhile
import RaftCanvas.Library.Recording
import RaftCanvas.Raft.Json

/-!
# The clients of the gateway

The gateway keeps a set of WebSocket connections.  A broadcast goes through the set: an
open connection is sent the frame, any other is taken out of the set.  A connection hears
every broadcast from the moment it joins until it stops being open, each once and in order.
-/

namespace RaftCanvas

/-- A connection: whether it is `OPEN`, and the frames it was sent. -/
structure Connection where
  isOpen : Bool := true
  sent : List Json := []

/-- The connections in the order they were made, and the set `clients`. -/
structure Hub where
  connections : List Connection := []
  clients : List Nat := []

namespace Hub

/-- What a message of a client holds: `parsed.stroke ?? parsed`.  Text that does not parse
is ignored, and so is `null`, which has no properties. -/
def message (data : Option Json) : Option Json :=
  match data with
  | none | some .null => none
  | some parsed => some ((parsed.field? "stroke").getD parsed)

/-- The payload of a broadcast. -/
def payload (stroke : Json) (logIndex : Option Json) : Json :=
  .obj ([("type", .str "stroke"), ("stroke", stroke)] ++
    (logIndex.map fun logIndex => ("logIndex", logIndex)).toList)

def isOpen (self : Hub) (ws : Nat) : Bool :=
  self.connections[ws]?.any Connection.isOpen

def send (self : Hub) (ws : Nat) (frame : Json) : Hub :=
  { self with
    connections := self.connections.modify ws fun other =>
      { other with sent := other.sent ++ [frame] } }

def delete (self : Hub) (ws : Nat) : Hub :=
  { self with clients := self.clients.filter (· ≠ ws) }

/-- The loop of `POST /broadcast`, with the number of frames sent. -/
def push (frame : Json) : List Nat → Hub × Nat → Hub × Nat
  | [], pushed => pushed
  | ws :: rest, (self, sent) =>
      if self.isOpen ws then push frame rest (self.send ws frame, sent + 1)
      else push frame rest (self.delete ws, sent)

/-- `POST /broadcast`: `sentTo`, or nothing for a 400. -/
def broadcast (self : Hub) (stroke logIndex : Option Json) : Hub × Option Nat :=
  match stroke.filter Json.truthy with
  | none => (self, none)
  | some stroke =>
      let pushed := push (payload stroke logIndex) self.clients (self, 0)
      (pushed.1, some pushed.2)

def connection (self : Hub) : Hub where
  connections := self.connections ++ [{}]
  clients := self.clients ++ [self.connections.length]

/-- The connection leaves `OPEN`; no event has been emitted yet. -/
def shut (self : Hub) (ws : Nat) : Hub :=
  { self with
    connections := self.connections.modify ws fun other => { other with isOpen := false } }

/-- A `close` event, or an `error` event of a connection that may still be open. -/
inductive Action where
  | connection
  | shut (ws : Nat)
  | close (ws : Nat)
  | error (ws : Nat)
  | broadcast (stroke logIndex : Option Json)

def step (self : Hub) : Action → Option Hub
  | .connection => some self.connection
  | .shut ws => some (self.shut ws)
  | .close ws => some ((self.shut ws).delete ws)
  | .error ws => some (self.delete ws)
  | .broadcast stroke logIndex => some (self.broadcast stroke logIndex).1

/-! ## What a broadcast does -/

/-- One round of the loop. -/
def round (frame : Json) (self : Hub) (ws : Nat) : Hub :=
  if self.isOpen ws then self.send ws frame else self.delete ws

theorem round_connections (frame : Json) (self : Hub) (ws other : Nat) :
    (self.round frame ws).connections[other]? = self.connections[other]?.map fun connection =>
      if other = ws ∧ connection.isOpen then
        { connection with sent := connection.sent ++ [frame] } else connection := by
  unfold round
  split
  next opened =>
    simp only [send, List.getElem?_modify]
    cases found : self.connections[other]? with
    | none => simp
    | some connection =>
        by_cases same : ws = other
        · subst same
          have opened : connection.isOpen = true := by simpa [isOpen, found] using opened
          simp [opened]
        · simp [same, Ne.symm same]
  next shut =>
    simp only [delete]
    cases found : self.connections[other]? with
    | none => rfl
    | some connection =>
        by_cases same : other = ws
        · subst same
          have shut : connection.isOpen = false := by simpa [isOpen, found] using shut
          simp [shut]
        · simp [same]

theorem round_isOpen (frame : Json) (self : Hub) (ws other : Nat) :
    (self.round frame ws).isOpen other = self.isOpen other := by
  rw [isOpen, round_connections, isOpen]
  cases self.connections[other]? with
  | none => rfl
  | some connection =>
      simp only [Option.map_some, Option.any_some]
      split <;> rfl

theorem round_clients (frame : Json) (self : Hub) (ws : Nat) :
    (self.round frame ws).clients =
      self.clients.filter fun other => other ≠ ws ∨ self.isOpen ws = true := by
  unfold round
  split
  next opened => simp [send, opened]
  next shut => simp [delete, shut]

/-- A connection after a broadcast to `clients`. -/
def hears (clients : List Nat) (frame : Json) (ws : Nat) (connection : Connection) :
    Connection :=
  if ws ∈ clients ∧ connection.isOpen then
    { connection with sent := connection.sent ++ [frame] } else connection

theorem push_cons (frame : Json) (ws : Nat) (rest : List Nat) (self : Hub) (sent : Nat) :
    push frame (ws :: rest) (self, sent) =
      push frame rest (self.round frame ws, if self.isOpen ws then sent + 1 else sent) := by
  rw [push, round]
  split <;> rfl

/-- Whatever is in the set, only the frame of the broadcast is sent. -/
theorem push_frames {frame : Json} {clients : List Nat} {self : Hub} {count : Nat} :
    ∀ connection ∈ (push frame clients (self, count)).1.connections,
      ∀ other ∈ connection.sent,
        (∃ before ∈ self.connections, other ∈ before.sent) ∨ other = frame := by
  induction clients generalizing self count with
  | nil => exact fun connection member other sent => .inl ⟨connection, member, sent⟩
  | cons ws rest ih =>
      rw [push_cons]
      intro connection member other sent
      rcases ih connection member other sent with ⟨mid, inside, sent⟩ | new
      · obtain ⟨index, found⟩ := List.mem_iff_getElem?.mp inside
        rw [round_connections] at found
        obtain ⟨before, former, rfl⟩ := Option.map_eq_some_iff.mp found
        have old := List.mem_of_getElem? former
        split at sent
        · rcases List.mem_append.mp sent with sent | new
          · exact .inl ⟨before, old, sent⟩
          · exact .inr (List.mem_singleton.mp new)
        · exact .inl ⟨before, old, sent⟩
      · exact .inr new

theorem push_connections (frame : Json) {clients : List Nat} (nodup : clients.Nodup)
    (self : Hub) (sent other : Nat) :
    (push frame clients (self, sent)).1.connections[other]? =
      self.connections[other]?.map (hears clients frame other) := by
  induction clients generalizing self sent with
  | nil =>
      have unheard : hears [] frame other = id := by
        funext connection
        simp [hears]
      rw [push, unheard, Option.map_id, id]
  | cons ws rest ih =>
      obtain ⟨fresh, nodup⟩ := List.nodup_cons.mp nodup
      rw [push_cons, ih nodup, round_connections, Option.map_map]
      congr 1
      funext connection
      simp only [Function.comp_apply, hears, List.mem_cons]
      by_cases same : other = ws
      · subst same
        cases opened : connection.isOpen <;> simp [fresh, opened]
      · simp [same]

theorem push_clients (frame : Json) (clients : List Nat) (self : Hub) (sent : Nat) :
    (push frame clients (self, sent)).1.clients =
      self.clients.filter fun other => other ∉ clients ∨ self.isOpen other = true := by
  induction clients generalizing self sent with
  | nil => simp [push]
  | cons ws rest ih =>
      rw [push_cons, ih, round_clients, List.filter_filter]
      refine List.filter_congr fun other _ => ?_
      simp only [round_isOpen, List.mem_cons]
      by_cases same : other = ws
      · subst same
        cases self.isOpen other <;> simp
      · simp [same]

theorem push_sent (frame : Json) (clients : List Nat) (self : Hub) (sent : Nat) :
    (push frame clients (self, sent)).2 = sent + clients.countP self.isOpen := by
  induction clients generalizing self sent with
  | nil => rfl
  | cons ws rest ih =>
      have same : (self.round frame ws).isOpen = self.isOpen :=
        funext (self.round_isOpen frame ws)
      rw [push_cons, ih, same, List.countP_cons]
      split <;> omega

end Hub

/-! ## What a connection hears -/

/-- What happened to the connections, and the frames of the broadcasts. -/
inductive Notice where
  | joined (ws : Nat)
  | left (ws : Nat)
  | posted (frame : Json)

namespace Notice

def isJoined (ws : Nat) : Notice → Bool
  | .joined other => other = ws
  | _ => false

def isLeft (ws : Nat) : Notice → Bool
  | .left other => other = ws
  | _ => false

def frame? : Notice → Option Json
  | .posted frame => some frame
  | _ => none

/-- The record from the moment a connection joined. -/
def since (ws : Nat) (record : List Notice) : List Notice :=
  record.dropWhile fun notice => !notice.isJoined ws

/-- The frames posted between the joining of a connection and its leaving. -/
def heard (ws : Nat) (record : List Notice) : List Json :=
  ((since ws record).takeWhile fun notice => !notice.isLeft ws).filterMap frame?

/-- Among the first `joined` connections, those that have not left. -/
def listeners (joined : Nat) (record : List Notice) : List Nat :=
  (List.range joined).filter fun ws => (since ws record).all fun notice => !notice.isLeft ws

variable {ws : Nat} {record : List Notice} {notice : Notice}

theorem since_snoc (joined : (since ws record).isEmpty = false) :
    since ws (record ++ [notice]) = since ws record ++ [notice] := by
  unfold since at joined ⊢
  rw [List.dropWhile_append, joined]
  rfl

theorem since_first (fresh : since ws record = []) :
    since ws (record ++ [notice]) = if notice.isJoined ws then [notice] else [] := by
  unfold since at fresh ⊢
  rw [List.dropWhile_append, fresh]
  cases same : notice.isJoined ws <;> simp [same]

theorem since_isEmpty :
    (since ws (record ++ [notice])).isEmpty =
      ((since ws record).isEmpty && !notice.isJoined ws) := by
  cases fresh : since ws record with
  | nil =>
      rw [since_first fresh]
      cases notice.isJoined ws <;> rfl
  | cons first rest =>
      rw [since_snoc (by rw [fresh]; rfl), fresh]
      rfl

theorem listeners_snoc {count : Nat}
    (joined : ∀ ws < count, (since ws record).isEmpty = false) :
    listeners count (record ++ [notice]) =
      (listeners count record).filter fun ws => !notice.isLeft ws := by
  unfold listeners
  rw [List.filter_filter]
  refine List.filter_congr fun ws member => ?_
  rw [since_snoc (joined ws (List.mem_range.mp member)), List.all_append, List.all_cons,
    List.all_nil, Bool.and_true, Bool.and_comm]

theorem heard_snoc (joined : (since ws record).isEmpty = false) :
    heard ws (record ++ [notice]) =
      if (since ws record).all fun notice => !notice.isLeft ws then
        heard ws record ++ notice.frame?.toList
      else heard ws record := by
  unfold heard
  rw [since_snoc joined]
  split
  next listening =>
    have stays := List.all_eq_true.mp listening
    rw [List.takeWhile_append_of_pos stays, List.filterMap_append,
      List.takeWhile_eq_self_iff.mpr stays]
    congr 1
    cases notice with
    | joined other => simp [isLeft, frame?]
    | left other => cases same : isLeft ws (.left other) <;> simp [same, frame?]
    | posted frame => simp [isLeft, frame?]
  next gone =>
    rw [List.takeWhile_append, if_neg]
    intro whole
    refine gone (List.all_eq_true.mpr (List.takeWhile_eq_self_iff.mp ?_))
    exact (List.takeWhile_prefix _).eq_of_length whole

end Notice

namespace Hub

def observe (self : Hub) : Action → List Notice
  | .connection => [.joined self.connections.length]
  | .shut ws | .close ws | .error ws => [.left ws]
  | .broadcast stroke logIndex =>
      ((stroke.filter Json.truthy).map fun stroke =>
        Notice.posted (payload stroke logIndex)).toList

end Hub

def hub : Transition.System Hub Hub.Action where
  init := {}
  step := Hub.step

/-- The hub with the record of its run. -/
def recordedHub : Transition.System (Hub × List Notice) Hub.Action :=
  hub.recording Hub.observe

namespace Hub

open Notice

variable {self : Hub} {record : List Notice} {frame : Json} {ws : Nat}

/-- The set has the connections that did not leave, and those that are no longer open. -/
structure Tuned (state : Hub) (record : List Notice) : Prop where
  nodup : state.clients.Nodup
  known : ∀ ws ∈ state.clients, ws < state.connections.length
  joined : ∀ ws, (since ws record).isEmpty = decide (state.connections.length ≤ ws)
  open_clients : state.clients.filter state.isOpen = listeners state.connections.length record
  heard : ∀ ws connection, state.connections[ws]? = some connection →
    connection.sent = heard ws record

theorem Tuned.mem_listeners (tuned : self.Tuned record) :
    ((since ws record).all fun notice => !notice.isLeft ws) = true ∧
        ws < self.connections.length ↔
      ws ∈ self.clients ∧ self.isOpen ws = true := by
  rw [← List.mem_filter, tuned.open_clients, listeners, List.mem_filter, List.mem_range,
    and_comm]

theorem push_length (frame : Json) (clients : List Nat) (self : Hub) (sent : Nat) :
    (push frame clients (self, sent)).1.connections.length = self.connections.length := by
  induction clients generalizing self sent with
  | nil => rfl
  | cons ws rest ih =>
      rw [push_cons, ih, round]
      split
      · exact List.length_modify ..
      · rfl

theorem push_isOpen (frame : Json) (clients : List Nat) (self : Hub) (sent ws : Nat) :
    (push frame clients (self, sent)).1.isOpen ws = self.isOpen ws := by
  induction clients generalizing self sent with
  | nil => rfl
  | cons first rest ih => rw [push_cons, ih, round_isOpen]

/-- A broadcast reaches the connections that are listening, and leaves them in the set. -/
theorem Tuned.push (tuned : self.Tuned record) (frame : Json) :
    (push frame self.clients (self, 0)).1.clients =
        listeners self.connections.length record ∧
      (push frame self.clients (self, 0)).2 =
        (listeners self.connections.length record).length := by
  rw [push_clients, push_sent, ← tuned.open_clients, Nat.zero_add]
  refine ⟨List.filter_congr fun ws member => ?_, List.countP_eq_length_filter⟩
  simp [member]

theorem Tuned.since_isEmpty (tuned : self.Tuned record) (bound : ws < self.connections.length) :
    (since ws record).isEmpty = false := by
  rw [tuned.joined, decide_eq_false (Nat.not_le.mpr bound)]

theorem Tuned.since_beyond (tuned : self.Tuned record) :
    since self.connections.length record = [] := by
  rw [← List.isEmpty_iff, tuned.joined, decide_eq_true (Nat.le_refl _)]

theorem Tuned.connection (tuned : self.Tuned record) :
    self.connection.Tuned (record ++ [.joined self.connections.length]) := by
  have fresh : self.connections.length ∉ self.clients :=
    fun member => Nat.lt_irrefl _ (tuned.known _ member)
  have others : ∀ ws ∈ self.clients, self.connection.isOpen ws = self.isOpen ws := by
    intro ws member
    rw [isOpen, isOpen, Hub.connection, List.getElem?_append_left (tuned.known ws member)]
  constructor
  · refine List.nodup_append.mpr ⟨tuned.nodup, by simp, fun ws member last found => ?_⟩
    rintro rfl
    exact fresh (List.mem_singleton.mp found ▸ member)
  · intro ws member
    simp only [Hub.connection, List.mem_append, List.mem_singleton, List.length_append,
      List.length_singleton] at member ⊢
    rcases member with member | rfl
    · have := tuned.known ws member
      omega
    · omega
  · intro ws
    rw [Notice.since_isEmpty, tuned.joined]
    simp only [Hub.connection, List.length_append, List.length_singleton, isJoined]
    grind
  · have opened : self.connection.isOpen self.connections.length = true := by
      simp [isOpen, Hub.connection]
    have earlier : listeners self.connections.length
        (record ++ [.joined self.connections.length]) =
          listeners self.connections.length record := by
      rw [listeners_snoc fun ws bound => tuned.since_isEmpty bound]
      exact List.filter_true _
    have listening : ((since self.connections.length
        (record ++ [.joined self.connections.length])).all
          fun notice => !notice.isLeft self.connections.length) = true := by
      rw [since_first tuned.since_beyond]
      simp [isJoined, isLeft]
    calc (self.clients ++ [self.connections.length]).filter self.connection.isOpen
      _ = self.clients.filter self.isOpen ++ [self.connections.length] := by
          rw [List.filter_append, List.filter_congr others]
          simp [opened]
      _ = listeners (self.connections.length + 1)
            (record ++ [.joined self.connections.length]) := by
          rw [tuned.open_clients, ← earlier]
          unfold listeners
          rw [List.range_succ, List.filter_append]
          simp [listening]
      _ = _ := by rw [Hub.connection, List.length_append, List.length_singleton]
  · intro ws connection found
    rw [Hub.connection] at found
    rcases Nat.lt_trichotomy ws self.connections.length with bound | rfl | beyond
    · rw [List.getElem?_append_left bound] at found
      rw [heard_snoc (tuned.since_isEmpty bound), tuned.heard ws connection found]
      simp [frame?]
    · obtain rfl : {} = connection := by simpa using found
      rw [Notice.heard, since_first tuned.since_beyond]
      simp [isJoined, isLeft, frame?]
    · rw [List.getElem?_eq_none (by simpa using Nat.succ_le_of_lt beyond)] at found
      cases found

/-- A connection leaves: it is taken out of the set, or it is no longer open. -/
theorem Tuned.leave {next : Hub} (tuned : self.Tuned record) (nodup : next.clients.Nodup)
    (fewer : ∀ other ∈ next.clients, other ∈ self.clients)
    (sent : ∀ other : Nat, next.connections[other]?.map Connection.sent =
      self.connections[other]?.map Connection.sent)
    (opened : next.clients.filter next.isOpen =
      (self.clients.filter self.isOpen).filter fun other => !decide (other = ws)) :
    next.Tuned (record ++ [.left ws]) := by
  have length : next.connections.length = self.connections.length := by
    have bounds (other : Nat) : next.connections.length ≤ other ↔
        self.connections.length ≤ other := by
      have same := congrArg Option.isNone (sent other)
      rw [Option.isNone_map, Option.isNone_map] at same
      rw [← List.getElem?_eq_none_iff, ← List.getElem?_eq_none_iff,
        ← Option.isNone_iff_eq_none, ← Option.isNone_iff_eq_none, same]
    exact Nat.le_antisymm ((bounds _).mpr (Nat.le_refl _)) ((bounds _).mp (Nat.le_refl _))
  refine ⟨nodup, fun other member => ?_, fun other => ?_, ?_, fun other connection found => ?_⟩
  · rw [length]
    exact tuned.known other (fewer other member)
  · rw [Notice.since_isEmpty, tuned.joined, length]
    simp [isJoined]
  · rw [opened, tuned.open_clients, length,
      listeners_snoc fun ws bound => tuned.since_isEmpty bound]
    refine List.filter_congr fun other _ => ?_
    simp [isLeft, eq_comm]
  · have kept := sent other
    rw [found, Option.map_some] at kept
    obtain ⟨before, former, same⟩ := Option.map_eq_some_iff.mp kept.symm
    have bound := (List.getElem?_eq_some_iff.mp former).1
    rw [heard_snoc (tuned.since_isEmpty bound), ← same, tuned.heard other before former]
    simp [frame?]

theorem Tuned.broadcast (tuned : self.Tuned record) (frame : Json) :
    (Hub.push frame self.clients (self, 0)).1.Tuned (record ++ [.posted frame]) := by
  have pruned := (tuned.push frame).1
  have length := push_length frame self.clients self 0
  have unmoved : listeners self.connections.length (record ++ [.posted frame]) =
      listeners self.connections.length record := by
    rw [listeners_snoc fun ws bound => tuned.since_isEmpty bound]
    exact List.filter_true _
  constructor
  · rw [pruned, ← tuned.open_clients]
    exact tuned.nodup.filter _
  · intro ws member
    rw [pruned, ← tuned.open_clients] at member
    rw [length]
    exact tuned.known ws (List.mem_filter.mp member).1
  · intro ws
    rw [Notice.since_isEmpty, tuned.joined, length]
    simp [isJoined]
  · rw [pruned, length, unmoved, ← tuned.open_clients, List.filter_filter]
    refine List.filter_congr fun ws _ => ?_
    rw [push_isOpen, Bool.and_self]
  · intro ws connection found
    rw [push_connections frame tuned.nodup] at found
    obtain ⟨before, former, rfl⟩ := Option.map_eq_some_iff.mp found
    have bound := (List.getElem?_eq_some_iff.mp former).1
    have opened : self.isOpen ws = before.isOpen := by rw [isOpen, former, Option.any_some]
    have listening : ((since ws record).all fun notice => !notice.isLeft ws) = true ↔
        ws ∈ self.clients ∧ before.isOpen = true := by
      rw [← opened, ← tuned.mem_listeners]
      exact ⟨fun all => ⟨all, bound⟩, And.left⟩
    rw [heard_snoc (tuned.since_isEmpty bound), hears]
    simp only [listening]
    split
    · simp [tuned.heard ws before former, frame?]
    · exact tuned.heard ws before former

theorem isOpen_shut (self : Hub) (ws other : Nat) :
    (self.shut ws).isOpen other = (self.isOpen other && !decide (other = ws)) := by
  rw [isOpen, isOpen, shut]
  simp only [List.getElem?_modify]
  by_cases same : ws = other
  · subst same
    cases self.connections[ws]? <;> simp
  · simp [same, Ne.symm same]

theorem sent_shut (self : Hub) (ws other : Nat) :
    (self.shut ws).connections[other]?.map Connection.sent =
      self.connections[other]?.map Connection.sent := by
  simp only [shut, List.getElem?_modify]
  split <;> simp [Option.map_map, Function.comp_def]

theorem Tuned.step {next : Hub} (tuned : self.Tuned record) {act : Action}
    (stepped : self.step act = some next) : next.Tuned (record ++ self.observe act) := by
  cases act with
  | connection =>
      obtain rfl := Option.some.inj stepped
      exact tuned.connection
  | shut ws =>
      obtain rfl := Option.some.inj stepped
      refine tuned.leave tuned.nodup (fun other member => member) (self.sent_shut ws) ?_
      rw [List.filter_filter]
      refine List.filter_congr fun other _ => ?_
      rw [isOpen_shut, Bool.and_comm]
  | close ws =>
      obtain rfl := Option.some.inj stepped
      refine tuned.leave (tuned.nodup.filter _) (fun other member => ?_)
        (self.sent_shut ws) ?_
      · exact (List.mem_filter.mp member).1
      · rw [delete, List.filter_filter, List.filter_filter]
        refine List.filter_congr fun other _ => ?_
        change ((self.shut ws).isOpen other && _) = _
        rw [isOpen_shut]
        simp [Bool.and_comm]
  | error ws =>
      obtain rfl := Option.some.inj stepped
      refine tuned.leave (tuned.nodup.filter _) (fun other member => ?_)
        (fun other => rfl) ?_
      · exact (List.mem_filter.mp member).1
      · rw [delete, List.filter_filter, List.filter_filter]
        refine List.filter_congr fun other _ => ?_
        change (self.isOpen other && _) = _
        simp [Bool.and_comm]
  | broadcast stroke logIndex =>
      obtain rfl := Option.some.inj stepped
      rw [Hub.broadcast, observe]
      cases stroke.filter Json.truthy with
      | none => simpa using tuned
      | some stroke => exact tuned.broadcast (payload stroke logIndex)

theorem Tuned.reach {state : Hub × List Notice}
    (reached : recordedHub.Reach (fun _ _ => True) state) : state.1.Tuned state.2 := by
  refine Transition.System.Reach.along Tuned ?_ (fun _ _ _ _ _ tuned _ => tuned.step) reached
  exact ⟨.nil, by simp [hub], fun ws => by simp [hub, since], rfl, by simp [hub]⟩

end Hub

/-- A connection is sent every broadcast from its joining to its leaving, once each and in
order, and nothing else; a broadcast counts the connections that are listening and leaves
exactly these in the set. -/
theorem broadcasts_heard {state : Hub × List Notice}
    (reached : recordedHub.Reach (fun _ _ => True) state) :
    (∀ ws connection, state.1.connections[ws]? = some connection →
      connection.sent = Notice.heard ws state.2) ∧
    ∀ stroke logIndex, stroke.truthy = true →
      (state.1.broadcast (some stroke) logIndex).1.clients =
          Notice.listeners state.1.connections.length state.2 ∧
        (state.1.broadcast (some stroke) logIndex).2 =
          some (Notice.listeners state.1.connections.length state.2).length := by
  have tuned := Hub.Tuned.reach reached
  refine ⟨tuned.heard, fun stroke logIndex truthy => ?_⟩
  obtain ⟨pruned, counted⟩ := tuned.push (Hub.payload stroke logIndex)
  have kept : (some stroke).filter Json.truthy = some stroke := by
    rw [Option.filter_some, if_pos truthy]
  rw [Hub.broadcast, kept]
  exact ⟨pruned, congrArg some counted⟩

/-- Two connections, one of which dies unnoticed between two broadcasts. -/
def pruned : List Hub.Action :=
  [.connection, .connection, .broadcast (some (.str "first")) none, .shut 0,
    .broadcast (some (.str "second")) none, .broadcast (some .null) none]

theorem broadcasts_heard_pruned :
    ∃ state, recordedHub.Reach (fun _ _ => True) state ∧
      (state.1.connections.map fun connection => connection.sent.length) = [1, 2] ∧
      (state.1.broadcast (some (.str "third")) none).2 =
        some (Notice.listeners state.1.connections.length state.2).length := by
  obtain ⟨state, reached, lengths⟩ := Transition.System.exists_reach_of_run
    recordedHub (fun _ _ => True) pruned
    (fun state => decide ((state.1.connections.map fun connection =>
      connection.sent.length) = [1, 2])) (by decide +kernel)
  exact ⟨state, reached, of_decide_eq_true lengths,
    ((broadcasts_heard reached).2 (.str "third") none (by decide)).2⟩

end RaftCanvas
