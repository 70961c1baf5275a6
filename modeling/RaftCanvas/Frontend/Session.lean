import RaftCanvas.Frontend.Tab

/-!
# What a tab keeps

Of all the sockets that a tab has opened only the last one can act: the others are closed
and have no handlers.  Either that socket is alive or the reconnect timer is armed, never
both and never neither.  While it is open, every stroke that waits for its echo has been
sent on it.
-/

namespace RaftCanvas.Frontend

namespace Tab

/-- The sockets of a tab: those given up, and the one that `ws` refers to. -/
structure Wired (state : Tab) (retired : List Socket) (current : Socket) : Prop where
  ws : state.page.ws = some retired.length
  sockets : state.sockets = retired ++ [current]
  retired : ∀ other ∈ retired, other.readyState = .closed ∧ other.attached = false
  attached : current.attached = true

/-- What the label in the page shows. -/
def Shows (page : Page) (current : Socket) : Prop :=
  page.status = match current.readyState with
    | .connecting => .connecting
    | .opened | .closing => .connected
    | .closed => .reconnecting

/-- The waits before reconnecting: each is half as long again as the one before, up to
ten seconds. -/
def delays : List Rat := [2000, 3000, 4500, 6750, 10000]

/-- The page agrees with the state of its socket. -/
structure Agrees (page : Page) (current : Socket) : Prop where
  armed : page.reconnectTimer.isSome = true ↔ current.readyState = .closed
  delay : page.reconnectDelay ∈ delays
  timer : ∀ delay ∈ page.reconnectTimer, delay ∈ delays
  resting : current.readyState = .opened → page.isReconnecting = false
  overlay : page.overlayHidden = false → page.isReconnecting = true
  shows : Shows page current

/-- The stored identity is the page's. -/
structure Identified (state : Tab) : Prop where
  named : state.page.clientId ≠ ""
  clientId : state.storage.clientId = some state.page.clientId
  seq : state.storage.seq.getD 0 = state.page.seqCounter

/-- Every stroke that waits for its echo was sent on the open socket. -/
def Queued (page : Page) (current : Socket) : Prop :=
  current.readyState = .opened → page.pendingStrokes.Sublist current.sent

namespace Wired

variable {self : Tab} {retired : List Socket} {current : Socket}

theorem socket_eq (wired : self.Wired retired current) : self.socket = some current := by
  simp [socket, wired.ws, wired.sockets]

theorem onSocket_eq (wired : self.Wired retired current) (change : Socket → Socket) :
    self.onSocket change = { self with sockets := retired ++ [change current] } := by
  simp [onSocket, wired.ws, wired.sockets, List.modify_eq_set_getElem?]

theorem send_eq (wired : self.Wired retired current) (strokes : List Stroke) :
    self.send strokes =
      if current.readyState = .opened then
        { self with sockets := retired ++ [current.send strokes] }
      else self := by
  simp [send, wired.socket_eq, wired.onSocket_eq]

theorem connectWebSocket_eq (wired : self.Wired retired current) :
    self.connectWebSocket =
      { self with
        sockets := retired ++ [current.detach.close] ++ [{}]
        page := { self.page with
          status := .connecting
          ws := some (retired.length + 1) } } := by
  simp [connectWebSocket, wired.onSocket_eq]

/-- Only the last socket can still change its state, and its handlers are set. -/
theorem fire_eq (wired : self.Wired retired current) {index : Nat}
    (test : ReadyState → Bool) (alive : test .closed = false)
    (enabled : self.sockets[index]?.any (fun ws => test ws.readyState) = true)
    (readyState : ReadyState) (handler : Tab → Tab) :
    self.sockets[index]? = some current ∧ test current.readyState = true ∧
      self.fire index readyState handler =
        handler { self with sockets := retired ++ [{ current with readyState }] } := by
  obtain ⟨socket, found, passes⟩ := (Option.any_eq_true _ _).mp enabled
  have last : index = retired.length := by
    rw [wired.sockets] at found
    rcases Nat.lt_trichotomy index retired.length with before | same | after
    · -- A socket given up is closed.
      rw [List.getElem?_append_left before] at found
      have closed := (wired.retired socket (List.mem_of_getElem? found)).1
      rw [closed, alive] at passes
      cases passes
    · exact same
    · rw [List.getElem?_eq_none (by simp; omega)] at found
      cases found
  have same : self.sockets[index]? = some current := by
    simp [last, wired.sockets]
  obtain rfl := Option.some.inj (found.symm.trans same)
  refine ⟨same, passes, ?_⟩
  simp [fire, wired.attached, last, wired.sockets, List.modify_eq_set_getElem?]

/-- The handshake ends the reconnecting and sends the whole queue. -/
theorem opened_cases (wired : self.Wired retired current) {index : Nat} {next : Tab}
    (stepped : self.opened index = some next) :
    current.readyState = .connecting ∧ next = { self with
      page := { self.page with
        status := .connected
        reconnectDelay := 2000
        isReconnecting := false
        overlayHidden := true }
      sockets := retired ++
        [{ current with readyState := .opened }.send self.page.pendingStrokes] } := by
  simp only [opened, Option.ite_none_right_eq_some] at stepped
  obtain ⟨enabled, fired⟩ := stepped
  obtain ⟨_, connecting, fires⟩ := wired.fire_eq (fun readyState => readyState = .connecting) rfl
    enabled .opened onopen
  refine ⟨of_decide_eq_true connecting, (Option.some.inj fired).symm.trans ?_⟩
  rw [fires]
  let open_ : Tab := { self with
    page := { self.page with
      status := .connected, reconnectDelay := 2000, isReconnecting := false,
      overlayHidden := true }
    sockets := retired ++ [{ current with readyState := .opened }] }
  have rewired : open_.Wired retired { current with readyState := .opened } :=
    ⟨wired.ws, rfl, wired.retired, wired.attached⟩
  exact rewired.send_eq self.page.pendingStrokes

theorem closing_cases (wired : self.Wired retired current) {index : Nat} {next : Tab}
    (stepped : self.closing index = some next) :
    current.readyState = .opened ∧ next = { self with
      sockets := retired ++ [{ current with readyState := .closing }] } := by
  simp only [closing, Option.ite_none_right_eq_some] at stepped
  obtain ⟨enabled, fired⟩ := stepped
  obtain ⟨_, opened, fires⟩ := wired.fire_eq (fun readyState => readyState = .opened) rfl
    enabled .closing id
  exact ⟨of_decide_eq_true opened, (Option.some.inj fired).symm.trans fires⟩

/-- A connection that goes down is followed by a reconnect. -/
theorem closed_cases (wired : self.Wired retired current) {index : Nat} {error : Bool}
    {next : Tab} (stepped : self.closed index error = some next) :
    current.readyState ≠ .closed ∧ next = scheduleReconnect { self with
      page := { self.page with status := .disconnected }
      sockets := retired ++ [{ current with readyState := .closed }] } := by
  simp only [closed, Option.ite_none_right_eq_some] at stepped
  obtain ⟨enabled, fired⟩ := stepped
  obtain ⟨_, alive, fires⟩ := wired.fire_eq (fun readyState => readyState ≠ .closed) rfl enabled
    .closed fun self => (if error then self.onerror else self).onclose
  refine ⟨of_decide_eq_true alive, (Option.some.inj fired).symm.trans ?_⟩
  rw [fires]
  cases error with
  | false => rfl
  | true =>
      -- Closing a closed socket does nothing.
      let down : Tab := { self with
        sockets := retired ++ [{ current with readyState := .closed }] }
      have rewired : down.Wired retired { current with readyState := .closed } :=
        ⟨wired.ws, rfl, wired.retired, wired.attached⟩
      exact congrArg onclose (rewired.onSocket_eq Socket.close)

theorem message_cases (wired : self.Wired retired current) {index : Nat}
    {data : Option Json} {next : Tab} (stepped : self.message index data = some next) :
    self.sockets[index]? = some current ∧ current.readyState = .opened ∧
      next = self.onmessage data := by
  simp only [message, Option.ite_none_right_eq_some] at stepped
  obtain ⟨enabled, fired⟩ := stepped
  obtain ⟨found, opened, fires⟩ := wired.fire_eq (fun readyState => readyState = .opened) rfl
    enabled .opened fun self => self.onmessage data
  have opened := of_decide_eq_true opened
  refine ⟨found, opened, (Option.some.inj fired).symm.trans (fires.trans ?_)⟩
  rw [← opened, ← wired.sockets]

end Wired

/-- `crypto.randomUUID` returns no empty string. -/
def Fresh (_ : Tab) : Action → Prop
  | .reload uuid => uuid ≠ ""
  | _ => True

instance (state : Tab) (action : Action) : Decidable (state.Fresh action) := by
  unfold Fresh
  split <;> infer_instance

/-- Everything a tab keeps about its connection. -/
structure Sound (state : Tab) (retired : List Socket) (current : Socket) : Prop where
  wired : state.Wired retired current
  agrees : Agrees state.page current
  identified : state.Identified
  queued : Queued state.page current

/-- The part of a page that its connection depends on. -/
def connection (page : Page) :=
  (page.ws, page.reconnectTimer, page.reconnectDelay, page.isReconnecting,
    page.overlayHidden, page.status, page.clientId, page.seqCounter, page.pendingStrokes)

namespace Sound

variable {self : Tab} {retired : List Socket} {current : Socket}

/-- Drawing tools and the canvas do not touch the connection. -/
theorem quiet (sound : self.Sound retired current) {page : Page}
    (same : connection page = connection self.page) :
    Sound { self with page } retired current := by
  simp only [connection, Prod.mk.injEq] at same
  obtain ⟨ws, timer, delay, reconnecting, overlay, status, clientId, seq, pending⟩ := same
  refine ⟨⟨?_, sound.wired.sockets, sound.wired.retired, sound.wired.attached⟩,
    ⟨?_, ?_, ?_, ?_, ?_, ?_⟩, ⟨?_, ?_, ?_⟩, ?_⟩
  · exact ws.trans sound.wired.ws
  · rw [timer]; exact sound.agrees.armed
  · rw [delay]; exact sound.agrees.delay
  · rw [timer]; exact sound.agrees.timer
  · rw [reconnecting]; exact sound.agrees.resting
  · rw [overlay, reconnecting]; exact sound.agrees.overlay
  · exact status.trans sound.agrees.shows
  · exact clientId ▸ sound.identified.named
  · exact sound.identified.clientId.trans (congrArg some clientId.symm)
  · exact sound.identified.seq.trans seq.symm
  · intro opened
    exact pending ▸ sound.queued opened

/-- A new stroke waits for its echo, and is sent at once if the socket is open. -/
theorem sendStroke (sound : self.Sound retired current) (x1 y1 x2 y2 : Rat) :
    Sound (self.sendStroke x1 y1 x2 y2) retired
      (if current.readyState = .opened then
        current.send [self.makeStroke x1 y1 x2 y2] else current) := by
  obtain ⟨wired, agrees, identified, queued⟩ := sound
  let waiting : Tab := { self.nextSeq with page := { self.nextSeq.page with
    pendingStrokes := self.page.pendingStrokes ++ [self.makeStroke x1 y1 x2 y2] } }
  have pushed : waiting.Wired retired current :=
    ⟨wired.ws, wired.sockets, wired.retired, wired.attached⟩
  show Sound (waiting.send [self.makeStroke x1 y1 x2 y2]) retired _
  rw [pushed.send_eq]
  split
  next opened =>
    exact ⟨⟨pushed.ws, rfl, pushed.retired, pushed.attached⟩,
      ⟨agrees.armed, agrees.delay, agrees.timer, agrees.resting, agrees.overlay,
        agrees.shows⟩,
      ⟨identified.named, identified.clientId, rfl⟩,
      fun _ => (queued opened).append (List.Sublist.refl _)⟩
  next shut =>
    exact ⟨pushed, ⟨agrees.armed, agrees.delay, agrees.timer, agrees.resting, agrees.overlay,
      agrees.shows⟩, ⟨identified.named, identified.clientId, rfl⟩,
      fun opened => absurd opened shut⟩

theorem stroke (sound : self.Sound retired current) (x1 y1 x2 y2 : Rat) :
    Sound (self.stroke x1 y1 x2 y2) retired
      (if current.readyState = .opened then
        current.send [self.makeStroke x1 y1 x2 y2] else current) := by
  unfold Tab.stroke
  refine Sound.sendStroke (sound.quiet ?_) x1 y1 x2 y2
  rfl

theorem opened (sound : self.Sound retired current) {index : Nat} {next : Tab}
    (stepped : self.opened index = some next) :
    ∃ current, current.readyState = .opened ∧ next.Sound retired current := by
  obtain ⟨wired, agrees, identified, _⟩ := sound
  obtain ⟨connecting, rfl⟩ := wired.opened_cases stepped
  have unarmed : self.page.reconnectTimer.isSome ≠ true := by
    rw [ne_eq, agrees.armed, connecting]
    nofun
  refine ⟨_, rfl, ⟨wired.ws, rfl, wired.retired, wired.attached⟩,
    ⟨⟨fun armed => absurd armed unarmed, nofun⟩, .head _, agrees.timer, fun _ => rfl,
      nofun, rfl⟩,
    ⟨identified.named, identified.clientId, identified.seq⟩,
    fun _ => List.sublist_append_right _ _⟩

theorem closing (sound : self.Sound retired current) {index : Nat} {next : Tab}
    (stepped : self.closing index = some next) : ∃ current, next.Sound retired current := by
  obtain ⟨wired, agrees, identified, _⟩ := sound
  obtain ⟨opened, rfl⟩ := wired.closing_cases stepped
  have unarmed : self.page.reconnectTimer.isSome ≠ true := by
    rw [ne_eq, agrees.armed, opened]
    nofun
  have shows := agrees.shows
  rw [Shows, opened] at shows
  exact ⟨_, ⟨wired.ws, rfl, wired.retired, wired.attached⟩,
    ⟨⟨fun armed => absurd armed unarmed, nofun⟩, agrees.delay, agrees.timer, nofun,
      agrees.overlay, shows⟩,
    ⟨identified.named, identified.clientId, identified.seq⟩, nofun⟩

theorem closed (sound : self.Sound retired current) {index : Nat} {error : Bool}
    {next : Tab} (stepped : self.closed index error = some next) :
    ∃ current, current.readyState = .closed ∧ next.Sound retired current := by
  obtain ⟨wired, agrees, identified, _⟩ := sound
  obtain ⟨alive, rfl⟩ := wired.closed_cases stepped
  have unarmed : ¬ self.page.reconnectTimer.isSome = true := by
    rwa [agrees.armed]
  rw [scheduleReconnect, if_neg unarmed]
  refine ⟨_, rfl, ⟨wired.ws, rfl, wired.retired, wired.attached⟩,
    ⟨⟨fun _ => rfl, fun _ => rfl⟩, agrees.delay, ?_, nofun, fun _ => rfl, rfl⟩,
    ⟨identified.named, identified.clientId, identified.seq⟩, nofun⟩
  rintro delay ⟨⟩
  exact agrees.delay

theorem onmessage (sound : self.Sound retired current) (data : Option Json) :
    Sound (self.onmessage data) retired current := by
  have shorter (pendingStrokes : List Stroke)
      (fewer : pendingStrokes.Sublist self.page.pendingStrokes) :
      Sound { self with page := { self.page with pendingStrokes } } retired current := by
    obtain ⟨wired, agrees, identified, queued⟩ := sound
    exact ⟨⟨wired.ws, wired.sockets, wired.retired, wired.attached⟩,
      ⟨agrees.armed, agrees.delay, agrees.timer, agrees.resting, agrees.overlay,
        agrees.shows⟩,
      ⟨identified.named, identified.clientId, identified.seq⟩,
      fun opened => fewer.trans (queued opened)⟩
  have echoed (s : Json) : Sound (self.onStroke s) retired current := by
    unfold onStroke
    split
    · exact shorter _ (List.eraseP_sublist)
    · exact sound.quiet rfl
  have raised {self : Tab} (sound : self.Sound retired current) (logIndex : Option Json) :
      Sound (self.raiseLogIndex logIndex) retired current := by
    unfold raiseLogIndex
    split
    · split
      · exact sound.quiet rfl
      · exact sound
    · exact sound
  unfold Tab.onmessage
  split
  · exact sound
  · split
    · exact raised (echoed _) _
    · exact sound

theorem delays_backoff {delay : Rat} (member : delay ∈ delays) : backoff delay ∈ delays := by
  simp only [delays, List.mem_cons, List.not_mem_nil, or_false] at member
  rcases member with rfl | rfl | rfl | rfl | rfl <;> decide +kernel

theorem reconnect (sound : self.Sound retired current) {next : Tab}
    (stepped : self.reconnect = some next) :
    current.readyState = .closed ∧ next.Sound (retired ++ [current.detach]) {} := by
  obtain ⟨wired, agrees, identified, _⟩ := sound
  simp only [Tab.reconnect, Option.ite_none_right_eq_some] at stepped
  obtain ⟨armed, fired⟩ := stepped
  have closed := agrees.armed.mp armed
  have given : current.detach.close = current.detach := by
    simp [Socket.close, Socket.detach, closed]
  let due : Tab := { self with page := { self.page with reconnectTimer := none } }
  have rewired : due.Wired retired current :=
    ⟨wired.ws, wired.sockets, wired.retired, wired.attached⟩
  have connects := rewired.connectWebSocket_eq
  rw [given] at connects
  change some { due.connectWebSocket with page := { due.connectWebSocket.page with
    reconnectDelay := backoff due.connectWebSocket.page.reconnectDelay } } = _ at fired
  rw [connects] at fired
  obtain rfl := Option.some.inj fired
  refine ⟨closed, ⟨?_, rfl, ?_, rfl⟩,
    ⟨⟨nofun, nofun⟩, delays_backoff agrees.delay, nofun, nofun, agrees.overlay, rfl⟩,
    ⟨identified.named, identified.clientId, identified.seq⟩, nofun⟩
  · simp
  · intro other member
    rcases List.mem_append.mp member with earlier | last
    · exact wired.retired other earlier
    · obtain rfl := List.mem_singleton.mp last
      exact ⟨closed, rfl⟩

theorem showOverlay (sound : self.Sound retired current) {next : Tab}
    (stepped : self.showOverlay = some next) : next.Sound retired current := by
  obtain ⟨wired, agrees, identified, queued⟩ := sound
  unfold Tab.showOverlay at stepped
  split at stepped
  · cases stepped
  next overlayTimers _ =>
    obtain rfl := Option.some.inj stepped
    refine ⟨⟨wired.ws, wired.sockets, wired.retired, wired.attached⟩,
      ⟨agrees.armed, agrees.delay, agrees.timer, agrees.resting, ?_, agrees.shows⟩,
      ⟨identified.named, identified.clientId, identified.seq⟩, queued⟩
    intro shown
    have overlay := agrees.overlay
    cases reconnecting : self.page.isReconnecting with
    | true => rfl
    | false =>
        rw [reconnecting] at overlay
        simp only [reconnecting, Bool.not_false, Bool.and_true] at shown
        exact overlay shown

/-- The first socket of a page. -/
theorem load {location : Location} {storage : Storage} {sockets : List Socket}
    {uuid : String} (fresh : uuid ≠ "")
    (retired : ∀ other ∈ sockets, other.readyState = .closed ∧ other.attached = false) :
    Sound (load location storage sockets uuid) sockets {} := by
  refine ⟨⟨rfl, rfl, retired, rfl⟩,
    ⟨⟨nofun, nofun⟩, .head _, nofun, nofun, nofun, rfl⟩, ⟨?_, rfl, rfl⟩, nofun⟩
  show (storage.clientId.filter (· ≠ "")).getD uuid ≠ ""
  cases found : storage.clientId.filter (· ≠ "") with
  | none => exact fresh
  | some clientId => simpa using (Option.filter_eq_some_iff.mp found).2

theorem step (sound : self.Sound retired current) {action : Action} {next : Tab}
    (fresh : self.Fresh action) (stepped : self.step action = some next) :
    ∃ retired current, next.Sound retired current := by
  cases action with
  | pointerDown x y =>
      obtain rfl := Option.some.inj stepped
      unfold onPointerDown
      refine ⟨_, _, Sound.stroke (sound.quiet ?_) _ _ _ _⟩
      rfl
  | pointerMove x y =>
      obtain rfl := Option.some.inj stepped
      unfold onPointerMove
      split
      · exact ⟨_, _, Sound.quiet (sound.stroke _ _ _ _) rfl⟩
      · exact ⟨_, _, sound⟩
  | opened index =>
      obtain ⟨_, _, opened⟩ := sound.opened stepped
      exact ⟨_, _, opened⟩
  | closing index => exact ⟨_, sound.closing stepped⟩
  | closed index error =>
      obtain ⟨_, _, closed⟩ := sound.closed stepped
      exact ⟨_, _, closed⟩
  | message index data =>
      obtain ⟨_, _, rfl⟩ := sound.wired.message_cases stepped
      exact ⟨_, _, sound.onmessage data⟩
  | reconnectTimer => exact ⟨_, _, (sound.reconnect stepped).2⟩
  | reload uuid =>
      obtain rfl := Option.some.inj stepped
      refine ⟨_, _, load fresh ?_⟩
      simp
  | overlayTimer => exact ⟨_, _, sound.showOverlay stepped⟩
  | replayTimer =>
      simp only [Tab.step, Tab.replayTimer, Option.ite_none_right_eq_some] at stepped
      obtain ⟨_, fired⟩ := stepped
      obtain rfl := Option.some.inj fired
      exact ⟨_, _, sound.quiet rfl⟩
  | history response =>
      simp only [Tab.step, Tab.history] at stepped
      split at stepped
      · split at stepped <;>
          obtain rfl := Option.some.inj stepped <;>
          exact ⟨_, _, sound.quiet rfl⟩
      · cases stepped
  | pointerUp | clear | swatch color | customColor color | brushSize size =>
      obtain rfl := Option.some.inj stepped
      exact ⟨_, _, sound.quiet rfl⟩
  | eraser =>
      obtain rfl := Option.some.inj stepped
      unfold toggleEraser
      split <;> exact ⟨_, _, sound.quiet rfl⟩

theorem reach {location : Location} {uuid : String} (fresh : uuid ≠ "") {state : Tab}
    (reached : (tab location uuid).Reach Fresh state) :
    ∃ retired current, state.Sound retired current := by
  induction reached with
  | init => exact ⟨[], {}, load fresh nofun⟩
  | step _ permitted stepped ih =>
      obtain ⟨retired, current, sound⟩ := ih
      exact sound.step permitted stepped

/-! ## Recovery -/

/-- The events that bring a connection back. -/
def Restores (_ : Tab) : Action → Prop
  | .closed _ _ | .reconnectTimer | .opened _ => True
  | _ => False

/-- The connection is open, and nothing that waited has been lost. -/
def Recovers (location : Location) (uuid : String) (state : Tab) : Prop :=
  ∃ later retired current, (tab location uuid).Path Restores state later ∧
    later.Sound retired current ∧ current.readyState = .opened ∧
    later.page.pendingStrokes = state.page.pendingStrokes

variable {location : Location} {uuid : String}

/-- One event that loses no stroke, and recovery from there. -/
theorem Recovers.after {next : Tab} {action : Action}
    (stepped : self.step action = some next) (restores : Restores self action)
    (kept : next.page.pendingStrokes = self.page.pendingStrokes)
    (recovers : Recovers location uuid next) : Recovers location uuid self := by
  obtain ⟨later, retired, current, path, sound, opened, same⟩ := recovers
  refine ⟨later, retired, current, ?_, sound, opened, same.trans kept⟩
  have first : (tab location uuid).Path Restores self next := .step .refl restores stepped
  exact first.trans path

theorem enabled (sound : self.Sound retired current) (test : ReadyState → Bool) :
    self.sockets[retired.length]?.any (fun ws => test ws.readyState) =
      test current.readyState := by
  simp [sound.wired.sockets]

theorem recovers_connecting (sound : self.Sound retired current)
    (connecting : current.readyState = .connecting) : Recovers location uuid self := by
  have enabled := sound.enabled fun readyState => readyState = .connecting
  rw [connecting, decide_eq_true rfl] at enabled
  have stepped : self.step (.opened retired.length) =
      some (self.fire retired.length .opened onopen) := if_pos enabled
  obtain ⟨_, opens⟩ := sound.wired.opened_cases stepped
  obtain ⟨later, opened, sound⟩ := sound.opened stepped
  refine .after stepped trivial ?_ ⟨_, retired, later, .refl, sound, opened, rfl⟩
  rw [opens]

theorem recovers_closed (sound : self.Sound retired current)
    (closed : current.readyState = .closed) : Recovers location uuid self := by
  have stepped : ∃ next, self.step .reconnectTimer = some next ∧
      next.page.pendingStrokes = self.page.pendingStrokes := by
    have fired : self.step .reconnectTimer = some _ :=
      if_pos (sound.agrees.armed.mpr closed)
    refine ⟨_, fired, ?_⟩
    simp only [connectWebSocket, onSocket]
    split <;> rfl
  obtain ⟨next, stepped, kept⟩ := stepped
  exact .after stepped trivial kept ((sound.reconnect stepped).2.recovers_connecting rfl)

theorem recovers (sound : self.Sound retired current) : Recovers location uuid self := by
  cases state : current.readyState with
  | opened => exact ⟨self, retired, current, .refl, sound, state, rfl⟩
  | connecting => exact sound.recovers_connecting state
  | closed => exact sound.recovers_closed state
  | closing =>
      have enabled := sound.enabled fun readyState => readyState ≠ .closed
      rw [state, decide_eq_true nofun] at enabled
      have stepped : self.step (.closed retired.length false) = some _ := if_pos enabled
      obtain ⟨_, closes⟩ := sound.wired.closed_cases stepped
      obtain ⟨_, closed, down⟩ := sound.closed stepped
      refine .after stepped trivial ?_ (down.recovers_closed closed)
      rw [closes, scheduleReconnect]
      split <;> rfl

end Sound

end Tab

section

variable {location : Location} {uuid : String} {state : Tab}

/-- At every moment only the last socket of a tab can act, and it is alive exactly while no
reconnect is scheduled.  The label and the overlay tell which, and every wait is one of the
five of the backoff. -/
theorem tab_connected (fresh : uuid ≠ "")
    (reached : (tab location uuid).Reach Tab.Fresh state) :
    ∃ current, state.socket = some current ∧
      (∀ index other, state.sockets[index]? = some other →
        other.readyState ≠ .closed ∨ other.attached = true → state.page.ws = some index) ∧
      (state.page.reconnectTimer.isSome = true ↔ current.readyState = .closed) ∧
      (∀ delay ∈ state.page.reconnectTimer, delay ∈ Tab.delays) ∧
      Tab.Shows state.page current ∧
      (state.page.overlayHidden = false → current.readyState ≠ .opened) := by
  obtain ⟨retired, current, sound⟩ := Tab.Sound.reach fresh reached
  refine ⟨current, sound.wired.socket_eq, ?_, sound.agrees.armed, sound.agrees.timer,
    sound.agrees.shows, ?_⟩
  · intro index other found acts
    rw [sound.wired.ws]
    rw [sound.wired.sockets] at found
    rcases Nat.lt_trichotomy index retired.length with before | rfl | after
    · rw [List.getElem?_append_left before] at found
      obtain ⟨closed, detached⟩ := sound.wired.retired other (List.mem_of_getElem? found)
      rw [closed, detached] at acts
      simp at acts
    · rfl
    · rw [List.getElem?_eq_none (by simp; omega)] at found
      cases found
  · intro shown opened
    have reconnecting := sound.agrees.overlay shown
    rw [sound.agrees.resting opened] at reconnecting
    cases reconnecting

/-- From every state a tab comes back by events of its connection alone: its socket is
open again, and every stroke that waited has been sent on it. -/
theorem tab_recovers (fresh : uuid ≠ "")
    (reached : (tab location uuid).Reach Tab.Fresh state) :
    ∃ later current, (tab location uuid).Path Tab.Sound.Restores state later ∧
      later.socket = some current ∧ current.readyState = .opened ∧
      later.page.pendingStrokes = state.page.pendingStrokes ∧
      state.page.pendingStrokes.Sublist current.sent := by
  obtain ⟨_, _, sound⟩ := Tab.Sound.reach fresh reached
  obtain ⟨later, retired, current, path, sound, opened, same⟩ := sound.recovers
  exact ⟨later, current, path, sound.wired.socket_eq, opened, same,
    same ▸ sound.queued opened⟩

end

/-- A connection that fails twice, with a stroke drawn while it is down. -/
def interrupted : List Action :=
  [.opened 0, .pointerDown 1 1, .closed 0 true, .overlayTimer, .pointerMove 2 2,
    .reconnectTimer, .closed 1 true, .reconnectTimer]

theorem tab_connected_interrupted :
    ∃ state, (tab {} "tab").Reach Tab.Fresh state ∧ state.page.ws = some 2 ∧
      state.page.overlayHidden = false ∧
      ∃ current, state.socket = some current ∧
        (state.page.reconnectTimer.isSome = true ↔ current.readyState = .closed) := by
  obtain ⟨state, reached, waits⟩ := Transition.System.exists_reach_of_run (tab {} "tab")
    Tab.Fresh interrupted
    (fun state => decide (state.page.ws = some 2) && !state.page.overlayHidden)
    (by decide +kernel)
  rw [Bool.and_eq_true, decide_eq_true_iff, Bool.not_eq_true'] at waits
  obtain ⟨current, socket, _, armed, _⟩ := tab_connected (by decide) reached
  exact ⟨state, reached, waits.1, waits.2, current, socket, armed⟩

theorem tab_recovers_interrupted :
    ∃ state, (tab {} "tab").Reach Tab.Fresh state ∧ state.page.pendingStrokes.length = 2 ∧
      ∃ later current, (tab {} "tab").Path Tab.Sound.Restores state later ∧
        later.socket = some current ∧ state.page.pendingStrokes.Sublist current.sent := by
  obtain ⟨state, reached, waits⟩ := Transition.System.exists_reach_of_run (tab {} "tab")
    Tab.Fresh interrupted (fun state => decide (state.page.pendingStrokes.length = 2))
    (by decide +kernel)
  obtain ⟨later, current, path, socket, _, _, sent⟩ := tab_recovers (by decide) reached
  exact ⟨state, reached, of_decide_eq_true waits, later, current, path, socket, sent⟩

end RaftCanvas.Frontend
