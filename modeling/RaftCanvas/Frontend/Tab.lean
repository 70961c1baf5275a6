import Mathlib.Data.Rat.Floor
import RaftCanvas.Library.Transition
import RaftCanvas.Raft.Json

/-!
# A browser tab

The drawing board of one tab: what the pointer draws, the strokes that wait for their
echo, the WebSocket with its reconnects, and the replay of the history.  The session
storage outlives the page.  Every event handler runs without interruption.
-/

namespace RaftCanvas

namespace Json

/-- A property as it is read; absent it is `undefined`. -/
def property? (value : Json) (key : String) : Option Json :=
  match value with
  | .obj fields => fields.lookup key
  | _ => none

/-- `msg.type === "stroke"`. -/
def isStroke (msg : Json) : Bool :=
  match msg.field? "type" with
  | some (.str type) => type = "stroke"
  | _ => false

end Json

namespace Frontend

/-- What `makeStroke` returns. -/
structure Stroke where
  clientId : String
  seq : Nat
  x1 : Rat
  y1 : Rat
  x2 : Rat
  y2 : Rat
  color : String
  size : Nat
  deriving DecidableEq

def Stroke.toJson (stroke : Stroke) : Json :=
  .obj [("clientId", .str stroke.clientId), ("seq", .num stroke.seq),
    ("x1", .num stroke.x1), ("y1", .num stroke.y1), ("x2", .num stroke.x2),
    ("y2", .num stroke.y2), ("color", .str stroke.color), ("size", .num stroke.size)]

/-- The idempotency key. -/
def Stroke.key (stroke : Stroke) : String × Nat :=
  (stroke.clientId, stroke.seq)

/-- `p.clientId === s.clientId && p.seq === s.seq`. -/
def Stroke.echoed (p : Stroke) (s : Json) : Bool :=
  match s.field? "clientId", s.field? "seq" with
  | some (.str clientId), some (.num seq) => p.clientId = clientId ∧ (p.seq : Rat) = seq
  | _, _ => false

/-- One segment on the canvas; an absent coordinate is `undefined`. -/
structure Segment where
  x1 : Option Json
  y1 : Option Json
  x2 : Option Json
  y2 : Option Json
  color : Json
  size : Json

inductive ReadyState where
  | connecting
  | opened
  | closing
  | closed
  deriving DecidableEq, Repr

inductive Status where
  | connecting
  | connected
  | disconnected
  | reconnecting
  deriving DecidableEq, Repr

/-- A `WebSocket`: whether its handlers are set, and what it was given to send. -/
structure Socket where
  readyState : ReadyState := .connecting
  attached : Bool := true
  sent : List Stroke := []

/-- `sessionStorage`. -/
structure Storage where
  clientId : Option String := none
  seq : Option Nat := none

/-- Where `replayHistory` is: its timer runs, it asks a replica, or it is over. -/
inductive Replay where
  | scheduled
  | fetching (url : String) (remaining : List String)
  | done
  deriving DecidableEq, Repr

/-- Body of a successful `GET /log`. -/
structure LogResponse where
  entries : List Json
  commitIndex : Option Int

/-- The variables of a loaded page. -/
structure Page where
  clientId : String
  seqCounter : Nat
  pendingStrokes : List Stroke := []
  /-- The socket the code refers to. -/
  ws : Option Nat := none
  reconnectDelay : Rat := 2000
  /-- The delay of the timer, if it is armed. -/
  reconnectTimer : Option Rat := none
  isReconnecting : Bool := false
  /-- Timers of `scheduleReconnect` that have yet to show the overlay. -/
  overlayTimers : Nat := 0
  overlayHidden : Bool := true
  status : Status := .connecting
  isDrawing : Bool := false
  lastX : Rat := 0
  lastY : Rat := 0
  currentColor : String := "#1a1a2e"
  currentSize : Nat := 4
  isEraser : Bool := false
  /-- The colour of the active swatch, if one is active. -/
  activeSwatch : Option String := some "#1a1a2e"
  customColor : String := "#1a1a2e"
  localLogIndex : Rat := -1
  drawn : List Segment := []
  replay : Replay := .scheduled

/-- `window.location`. -/
structure Location where
  https : Bool := false
  hostname : String := "localhost"

def Location.replicaUrls (location : Location) : List String :=
  let protocol := if location.https then "https" else "http"
  let host := if location.hostname = "" then "localhost" else location.hostname
  [s!"{protocol}://{host}:4001", s!"{protocol}://{host}:4002", s!"{protocol}://{host}:4003"]

/-- A tab.  Its sockets are numbered in the order in which its pages opened them. -/
structure Tab where
  location : Location
  storage : Storage
  page : Page
  sockets : List Socket := []

/-- `Math.round`. -/
def round (value : Rat) : Int :=
  (value + 1 / 2).floor

def drawSegment (x1 y1 x2 y2 color size : Option Json) : Segment where
  x1
  y1
  x2
  y2
  color := (color.filter Json.truthy).getD (.str "#1a1a2e")
  size := (size.filter Json.truthy).getD (.num 4)

namespace Socket

def close (self : Socket) : Socket :=
  match self.readyState with
  | .connecting | .opened => { self with readyState := .closing }
  | .closing | .closed => self

def detach (self : Socket) : Socket :=
  { self with attached := false }

def send (self : Socket) (strokes : List Stroke) : Socket :=
  { self with sent := self.sent ++ strokes }

end Socket

namespace Tab

/-! ## Strokes -/

def nextSeq (self : Tab) : Tab :=
  let seqCounter := self.page.seqCounter + 1
  { self with
    page := { self.page with seqCounter }
    storage := { self.storage with seq := some seqCounter } }

/-- The stroke that `makeStroke` builds with the next number. -/
def makeStroke (self : Tab) (x1 y1 x2 y2 : Rat) : Stroke where
  clientId := self.page.clientId
  seq := self.page.seqCounter + 1
  x1 := round (x1 * 100) / 100
  y1 := round (y1 * 100) / 100
  x2 := round (x2 * 100) / 100
  y2 := round (y2 * 100) / 100
  color := self.page.currentColor
  size := self.page.currentSize

/-- The socket `ws` refers to. -/
def socket (self : Tab) : Option Socket :=
  self.page.ws.bind fun ws => self.sockets[ws]?

/-- What the code does to `ws`. -/
def onSocket (self : Tab) (change : Socket → Socket) : Tab :=
  match self.page.ws with
  | some ws => { self with sockets := self.sockets.modify ws change }
  | none => self

/-- Strokes are sent if the socket is open. -/
def send (self : Tab) (strokes : List Stroke) : Tab :=
  if self.socket.map Socket.readyState = some .opened then
    self.onSocket fun ws => ws.send strokes
  else self

def flushPendingStrokes (self : Tab) : Tab :=
  self.send self.page.pendingStrokes

def sendStroke (self : Tab) (x1 y1 x2 y2 : Rat) : Tab :=
  let stroke := self.makeStroke x1 y1 x2 y2
  let self := self.nextSeq
  let page := { self.page with pendingStrokes := self.page.pendingStrokes ++ [stroke] }
  { self with page }.send [stroke]

/-- A segment is drawn in the current colour and sent. -/
def stroke (self : Tab) (x1 y1 x2 y2 : Rat) : Tab :=
  let segment := drawSegment (some (.num x1)) (some (.num y1)) (some (.num x2))
    (some (.num y2)) (some (.str self.page.currentColor)) (some (.num self.page.currentSize))
  { self with page := { self.page with drawn := self.page.drawn ++ [segment] }
    }.sendStroke x1 y1 x2 y2

def onPointerDown (self : Tab) (x y : Rat) : Tab :=
  { self with page := { self.page with isDrawing := true, lastX := x, lastY := y }
    }.stroke x y (x + 1 / 100) (y + 1 / 100)

def onPointerMove (self : Tab) (x y : Rat) : Tab :=
  if self.page.isDrawing then
    let self := self.stroke self.page.lastX self.page.lastY x y
    { self with page := { self.page with lastX := x, lastY := y } }
  else self

def onPointerUp (self : Tab) : Tab :=
  { self with page := { self.page with isDrawing := false } }

/-! ## The connection -/

def connectWebSocket (self : Tab) : Tab :=
  let self := self.onSocket fun ws => ws.detach.close
  { self with
    sockets := self.sockets ++ [{}]
    page := { self.page with status := .connecting, ws := some self.sockets.length } }

def scheduleReconnect (self : Tab) : Tab :=
  if self.page.reconnectTimer.isSome then self
  else
    { self with page := { self.page with
        isReconnecting := true
        status := .reconnecting
        overlayTimers := self.page.overlayTimers + 1
        reconnectTimer := some self.page.reconnectDelay } }

/-- `Math.min(reconnectDelay * 1.5, RECONNECT_MAX_MS)`. -/
def backoff (reconnectDelay : Rat) : Rat :=
  if reconnectDelay * (3 / 2) ≤ 10000 then reconnectDelay * (3 / 2) else 10000

/-- The reconnect timer fires. -/
def reconnect (self : Tab) : Option Tab :=
  if self.page.reconnectTimer.isSome then
    let self := { self with page := { self.page with reconnectTimer := none } }
    let self := self.connectWebSocket
    let reconnectDelay := backoff self.page.reconnectDelay
    some { self with page := { self.page with reconnectDelay } }
  else none

/-- An overlay timer fires. -/
def showOverlay (self : Tab) : Option Tab :=
  match self.page.overlayTimers with
  | 0 => none
  | overlayTimers + 1 =>
      some { self with page := { self.page with
        overlayTimers
        overlayHidden := self.page.overlayHidden && !self.page.isReconnecting } }

def onopen (self : Tab) : Tab :=
  { self with page := { self.page with
    status := .connected
    reconnectDelay := 2000
    isReconnecting := false
    overlayHidden := true } }.flushPendingStrokes

def onclose (self : Tab) : Tab :=
  { self with page := { self.page with status := .disconnected } }.scheduleReconnect

def onerror (self : Tab) : Tab :=
  self.onSocket Socket.close

/-! ## Events of a socket -/

/-- `drawSegment` on the fields of a received stroke. -/
def drawStroke (s : Json) : Segment :=
  drawSegment (s.property? "x1") (s.property? "y1") (s.property? "x2") (s.property? "y2")
    (s.property? "color") (s.property? "size")

/-- An echo of a pending stroke ends its wait; any other stroke is drawn. -/
def onStroke (self : Tab) (s : Json) : Tab :=
  if self.page.pendingStrokes.any fun p => p.echoed s then
    { self with page := { self.page with
      pendingStrokes := self.page.pendingStrokes.eraseP fun p => p.echoed s } }
  else { self with page := { self.page with drawn := self.page.drawn ++ [drawStroke s] } }

def raiseLogIndex (self : Tab) (logIndex : Option Json) : Tab :=
  match logIndex with
  | some (.num logIndex) =>
      if self.page.localLogIndex < logIndex then
        { self with page := { self.page with localLogIndex := logIndex } }
      else self
  | _ => self

/-- The browser moves a socket to another state; its handler runs if it is set. -/
def fire (self : Tab) (index : Nat) (readyState : ReadyState) (handler : Tab → Tab) : Tab :=
  let moved := { self with
    sockets := self.sockets.modify index fun ws => { ws with readyState } }
  if (self.sockets[index]?.any Socket.attached) then handler moved else moved

/-- The handshake succeeds. -/
def opened (self : Tab) (index : Nat) : Option Tab :=
  if self.sockets[index]?.any fun ws => ws.readyState = .connecting then
    some (self.fire index .opened onopen)
  else none

/-- The other side starts to close; no handler listens. -/
def closing (self : Tab) (index : Nat) : Option Tab :=
  if self.sockets[index]?.any fun ws => ws.readyState = .opened then
    some (self.fire index .closing id)
  else none

/-- The connection is closed; after a failure an `error` event comes before `close`. -/
def closed (self : Tab) (index : Nat) (error : Bool) : Option Tab :=
  if self.sockets[index]?.any fun ws => ws.readyState ≠ .closed then
    some (self.fire index .closed fun self => (if error then self.onerror else self).onclose)
  else none

/-- A frame of the gateway; `none` is one that does not parse. -/
def onmessage (self : Tab) (data : Option Json) : Tab :=
  match data with
  | none => self
  | some msg =>
      match msg.isStroke, (msg.field? "stroke").filter Json.truthy with
      | true, some stroke => (self.onStroke stroke).raiseLogIndex (msg.field? "logIndex")
      | _, _ => self

/-- A message event of a socket; nothing is delivered once it starts to close. -/
def message (self : Tab) (index : Nat) (data : Option Json) : Option Tab :=
  if self.sockets[index]?.any fun ws => ws.readyState = .opened then
    some (self.fire index .opened fun self => self.onmessage data)
  else none

/-! ## History replay -/

/-- The next replica is asked, unless all have been. -/
def ask : List String → Replay
  | [] => .done
  | url :: remaining => .fetching url remaining

def replayTimer (self : Tab) : Option Tab :=
  if self.page.replay = .scheduled then
    some { self with page := { self.page with replay := ask self.location.replicaUrls } }
  else none

/-- A replica answers `replayHistory`, or fails to. -/
def history (self : Tab) (response : Option LogResponse) : Option Tab :=
  match self.page.replay with
  | .fetching _ remaining =>
      match response.filter fun data => !data.entries.isEmpty with
      | some data =>
          let strokes := data.entries.filterMap fun entry => entry.field? "stroke"
          some { self with page := { self.page with
            drawn := self.page.drawn ++ (strokes.filter Json.truthy).map drawStroke
            localLogIndex := data.commitIndex.getD (data.entries.length - 1)
            replay := .done } }
      | none => some { self with page := { self.page with replay := ask remaining } }
  | _ => none

/-! ## Toolbar -/

/-- The clear button, once the user has confirmed. -/
def clear (self : Tab) : Tab :=
  { self with page := { self.page with drawn := [], localLogIndex := -1 } }

def toggleEraser (self : Tab) : Tab :=
  if self.page.isEraser then
    { self with page := { self.page with
      isEraser := false
      currentColor := self.page.activeSwatch.getD self.page.customColor } }
  else
    { self with page := { self.page with
      isEraser := true
      currentColor := "#ffffff"
      activeSwatch := none } }

def pickSwatch (self : Tab) (color : String) : Tab :=
  { self with page := { self.page with
    activeSwatch := some color
    currentColor := color
    customColor := color
    isEraser := false } }

def pickCustomColor (self : Tab) (color : String) : Tab :=
  { self with page := { self.page with
    customColor := color
    currentColor := color
    activeSwatch := none
    isEraser := false } }

def pickSize (self : Tab) (size : Nat) : Tab :=
  { self with page := { self.page with currentSize := size } }

/-! ## Loading -/

/-- A page is loaded; `uuid` is what `crypto.randomUUID` would return. -/
def load (location : Location) (storage : Storage) (sockets : List Socket) (uuid : String) :
    Tab :=
  let clientId := (storage.clientId.filter (· ≠ "")).getD uuid
  connectWebSocket
    { location
      storage := { storage with clientId := some clientId }
      page := { clientId, seqCounter := storage.seq.getD 0 }
      sockets }

/-- The page goes away with its sockets, and the next one is loaded. -/
def reload (self : Tab) (uuid : String) : Tab :=
  load self.location self.storage
    (self.sockets.map fun ws => { ws with readyState := .closed, attached := false }) uuid

end Tab

/-- What the user, the browser and the network do to a tab. -/
inductive Action where
  | pointerDown (x y : Rat)
  | pointerMove (x y : Rat)
  | pointerUp
  | opened (socket : Nat)
  | message (socket : Nat) (data : Option Json)
  | closing (socket : Nat)
  | closed (socket : Nat) (error : Bool)
  | reconnectTimer
  | overlayTimer
  | replayTimer
  | history (response : Option LogResponse)
  | clear
  | eraser
  | swatch (color : String)
  | customColor (color : String)
  | brushSize (size : Nat)
  | reload (uuid : String)

def Tab.step (self : Tab) : Action → Option Tab
  | .pointerDown x y => some (self.onPointerDown x y)
  | .pointerMove x y => some (self.onPointerMove x y)
  | .pointerUp => some self.onPointerUp
  | .opened socket => self.opened socket
  | .message socket data => self.message socket data
  | .closing socket => self.closing socket
  | .closed socket error => self.closed socket error
  | .reconnectTimer => self.reconnect
  | .overlayTimer => self.showOverlay
  | .replayTimer => self.replayTimer
  | .history response => self.history response
  | .clear => some self.clear
  | .eraser => some self.toggleEraser
  | .swatch color => some (self.pickSwatch color)
  | .customColor color => some (self.pickCustomColor color)
  | .brushSize size => some (self.pickSize size)
  | .reload uuid => some (self.reload uuid)

/-- A tab, from the first page it loads. -/
def tab (location : Location) (uuid : String) : Transition.System Tab Action where
  init := .load location {} [] uuid
  step := Tab.step

end Frontend

end RaftCanvas
