import Mathlib.Data.List.Nodup
import RaftCanvas.Frontend.Session
import RaftCanvas.Library.Recording

/-!
# The pending queue

What a tab draws, the echoes it receives and its reloads are recorded.  The strokes are
numbered one after the other across reloads, so a key is never used twice, and the queue
holds exactly the strokes drawn since the page was loaded whose echo has not come.
-/

namespace RaftCanvas.Frontend

/-- What matters of a tab's run to its queue. -/
inductive Observed where
  | drew (stroke : Stroke)
  | echo (s : Json)
  | loaded

namespace Observed

def stroke? : Observed → Option Stroke
  | .drew stroke => some stroke
  | _ => none

/-- The strokes that were drawn. -/
def strokes (record : List Observed) : List Stroke :=
  record.filterMap stroke?

/-- The queue as it should be: a stroke waits until its echo comes or the page goes. -/
def queue (waiting : List Stroke) : Observed → List Stroke
  | .drew stroke => waiting ++ [stroke]
  | .echo s => waiting.filter fun p => !p.echoed s
  | .loaded => []

def waiting (record : List Observed) : List Stroke :=
  record.foldl queue []

/-- Neither the echo of the stroke nor a reload. -/
def spares (stroke : Stroke) : Observed → Bool
  | .drew _ => true
  | .echo s => !stroke.echoed s
  | .loaded => false

end Observed

namespace Tab

/-- The stroke of a frame, if it has one. -/
def echo? (data : Option Json) : Option Json :=
  match data with
  | none => none
  | some msg => if msg.isStroke then (msg.field? "stroke").filter Json.truthy else none

/-- What an action means for the queue; messages of a socket count if it has handlers. -/
def observe (self : Tab) : Action → List Observed
  | .pointerDown x y => [.drew (self.makeStroke x y (x + 1 / 100) (y + 1 / 100))]
  | .pointerMove x y =>
      if self.page.isDrawing then
        [.drew (self.makeStroke self.page.lastX self.page.lastY x y)]
      else []
  | .message socket data =>
      if self.sockets[socket]?.any Socket.attached then
        ((echo? data).map Observed.echo).toList
      else []
  | .reload _ => [.loaded]
  | _ => []

end Tab

/-- A tab with the record of its run. -/
def recordedTab (location : Location) (uuid : String) :
    Transition.System (Tab × List Observed) Action :=
  (tab location uuid).recording Tab.observe

namespace Observed

theorem mem_queue {queued : List Stroke} {observed : Observed} {stroke : Stroke} :
    stroke ∈ queue queued observed ↔
      stroke ∈ queued ∧ spares stroke observed = true ∨ observed = .drew stroke := by
  cases observed with
  | drew other => simp [queue, spares, eq_comm]
  | echo s => simp [queue, spares]
  | loaded => simp [queue, spares]

theorem mem_foldl_queue {record : List Observed} {queued : List Stroke} {stroke : Stroke} :
    stroke ∈ record.foldl queue queued ↔
      stroke ∈ queued ∧ record.all (spares stroke) = true ∨
        ∃ before after, record = before ++ .drew stroke :: after ∧
          after.all (spares stroke) = true := by
  induction record generalizing queued with
  | nil => simp
  | cons first record ih =>
      rw [List.foldl_cons, ih, mem_queue, List.all_cons, Bool.and_eq_true]
      constructor
      · rintro (⟨⟨member, spared⟩ | rfl, rest⟩ | ⟨before, after, rfl, spared⟩)
        · exact .inl ⟨member, spared, rest⟩
        · exact .inr ⟨[], record, rfl, rest⟩
        · exact .inr ⟨first :: before, after, rfl, spared⟩
      · rintro (⟨member, spared, rest⟩ | ⟨before, after, same, spared⟩)
        · exact .inl ⟨.inl ⟨member, spared⟩, rest⟩
        · rcases List.cons_eq_append_iff.mp same with ⟨rfl, here⟩ | ⟨before, rfl, there⟩
          · obtain ⟨rfl, rfl⟩ := List.cons.inj here
            exact .inl ⟨.inr rfl, spared⟩
          · exact .inr ⟨before, after, there, spared⟩

/-- A stroke waits from the moment it is drawn until its echo comes or the page goes. -/
theorem mem_waiting {record : List Observed} {stroke : Stroke} :
    stroke ∈ waiting record ↔
      ∃ before after, record = before ++ .drew stroke :: after ∧
        after.all (spares stroke) = true := by
  simp [waiting, mem_foldl_queue]

theorem waiting_sublist (record : List Observed) :
    (waiting record).Sublist (strokes record) := by
  have longer (queued : List Stroke) :
      (record.foldl queue queued).Sublist (queued ++ strokes record) := by
    induction record generalizing queued with
    | nil => simp [strokes]
    | cons first record ih =>
        refine (ih (queue queued first)).trans ?_
        cases first with
        | drew stroke => simp [queue, strokes, stroke?]
        | echo s =>
            exact List.Sublist.append List.filter_sublist (List.Sublist.refl _)
        | loaded => exact List.sublist_append_right _ _
  exact longer []

end Observed

/-- The echo of a stroke carries its key. -/
theorem Stroke.echoed_iff {p : Stroke} {s : Json} :
    p.echoed s = true ↔
      s.field? "clientId" = some (.str p.clientId) ∧ s.field? "seq" = some (.num p.seq) := by
  unfold Stroke.echoed
  split
  next clientId seq named numbered =>
    rw [named, numbered, decide_eq_true_eq, Option.some.injEq, Option.some.injEq,
      Json.str.injEq, Json.num.injEq]
    exact and_congr eq_comm eq_comm
  next other =>
    constructor
    · nofun
    · rintro ⟨named, numbered⟩
      exact absurd numbered (other _ _ named)

theorem Stroke.echoed_seq {p q : Stroke} {s : Json} (first : p.echoed s = true)
    (second : q.echoed s = true) : p.seq = q.seq := by
  have same := (echoed_iff.mp first).2.symm.trans (echoed_iff.mp second).2
  simpa using same

/-- Among strokes with different numbers, at most one is echoed. -/
theorem eraseP_echoed {pending : List Stroke} (distinct : (pending.map Stroke.seq).Nodup)
    (s : Json) :
    (pending.eraseP fun p => p.echoed s) = pending.filter fun p => !p.echoed s := by
  induction pending with
  | nil => rfl
  | cons first pending ih =>
      rw [List.map_cons, List.nodup_cons] at distinct
      cases echoed : first.echoed s with
      | false => simp [echoed, ih distinct.2]
      | true =>
          have others : ∀ other ∈ pending, other.echoed s = false := by
            intro other member
            by_contra twice
            rw [Bool.not_eq_false] at twice
            exact distinct.1 (Stroke.echoed_seq echoed twice ▸ List.mem_map_of_mem member)
          rw [List.eraseP_cons, echoed, cond_true, List.filter_cons_of_neg (by simp [echoed])]
          exact (List.filter_eq_self.mpr fun other member => by
            simp [others other member]).symm

namespace Tab

variable {self next : Tab} {retired : List Socket} {current : Socket}

@[simp] theorem send_page (self : Tab) (strokes : List Stroke) :
    (self.send strokes).page = self.page := by
  unfold send onSocket
  split
  · split <;> rfl
  · rfl

/-- What the queue and the numbering depend on. -/
def ledger (page : Page) : String × Nat × List Stroke :=
  (page.clientId, page.seqCounter, page.pendingStrokes)

theorem sendStroke_ledger (self : Tab) (x1 y1 x2 y2 : Rat) :
    ledger (self.sendStroke x1 y1 x2 y2).page = (self.page.clientId,
      self.page.seqCounter + 1, self.page.pendingStrokes ++ [self.makeStroke x1 y1 x2 y2]) := by
  simp [sendStroke, ledger, nextSeq]

theorem onStroke_ledger (self : Tab) (s : Json) :
    ledger (self.onStroke s).page = (self.page.clientId, self.page.seqCounter,
      self.page.pendingStrokes.eraseP fun p => p.echoed s) := by
  unfold onStroke
  split
  next => rfl
  next absent =>
    rw [List.eraseP_of_forall_not (by simpa using absent)]
    rfl

theorem raiseLogIndex_ledger (self : Tab) (logIndex : Option Json) :
    ledger (self.raiseLogIndex logIndex).page = ledger self.page := by
  unfold raiseLogIndex
  split
  · split <;> rfl
  · rfl

/-- A frame with a stroke takes at most one stroke from the queue. -/
theorem onmessage_ledger (self : Tab) (data : Option Json) :
    ledger (self.onmessage data).page =
      match echo? data with
      | some s => (self.page.clientId, self.page.seqCounter,
          self.page.pendingStrokes.eraseP fun p => p.echoed s)
      | none => ledger self.page := by
  cases data with
  | none => rfl
  | some msg =>
      simp only [onmessage, echo?]
      cases msg.isStroke with
      | false => rfl
      | true =>
          cases (msg.field? "stroke").filter Json.truthy with
          | none => rfl
          | some s => exact (raiseLogIndex_ledger _ _).trans (onStroke_ledger self s)

/-- The record of a tab tells its queue, and its strokes are numbered from one. -/
structure Numbered (uuid : String) (state : Tab) (record : List Observed) : Prop where
  client : state.page.clientId = uuid
  counter : state.page.seqCounter = (Observed.strokes record).length
  pending : state.page.pendingStrokes = Observed.waiting record
  seqs : (Observed.strokes record).map Stroke.seq =
    List.range' 1 (Observed.strokes record).length
  owner : ∀ stroke ∈ Observed.strokes record, stroke.clientId = uuid

namespace Numbered

variable {uuid : String} {record : List Observed}

/-- What leaves the queue and the numbering alone. -/
theorem quiet (numbered : self.Numbered uuid record)
    (same : ledger next.page = ledger self.page) : next.Numbered uuid (record ++ []) := by
  simp only [ledger, Prod.mk.injEq] at same
  obtain ⟨client, counter, pending⟩ := same
  rw [List.append_nil]
  exact ⟨client.trans numbered.client, counter.trans numbered.counter,
    pending.trans numbered.pending, numbered.seqs, numbered.owner⟩

/-- A new stroke takes the next number. -/
theorem drew (numbered : self.Numbered uuid record) {stroke : Stroke}
    (named : stroke.clientId = self.page.clientId)
    (next_seq : stroke.seq = self.page.seqCounter + 1)
    (drawn : ledger next.page = (self.page.clientId, self.page.seqCounter + 1,
      self.page.pendingStrokes ++ [stroke])) :
    next.Numbered uuid (record ++ [.drew stroke]) := by
  simp only [ledger, Prod.mk.injEq] at drawn
  obtain ⟨client, counter, pending⟩ := drawn
  have strokes : Observed.strokes (record ++ [.drew stroke]) =
      Observed.strokes record ++ [stroke] := by
    simp [Observed.strokes, Observed.stroke?]
  refine ⟨client.trans numbered.client, ?_, ?_, ?_, ?_⟩
  · simp [counter, numbered.counter, strokes]
  · simp [pending, numbered.pending, Observed.waiting, Observed.queue]
  · rw [strokes, List.map_append, numbered.seqs, List.map_singleton, List.length_append,
      List.length_singleton, List.range'_1_concat, next_seq, numbered.counter, Nat.add_comm]
  · intro other member
    rw [strokes, List.mem_append, List.mem_singleton] at member
    rcases member with earlier | rfl
    · exact numbered.owner other earlier
    · exact named.trans numbered.client

/-- The echo of one stroke ends its wait. -/
theorem echo (numbered : self.Numbered uuid record) {s : Json}
    (echoed : ledger next.page = (self.page.clientId, self.page.seqCounter,
      self.page.pendingStrokes.eraseP fun p => p.echoed s)) :
    next.Numbered uuid (record ++ [.echo s]) := by
  simp only [ledger, Prod.mk.injEq] at echoed
  obtain ⟨client, counter, pending⟩ := echoed
  have strokes : Observed.strokes (record ++ [.echo s]) = Observed.strokes record := by
    simp [Observed.strokes, Observed.stroke?]
  have distinct : (self.page.pendingStrokes.map Stroke.seq).Nodup := by
    rw [numbered.pending]
    refine ((Observed.waiting_sublist record).map Stroke.seq).nodup ?_
    rw [numbered.seqs]
    exact List.nodup_range'
  refine ⟨client.trans numbered.client, ?_, ?_, ?_, ?_⟩
  · rw [counter, numbered.counter, strokes]
  · rw [pending, eraseP_echoed distinct, numbered.pending]
    simp [Observed.waiting, Observed.queue]
  · rw [strokes, numbered.seqs]
  · rw [strokes]
    exact numbered.owner

/-- A reload forgets the queue and keeps the identity. -/
theorem reload (numbered : self.Numbered uuid record) (identified : self.Identified)
    (other : String) : (self.reload other).Numbered uuid (record ++ [.loaded]) := by
  have strokes : Observed.strokes (record ++ [.loaded]) = Observed.strokes record := by
    simp [Observed.strokes, Observed.stroke?]
  refine ⟨?_, ?_, ?_, ?_, ?_⟩
  · show (self.storage.clientId.filter (· ≠ "")).getD other = uuid
    have named := identified.named
    rw [numbered.client] at named
    rw [identified.clientId, numbered.client]
    simp [Option.filter, named]
  · show self.storage.seq.getD 0 = _
    rw [identified.seq, numbered.counter, strokes]
  · show [] = _
    simp [Observed.waiting, Observed.queue]
  · rw [strokes, numbered.seqs]
  · rw [strokes]
    exact numbered.owner

theorem step (numbered : self.Numbered uuid record) (sound : self.Sound retired current)
    {action : Action} (stepped : self.step action = some next) :
    next.Numbered uuid (record ++ self.observe action) := by
  cases action with
  | pointerDown x y =>
      obtain rfl := Option.some.inj stepped
      exact numbered.drew rfl rfl (sendStroke_ledger _ _ _ _ _)
  | pointerMove x y =>
      obtain rfl := Option.some.inj stepped
      unfold onPointerMove observe
      split
      · exact numbered.drew rfl rfl (sendStroke_ledger _ _ _ _ _)
      · exact numbered.quiet rfl
  | message index data =>
      obtain ⟨found, _, rfl⟩ := sound.wired.message_cases stepped
      have ledgers := self.onmessage_ledger data
      simp only [observe, found, Option.any_some, sound.wired.attached, if_true]
      cases echoed : echo? data with
      | none =>
          rw [echoed] at ledgers
          exact numbered.quiet ledgers
      | some s =>
          rw [echoed] at ledgers
          exact numbered.echo ledgers
  | reload other =>
      obtain rfl := Option.some.inj stepped
      exact numbered.reload sound.identified other
  | opened index =>
      obtain ⟨_, rfl⟩ := sound.wired.opened_cases stepped
      exact numbered.quiet rfl
  | closing index =>
      obtain ⟨_, rfl⟩ := sound.wired.closing_cases stepped
      exact numbered.quiet rfl
  | closed index error =>
      obtain ⟨_, rfl⟩ := sound.wired.closed_cases stepped
      refine numbered.quiet ?_
      unfold scheduleReconnect
      split <;> rfl
  | reconnectTimer =>
      simp only [Tab.step, Tab.reconnect, Option.ite_none_right_eq_some] at stepped
      obtain ⟨_, fired⟩ := stepped
      obtain rfl := Option.some.inj fired
      refine numbered.quiet ?_
      simp only [connectWebSocket, onSocket]
      split <;> rfl
  | overlayTimer =>
      simp only [Tab.step, Tab.showOverlay] at stepped
      split at stepped
      · cases stepped
      · obtain rfl := Option.some.inj stepped
        exact numbered.quiet rfl
  | replayTimer =>
      simp only [Tab.step, Tab.replayTimer, Option.ite_none_right_eq_some] at stepped
      obtain ⟨_, fired⟩ := stepped
      obtain rfl := Option.some.inj fired
      exact numbered.quiet rfl
  | history response =>
      simp only [Tab.step, Tab.history] at stepped
      split at stepped
      · split at stepped <;>
          obtain rfl := Option.some.inj stepped <;>
          exact numbered.quiet rfl
      · cases stepped
  | pointerUp | clear | swatch color | customColor color | brushSize size =>
      obtain rfl := Option.some.inj stepped
      exact numbered.quiet rfl
  | eraser =>
      obtain rfl := Option.some.inj stepped
      refine numbered.quiet ?_
      unfold toggleEraser
      split <;> rfl

end Numbered

end Tab

/-! ## What was sent -/

namespace Tab

/-- All strokes that the sockets of a tab were given to send. -/
def sent (self : Tab) : List Stroke :=
  self.sockets.flatMap Socket.sent

theorem mem_sent_modify {sockets : List Socket} {index : Nat} {change : Socket → Socket}
    {strokes : List Stroke}
    (sends : ∀ ws, ∀ stroke ∈ (change ws).sent, stroke ∈ ws.sent ∨ stroke ∈ strokes)
    {stroke : Stroke} (member : stroke ∈ (sockets.modify index change).flatMap Socket.sent) :
    stroke ∈ sockets.flatMap Socket.sent ∨ stroke ∈ strokes := by
  obtain ⟨ws, inside, sent⟩ := List.mem_flatMap.mp member
  obtain ⟨position, found⟩ := List.mem_iff_getElem?.mp inside
  rw [List.getElem?_modify] at found
  obtain ⟨before, former, rfl⟩ := Option.map_eq_some_iff.mp found
  have old : before ∈ sockets := List.mem_of_getElem? former
  split at sent
  · exact (sends before stroke sent).imp_left fun sent =>
      List.mem_flatMap.mpr ⟨before, old, sent⟩
  · exact .inl (List.mem_flatMap.mpr ⟨before, old, sent⟩)

theorem mem_sent_onSocket {self : Tab} {change : Socket → Socket} {strokes : List Stroke}
    (sends : ∀ ws, ∀ stroke ∈ (change ws).sent, stroke ∈ ws.sent ∨ stroke ∈ strokes)
    {stroke : Stroke} (member : stroke ∈ (self.onSocket change).sent) :
    stroke ∈ self.sent ∨ stroke ∈ strokes := by
  unfold onSocket at member
  split at member
  · exact mem_sent_modify sends member
  · exact .inl member

theorem mem_sent_keep {self : Tab} {change : Socket → Socket}
    (keeps : ∀ ws, (change ws).sent = ws.sent) {stroke : Stroke}
    (member : stroke ∈ (self.onSocket change).sent) : stroke ∈ self.sent := by
  have kept : stroke ∈ self.sent ∨ stroke ∈ [] :=
    mem_sent_onSocket (fun ws stroke inside => .inl (keeps ws ▸ inside)) member
  exact kept.resolve_right List.not_mem_nil

theorem mem_sent_send {self : Tab} {strokes : List Stroke} {stroke : Stroke}
    (member : stroke ∈ (self.send strokes).sent) : stroke ∈ self.sent ∨ stroke ∈ strokes := by
  unfold send at member
  split at member
  · exact mem_sent_onSocket (fun _ _ => List.mem_append.mp) member
  · exact .inl member

theorem close_sent (ws : Socket) : ws.close.sent = ws.sent := by
  unfold Socket.close
  split <;> rfl

theorem mem_sent_connectWebSocket {self : Tab} {stroke : Stroke}
    (member : stroke ∈ self.connectWebSocket.sent) : stroke ∈ self.sent := by
  rw [sent, connectWebSocket, List.flatMap_append, List.mem_append] at member
  rcases member with old | new
  · exact mem_sent_keep (fun ws => close_sent ws.detach) old
  · simp at new

theorem onclose_sockets (self : Tab) : self.onclose.sockets = self.sockets := by
  unfold onclose scheduleReconnect
  split <;> rfl

theorem onmessage_sockets (self : Tab) (data : Option Json) :
    (self.onmessage data).sockets = self.sockets := by
  unfold onmessage raiseLogIndex onStroke
  split
  · rfl
  · split
    · split <;> split <;> (try split) <;> rfl
    · rfl

/-- A handler that runs when a socket changes its state. -/
theorem mem_sent_fire {self : Tab} {index : Nat} {readyState : ReadyState}
    {handler : Tab → Tab} {strokes : List Stroke}
    (sends : ∀ moved : Tab, moved.page = self.page →
      ∀ stroke ∈ (handler moved).sent, stroke ∈ moved.sent ∨ stroke ∈ strokes)
    {stroke : Stroke} (member : stroke ∈ (self.fire index readyState handler).sent) :
    stroke ∈ self.sent ∨ stroke ∈ strokes := by
  have moved {stroke : Stroke} (member : stroke ∈ ({ self with
      sockets := self.sockets.modify index fun ws => { ws with readyState } } : Tab).sent) :
      stroke ∈ self.sent ∨ stroke ∈ strokes := by
    have kept (ws : Socket) : ∀ stroke ∈ ({ ws with readyState } : Socket).sent,
        stroke ∈ ws.sent ∨ stroke ∈ strokes := fun _ => .inl
    exact mem_sent_modify kept member
  unfold fire at member
  split at member
  · dsimp only at member
    have handled := sends _ (by rfl) stroke member
    exact handled.elim moved .inr
  · exact moved member

/-- A step sends what waits or what it draws. -/
theorem mem_sent_step {self next : Tab} {action : Action} (stepped : self.step action = some next)
    {stroke : Stroke} (member : stroke ∈ next.sent) :
    stroke ∈ self.sent ∨ stroke ∈ self.page.pendingStrokes ∨
      .drew stroke ∈ self.observe action := by
  cases action with
  | pointerDown x y =>
      obtain rfl := Option.some.inj stepped
      refine (mem_sent_send member).imp_right fun drawn => .inr ?_
      rw [List.mem_singleton.mp drawn]
      exact List.mem_singleton_self _
  | pointerMove x y =>
      obtain rfl := Option.some.inj stepped
      unfold onPointerMove at member
      split at member
      next drawing =>
          refine (mem_sent_send member).imp_right fun drawn => .inr ?_
          rw [List.mem_singleton.mp drawn, observe, if_pos drawing]
          exact List.mem_singleton_self _
      next => exact .inl member
  | opened index =>
      simp only [Tab.step, Tab.opened, Option.ite_none_right_eq_some, Option.some.injEq] at stepped
      obtain ⟨_, rfl⟩ := stepped
      refine (mem_sent_fire (fun moved same stroke sent => ?_) member).imp_right .inl
      rw [← same]
      unfold onopen flushPendingStrokes at sent
      have flushed := mem_sent_send sent
      exact flushed
  | closing index =>
      simp only [Tab.step, Tab.closing, Option.ite_none_right_eq_some, Option.some.injEq] at stepped
      obtain ⟨_, rfl⟩ := stepped
      exact (mem_sent_fire (fun _ _ _ => .inl) member).imp_right .inl
  | closed index error =>
      simp only [Tab.step, Tab.closed, Option.ite_none_right_eq_some, Option.some.injEq] at stepped
      obtain ⟨_, rfl⟩ := stepped
      refine (mem_sent_fire (fun moved _ stroke sent => .inl ?_) member).imp_right .inl
      rw [Tab.sent, onclose_sockets] at sent
      split at sent
      · exact mem_sent_keep close_sent sent
      · exact sent
  | message index data =>
      simp only [Tab.step, Tab.message, Option.ite_none_right_eq_some, Option.some.injEq] at stepped
      obtain ⟨_, rfl⟩ := stepped
      refine (mem_sent_fire (fun moved _ stroke sent => .inl ?_) member).imp_right .inl
      rwa [Tab.sent, onmessage_sockets] at sent
  | reconnectTimer =>
      simp only [Tab.step, Tab.reconnect, Option.ite_none_right_eq_some, Option.some.injEq] at stepped
      obtain ⟨_, rfl⟩ := stepped
      have sent : stroke ∈ ({ self with page := { self.page with reconnectTimer := none }
          } : Tab).connectWebSocket.sent := member
      have old := mem_sent_connectWebSocket sent
      exact .inl old
  | reload other =>
      obtain rfl := Option.some.inj stepped
      have sent := mem_sent_connectWebSocket member
      simp only [Tab.sent, List.flatMap_map] at sent
      exact .inl sent
  | overlayTimer =>
      simp only [Tab.step, Tab.showOverlay] at stepped
      split at stepped
      · cases stepped
      · obtain rfl := Option.some.inj stepped
        exact .inl member
  | replayTimer =>
      simp only [Tab.step, Tab.replayTimer, Option.ite_none_right_eq_some,
        Option.some.injEq] at stepped
      obtain ⟨_, rfl⟩ := stepped
      exact .inl member
  | history response =>
      simp only [Tab.step, Tab.history] at stepped
      split at stepped
      · split at stepped <;>
          obtain rfl := Option.some.inj stepped <;>
          exact .inl member
      · cases stepped
  | pointerUp | clear | swatch color | customColor color | brushSize size =>
      obtain rfl := Option.some.inj stepped
      exact .inl member
  | eraser =>
      obtain rfl := Option.some.inj stepped
      unfold toggleEraser at member
      split at member <;> exact .inl member

end Tab

section

variable {location : Location} {uuid : String} {state : Tab × List Observed}

theorem Tab.Numbered.reach (fresh : uuid ≠ "")
    (reached : (recordedTab location uuid).Reach (fun state => Tab.Fresh state.1) state) :
    Tab.Numbered uuid state.1 state.2 := by
  refine Transition.System.Reach.along (Tab.Numbered uuid) ?_ ?_ reached
  · exact ⟨rfl, rfl, rfl, rfl, nofun⟩
  · intro before record action next onward numbered _ stepped
    obtain ⟨retired, current, sound⟩ := Tab.Sound.reach fresh onward.forget
    exact numbered.step sound stepped

/-- Whatever was sent has been drawn. -/
theorem Tab.sent_drawn (fresh : uuid ≠ "")
    (reached : (recordedTab location uuid).Reach (fun state => Tab.Fresh state.1) state) :
    ∀ stroke ∈ state.1.sent, stroke ∈ Observed.strokes state.2 := by
  refine Transition.System.Reach.along
    (fun state record => ∀ stroke ∈ state.sent, stroke ∈ Observed.strokes record) ?_ ?_ reached
  · intro stroke member
    exact absurd (mem_sent_connectWebSocket member) List.not_mem_nil
  · intro before record action next onward drawn _ stepped stroke member
    have numbered := Tab.Numbered.reach fresh onward
    rw [Observed.strokes, List.filterMap_append, List.mem_append]
    rcases mem_sent_step stepped member with old | waits | now
    · exact .inl (drawn stroke old)
    · rw [numbered.pending] at waits
      exact .inl ((Observed.waiting_sublist record).subset waits)
    · exact .inr (List.mem_filterMap.mpr ⟨_, now, rfl⟩)

/-- The strokes of a tab are numbered from one, under one client, across all reloads: no
key is used twice, and the session storage holds the last number. -/
theorem keys_never_reused (fresh : uuid ≠ "")
    (reached : (recordedTab location uuid).Reach (fun state => Tab.Fresh state.1) state) :
    (Observed.strokes state.2).map Stroke.key =
        (List.range' 1 (Observed.strokes state.2).length).map (fun seq => (uuid, seq)) ∧
      ((Observed.strokes state.2).map Stroke.key).Nodup ∧
      state.1.storage.clientId = some uuid ∧
      state.1.storage.seq.getD 0 = (Observed.strokes state.2).length := by
  have numbered := Tab.Numbered.reach fresh reached
  obtain ⟨retired, current, sound⟩ := Tab.Sound.reach fresh reached.forget
  have keys : (Observed.strokes state.2).map Stroke.key =
      (List.range' 1 (Observed.strokes state.2).length).map fun seq => (uuid, seq) := by
    rw [← numbered.seqs, List.map_map]
    refine List.map_congr_left fun stroke member => ?_
    rw [Stroke.key, numbered.owner stroke member, Function.comp_apply]
  refine ⟨keys, ?_, ?_, ?_⟩
  · rw [keys]
    exact List.Nodup.map (fun _ _ same => (Prod.mk.inj same).2) List.nodup_range'
  · rw [sound.identified.clientId, numbered.client]
  · rw [sound.identified.seq, numbered.counter]

/-- A stroke waits exactly from the moment it is drawn until a frame with its key comes or
the page is reloaded; while the socket is open, all that wait have been sent on it, in the
order drawn. -/
theorem queue_exact (fresh : uuid ≠ "")
    (reached : (recordedTab location uuid).Reach (fun state => Tab.Fresh state.1) state) :
    state.1.page.pendingStrokes = Observed.waiting state.2 ∧
      (∀ stroke, stroke ∈ state.1.page.pendingStrokes ↔
        ∃ before after, state.2 = before ++ .drew stroke :: after ∧
          after.all (Observed.spares stroke) = true) ∧
      ∀ current, state.1.socket = some current → current.readyState = .opened →
        state.1.page.pendingStrokes.Sublist current.sent := by
  have numbered := Tab.Numbered.reach fresh reached
  obtain ⟨retired, current, sound⟩ := Tab.Sound.reach fresh reached.forget
  refine ⟨numbered.pending, fun stroke => ?_, fun socket found opened => ?_⟩
  · rw [numbered.pending, Observed.mem_waiting]
  · obtain rfl := Option.some.inj (found.symm.trans sound.wired.socket_eq)
    exact sound.queued opened

end

/-- Two strokes, the echo of the first, a reload and a third stroke. -/
def reloaded : List Action :=
  [.opened 0, .pointerDown 1 1, .pointerMove 2 2,
    .message 0 (some (.obj [("type", .str "stroke"), ("stroke",
      .obj [("clientId", .str "tab"), ("seq", .num 1)]), ("logIndex", .num 1)])),
    .reload "other", .opened 1, .pointerDown 3 3]

theorem keys_never_reused_reloaded :
    ∃ state, (recordedTab {} "tab").Reach (fun state => Tab.Fresh state.1) state ∧
      (Observed.strokes state.2).length = 3 ∧
      ((Observed.strokes state.2).map Stroke.key).Nodup := by
  obtain ⟨state, reached, drawn⟩ := Transition.System.exists_reach_of_run
    (recordedTab {} "tab") (fun state => Tab.Fresh state.1) reloaded
    (fun state => decide ((Observed.strokes state.2).length = 3)) (by decide +kernel)
  exact ⟨state, reached, of_decide_eq_true drawn,
    (keys_never_reused (by decide) reached).2.1⟩

theorem queue_exact_reloaded :
    ∃ state, (recordedTab {} "tab").Reach (fun state => Tab.Fresh state.1) state ∧
      state.1.page.pendingStrokes.length = 1 ∧
      state.1.page.pendingStrokes = Observed.waiting state.2 := by
  obtain ⟨state, reached, waits⟩ := Transition.System.exists_reach_of_run
    (recordedTab {} "tab") (fun state => Tab.Fresh state.1) reloaded
    (fun state => decide (state.1.page.pendingStrokes.length = 1)) (by decide +kernel)
  exact ⟨state, reached, of_decide_eq_true waits, (queue_exact (by decide) reached).1⟩

end RaftCanvas.Frontend
