import RaftCanvas.Canvas.Gate
import RaftCanvas.Library.Recency

/-!
# The dedupe window

The table holds the clients whose strokes were accepted last, in that order, each with
its last accepted sequence number.  Hence a key can only be drawn again after the
table has seen as many other clients as it has room for.
-/

namespace RaftCanvas

namespace StateMachine

/-- `clientId` is a string and `seq` an integer. -/
def Keyed (entry : LogEntry) : Prop :=
  ∀ clientId seq, keyOf entry = some (clientId, seq) →
    ∃ (client : String) (number : Int), clientId = .str client ∧ seq = .num number

def clientOf (entry : LogEntry) : Option String :=
  match keyOf entry with
  | some (.str client, _) => some client
  | _ => none

variable (js : Relational) (dedupeMaxClients : Nat)

/-- The stroke of the entry at `position` is pushed as the log is applied. -/
def AcceptedAt (log : List LogEntry) (position : Nat) (entry : LogEntry) : Prop :=
  log[position]? = some entry ∧
    (init.applyAll js dedupeMaxClients (log.take position)).accepts js entry = true

/-- A stroke with the key `(client, seq)` is pushed at `position`. -/
def PushedAt (log : List LogEntry) (position : Nat) (client : String) (seq : Int) : Prop :=
  ∃ entry, log[position]? = some entry ∧ keyOf entry = some (.str client, .num seq) ∧
    (init.applyAll js dedupeMaxClients (log.take (position + 1))).strokes =
      (init.applyAll js dedupeMaxClients (log.take position)).strokes ++
        [strokeOf entry.index (payloadOf entry)]

/-- The clients of the accepted strokes, in order. -/
def drawing (log : List LogEntry) : List String :=
  (init.accepted js dedupeMaxClients log).filterMap clientOf

variable {js dedupeMaxClients} {log : List LogEntry}

theorem clientOf_eq {entry : LogEntry} {client : String} {seq : Json}
    (key : keyOf entry = some (.str client, seq)) : clientOf entry = some client := by
  simp [clientOf, key]

theorem applyAll_take_succ {position : Nat} {entry : LogEntry}
    (found : log[position]? = some entry) (self : StateMachine) :
    self.applyAll js dedupeMaxClients (log.take (position + 1)) =
      (self.applyAll js dedupeMaxClients (log.take position)).apply js dedupeMaxClients
        entry := by
  rw [List.take_add_one, found, applyAll_append]
  rfl

theorem pushedAt_iff {position : Nat} {client : String} {seq : Int} :
    PushedAt js dedupeMaxClients log position client seq ↔
      ∃ entry, AcceptedAt js dedupeMaxClients log position entry ∧
        keyOf entry = some (.str client, .num seq) := by
  constructor
  · rintro ⟨entry, found, key, pushed⟩
    rw [applyAll_take_succ found] at pushed
    exact ⟨entry, ⟨found, accepts_iff.mpr pushed⟩, key⟩
  · rintro ⟨entry, ⟨found, accepted⟩, key⟩
    refine ⟨entry, found, key, ?_⟩
    rw [applyAll_take_succ found]
    exact accepts_iff.mp accepted

theorem acceptedAt_concat {last entry : LogEntry} {position : Nat} :
    AcceptedAt js dedupeMaxClients (log ++ [last]) position entry ↔
      AcceptedAt js dedupeMaxClients log position entry ∨
        position = log.length ∧ entry = last ∧
          (init.applyAll js dedupeMaxClients log).accepts js last = true := by
  unfold AcceptedAt
  rcases Nat.lt_trichotomy position log.length with below | rfl | above
  · rw [List.getElem?_append_left below, List.take_append_of_le_length below.le]
    simp [below.ne]
  · rw [List.getElem?_concat_length, List.take_left' rfl]
    constructor
    · rintro ⟨found, gate⟩
      obtain rfl := Option.some.inj found
      exact Or.inr ⟨rfl, rfl, gate⟩
    · rintro (⟨found, _⟩ | ⟨_, rfl, gate⟩)
      · simp at found
      · exact ⟨rfl, gate⟩
  · have absent : (log ++ [last])[position]? = none := by simp; omega
    have absent' : log[position]? = none := by simp; omega
    simp [absent, absent', above.ne']

theorem acceptedAt_take {entry : LogEntry} {position count : Nat} :
    AcceptedAt js dedupeMaxClients (log.take count) position entry ↔
      position < count ∧ AcceptedAt js dedupeMaxClients log position entry := by
  unfold AcceptedAt
  by_cases below : position < count
  · rw [List.getElem?_take_of_lt below, List.take_take, Nat.min_eq_left below.le]
    simp [below]
  · simp [below]

theorem pushedAt_take {client : String} {seq : Int} {position count : Nat} :
    PushedAt js dedupeMaxClients (log.take count) position client seq ↔
      position < count ∧ PushedAt js dedupeMaxClients log position client seq := by
  simp only [pushedAt_iff, acceptedAt_take, and_assoc, exists_and_left]

theorem acceptedAt_append {front back : List LogEntry} {position : Nat} {entry : LogEntry} :
    AcceptedAt js dedupeMaxClients (front ++ back) (front.length + position) entry ↔
      back[position]? = some entry ∧
        ((init.applyAll js dedupeMaxClients front).applyAll js dedupeMaxClients
          (back.take position)).accepts js entry = true := by
  rw [AcceptedAt, List.getElem?_append_right (Nat.le_add_right _ _), Nat.add_sub_cancel_left,
    List.take_length_add_append, applyAll_append]

/-! ## The table as a recency list -/

theorem touchDedupe_entries (self : StateMachine) (clientId seq : Json) (index : Int) :
    (self.touchDedupe dedupeMaxClients clientId seq index).dedupe.entries =
      let moved := (self.dedupe.entries.filter fun item =>
        !Json.sameValueZero item.1 clientId) ++ [(clientId, ⟨seq, index⟩)]
      if dedupeMaxClients < moved.length then moved.tail else moved := by
  have added : ((self.dedupe.delete clientId).set clientId ⟨seq, index⟩).entries =
      (self.dedupe.entries.filter fun item => !Json.sameValueZero item.1 clientId) ++
        [(clientId, ⟨seq, index⟩)] := by
    rw [DedupeTable.set, dif_neg]
    · rfl
    · simp [DedupeTable.delete]
  simp only [touchDedupe, DedupeTable.size, added]
  split
  · simp [DedupeTable.dropOldest, added]
  · exact added

/-- Only known clients are in the table, in the order of `names`. -/
def Tracks (names : List String) (table : DedupeTable) : Prop :=
  table.entries.map Prod.fst = names.map Json.str

theorem Tracks.touch {names : List String} {self : StateMachine} {client : String}
    (tracks : Tracks names self.dedupe) (seq : Json) (index : Int) :
    Tracks (Recency.touch dedupeMaxClients names client)
      (self.touchDedupe dedupeMaxClients (.str client) seq index).dedupe := by
  have kept : (self.dedupe.entries.filter fun item =>
      !Json.sameValueZero item.1 (.str client)).map Prod.fst =
        (names.filter (· ≠ client)).map Json.str := by
    rw [show (fun item : Json × DedupeEntry => !Json.sameValueZero item.1 (.str client)) =
      (fun key => !Json.sameValueZero key (.str client)) ∘ Prod.fst from rfl,
      ← List.filter_map, tracks, List.filter_map]
    exact congrArg _ (List.filter_congr fun name _ => by simp [Json.sameValueZero])
  have size := congrArg List.length kept
  simp only [List.length_map] at size
  unfold Tracks
  rw [touchDedupe_entries, Recency.touch]
  simp only [List.length_append, List.length_singleton, size]
  split
  · rw [List.map_tail, List.map_append, kept, List.map_tail, List.map_append]
    rfl
  · rw [List.map_append, kept, List.map_append]
    rfl

theorem drawing_concat (entry : LogEntry) :
    drawing js dedupeMaxClients (log ++ [entry]) = drawing js dedupeMaxClients log ++
      if (init.applyAll js dedupeMaxClients log).accepts js entry then
        (clientOf entry).toList
      else [] := by
  rw [drawing, accepted_concat, List.filterMap_append]
  split
  · cases client : clientOf entry <;> simp [client, drawing]
  · simp [drawing]

/-- The clients in the table are those whose strokes were accepted last. -/
theorem tracks_applyAll (keyed : ∀ entry ∈ log, Keyed entry) :
    Tracks (Recency.keysAfter dedupeMaxClients (drawing js dedupeMaxClients log))
      (init.applyAll js dedupeMaxClients log).dedupe := by
  induction log using List.reverseRecOn with
  | nil => rfl
  | append_singleton log entry ih =>
      have before := ih fun other member => keyed other (by simp [member])
      rw [drawing_concat, applyAll_append, applyAll_cons, applyAll_nil, dedupe_apply]
      split
      · unfold touched
        cases key : keyOf entry with
        | none =>
            have anonymous : clientOf entry = none := by simp [clientOf, key]
            simpa [anonymous] using before
        | some pair =>
            obtain ⟨clientId, seq⟩ := pair
            obtain ⟨client, number, rfl, rfl⟩ := keyed entry (by simp) clientId seq key
            simp only [clientOf_eq key, Option.toList_some, Recency.keysAfter_concat]
            exact before.touch _ _
      · simpa using before

/-- The item is that of the last accepted stroke of its client. -/
def Latest (js : Relational) (dedupeMaxClients : Nat) (log : List LogEntry)
    (item : Json × DedupeEntry) : Prop :=
  ∃ position entry, AcceptedAt js dedupeMaxClients log position entry ∧
    keyOf entry = some (item.1, item.2.seq) ∧ entry.index = item.2.index ∧
    ∀ later other, position < later → AcceptedAt js dedupeMaxClients log later other →
      clientOf other ≠ clientOf entry

/-- It stays the latest unless its client draws again. -/
theorem Latest.concat {last : LogEntry} {item : Json × DedupeEntry}
    (keyed : ∀ entry ∈ log, Keyed entry) (latest : Latest js dedupeMaxClients log item)
    (others : (init.applyAll js dedupeMaxClients log).accepts js last = true →
      ∀ client, item.1 = .str client → clientOf last ≠ some client) :
    Latest js dedupeMaxClients (log ++ [last]) item := by
  obtain ⟨position, entry, accepted, key, index, latest⟩ := latest
  refine ⟨position, entry, acceptedAt_concat.mpr (Or.inl accepted), key, index, ?_⟩
  intro later other after again
  rcases acceptedAt_concat.mp again with again | ⟨rfl, rfl, gate⟩
  · exact latest later other after again
  · obtain ⟨client, number, shape, _⟩ :=
      keyed entry (List.mem_of_getElem? accepted.1) _ _ key
    rw [show clientOf entry = some client from clientOf_eq (shape ▸ key)]
    exact others gate client shape

/-- Nothing comes after the last entry. -/
theorem latest_last {last : LogEntry} {clientId seq : Json}
    (gate : (init.applyAll js dedupeMaxClients log).accepts js last = true)
    (key : keyOf last = some (clientId, seq)) :
    Latest js dedupeMaxClients (log ++ [last]) (clientId, ⟨seq, last.index⟩) := by
  refine ⟨log.length, last, acceptedAt_concat.mpr (Or.inr ⟨rfl, rfl, gate⟩), key, rfl, ?_⟩
  intro later other after again
  have bound := (List.getElem?_eq_some_iff.mp again.1).1
  simp only [List.length_append, List.length_singleton] at bound
  omega

/-- The table after a stroke has other clients' old items and the one of its client. -/
theorem mem_touchDedupe {self : StateMachine} {client : String} {seq : Json} {index : Int}
    {item : Json × DedupeEntry}
    (member : item ∈
      (self.touchDedupe dedupeMaxClients (.str client) seq index).dedupe.entries) :
    item ∈ self.dedupe.entries ∧ item.1 ≠ .str client ∨
      item = (.str client, ⟨seq, index⟩) := by
  have moved : item ∈ (self.dedupe.entries.filter fun item =>
      !Json.sameValueZero item.1 (.str client)) ++ [(Json.str client, ⟨seq, index⟩)] := by
    simp only [touchDedupe_entries] at member
    split at member
    · exact List.mem_of_mem_tail member
    · exact member
  rcases List.mem_append.mp moved with kept | new
  · obtain ⟨inside, different⟩ := List.mem_filter.mp kept
    refine Or.inl ⟨inside, fun same => ?_⟩
    simp [same, Json.sameValueZero] at different
  · exact Or.inr (List.mem_singleton.mp new)

/-- A client's table entry is that of its last accepted stroke. -/
theorem latest_applyAll (keyed : ∀ entry ∈ log, Keyed entry) :
    ∀ item ∈ (init.applyAll js dedupeMaxClients log).dedupe.entries,
      Latest js dedupeMaxClients log item := by
  induction log using List.reverseRecOn with
  | nil => intro item member; nomatch member
  | append_singleton log last ih =>
      have before : ∀ entry ∈ log, Keyed entry := fun entry member =>
        keyed entry (List.mem_append_left _ member)
      rw [applyAll_append, applyAll_cons, applyAll_nil, dedupe_apply]
      intro item member
      split at member
      next gate =>
          unfold touched at member
          cases key : keyOf last with
          | none =>
              rw [key] at member
              refine (ih before item member).concat before fun _ client _ => ?_
              simp [clientOf, key]
          | some pair =>
              obtain ⟨clientId, seq⟩ := pair
              obtain ⟨client, number, rfl, rfl⟩ := keyed last (by simp) clientId seq key
              rw [key] at member
              rcases mem_touchDedupe member with ⟨old, different⟩ | rfl
              · refine (ih before item old).concat before fun _ name shape same => ?_
                rw [clientOf_eq key, Option.some.injEq] at same
                exact different (same ▸ shape)
              · exact latest_last gate key
      next refused =>
          exact (ih before item member).concat before fun gate => absurd gate refused

/-- What passes the gate is newer than the table's entry for its client. -/
theorem newer_of_accepts {self : StateMachine} {entry : LogEntry} {client : String}
    {seq : Json} (gate : self.accepts js entry = true)
    (key : keyOf entry = some (.str client, seq))
    (present : Json.str client ∈ self.dedupe.entries.map Prod.fst) :
    ∃ item ∈ self.dedupe.entries, item.1 = .str client ∧
      js.ge item.2.seq seq = false := by
  simp only [accepts, rejects, key, getDedupeIndex, DedupeTable.get, Bool.and_eq_true,
    Bool.not_eq_true'] at gate
  obtain ⟨_, free⟩ := gate
  obtain ⟨own, inside, same⟩ := List.mem_map.mp present
  cases found : self.dedupe.entries.find? fun item =>
      Json.sameValueZero item.1 (.str client) with
  | none =>
      have missed := List.find?_eq_none.mp found own inside
      simp [same, Json.sameValueZero] at missed
  | some item =>
      have matched : Json.sameValueZero item.1 (.str client) = true := by
        simpa using List.find?_some found
      refine ⟨item, List.mem_of_find?_eq_some found, ?_, ?_⟩
      · cases shape : item.1 <;> simp_all [Json.sameValueZero]
      · rw [found] at free
        cases newer : js.ge item.2.seq seq with
        | true => simp [newer] at free
        | false => rfl

/-! ## At most once -/

/-- At least `dedupeMaxClients` clients other than `client` drew strictly between two
positions. -/
def Separated (js : Relational) (dedupeMaxClients : Nat) (log : List LogEntry)
    (client : String) (first again : Nat) : Prop :=
  ∃ clients : Finset String, dedupeMaxClients ≤ clients.card ∧ ∀ other ∈ clients,
    other ≠ client ∧ ∃ position seq, first < position ∧ position < again ∧
      PushedAt js dedupeMaxClients log position other seq

/-- A client that drew and has left the table. -/
theorem separated_of_gone (keyed : ∀ entry ∈ log, Keyed entry) {first again : Nat}
    {entry : LogEntry} {client : String} {seq : Json} (ordered : first < again)
    (accepted : AcceptedAt js dedupeMaxClients log first entry)
    (key : keyOf entry = some (.str client, seq))
    (gone : Json.str client ∉
      (init.applyAll js dedupeMaxClients (log.take again)).dedupe.entries.map Prod.fst) :
    Separated js dedupeMaxClients log client first again := by
  obtain ⟨found, gate⟩ := accepted
  obtain ⟨between, whole⟩ : ∃ between, log.take again = log.take (first + 1) ++ between :=
    (List.take_prefix_take_left (Nat.succ_le_of_lt ordered)).imp fun _ => Eq.symm
  have counted : (log.take (first + 1)).length = first + 1 := by
    have bound := (List.getElem?_eq_some_iff.mp found).1
    rw [List.length_take]
    omega
  have keyedTake : ∀ other ∈ log.take again, Keyed other :=
    fun other member => keyed other (List.mem_of_mem_take member)
  -- who drew, up to the second position
  have drew : drawing js dedupeMaxClients (log.take again) =
      drawing js dedupeMaxClients (log.take first) ++ client ::
        ((init.applyAll js dedupeMaxClients (log.take (first + 1))).accepted js
          dedupeMaxClients between).filterMap clientOf := by
    rw [whole, drawing, accepted_append, List.filterMap_append, List.take_add_one, found,
      Option.toList_some, ← drawing, drawing_concat, if_pos gate, clientOf_eq key]
    simp
  have absent : client ∉ Recency.keysAfter dedupeMaxClients
      (drawing js dedupeMaxClients (log.take again)) := fun held =>
    gone ((tracks_applyAll keyedTake).symm ▸ List.mem_map_of_mem held)
  rw [drew] at absent
  obtain ⟨group, large, others⟩ := Recency.exists_touched_of_gone absent
  refine ⟨group, large, fun other member => ⟨(others other member).1, ?_⟩⟩
  obtain ⟨drawn, accepted, drawer⟩ := List.mem_filterMap.mp (others other member).2
  obtain ⟨offset, place, gate'⟩ := mem_accepted.mp accepted
  have inside : AcceptedAt js dedupeMaxClients (log.take again)
      ((log.take (first + 1)).length + offset) drawn := by
    rw [whole]
    exact acceptedAt_append.mpr ⟨place, gate'⟩
  rw [counted] at inside
  obtain ⟨before, accepted⟩ := acceptedAt_take.mp inside
  cases pair : keyOf drawn with
  | none => simp [clientOf, pair] at drawer
  | some pair' =>
      obtain ⟨clientId, seq'⟩ := pair'
      obtain ⟨name, number, rfl, rfl⟩ :=
        keyed drawn (List.mem_of_getElem? accepted.1) clientId seq' pair
      obtain rfl : name = other := Option.some.inj ((clientOf_eq pair).symm.trans drawer)
      exact ⟨first + 1 + offset, number, by omega, before, pushedAt_iff.mpr
        ⟨drawn, accepted, pair⟩⟩

/-- A client draws with a sequence number that is not higher only after it has left
the table. -/
theorem separated_of_pushed (keyed : ∀ entry ∈ log, Keyed entry) {first again : Nat}
    {client : String} {high low : Int} (ordered : first < again)
    (pushed : PushedAt js dedupeMaxClients log first client high)
    (pushedAgain : PushedAt js dedupeMaxClients log again client low) (lower : low ≤ high) :
    Separated js dedupeMaxClients log client first again := by
  induction again using Nat.strong_induction_on generalizing low with
  | _ again ih =>
      obtain ⟨entry, accepted, key⟩ := pushedAt_iff.mp pushed
      obtain ⟨entry', accepted', key'⟩ := pushedAt_iff.mp pushedAgain
      by_cases present : Json.str client ∈
          (init.applyAll js dedupeMaxClients (log.take again)).dedupe.entries.map Prod.fst
      · obtain ⟨item, inside, same, newer⟩ := newer_of_accepts accepted'.2 key' present
        obtain ⟨position, last, drawn, key'', _, latest⟩ :=
          latest_applyAll (fun other member => keyed other (List.mem_of_mem_take member))
            item inside
        obtain ⟨before, drawn⟩ := acceptedAt_take.mp drawn
        rw [same] at key''
        obtain ⟨_, number, _, shape⟩ := keyed last (List.mem_of_getElem? drawn.1) _ _ key''
        rw [shape] at key'' newer
        have risen : number < low := by
          rw [js.ge_num, decide_eq_false_iff_not] at newer
          have above : (number : Rat) < low := Rat.not_le.mp newer
          exact_mod_cast above
        rcases Nat.lt_trichotomy first position with after | rfl | earlier
        · obtain ⟨group, large, others⟩ := ih position before after
            (pushedAt_iff.mpr ⟨last, drawn, key''⟩) (by omega)
          refine ⟨group, large, fun other member => ⟨(others other member).1, ?_⟩⟩
          obtain ⟨place, seq, above, below, drew⟩ := (others other member).2
          exact ⟨place, seq, above, below.trans before, drew⟩
        · -- the first drawing is still the latest, and not older
          obtain rfl : last = entry := Option.some.inj (drawn.1.symm.trans accepted.1)
          rw [key, Option.some.injEq, Prod.mk.injEq, Json.num.injEq] at key''
          have number_eq : high = number := by exact_mod_cast key''.2
          omega
        · have between := latest first entry earlier
            (acceptedAt_take.mpr ⟨ordered, accepted⟩)
          rw [clientOf_eq key, clientOf_eq key''] at between
          exact absurd rfl between
      · exact separated_of_gone keyed ordered accepted key present

theorem PushedAt.client_mem {clients : Finset String}
    (known : ∀ entry ∈ log, ∀ client, clientOf entry = some client → client ∈ clients)
    {position : Nat} {client : String} {seq : Int}
    (pushed : PushedAt js dedupeMaxClients log position client seq) : client ∈ clients := by
  obtain ⟨entry, found, key, _⟩ := pushed
  exact known entry (List.mem_of_getElem? found) client (clientOf_eq key)

/-- A client that is separated shares the log with as many others as the table holds. -/
theorem Separated.card_lt {clients : Finset String}
    (known : ∀ entry ∈ log, ∀ client, clientOf entry = some client → client ∈ clients)
    {client : String} {first again : Nat} (present : client ∈ clients)
    (separated : Separated js dedupeMaxClients log client first again) :
    dedupeMaxClients < clients.card := by
  obtain ⟨group, large, others⟩ := separated
  have absent : client ∉ group := fun member => (others client member).1 rfl
  have inside : insert client group ⊆ clients := by
    intro other member
    rcases Finset.mem_insert.mp member with rfl | member
    · exact present
    · obtain ⟨_, _, _, _, drew⟩ := (others other member).2
      exact drew.client_mem known
  have counted := Finset.card_le_card inside
  rw [Finset.card_insert_of_notMem absent] at counted
  omega

/-- At most once within the dedupe window: between two drawings of one key at least
`dedupeMaxClients` other clients drew, so with no more clients than that no key is drawn
twice; and the table never holds more clients than that. -/
theorem at_most_once (js : Relational) (dedupeMaxClients : Nat)
    (keyed : ∀ entry ∈ log, Keyed entry) :
    (∀ first again client seq, first < again →
      PushedAt js dedupeMaxClients log first client seq →
      PushedAt js dedupeMaxClients log again client seq →
      Separated js dedupeMaxClients log client first again) ∧
    (∀ clients : Finset String, clients.card ≤ dedupeMaxClients →
      (∀ entry ∈ log, ∀ client, clientOf entry = some client → client ∈ clients) →
      ∀ first again client seq, first < again →
        PushedAt js dedupeMaxClients log first client seq →
        ¬PushedAt js dedupeMaxClients log again client seq) ∧
    ∀ count, (init.applyAll js dedupeMaxClients (log.take count)).dedupe.size ≤
      dedupeMaxClients := by
  refine ⟨fun first again client seq ordered pushed pushedAgain =>
    separated_of_pushed keyed ordered pushed pushedAgain le_rfl, ?_, fun count => ?_⟩
  · intro clients few known first again client seq ordered pushed pushedAgain
    have room := (separated_of_pushed keyed ordered pushed pushedAgain le_rfl).card_lt
      known (pushed.client_mem known)
    omega
  · have tracks : Tracks (Recency.keysAfter dedupeMaxClients
        (drawing js dedupeMaxClients (log.take count)))
        (init.applyAll js dedupeMaxClients (log.take count)).dedupe :=
      tracks_applyAll fun other member => keyed other (List.mem_of_mem_take member)
    have size := congrArg List.length tracks
    simp only [List.length_map] at size
    rw [DedupeTable.size, size]
    exact Recency.length_keysAfter_le _ _

theorem strokeBy_keyed (index : Int) (client : String) (seq : Int) :
    Keyed (strokeBy index client seq) := by
  intro clientId number key
  rw [keyOf_strokeBy, Option.some.injEq, Prod.mk.injEq] at key
  exact ⟨client, seq, key.1.symm, key.2.symm⟩

/-- With room for one client, `a` draws its stroke again after `b` has drawn. -/
theorem at_most_once_alternating :
    PushedAt .numeric 1 [strokeBy 0 "a" 1, strokeBy 1 "b" 1, strokeBy 2 "a" 1] 2 "a" 1 ∧
      Separated .numeric 1 [strokeBy 0 "a" 1, strokeBy 1 "b" 1, strokeBy 2 "a" 1] "a" 0 2 := by
  have first : PushedAt .numeric 1 [strokeBy 0 "a" 1, strokeBy 1 "b" 1, strokeBy 2 "a" 1]
      0 "a" 1 := pushedAt_iff.mpr ⟨strokeBy 0 "a" 1, ⟨rfl, by decide +kernel⟩, rfl⟩
  have again : PushedAt .numeric 1 [strokeBy 0 "a" 1, strokeBy 1 "b" 1, strokeBy 2 "a" 1]
      2 "a" 1 := pushedAt_iff.mpr ⟨strokeBy 2 "a" 1, ⟨rfl, by decide +kernel⟩, rfl⟩
  refine ⟨again, (at_most_once .numeric 1 ?_).1 0 2 "a" 1 (by decide) first again⟩
  simp [strokeBy_keyed]

end StateMachine

end RaftCanvas
