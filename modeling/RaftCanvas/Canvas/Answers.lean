import RaftCanvas.Canvas.Leadership

/-!
# What `submit` answers

The table remembers the newest sequence number of a client, and an older one is taken
for answered as well.  So the index that `submit` reports is the call's own only while
the client has drawn nothing newer, and a stroke that comes late is never drawn.
-/

namespace RaftCanvas

namespace StateMachine

variable {js : Relational} {dedupeMaxClients : Nat} {log : List LogEntry}

/-- The table's item for a client is its latest drawing. -/
theorem get_latest (keyed : ∀ entry ∈ log, Keyed entry) (indexed : Indexed log)
    {client : String} {item : DedupeEntry}
    (known : (init.applyAll js dedupeMaxClients log).dedupe.get (.str client) = some item) :
    ∃ (seq : Int) (position : Nat), item.seq = .num seq ∧ item.index = position ∧
      PushedAt js dedupeMaxClients log position client seq ∧
      ∀ later high, position < later →
        ¬PushedAt js dedupeMaxClients log later client high := by
  simp only [DedupeTable.get, Option.map_eq_some_iff] at known
  obtain ⟨⟨clientId, item⟩, found, rfl⟩ := known
  have same : clientId = .str client := by
    have matched : Json.sameValueZero clientId (.str client) = true := by
      simpa using List.find?_some found
    cases clientId <;> simp_all [Json.sameValueZero]
  subst same
  obtain ⟨position, entry, accepted, key, index, latest⟩ :=
    latest_applyAll keyed _ (List.mem_of_find?_eq_some found)
  obtain ⟨_, seq, _, number⟩ := keyed entry (List.mem_of_getElem? accepted.1) _ _ key
  dsimp only at key number
  rw [number] at key
  refine ⟨seq, position, number, ?_, pushedAt_iff.mpr ⟨entry, accepted, key⟩, ?_⟩
  · rw [← indexed position entry accepted.1, index]
  · intro later high after pushed
    obtain ⟨other, again, key'⟩ := pushedAt_iff.mp pushed
    exact latest later other after again ((clientOf_eq key').trans (clientOf_eq key).symm)

/-- What the table answers for a call is the client's latest drawing, and not an older
one than asked for. -/
theorem getDedupeIndex_drawn (keyed : ∀ entry ∈ log, Keyed entry) (indexed : Indexed log)
    {client : String} {seq cached : Int}
    (known : (init.applyAll js dedupeMaxClients log).getDedupeIndex js (.str client)
      (.num seq) = some cached) :
    ∃ (number : Int) (position : Nat),
      ((init.applyAll js dedupeMaxClients log).dedupe.get (.str client)).map
        DedupeEntry.seq = some (.num number) ∧
      cached = position ∧ seq ≤ number ∧
      PushedAt js dedupeMaxClients log position client number := by
  unfold getDedupeIndex at known
  split at known
  · cases known
  next item held =>
      split at known
      next newer =>
          obtain ⟨number, position, same, index, pushed, _⟩ := get_latest keyed indexed held
          refine ⟨number, position, by simp [held, same], ?_, ?_, pushed⟩
          · rw [← Option.some.inj known, index]
          · rw [same, js.ge_num, decide_eq_true_eq] at newer
            exact_mod_cast newer
      next => cases known

/-- One position draws one key. -/
theorem PushedAt.seq_unique {position : Nat} {client : String} {left right : Int}
    (leftPushed : PushedAt js dedupeMaxClients log position client left)
    (rightPushed : PushedAt js dedupeMaxClients log position client right) :
    left = right := by
  obtain ⟨entry, found, key, _⟩ := leftPushed
  obtain ⟨entry', found', key', _⟩ := rightPushed
  obtain rfl : entry = entry' := Option.some.inj (found.symm.trans found')
  rw [key, Option.some.injEq, Prod.mk.injEq, Json.num.injEq] at key'
  exact_mod_cast key'.2

/-- With room for every client no two drawings of a client are separated. -/
theorem PushedAt.not_separated {clients : Finset String}
    (few : clients.card ≤ dedupeMaxClients)
    (known : ∀ entry ∈ log, ∀ client, clientOf entry = some client → client ∈ clients)
    {first : Nat} {client : String} {seq : Int}
    (pushed : PushedAt js dedupeMaxClients log first client seq) (again : Nat) :
    ¬Separated js dedupeMaxClients log client first again := by
  intro separated
  have room := separated.card_lt known (pushed.client_mem known)
  omega

/-- With room for every client the numbers of a client are drawn in increasing order. -/
theorem PushedAt.ascending (keyed : ∀ entry ∈ log, Keyed entry) {clients : Finset String}
    (few : clients.card ≤ dedupeMaxClients)
    (known : ∀ entry ∈ log, ∀ client, clientOf entry = some client → client ∈ clients)
    {first again : Nat} {client : String} {left right : Int} (ordered : first < again)
    (pushed : PushedAt js dedupeMaxClients log first client left)
    (pushedAgain : PushedAt js dedupeMaxClients log again client right) : left < right := by
  by_contra lower
  exact pushed.not_separated few known again
    (separated_of_pushed keyed ordered pushed pushedAgain (by omega))

/-- With room for every client the table keeps a number at least as high as any drawn. -/
theorem get_highest (keyed : ∀ entry ∈ log, Keyed entry) (indexed : Indexed log)
    {clients : Finset String} (few : clients.card ≤ dedupeMaxClients)
    (known : ∀ entry ∈ log, ∀ client, clientOf entry = some client → client ∈ clients)
    {first : Nat} {client : String} {high : Int}
    (pushed : PushedAt js dedupeMaxClients log first client high) :
    ∃ (item : DedupeEntry) (number : Int) (position : Nat),
      (init.applyAll js dedupeMaxClients log).dedupe.get (.str client) = some item ∧
      item.seq = .num number ∧ item.index = position ∧ high ≤ number ∧
      PushedAt js dedupeMaxClients log position client number := by
  cases held : (init.applyAll js dedupeMaxClients log).dedupe.get (.str client) with
  | none =>
      -- the client would have left the table
      obtain ⟨entry, accepted, key⟩ := pushedAt_iff.mp pushed
      refine absurd (separated_of_gone keyed (List.getElem?_eq_some_iff.mp accepted.1).1
        accepted key ?_) (pushed.not_separated few known _)
      rw [List.take_length]
      intro present
      obtain ⟨item, inside, same⟩ := List.mem_map.mp present
      rw [DedupeTable.get, Option.map_eq_none_iff] at held
      have missed := List.find?_eq_none.mp held item inside
      simp [same, Json.sameValueZero] at missed
  | some item =>
      obtain ⟨number, position, seq, index, drawn, latest⟩ := get_latest keyed indexed held
      refine ⟨item, number, position, rfl, seq, index, ?_, drawn⟩
      rcases Nat.lt_trichotomy first position with before | rfl | after
      · exact (pushed.ascending keyed few known before drawn).le
      · exact (pushed.seq_unique drawn).le
      · exact absurd pushed (latest first high after)

/-- An entry of a stroke is drawn unless the table turns it down when its turn comes. -/
theorem pushedAt_own (indexed : Indexed log) {position : Nat} {own : LogEntry}
    (found : log[position]? = some own) (stroke : own.type = .stroke) {client : String}
    {seq : Int} (key : keyOf own = some (.str client, .num seq)) :
    PushedAt js dedupeMaxClients log position client seq ↔
      (init.applyAll js dedupeMaxClients (log.take position)).rejects js own = false := by
  have bound := (List.getElem?_eq_some_iff.mp found).1
  have fresh : (init.applyAll js dedupeMaxClients (log.take position)).lastApplied <
      own.index := by
    have reached := (machine js dedupeMaxClients).lastApplied_replay (indexed.take position)
    rw [List.length_take] at reached
    have applied : (init.applyAll js dedupeMaxClients (log.take position)).lastApplied =
        ((min position log.length : Nat) : Int) - 1 := reached
    rw [applied, indexed position own found]
    omega
  rw [pushedAt_iff]
  constructor
  · rintro ⟨entry, ⟨found', gate⟩, _⟩
    obtain rfl : own = entry := Option.some.inj (found.symm.trans found')
    simp only [accepts, Bool.and_eq_true, Bool.not_eq_true'] at gate
    exact gate.2
  · intro free
    exact ⟨own, ⟨found, by simp [accepts, fresh, stroke, free]⟩, key⟩

/-- The key in a payload. -/
def payloadKey (payload : Json) : Option (Json × Json) :=
  match payload.field? "clientId", payload.field? "seq" with
  | some clientId, some seq => some (clientId, seq)
  | _, _ => none

/-- What a call for the key reports is true of the log the canvas shows: the stroke was
accepted at the index, and the call is a duplicate exactly if that entry is not its own. -/
def Truthful (js : Relational) (dedupeMaxClients : Nat) (log : List LogEntry)
    (client : String) (seq : Int) (appended : Option LogEntry) (result : SubmitResult) :
    Prop :=
  (∃ position : Nat, result.index = position ∧
    PushedAt js dedupeMaxClients log position client seq) ∧
  (result.deduped = true ↔ ∀ own, appended = some own → own.index ≠ result.index)

end StateMachine

namespace Node

open StateMachine

variable {Id : Type} {js : Relational} {dedupeMaxClients : Nat} [DecidableEq Id]

/-- The key that a stretch of work may answer for. -/
def asked (self : Node Id (StateMachine.machine js dedupeMaxClients)) :
    Work Id → Option (Json × Json)
  | .submit _ payload => payloadKey payload
  | .resume id => (self.resumable.find? fun waiter => waiter.id = id).bind fun waiter =>
      payloadKey waiter.entry.payload
  | _ => none

/-- The part of the log that the canvas shows. -/
def shown (self : Node Id (StateMachine.machine js dedupeMaxClients))
    (log : List LogEntry) : List LogEntry :=
  log.take (self.lastApplied + 1).toNat

/-- The newest number the table holds for the client is that of the call; or the table
knows no number so high, and knew none when the call's own entry was applied. -/
def Current (self : Node Id (StateMachine.machine js dedupeMaxClients))
    (log : List LogEntry) (client : String) (seq : Int) (appended : Option LogEntry) : Prop :=
  (self.canvas.dedupe.get (.str client)).map DedupeEntry.seq = some (.num seq) ∨
  self.canvas.getDedupeIndex js (.str client) (.num seq) = none ∧
    ∃ own, appended = some own ∧
      (init.applyAll js dedupeMaxClients (log.take own.index.toNat)).rejects js own = false

/-- Submissions name a client in `clients` and number their strokes. -/
def Submits (clients : Set String)
    (_ : Node Id (StateMachine.machine js dedupeMaxClients)) (work : Work Id) : Prop :=
  ∀ id payload, work = .submit id payload → NumberedBy clients payload

variable {config : Config Id}
  {start self after : Node Id (StateMachine.machine js dedupeMaxClients)}
  {log : List LogEntry}

/-- Every stroke of the log is keyed, by a client in `clients`. -/
def KeyedBy (clients : Set String) (log : List LogEntry) : Prop :=
  ∀ entry ∈ log, Keyed entry ∧ ∀ client, clientOf entry = some client → client ∈ clients

theorem keyedBy_numbered {clients : Set String} {entry : LogEntry}
    (numbered : NumberedBy clients entry.payload) : KeyedBy clients [entry] := by
  obtain ⟨client, member, seq, named, counted⟩ := numbered
  have key : keyOf entry = some (.str client, .num seq) := by simp [keyOf, named, counted]
  intro other inside
  obtain rfl := List.mem_singleton.mp inside
  refine ⟨fun clientId number key' => ?_, fun name draws => ?_⟩
  · rw [key, Option.some.injEq, Prod.mk.injEq] at key'
    exact ⟨client, seq, key'.1.symm, key'.2.symm⟩
  · rw [clientOf_eq key, Option.some.injEq] at draws
    exact draws ▸ member

/-- A leader serves one growing log for as long as it leads. -/
theorem Serving.reach {clients : Set String} (serving : Serving start log)
    (keyed : KeyedBy clients log)
    (reached : (leadership config start).Reach (Submits clients) self) :
    ∃ whole, log <+: whole ∧ Serving self whole ∧ KeyedBy clients whole := by
  induction reached with
  | init => exact ⟨log, List.prefix_rfl, serving, keyed⟩
  | step _ submits stepped ih =>
      obtain ⟨whole, grown, served, keyed⟩ := ih
      obtain ⟨more, served', new, _⟩ := served.step stepped
      refine ⟨whole ++ more, grown.trans (List.prefix_append _ _), served', ?_⟩
      intro entry member
      rcases List.mem_append.mp member with old | fresh
      · exact keyed entry old
      · obtain ⟨id, submitted⟩ := new entry fresh
        exact keyedBy_numbered (submits id _ submitted) entry (List.mem_singleton_self _)

omit [DecidableEq Id] in
theorem dedupeIndex_eq {payload clientId seq : Json}
    (key : payloadKey payload = some (clientId, seq)) :
    self.dedupeIndex payload = self.canvas.getDedupeIndex js clientId seq := by
  unfold payloadKey at key
  split at key
  next named counted =>
      obtain ⟨rfl, rfl⟩ : _ = clientId ∧ _ = seq := by simpa using key
      simp only [dedupeIndex, named, counted]
      rfl
  next => cases key

namespace Serving

variable {clients : Set String} {client : String} {seq : Int}

omit [DecidableEq Id] in
theorem shown_keyed (keyed : KeyedBy clients log) :
    ∀ entry ∈ self.shown log, Keyed entry :=
  fun entry member => (keyed entry (List.mem_of_mem_take member)).1

omit [DecidableEq Id] in
theorem shown_known {names : Finset String} (keyed : KeyedBy names log) :
    ∀ entry ∈ self.shown log, ∀ client, clientOf entry = some client → client ∈ names :=
  fun entry member client draws =>
    Finset.mem_coe.mp ((keyed entry (List.mem_of_mem_take member)).2 client draws)

omit [DecidableEq Id] in
/-- What the table answers is the client's latest drawing, not an older one. -/
theorem known (serving : Serving self log) (keyed : KeyedBy clients log) {cached : Int}
    (known : self.canvas.getDedupeIndex js (.str client) (.num seq) = some cached) :
    ∃ (number : Int) (position : Nat),
      (self.canvas.dedupe.get (.str client)).map DedupeEntry.seq = some (.num number) ∧
      cached = position ∧ seq ≤ number ∧
      PushedAt js dedupeMaxClients (self.shown log) position client number := by
  rw [serving.drawn] at known ⊢
  exact getDedupeIndex_drawn (shown_keyed keyed) (serving.stores.indexed.take _) known

omit [DecidableEq Id] in
omit [DecidableEq Id] in
/-- What the file holds up to `lastApplied` is shown. -/
theorem shown_eq (serving : Serving self log) {rows : List LogEntry}
    (applied : self.lastApplied + 1 = rows.length)
    (held : (List.range rows.length).map (fun index : Nat => self.db.getEntry index) =
      rows.map some) : self.shown log = rows := by
  rw [shown, applied, Int.toNat_natCast]
  refine List.ext_getElem? fun index => ?_
  by_cases inside : index < rows.length
  · have row := congrArg (fun found => found[index]?) held
    simp only [List.getElem?_map, List.getElem?_range inside, Option.map_some,
      List.getElem?_eq_getElem inside, Option.some.injEq] at row
    rw [List.getElem?_take_of_lt inside, List.getElem?_eq_getElem inside]
    exact (serving.stores.getEntry_some row).2
  · have outside := Nat.le_of_not_lt inside
    rw [List.getElem?_eq_none ((List.length_take_le _ _).trans outside),
      List.getElem?_eq_none outside]

omit [DecidableEq Id] in
/-- A call that resumes finds its entry shown. -/
theorem own_shown (serving : Serving self log) {waiter : Waiter}
    (waits : waiter ∈ self.resumable) : ∃ position : Nat,
      waiter.entry.index = position ∧ (self.shown log)[position]? = some waiter.entry ∧
        waiter.entry.type = .stroke := by
  obtain ⟨⟨member, stroke⟩, below⟩ := serving.resumed waiter waits
  obtain ⟨position, found⟩ := List.mem_iff_getElem?.mp member
  have index := serving.stores.indexed position _ found
  refine ⟨position, index, ?_, stroke⟩
  rw [shown, List.getElem?_take_of_lt (by omega)]
  exact found

omit [DecidableEq Id] in
/-- What an answered call reports is true exactly if its number is the current one. -/
theorem truthful_iff (serving : Serving self log) (keyed : KeyedBy clients log)
    {work : Work Id} {id : Nat} {appended : Option LogEntry} {result : SubmitResult}
    (settles : self.Settles work (id, appended, result))
    (asks : self.asked work = some (.str client, .num seq)) :
    Truthful js dedupeMaxClients (self.shown log) client seq appended result ↔
      self.Current (self.shown log) client seq appended := by
  -- the table answers with a drawing of the client
  have answered : ∀ cached, self.canvas.getDedupeIndex js (.str client) (.num seq) =
      some cached → ((∃ position : Nat, cached = position ∧
        PushedAt js dedupeMaxClients (self.shown log) position client seq) ↔
      (self.canvas.dedupe.get (.str client)).map DedupeEntry.seq = some (.num seq)) := by
    intro cached known
    obtain ⟨number, position, newest, rfl, _, pushed⟩ := serving.known keyed known
    rw [newest, Option.some.injEq, Json.num.injEq]
    constructor
    · rintro ⟨other, same, drawn⟩
      obtain rfl : position = other := by exact_mod_cast same
      exact_mod_cast pushed.seq_unique drawn
    · intro same
      obtain rfl : number = seq := by exact_mod_cast same
      exact ⟨position, rfl, pushed⟩
  rcases settles with ⟨_, payload, cached, rfl, known, answer⟩ | ⟨_, waiter, rfl, found, answer⟩
  · obtain ⟨rfl, rfl, rfl⟩ : id = _ ∧ appended = none ∧ result = _ := by simpa using answer
    rw [dedupeIndex_eq asks] at known
    rw [Truthful, Current, answered cached known]
    simp
  · obtain ⟨rfl, rfl, rfl⟩ : id = _ ∧ appended = some waiter.entry ∧ result = _ := by
      simpa using answer
    have key : payloadKey waiter.entry.payload = some (.str client, .num seq) := by
      simpa [asked, found] using asks
    rw [Truthful, Current, settlement]
    dsimp only
    rw [dedupeIndex_eq key]
    cases known : self.canvas.getDedupeIndex js (.str client) (.num seq) with
    | some cached =>
        dsimp only
        by_cases own : cached = waiter.entry.index
        · rw [if_neg (not_not.mpr own), ← own, answered cached known]
          simp [own]
        · rw [if_pos own]
          dsimp only
          rw [answered cached known]
          simp [Ne.symm own]
    | none =>
        have outdated :
            (self.canvas.dedupe.get (.str client)).map DedupeEntry.seq ≠ some (.num seq) := by
          intro newest
          obtain ⟨item, held, same⟩ := Option.map_eq_some_iff.mp newest
          simp [getDedupeIndex, held, same, js.ge_num] at known
        obtain ⟨position, index, place, stroke⟩ :=
          serving.own_shown (List.mem_of_find?_eq_some found)
        have drawn : PushedAt js dedupeMaxClients (self.shown log) position client seq ↔
            (init.applyAll js dedupeMaxClients ((self.shown log).take position)).rejects js
              waiter.entry = false :=
          pushedAt_own (serving.stores.indexed.take _) place stroke key
        constructor
        · rintro ⟨⟨other, same, pushed⟩, _⟩
          obtain rfl : position = other := by
            dsimp only at same
            omega
          exact Or.inr ⟨rfl, waiter.entry, rfl, by
            rw [index, Int.toNat_natCast]
            exact drawn.mp pushed⟩
        · rintro (newest | ⟨_, own, same, free⟩)
          · exact absurd newest outdated
          · obtain rfl := Option.some.inj same
            rw [index, Int.toNat_natCast] at free
            exact ⟨⟨position, index, drawn.mpr free⟩, by simp⟩

omit [DecidableEq Id] in
/-- A call that resumes without its stroke ever drawn is answered by a later number. -/
theorem overtaken (serving : Serving self log) {names : Finset String}
    (few : names.card ≤ dedupeMaxClients) (keyed : KeyedBy names log) {waiter : Waiter}
    (waits : waiter ∈ self.resumable)
    (key : payloadKey waiter.entry.payload = some (.str client, .num seq))
    (undrawn : ∀ position, ¬PushedAt js dedupeMaxClients (self.shown log) position client seq) :
    ∃ (position : Nat) (number : Int), seq < number ∧
      PushedAt js dedupeMaxClients (self.shown log) position client number ∧
        self.dedupeIndex waiter.entry.payload = some (position : Int) ∧
          (position : Int) ≠ waiter.entry.index := by
  have keyedShown : ∀ entry ∈ self.shown log, Keyed entry := shown_keyed keyed
  have indexed : Indexed (self.shown log) := serving.stores.indexed.take _
  have known : ∀ entry ∈ self.shown log, ∀ client, clientOf entry = some client →
      client ∈ names := shown_known keyed
  obtain ⟨place, index, found, stroke⟩ := serving.own_shown waits
  -- the gate turned the call's own entry down
  have turned : (init.applyAll js dedupeMaxClients ((self.shown log).take place)).rejects js
      waiter.entry = true := by
    by_contra free
    exact undrawn place
      ((pushedAt_own indexed found stroke key).mpr (Bool.eq_false_iff.mpr free))
  rw [rejects, show keyOf waiter.entry = some (.str client, .num seq) from key] at turned
  obtain ⟨cached, answered⟩ := Option.isSome_iff_exists.mp turned
  obtain ⟨higher, first, _, _, above, before⟩ := getDedupeIndex_drawn
    (fun entry member => keyedShown entry (List.mem_of_mem_take member)) (indexed.take _)
    answered
  have drawn : PushedAt js dedupeMaxClients (self.shown log) first client higher :=
    (pushedAt_take.mp before).2
  have newer : seq < higher := by
    rcases above.lt_or_eq with newer | rfl
    · exact newer
    · exact absurd drawn (undrawn first)
  -- and the table still knows a number so high
  obtain ⟨item, number, position, held, same, at_position, high, latest⟩ :=
    get_highest keyedShown indexed few known drawn
  refine ⟨position, number, by omega, latest, ?_, ?_⟩
  · rw [dedupeIndex_eq key, serving.drawn, getDedupeIndex, ← shown, held]
    have reached : (seq : Rat) ≤ number := by exact_mod_cast (by omega : seq ≤ number)
    simp [same, js.ge_num, reached, at_position]
  · intro own
    obtain rfl : position = place := by omega
    obtain ⟨entry, found', key', _⟩ := latest
    obtain rfl : waiter.entry = entry := Option.some.inj (found.symm.trans found')
    rw [show keyOf waiter.entry = some (.str client, .num seq) from key, Option.some.injEq,
      Prod.mk.injEq, Json.num.injEq] at key'
    have equal : seq = number := by exact_mod_cast key'.2
    omega

end Serving

/-- Whatever the interleaving of calls, commits and retries: what an answered call
reports is true exactly if its number is the current one of its client. -/
theorem submit_index_true (serving : Serving start log) (keyed : KeyedBy Set.univ log)
    (reached : (leadership config start).Reach (Submits Set.univ) self) :
    ∃ whole, log <+: whole ∧ Serving self whole ∧
      ∀ work next id appended result client seq,
        (leadership config start).step self work = some next →
        (id, appended, result) ∈ Effect.answers next.trace →
        self.asked work = some (.str client, .num (seq : Int)) →
        (Truthful js dedupeMaxClients (self.shown whole) client seq appended result ↔
          self.Current (self.shown whole) client seq appended) := by
  obtain ⟨whole, grown, served, keyed⟩ := serving.reach keyed reached
  refine ⟨whole, grown, served, fun work next id appended result client seq stepped answer
    asks => ?_⟩
  obtain ⟨_, _, _, settles⟩ := served.step stepped
  exact served.truthful_iff keyed (settles _ answer) asks

/-- A stretch of work after which the node still leads. -/
theorem leadership_step {work : Work Id}
    (stays : (self.began.perform config work).role = .leader ∧
      (self.began.perform config work).currentTerm = self.currentTerm) :
    (leadership config start).step self work = some (self.began.perform config work) :=
  if_pos stays

/-- A replica that has just won term `1`. -/
def elected : Node (Fin 3) (StateMachine.machine .numeric 10) :=
  ((Node.start .empty).startElection threeReplicas).finishElection threeReplicas 1
    [some { term := 1, voteGranted := true }, none]

theorem elected_serving : Serving elected [⟨0, 1, .noop, .null⟩] where
  leads := by decide
  stores := {
    indexed := (Indexed.concat .nil rfl : Indexed ([] ++ [_]))
    suffix := ⟨0, by decide, rfl⟩
    within := by decide
    covered := by decide }
  bound := by decide
  saved_le := by decide
  applied_le := by decide
  drawn := rfl
  listening waiter member := nomatch (show waiter ∈ [] from member)
  resumed waiter member := nomatch (show waiter ∈ [] from member)

theorem elected_keyed (clients : Set String) : KeyedBy clients [⟨0, 1, .noop, .null⟩] := by
  intro entry member
  obtain rfl := List.mem_singleton.mp member
  exact ⟨fun _ _ key => (nomatch key), fun _ draws => (nomatch draws)⟩

/-- The replica submits stroke `seq` of client `a`. -/
def drawn (self : Node (Fin 3) (StateMachine.machine .numeric 10)) (id : Nat) (seq : Int) :
    Node (Fin 3) (StateMachine.machine .numeric 10) :=
  self.began.perform threeReplicas (.submit id (strokeBy 0 "a" seq).payload)

/-- Replica 1 acknowledges everything up to `last`. -/
def acknowledged (self : Node (Fin 3) (StateMachine.machine .numeric 10)) (last : Int) :
    Node (Fin 3) (StateMachine.machine .numeric 10) :=
  self.began.perform threeReplicas
    (.replied 1 0 (-1) (self.db.getRange 0 last) (some { term := 1, success := true }))

section Runs

variable {clients : Set String}

theorem submits_drawn (member : "a" ∈ clients)
    (self : Node (Fin 3) (StateMachine.machine .numeric 10)) (id : Nat) (seq : Int) :
    Submits clients self (.submit id (strokeBy 0 "a" seq).payload) := by
  rintro _ _ ⟨⟩
  exact ⟨"a", member, seq, rfl, rfl⟩

theorem submits_acknowledged (self : Node (Fin 3) (StateMachine.machine .numeric 10))
    (last : Int) : Submits clients self (.replied 1 0 (-1) (self.db.getRange 0 last)
      (some { term := 1, success := true })) := by
  rintro _ _ ⟨⟩

/-- One stroke, acknowledged and committed. -/
def single : Node (Fin 3) (StateMachine.machine .numeric 10) :=
  (elected.drawn 0 1).acknowledged 1

/-- A client's second stroke, committed after the first has been answered. -/
def doubled : Node (Fin 3) (StateMachine.machine .numeric 10) :=
  ((single.began.perform threeReplicas (.resume 0)).drawn 1 2).acknowledged 2

/-- Two strokes of one client, committed in one batch. -/
def batched : Node (Fin 3) (StateMachine.machine .numeric 10) :=
  ((elected.drawn 0 1).drawn 1 2).acknowledged 2

/-- The second stroke of a client, committed while its first is on the way. -/
def swapped : Node (Fin 3) (StateMachine.machine .numeric 10) :=
  (elected.drawn 0 2).acknowledged 1

theorem single_reached (member : "a" ∈ clients) :
    (leadership threeReplicas elected).Reach (Submits clients) single := by
  have first : (leadership threeReplicas elected).Reach (Submits clients)
      (elected.drawn 0 1) :=
    .step .init (submits_drawn member _ 0 1) (leadership_step (by decide +kernel))
  exact first.step (submits_acknowledged _ 1) (leadership_step (by decide +kernel))

theorem doubled_reached (member : "a" ∈ clients) :
    (leadership threeReplicas elected).Reach (Submits clients) doubled := by
  have answered : (leadership threeReplicas elected).Reach (Submits clients)
      (single.began.perform threeReplicas (.resume 0)) := by
    refine (single_reached member).step ?_ (leadership_step (by decide +kernel))
    rintro _ _ ⟨⟩
  have second :=
    answered.step (submits_drawn member _ 1 2) (leadership_step (by decide +kernel))
  exact second.step (submits_acknowledged _ 2) (leadership_step (by decide +kernel))

theorem swapped_reached (member : "a" ∈ clients) :
    (leadership threeReplicas elected).Reach (Submits clients) swapped := by
  have first : (leadership threeReplicas elected).Reach (Submits clients)
      (elected.drawn 0 2) :=
    .step .init (submits_drawn member _ 0 2) (leadership_step (by decide +kernel))
  exact first.step (submits_acknowledged _ 1) (leadership_step (by decide +kernel))

theorem batched_reached (member : "a" ∈ clients) :
    (leadership threeReplicas elected).Reach (Submits clients) batched := by
  have first : (leadership threeReplicas elected).Reach (Submits clients)
      (elected.drawn 0 1) :=
    .step .init (submits_drawn member _ 0 1) (leadership_step (by decide +kernel))
  have second :=
    first.step (submits_drawn member _ 1 2) (leadership_step (by decide +kernel))
  exact second.step (submits_acknowledged _ 2) (leadership_step (by decide +kernel))

end Runs

/-- The call and a retry of a client's newest stroke are both told the truth, a retry of the
one before is not. -/
theorem submit_index_true_doubled : ∃ whole,
    Truthful .numeric 10 (doubled.shown whole) "a" 2 (some (strokeBy 2 "a" 2))
        { index := 2, term := 1 } ∧
      Truthful .numeric 10 (doubled.shown whole) "a" 2 none
        { index := 2, term := 1, deduped := true } ∧
      ¬Truthful .numeric 10 (doubled.shown whole) "a" 1 none
        { index := 2, term := 1, deduped := true } := by
  obtain ⟨whole, _, _, reports⟩ := submit_index_true elected_serving (elected_keyed _)
    (doubled_reached trivial)
  have answers : Effect.answers (doubled.began.perform threeReplicas (.resume 1)).trace =
      [(1, some (strokeBy 2 "a" 2), { index := 2, term := 1 })] := rfl
  have retried : ∀ seq ∈ [(1 : Int), 2], Effect.answers
      (doubled.began.perform threeReplicas (.submit 2 (strokeBy 0 "a" seq).payload)).trace =
        [(2, none, { index := 2, term := 1, deduped := true })] := by
    simp only [List.forall_mem_cons, List.not_mem_nil, false_implies, implies_true, and_true]
    exact ⟨rfl, rfl⟩
  have newest : (doubled.canvas.dedupe.get (.str "a")).map DedupeEntry.seq = some (.num 2) := rfl
  refine ⟨whole, ?_, ?_, ?_⟩
  · exact (reports (.resume 1) _ 1 (some (strokeBy 2 "a" 2)) { index := 2, term := 1 } "a" 2
      (leadership_step (by decide +kernel)) (by simp [answers]) rfl).mpr (Or.inl newest)
  · exact (reports (.submit 2 (strokeBy 0 "a" 2).payload) _ 2 none
      { index := 2, term := 1, deduped := true } "a" 2 (leadership_step (by decide +kernel))
      (by simp [retried]) rfl).mpr (Or.inl newest)
  · rw [reports (.submit 2 (strokeBy 0 "a" 1).payload) _ 2 none
      { index := 2, term := 1, deduped := true } "a" 1 (leadership_step (by decide +kernel))
      (by simp [retried]) rfl]
    rintro (current | ⟨_, _, own, _⟩)
    · rw [newest, Option.some.injEq, Json.num.injEq] at current
      exact absurd current (by decide)
    · cases own

/-- The first of two strokes that commit in one batch is reported as a duplicate, at the
index of the second. -/
theorem submit_index_true_batched :
    (leadership threeReplicas elected).Reach (Submits Set.univ) batched ∧
    ∃ next, (leadership threeReplicas elected).step batched (.resume 0) = some next ∧
      (0, some (strokeBy 1 "a" 1), { index := 2, term := 1, deduped := true }) ∈
        Effect.answers next.trace ∧
      (∃ whole, Serving batched whole) ∧ ∀ whole, Serving batched whole →
        ¬Truthful .numeric 10 (batched.shown whole) "a" 1 (some (strokeBy 1 "a" 1))
          { index := 2, term := 1, deduped := true } := by
  have answers : Effect.answers (batched.began.perform threeReplicas (.resume 0)).trace =
      [(0, some (strokeBy 1 "a" 1), { index := 2, term := 1, deduped := true })] := rfl
  obtain ⟨whole, _, serving, _⟩ := elected_serving.reach (elected_keyed Set.univ)
    (batched_reached trivial)
  refine ⟨batched_reached trivial, _, leadership_step (by decide +kernel), by simp [answers],
    ⟨whole, serving⟩, fun whole serving truthful => ?_⟩
  obtain ⟨⟨position, index, entry, found, key, _⟩, _⟩ := truthful
  obtain rfl : position = 2 := by
    dsimp only at index
    omega
  have shown : batched.shown whole =
      [⟨0, 1, .noop, .null⟩, strokeBy 1 "a" 1, strokeBy 2 "a" 2] := serving.shown_eq rfl rfl
  rw [shown] at found
  obtain rfl : strokeBy 2 "a" 2 = entry := Option.some.inj found
  rw [keyOf_strokeBy, Option.some.injEq, Prod.mk.injEq, Json.num.injEq] at key
  exact absurd (Rat.intCast_inj.mp key.2) (by decide)

/-- No acknowledged stroke is drawn twice, and one that is acknowledged without being
drawn is answered as a duplicate: a later stroke of its client is drawn. -/
theorem acknowledged_once (clients : Finset String) (few : clients.card ≤ dedupeMaxClients)
    (serving : Serving start log) (keyed : KeyedBy clients log)
    (reached : (leadership config start).Reach (Submits clients) self) :
    ∃ whole, log <+: whole ∧ Serving self whole ∧
      ∀ work next id appended result client seq,
        (leadership config start).step self work = some next →
        (id, appended, result) ∈ Effect.answers next.trace →
        self.asked work = some (.str client, .num (seq : Int)) →
        (∃! position, PushedAt js dedupeMaxClients (self.shown whole) position client seq) ∨
        result.deduped = true ∧
          (∀ position, ¬PushedAt js dedupeMaxClients (self.shown whole) position client seq) ∧
          ∃ position number, seq < number ∧
            PushedAt js dedupeMaxClients (self.shown whole) position client number := by
  obtain ⟨whole, grown, served, keyed⟩ := serving.reach keyed reached
  refine ⟨whole, grown, served, fun work next id appended result client seq stepped answer
    asks => ?_⟩
  by_cases drawn : ∃ position,
      PushedAt js dedupeMaxClients (self.shown whole) position client seq
  · obtain ⟨position, pushed⟩ := drawn
    refine Or.inl ⟨position, pushed, fun other again => ?_⟩
    have known : ∀ entry ∈ self.shown whole, ∀ client, clientOf entry = some client →
        client ∈ clients := Serving.shown_known keyed
    have keyedShown : ∀ entry ∈ self.shown whole, Keyed entry := Serving.shown_keyed keyed
    rcases Nat.lt_trichotomy other position with before | same | after
    · exact absurd (again.ascending keyedShown few known before pushed) (lt_irrefl seq)
    · exact same
    · exact absurd (pushed.ascending keyedShown few known after again) (lt_irrefl seq)
  · have undrawn := not_exists.mp drawn
    obtain ⟨_, _, _, settles⟩ := served.step stepped
    rcases settles _ answer with
      ⟨_, payload, cached, rfl, known, same⟩ | ⟨_, waiter, rfl, found, same⟩
    · obtain ⟨rfl, rfl, rfl⟩ : id = _ ∧ appended = none ∧ result = _ := by simpa using same
      rw [dedupeIndex_eq asks] at known
      obtain ⟨number, position, _, _, above, pushed⟩ := served.known keyed known
      refine Or.inr ⟨rfl, undrawn, position, number, ?_, pushed⟩
      rcases above.lt_or_eq with newer | rfl
      · exact newer
      · exact absurd pushed (undrawn position)
    · obtain ⟨rfl, rfl, rfl⟩ : id = _ ∧ appended = some waiter.entry ∧ result = _ := by
        simpa using same
      have key : payloadKey waiter.entry.payload = some (.str client, .num seq) := by
        simpa [asked, found] using asks
      obtain ⟨position, number, newer, pushed, authoritative, different⟩ :=
        served.overtaken few keyed (List.mem_of_find?_eq_some found) key undrawn
      refine Or.inr ⟨?_, undrawn, position, number, newer, pushed⟩
      rw [settlement, authoritative]
      exact congrArg _ (if_pos different)

/-- A client's second stroke is acknowledged, and its first, already answered, is sent
again: each is drawn exactly once. -/
theorem acknowledged_once_doubled : ∃ whole, Serving doubled whole ∧
    Effect.answers (doubled.began.perform threeReplicas (.resume 1)).trace =
      [(1, some (strokeBy 2 "a" 2), { index := 2, term := 1 })] ∧
    (∃! position, PushedAt .numeric 10 (doubled.shown whole) position "a" 2) ∧
    Effect.answers (doubled.began.perform threeReplicas
        (.submit 2 (strokeBy 0 "a" 1).payload)).trace =
      [(2, none, { index := 2, term := 1, deduped := true })] ∧
    ∃! position, PushedAt .numeric 10 (doubled.shown whole) position "a" 1 := by
  obtain ⟨whole, _, served, once⟩ := acknowledged_once {"a"} (by decide) elected_serving
    (elected_keyed _) (doubled_reached (by simp))
  have answers : Effect.answers (doubled.began.perform threeReplicas (.resume 1)).trace =
      [(1, some (strokeBy 2 "a" 2), { index := 2, term := 1 })] := rfl
  have retried : Effect.answers (doubled.began.perform threeReplicas
      (.submit 2 (strokeBy 0 "a" 1).payload)).trace =
        [(2, none, { index := 2, term := 1, deduped := true })] := rfl
  refine ⟨whole, served, answers, ?_, retried, ?_⟩
  · rcases once (.resume 1) _ 1 (some (strokeBy 2 "a" 2)) { index := 2, term := 1 } "a" 2
      (leadership_step (by decide +kernel)) (by simp [answers]) rfl with drawn | ⟨duplicate, _⟩
    · exact drawn
    · cases duplicate
  · rcases once (.submit 2 (strokeBy 0 "a" 1).payload) _ 2 none
      { index := 2, term := 1, deduped := true } "a" 1 (leadership_step (by decide +kernel))
      (by simp [retried]) rfl with drawn | ⟨_, undrawn, _⟩
    · exact drawn
    · have shown : doubled.shown whole =
          [⟨0, 1, .noop, .null⟩, strokeBy 1 "a" 1, strokeBy 2 "a" 2] :=
        served.shown_eq rfl rfl
      refine absurd ?_ (undrawn 1)
      rw [shown]
      exact ⟨strokeBy 1 "a" 1, rfl, keyOf_strokeBy _ _ _, rfl⟩

/-- The first stroke of a client that arrives after its second is acknowledged, and is
not on the canvas. -/
theorem acknowledged_once_late :
    (leadership threeReplicas elected).Reach (Submits {"a"}) swapped ∧
    Submits {"a"} swapped (.submit 1 (strokeBy 0 "a" 1).payload) ∧
    ∃ next, (leadership threeReplicas elected).step swapped
        (.submit 1 (strokeBy 0 "a" 1).payload) = some next ∧
      (1, none, { index := 1, term := 1, deduped := true }) ∈ Effect.answers next.trace ∧
      (∃ whole, Serving swapped whole) ∧ ∀ whole, Serving swapped whole →
        ∀ position, ¬PushedAt .numeric 10 (swapped.shown whole) position "a" 1 := by
  have answers : Effect.answers (swapped.began.perform threeReplicas
      (.submit 1 (strokeBy 0 "a" 1).payload)).trace =
      [(1, none, { index := 1, term := 1, deduped := true })] := rfl
  have reached : (leadership threeReplicas elected).Reach (Submits {"a"}) swapped :=
    swapped_reached (by simp)
  obtain ⟨whole, _, serving, _⟩ := elected_serving.reach (elected_keyed _) reached
  refine ⟨reached, submits_drawn (by simp) _ 1 1, _, leadership_step (by decide +kernel),
    by simp [answers], ⟨whole, serving⟩, fun whole serving position pushed => ?_⟩
  obtain ⟨entry, found, key, _⟩ := pushed
  have shown : swapped.shown whole = [⟨0, 1, .noop, .null⟩, strokeBy 1 "a" 2] :=
    serving.shown_eq rfl rfl
  rw [shown] at found
  rcases position with _ | _ | position
  · obtain rfl := Option.some.inj found
    cases key
  · obtain rfl : strokeBy 1 "a" 2 = entry := Option.some.inj found
    rw [keyOf_strokeBy, Option.some.injEq, Prod.mk.injEq, Json.num.injEq] at key
    exact absurd (Rat.intCast_inj.mp key.2) (by decide)
  · simp at found

end Node

end RaftCanvas
