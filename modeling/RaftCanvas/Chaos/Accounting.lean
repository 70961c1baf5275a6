import RaftCanvas.Chaos.Transport

/-!
# Call accounting

`/metrics` shows five counters for each peer.  They are kept apart from the calls, on
both sides of the awaits of a call.  In every run they are exactly what the calls made so
far have come to, and the difference between the calls sent and the calls counted again
is the number still under way.
-/

namespace RaftCanvas.Chaos

variable {Url Body Response Failure : Type}

/-- What has become of a call. -/
inductive Fate where
  | delayed
  | posted
  | ok
  | failed
  | dropped
  | partitioned
  deriving DecidableEq, Repr

def CallError.fate : CallError Failure → Fate
  | .injected _ code => if code = "PARTITIONED" then .partitioned else .dropped
  | .post _ => .failed

def Progress.fate : Progress Response Failure → Fate
  | .delayed => .delayed
  | .posted => .posted
  | .fulfilled _ => .ok
  | .rejected error => error.fate

/-- The counter that goes up when a call comes to its fate. -/
def Stats.record (stats : Stats) : Fate → Stats
  | .delayed | .posted => stats
  | .ok => { stats with ok := stats.ok + 1 }
  | .failed => { stats with failed := stats.failed + 1 }
  | .dropped => { stats with dropped := stats.dropped + 1 }
  | .partitioned => { stats with partitioned := stats.partitioned + 1 }

variable [DecidableEq Url]

theorem Transport.stats_count (self : Transport Url) (peerUrl other : Url)
    (increment : Stats → Stats) :
    (self.count peerUrl increment).stats other =
      if other = peerUrl then increment (self.stats peerUrl) else self.stats other := by
  by_cases same : other = peerUrl
  · subst same
    simp [Transport.count, Transport.stats]
  · simp [Transport.count, Transport.stats, same]

theorem Transport.stats_inject (self : Transport Url) (fault : Fault Url) (peerUrl : Url) :
    (self.inject fault).stats peerUrl = self.stats peerUrl := by
  cases fault with
  | setPeerLatency peer ms =>
      simp only [inject, setPeerLatency]
      split <;> rfl
  | setPeerDrop peer prob =>
      simp only [inject, setPeerDrop]
      split <;> rfl
  | _ => rfl

/-- Calls to the peer that have come to the fate. -/
def Call.number (calls : List (Call Url Body Response Failure)) (peerUrl : Url)
    (fate : Fate) : Nat :=
  calls.countP fun call => call.peerUrl = peerUrl ∧ call.progress.fate = fate

/-- The counters that the calls made so far account for. -/
def Call.census (calls : List (Call Url Body Response Failure)) (peerUrl : Url) : Stats where
  sent := calls.countP fun call => call.peerUrl = peerUrl
  ok := Call.number calls peerUrl .ok
  failed := Call.number calls peerUrl .failed
  dropped := Call.number calls peerUrl .dropped
  partitioned := Call.number calls peerUrl .partitioned

namespace Call

theorem number_append (calls : List (Call Url Body Response Failure))
    (call : Call Url Body Response Failure) (peerUrl : Url) (fate : Fate) :
    number (calls ++ [call]) peerUrl fate = number calls peerUrl fate +
      if call.peerUrl = peerUrl ∧ call.progress.fate = fate then 1 else 0 := by
  simp [number]

/-- A call that goes on leaves its fate for another. -/
theorem number_set {calls : List (Call Url Body Response Failure)} {index : Nat}
    {call : Call Url Body Response Failure} (found : calls[index]? = some call)
    (progress : Progress Response Failure) (peerUrl : Url) (fate : Fate) :
    number (calls.set index { call with progress }) peerUrl fate +
        (if call.peerUrl = peerUrl ∧ call.progress.fate = fate then 1 else 0) =
      number calls peerUrl fate +
        if call.peerUrl = peerUrl ∧ progress.fate = fate then 1 else 0 := by
  obtain ⟨bound, rfl⟩ := List.getElem?_eq_some_iff.mp found
  have counted := List.boole_getElem_le_countP
    (p := fun call : Call Url Body Response Failure =>
      decide (call.peerUrl = peerUrl ∧ call.progress.fate = fate)) bound
  simp only [number, List.countP_set bound, decide_eq_true_eq] at counted ⊢
  omega

theorem calls_set {calls : List (Call Url Body Response Failure)} {index : Nat}
    {call : Call Url Body Response Failure} (found : calls[index]? = some call)
    (progress : Progress Response Failure) (peerUrl : Url) :
    (calls.set index { call with progress }).countP (fun call => call.peerUrl = peerUrl) =
      calls.countP fun call => call.peerUrl = peerUrl := by
  obtain ⟨bound, rfl⟩ := List.getElem?_eq_some_iff.mp found
  have counted := List.boole_getElem_le_countP
    (p := fun call : Call Url Body Response Failure => decide (call.peerUrl = peerUrl)) bound
  simp only [List.countP_set bound, decide_eq_true_eq] at counted ⊢
  omega

theorem census_append (calls : List (Call Url Body Response Failure))
    (call : Call Url Body Response Failure) (peerUrl : Url) :
    census (calls ++ [call]) peerUrl =
      if call.peerUrl = peerUrl then
        { census calls peerUrl with sent := (census calls peerUrl).sent + 1 }.record
          call.progress.fate
      else census calls peerUrl := by
  by_cases same : call.peerUrl = peerUrl
  · cases fate : call.progress.fate <;>
      simp [census, number_append, same, fate, Stats.record]
  · simp [census, number_append, same]

omit [DecidableEq Url] in
theorem settled_eq_none {call : Call Url Body Response Failure} :
    call.settled = none ↔
      call.progress.fate = .delayed ∨ call.progress.fate = .posted := by
  unfold settled
  cases call.progress with
  | delayed => simp [Progress.fate]
  | posted => simp [Progress.fate]
  | fulfilled response => simp [Progress.fate]
  | rejected error =>
      cases error with
      | injected message code =>
          simp only [Progress.fate, CallError.fate]
          split <;> simp
      | post err => simp [Progress.fate, CallError.fate]

/-- A call that is still under way is counted once more when it goes on. -/
theorem census_set {calls : List (Call Url Body Response Failure)} {index : Nat}
    {call : Call Url Body Response Failure} (found : calls[index]? = some call)
    (underway : call.settled = none) (progress : Progress Response Failure)
    (peerUrl : Url) :
    census (calls.set index { call with progress }) peerUrl =
      if call.peerUrl = peerUrl then (census calls peerUrl).record progress.fate
      else census calls peerUrl := by
  have sent := calls_set found progress peerUrl
  have moved := number_set found progress peerUrl
  by_cases same : call.peerUrl = peerUrl
  · subst same
    simp only [true_and] at moved
    have from_ok := moved .ok
    have from_failed := moved .failed
    have from_dropped := moved .dropped
    have from_partitioned := moved .partitioned
    rw [if_pos rfl]
    rcases settled_eq_none.mp underway with waits | waits <;>
      cases fate : progress.fate <;>
      simp only [waits, fate, reduceCtorEq, if_true, if_false, Nat.add_zero]
        at from_ok from_failed from_dropped from_partitioned <;>
      simp only [census, Stats.record, sent, from_ok, from_failed, from_dropped,
        from_partitioned]
  · simp only [same, false_and, if_false, Nat.add_zero] at moved
    simp only [census, moved, sent, if_neg same]

end Call

namespace Traffic

/-- Requests issued to the peer. -/
def requests (self : Traffic Url Body Response Failure) (peerUrl : Url) : Nat :=
  self.issued.countP fun request => request.url = peerUrl

/-- A call is made: it counts as sent, and for what it comes to before it waits. -/
structure Enters (before next : Traffic Url Body Response Failure)
    (call : Call Url Body Response Failure) : Prop where
  calls : next.calls = before.calls ++ [call]
  stats : ∀ peerUrl, next.transport.stats peerUrl =
    if call.peerUrl = peerUrl then
      { before.transport.stats peerUrl with
        sent := (before.transport.stats peerUrl).sent + 1 }.record call.progress.fate
    else before.transport.stats peerUrl
  requests : ∀ peerUrl, next.requests peerUrl = before.requests peerUrl +
    if call.peerUrl = peerUrl ∧ call.progress.fate = .posted then 1 else 0
  unanswered : call.progress.fate ≠ .ok ∧ call.progress.fate ≠ .failed

/-- A call under way goes on: it is posted after its latency, or its POST ends. -/
structure Moves (before next : Traffic Url Body Response Failure) (index : Nat)
    (call : Call Url Body Response Failure) (progress : Progress Response Failure) :
    Prop where
  found : before.calls[index]? = some call
  order : call.progress.fate = .delayed ∧ progress.fate = .posted ∨
    call.progress.fate = .posted ∧ (progress.fate = .ok ∨ progress.fate = .failed)
  calls : next.calls = before.calls.set index { call with progress }
  stats : ∀ peerUrl, next.transport.stats peerUrl =
    if call.peerUrl = peerUrl then
      (before.transport.stats peerUrl).record progress.fate
    else before.transport.stats peerUrl
  requests : ∀ peerUrl, next.requests peerUrl = before.requests peerUrl +
    if call.peerUrl = peerUrl ∧ progress.fate = .posted then 1 else 0

theorem Moves.underway {before next : Traffic Url Body Response Failure} {index : Nat}
    {call : Call Url Body Response Failure} {progress : Progress Response Failure}
    (moves : Moves before next index call progress) : call.settled = none :=
  Call.settled_eq_none.mpr (moves.order.imp And.left And.left)

theorem requests_enter (self : Traffic Url Body Response Failure)
    (transport : Transport Url) {call : Call Url Body Response Failure}
    (unposted : call.progress.fate ≠ .posted) (peerUrl : Url) :
    (self.enter transport call).requests peerUrl = self.requests peerUrl +
      if call.peerUrl = peerUrl ∧ call.progress.fate = .posted then 1 else 0 := by
  rw [if_neg fun posted => unposted posted.2]
  rfl

theorem requests_issue (self : Traffic Url Body Response Failure)
    (calls : List (Call Url Body Response Failure)) (transport : Transport Url)
    (request : Issued Url Body) (peerUrl : Url) :
    requests { transport, calls, issued := self.issued ++ [request] } peerUrl =
      self.requests peerUrl + if request.url = peerUrl then 1 else 0 := by
  simp [requests]

theorem call_enters [ToString Url] (self : Traffic Url Body Response Failure)
    (peerUrl : Url) (path : String) (body : Body) (timeoutMs : Option Nat) (random : Rat) :
    ∃ call : Call Url Body Response Failure, call.peerUrl = peerUrl ∧
      Enters self (self.call peerUrl path body timeoutMs random) call := by
  let sent := self.transport.count peerUrl fun s => { s with sent := s.sent + 1 }
  have sends (other : Url) : sent.stats other =
      if peerUrl = other then
        { self.transport.stats other with sent := (self.transport.stats other).sent + 1 }
      else self.transport.stats other := by
    rw [Transport.stats_count]
    grind
  -- A refused call is counted a second time, under the reason.
  have refuses (fate : Fate) (other : Url) :
      (sent.count peerUrl fun s => s.record fate).stats other =
        if peerUrl = other then
          { self.transport.stats other with
            sent := (self.transport.stats other).sent + 1 }.record fate
        else self.transport.stats other := by
    rw [Transport.stats_count, sends, sends]
    grind
  unfold Traffic.call
  dsimp only
  split
  next partitioned =>
    exact ⟨_, rfl, rfl, refuses .partitioned, self.requests_enter _ nofun, nofun, nofun⟩
  next open_ =>
    split
    next dropped =>
      exact ⟨_, rfl, rfl, refuses .dropped, self.requests_enter _ nofun, nofun, nofun⟩
    next kept =>
      split
      next late => exact ⟨_, rfl, rfl, sends, self.requests_enter _ nofun, nofun, nofun⟩
      next prompt =>
        refine ⟨_, rfl, rfl, sends, ?_, nofun, nofun⟩
        intro other
        rw [requests_issue]
        by_cases same : peerUrl = other <;> simp [same, Call.request, Progress.fate]

omit [DecidableEq Url] in
theorem isDelayed_iff {call : Call Url Body Response Failure} :
    call.isDelayed = true ↔ call.progress = .delayed := by
  unfold Call.isDelayed
  cases call.progress <;> simp

omit [DecidableEq Url] in
theorem isPosted_iff {call : Call Url Body Response Failure} :
    call.isPosted = true ↔ call.progress = .posted := by
  unfold Call.isPosted
  cases call.progress <;> simp

theorem latencyEnds_moves {self next : Traffic Url Body Response Failure} {index : Nat}
    (ends : self.latencyEnds index = some next) :
    ∃ call, Moves self next index call .posted := by
  obtain ⟨call, found, delayed, rfl⟩ := latencyEnds_cases ends
  rw [isDelayed_iff] at delayed
  refine ⟨call, found, .inl ⟨congrArg Progress.fate delayed, rfl⟩, rfl, ?_, ?_⟩
  · intro peerUrl
    split <;> rfl
  · intro peerUrl
    rw [requests_issue]
    by_cases same : call.peerUrl = peerUrl <;> simp [same, Call.request, Progress.fate]

/-- The POST of a call ends, and its counter goes up. -/
theorem answered_moves {self : Traffic Url Body Response Failure} {index : Nat}
    {call : Call Url Body Response Failure} (found : self.calls[index]? = some call)
    (posted : call.progress = .posted) (progress : Progress Response Failure)
    (ended : progress.fate = .ok ∨ progress.fate = .failed) :
    Moves self
      { self with
        transport := self.transport.count call.peerUrl fun s => s.record progress.fate
        calls := self.calls.set index { call with progress } } index call progress := by
  refine ⟨found, .inr ⟨congrArg Progress.fate posted, ended⟩, rfl, ?_, ?_⟩
  · intro peerUrl
    rw [Transport.stats_count]
    grind
  · intro peerUrl
    rw [if_neg (by rintro ⟨-, again⟩; rcases ended with fate | fate <;> simp [fate] at again)]
    rfl

theorem answer_moves {self next : Traffic Url Body Response Failure} {index : Nat}
    {result : Except Failure Response} (answers : self.answer index result = some next) :
    ∃ call progress, Moves self next index call progress := by
  simp only [answer, Option.bind_eq_bind, Option.bind_eq_some_iff,
    Option.ite_none_right_eq_some] at answers
  obtain ⟨call, found, posted, settled⟩ := answers
  rw [isPosted_iff] at posted
  cases result with
  | ok response =>
      obtain rfl := Option.some.inj settled
      exact ⟨call, _, answered_moves found posted (.fulfilled response) (.inl rfl)⟩
  | error err =>
      obtain rfl := Option.some.inj settled
      exact ⟨call, _, answered_moves found posted (.rejected (.post err)) (.inr rfl)⟩

/-- A property that faults, new calls and the progress of calls keep is kept by every
step. -/
theorem step_keeps [ToString Url] (property : Traffic Url Body Response Failure → Prop)
    (faults : ∀ before fault, property before → property (before.admin fault))
    (enters : ∀ before next call, property before → Enters before next call → property next)
    (moves : ∀ before next index call progress, property before →
      Moves before next index call progress → property next)
    {self next : Traffic Url Body Response Failure} {action : Action Url Body Response Failure}
    (holds : property self) (stepped : self.step action = some next) : property next := by
  cases action with
  | admin fault => exact Option.some.inj stepped ▸ faults self fault holds
  | call peerUrl path body timeoutMs random =>
      obtain ⟨call, _, entered⟩ := self.call_enters peerUrl path body timeoutMs random
      exact enters self next call holds (Option.some.inj stepped ▸ entered)
  | broadcast peerUrls path body timeoutMs =>
      obtain rfl := Option.some.inj stepped
      clear stepped
      induction peerUrls generalizing self with
      | nil => exact holds
      | cons peer peers ih =>
          obtain ⟨call, _, entered⟩ := self.call_enters peer.1 path body timeoutMs peer.2
          exact ih (enters self _ call holds entered)
  | latencyEnds index =>
      obtain ⟨call, moved⟩ := latencyEnds_moves stepped
      exact moves self next index call _ holds moved
  | answer index result =>
      obtain ⟨call, progress, moved⟩ := answer_moves stepped
      exact moves self next index call progress holds moved

/-- The counters are what the calls have come to, and a request was issued for every call
that is posted or was. -/
structure Audited (state : Traffic Url Body Response Failure) : Prop where
  stats : ∀ peerUrl, state.transport.stats peerUrl = Call.census state.calls peerUrl
  requests : ∀ peerUrl, state.requests peerUrl = Call.number state.calls peerUrl .posted +
    Call.number state.calls peerUrl .ok + Call.number state.calls peerUrl .failed

namespace Audited

variable {before next : Traffic Url Body Response Failure}

theorem enters {call : Call Url Body Response Failure} (audited : before.Audited)
    (entered : Enters before next call) : next.Audited := by
  obtain ⟨notOk, notFailed⟩ := entered.unanswered
  constructor
  · intro peerUrl
    rw [entered.stats, entered.calls, Call.census_append, audited.stats]
  · intro peerUrl
    simp only [entered.requests, entered.calls, Call.number_append, audited.requests, notOk,
      notFailed, and_false, if_false]
    omega

theorem moves {index : Nat} {call : Call Url Body Response Failure}
    {progress : Progress Response Failure} (audited : before.Audited)
    (moved : Moves before next index call progress) : next.Audited := by
  constructor
  · intro peerUrl
    rw [moved.stats, moved.calls, Call.census_set moved.found moved.underway, audited.stats]
  · intro peerUrl
    have counted := Call.number_set moved.found progress peerUrl
    rw [moved.requests, moved.calls, audited.requests]
    have posted := counted .posted
    have ok := counted .ok
    have failed := counted .failed
    by_cases same : call.peerUrl = peerUrl
    · rcases moved.order with ⟨fate, next⟩ | ⟨fate, next | next⟩ <;>
        simp [same, fate, next] at posted ok failed ⊢ <;>
        omega
    · simp only [same, false_and, if_false] at posted ok failed ⊢
      omega

theorem step [ToString Url] {action : Action Url Body Response Failure}
    (audited : before.Audited) (stepped : before.step action = some next) :
    next.Audited := by
  refine step_keeps Audited ?_ ?_ ?_ audited stepped
  · intro state fault audited
    exact ⟨fun peerUrl => (state.transport.stats_inject fault peerUrl).trans
      (audited.stats peerUrl), audited.requests⟩
  · exact fun _ _ _ audited entered => audited.enters entered
  · exact fun _ _ _ _ _ audited moved => audited.moves moved

theorem reach [ToString Url] {state : Traffic Url Body Response Failure}
    (reached : (traffic Url Body Response Failure).Reach (fun _ _ => True) state) :
    state.Audited :=
  reached.invariant ⟨fun _ => rfl, fun _ => rfl⟩ fun _ _ _ _ audited _ stepped =>
    audited.step stepped

end Audited

/-- Every call to the peer has come to one of the fates. -/
theorem calls_by_fate (calls : List (Call Url Body Response Failure)) (peerUrl : Url) :
    (calls.countP fun call => call.peerUrl = peerUrl) =
      Call.number calls peerUrl .delayed + Call.number calls peerUrl .posted +
        Call.number calls peerUrl .ok + Call.number calls peerUrl .failed +
        Call.number calls peerUrl .dropped + Call.number calls peerUrl .partitioned := by
  induction calls with
  | nil => rfl
  | cons call calls ih =>
      simp only [Call.number, List.countP_cons, decide_eq_true_eq] at ih ⊢
      rw [ih]
      by_cases same : call.peerUrl = peerUrl
      · cases fate : call.progress.fate <;> simp [same] <;> omega
      · simp [same]

/-- The calls that a broadcast started. -/
def window (self : Traffic Url Body Response Failure) (start length : Nat) :
    List (Call Url Body Response Failure) :=
  (self.calls.drop start).take length

omit [DecidableEq Url] in
theorem getElem?_window (self : Traffic Url Body Response Failure)
    (start length index : Nat) :
    (self.window start length)[index]? =
      if index < length then self.calls[start + index]? else none := by
  simp only [window, List.getElem?_take, List.getElem?_drop]

/-- What later states have made of the calls of an earlier one: they are all still there,
and those that were settled are as they were. -/
def Follows (before later : Traffic Url Body Response Failure) : Prop :=
  ∀ (index : Nat) (call : Call Url Body Response Failure), before.calls[index]? = some call →
    ∃ progress, later.calls[index]? = some { call with progress } ∧
      (call.settled ≠ none → progress = call.progress)

namespace Follows

omit [DecidableEq Url] in
theorem refl (state : Traffic Url Body Response Failure) : Follows state state :=
  fun _ call found => ⟨call.progress, found, fun _ => rfl⟩

variable {before middle later : Traffic Url Body Response Failure}

theorem enters {call : Call Url Body Response Failure} (follows : Follows before middle)
    (entered : Enters middle later call) : Follows before later := by
  intro index old found
  obtain ⟨progress, kept, same⟩ := follows index old found
  refine ⟨progress, ?_, same⟩
  obtain ⟨bound, _⟩ := List.getElem?_eq_some_iff.mp kept
  rw [entered.calls, List.getElem?_append_left bound, kept]

theorem moves {index : Nat} {call : Call Url Body Response Failure}
    {progress : Progress Response Failure} (follows : Follows before middle)
    (moved : Moves middle later index call progress) : Follows before later := by
  intro place old found
  obtain ⟨held, kept, same⟩ := follows place old found
  by_cases here : index = place
  · subst here
    -- Only a call under way moves, so the old call was not settled.
    obtain rfl := Option.some.inj (kept.symm.trans moved.found)
    obtain ⟨bound, _⟩ := List.getElem?_eq_some_iff.mp kept
    refine ⟨progress, by rw [moved.calls, List.getElem?_set_self bound], fun settled => ?_⟩
    have underway := moved.underway
    rw [same settled] at underway
    exact absurd underway settled
  · refine ⟨held, ?_, same⟩
    rw [moved.calls, List.getElem?_set_ne here, kept]

theorem path [ToString Url]
    (path : (traffic Url Body Response Failure).Path (fun _ _ => True) before later) :
    Follows before later := by
  induction path with
  | refl => exact .refl before
  | step _ _ stepped ih =>
      refine step_keeps (Follows before) ?_ ?_ ?_ ih stepped
      · exact fun _ _ follows => follows
      · exact fun _ _ _ follows entered => follows.enters entered
      · exact fun _ _ _ _ _ follows moved => follows.moves moved

omit [DecidableEq Url] in
theorem window_peers (follows : Follows before later) {start length : Nat}
    (bound : start + length ≤ before.calls.length) :
    (later.window start length).map Call.peerUrl =
      (before.window start length).map Call.peerUrl := by
  apply List.ext_getElem?
  intro index
  simp only [List.getElem?_map, getElem?_window]
  split
  next within =>
    have found := List.getElem?_eq_getElem (l := before.calls) (i := start + index)
      (by omega)
    obtain ⟨progress, kept, _⟩ := follows _ _ found
    rw [found, kept]
    rfl
  next => rfl

omit [DecidableEq Url] in
theorem bound (follows : Follows before later) {count : Nat}
    (within : count ≤ before.calls.length) : count ≤ later.calls.length := by
  cases count with
  | zero => exact Nat.zero_le _
  | succ index =>
      obtain ⟨_, kept, _⟩ := follows index _ (List.getElem?_eq_getElem within)
      exact (List.getElem?_eq_some_iff.mp kept).1

omit [DecidableEq Url] in
/-- Settled calls do not change. -/
theorem window_settled (follows : Follows before later) {start length : Nat}
    (bound : start + length ≤ before.calls.length)
    (settled : ∀ call ∈ before.window start length, call.settled ≠ none) :
    later.window start length = before.window start length := by
  apply List.ext_getElem?
  intro index
  simp only [getElem?_window]
  split
  next within =>
    have found := List.getElem?_eq_getElem (l := before.calls) (i := start + index)
      (by omega)
    obtain ⟨progress, kept, same⟩ := follows _ _ found
    have member : before.calls[start + index] ∈ before.window start length := by
      apply List.mem_of_getElem?
      rw [getElem?_window, if_pos within, found]
    rw [found, kept, same (settled _ member)]
  next => rfl

end Follows

end Traffic

omit [DecidableEq Url] in
/-- A broadcast returns once all of its calls are settled. -/
theorem Call.outcomes_isSome (calls : List (Call Url Body Response Failure)) :
    (outcomes calls).isSome = true ↔ ∀ call ∈ calls, call.settled ≠ none := by
  induction calls with
  | nil => simp [outcomes]
  | cons call calls ih =>
      simp only [outcomes, List.mapM_cons] at ih ⊢
      cases settled : call.settled with
      | none => simp [settled]
      | some outcome =>
          rw [List.forall_mem_cons, ← ih]
          simp [settled, Option.isSome_bind]

section

variable [ToString Url]

/-- In every run the counters of a peer are what the calls made to it have come to: each
call is counted once as sent, and once more when it is refused or its POST has ended. -/
theorem metrics_exact {state : Traffic Url Body Response Failure}
    (reached : (traffic Url Body Response Failure).Reach (fun _ _ => True) state)
    (peerUrl : Url) :
    state.transport.stats peerUrl = Call.census state.calls peerUrl ∧
    (state.transport.stats peerUrl).sent =
      (state.transport.stats peerUrl).ok + (state.transport.stats peerUrl).failed +
        (state.transport.stats peerUrl).dropped +
        (state.transport.stats peerUrl).partitioned +
        (Call.number state.calls peerUrl .delayed + Call.number state.calls peerUrl .posted) ∧
    state.requests peerUrl =
      (state.transport.stats peerUrl).ok + (state.transport.stats peerUrl).failed +
        Call.number state.calls peerUrl .posted := by
  have audited := Traffic.Audited.reach reached
  rw [audited.stats, audited.requests]
  have fates := Traffic.calls_by_fate state.calls peerUrl
  refine ⟨rfl, ?_, ?_⟩
  · simp only [Call.census]
    omega
  · simp only [Call.census]
    omega

/-- A broadcast returns when its last call is settled, whatever goes on beside it; then it
has one result for each peer, in the order asked, and no later event changes them. -/
theorem broadcast_returns (before : Traffic Url Body Response Failure)
    (peerUrls : List (Url × Rat)) (path : String) (body : Body) (timeoutMs : Option Nat)
    {later : Traffic Url Body Response Failure}
    (onward : (traffic Url Body Response Failure).Path (fun _ _ => True)
      (before.broadcast peerUrls path body timeoutMs) later) :
    ((Call.outcomes (later.window before.calls.length peerUrls.length)).isSome = true ↔
        ∀ call ∈ later.window before.calls.length peerUrls.length, call.settled ≠ none) ∧
      ∀ results,
        Call.outcomes (later.window before.calls.length peerUrls.length) = some results →
        results.map Prod.fst = peerUrls.map Prod.fst ∧
          ∀ further, (traffic Url Body Response Failure).Path (fun _ _ => True) later further →
            Call.outcomes (further.window before.calls.length peerUrls.length) =
              some results := by
  obtain ⟨calls, made, order⟩ := before.broadcast_calls peerUrls path body timeoutMs
  have length : calls.length = peerUrls.length := by
    simpa using congrArg List.length order
  have bound : before.calls.length + peerUrls.length ≤
      (before.broadcast peerUrls path body timeoutMs).calls.length := by
    rw [made, List.length_append, length]
  have follows := Traffic.Follows.path onward
  refine ⟨Call.outcomes_isSome _, fun results returned => ⟨?_, fun further path => ?_⟩⟩
  · rw [Call.outcomes_peers returned, follows.window_peers bound, ← order, ← length]
    simp [Traffic.window, made]
  · have settled := (Call.outcomes_isSome _).mp (Option.isSome_of_eq_some returned)
    rw [(Traffic.Follows.path path).window_settled (follows.bound bound) settled, returned]

end

/-- A call that waits, one that is answered and one to a partitioned peer. -/
theorem metrics_exact_mixed :
    ∃ state, (traffic Nat Unit Unit Unit).Reach (fun _ _ => True) state ∧
      (state.transport.stats 0).sent = 2 ∧ (state.transport.stats 1).partitioned = 1 ∧
      state.transport.stats 0 = Call.census state.calls 0 := by
  obtain ⟨state, reached, counted⟩ := Transition.System.exists_reach_of_run
    (traffic Nat Unit Unit Unit) (fun _ _ => True)
    [.admin (.partitionPeer 1), .broadcast [(0, 0), (1, 0)] "/append-entries" () none,
      .answer 0 (.ok ()), .admin (.setGlobalLatency 50), .call 0 "/request-vote" () none 0]
    (fun state => decide ((state.transport.stats 0).sent = 2) &&
      decide ((state.transport.stats 1).partitioned = 1)) (by decide)
  rw [Bool.and_eq_true, decide_eq_true_iff, decide_eq_true_iff] at counted
  exact ⟨state, reached, counted.1, counted.2, (metrics_exact reached 0).1⟩

/-- A vote request to two peers returns although one POST fails. -/
theorem broadcast_returns_mixed :
    ∃ later, (traffic Nat Unit Unit Unit).Path (fun _ _ => True)
        (Traffic.broadcast {} [(0, 0), (1, 0)] "/request-vote" () none) later ∧
      ∃ results, Call.outcomes (later.window 0 2) = some results ∧
        results.map Prod.fst = [0, 1] := by
  have passed : ((traffic Nat Unit Unit Unit).run (fun _ _ => True)
      (Traffic.broadcast {} [(0, 0), (1, 0)] "/request-vote" () none)
      [.answer 1 (.error ()), .answer 0 (.ok ())]).any
        (fun later => (Call.outcomes (later.window 0 2)).isSome) = true := by decide
  obtain ⟨later, computed, returned⟩ := (Option.any_eq_true _ _).mp passed
  obtain ⟨results, returned⟩ := Option.isSome_iff_exists.mp returned
  have onward := Transition.System.Path.refl.run computed
  exact ⟨later, onward, results, returned,
    ((broadcast_returns _ _ _ _ _ onward).2 results returned).1⟩

end RaftCanvas.Chaos
