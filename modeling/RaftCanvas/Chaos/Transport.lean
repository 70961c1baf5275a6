import Mathlib.Data.Finset.Basic
import RaftCanvas.Library.Transition

/-!
# The chaos transport

Every outbound call of a replica goes through `Transport.call`, which refuses partitioned
peers, drops calls at random and delays them.  The partition is tested when the call
starts; the request is issued when its latency has passed, and admin operations run in
between.
-/

namespace RaftCanvas.Chaos

structure Probability where
  value : Rat
  low : 0 ≤ value
  high : value ≤ 1

def Probability.never : Probability := ⟨0, Rat.le_refl, by decide⟩

def Probability.always : Probability := ⟨1, by decide, Rat.le_refl⟩

/-- `Math.max(0, Math.min(1, prob))`. -/
def Probability.clamp (prob : Rat) : Probability :=
  if low : 0 ≤ prob then
    if high : prob ≤ 1 then ⟨prob, low, high⟩ else .always
  else .never

structure Stats where
  sent : Nat := 0
  ok : Nat := 0
  failed : Nat := 0
  dropped : Nat := 0
  partitioned : Nat := 0
  deriving DecidableEq, Repr

structure Transport (Url : Type) where
  defaultTimeoutMs : Nat := 300
  partitionedPeers : Finset Url := ∅
  peerLatencyMs : Url → Option Nat := fun _ => none
  peerDropProb : Url → Option Probability := fun _ => none
  globalLatencyMs : Nat := 0
  globalDropProb : Probability := .never
  peerStats : Url → Option Stats := fun _ => none

/-- The admin operations. -/
inductive Fault (Url : Type) where
  | partitionPeer (peerUrl : Url)
  | healPeer (peerUrl : Url)
  | healAll
  | setPeerLatency (peerUrl : Url) (ms : Int)
  | setGlobalLatency (ms : Int)
  | setPeerDrop (peerUrl : Url) (prob : Rat)
  | setGlobalDrop (prob : Rat)
  | clearAllFaults

namespace Transport

variable {Url : Type} [DecidableEq Url]

def partitionPeer (self : Transport Url) (peerUrl : Url) : Transport Url :=
  { self with partitionedPeers := insert peerUrl self.partitionedPeers }

def healPeer (self : Transport Url) (peerUrl : Url) : Transport Url :=
  { self with partitionedPeers := self.partitionedPeers.erase peerUrl }

def healAll (self : Transport Url) : Transport Url :=
  { self with partitionedPeers := ∅ }

def setPeerLatency (self : Transport Url) (peerUrl : Url) (ms : Int) : Transport Url :=
  if ms ≤ 0 then
    { self with peerLatencyMs := Function.update self.peerLatencyMs peerUrl none }
  else
    { self with
      peerLatencyMs := Function.update self.peerLatencyMs peerUrl (some ms.toNat) }

def setGlobalLatency (self : Transport Url) (ms : Int) : Transport Url :=
  { self with globalLatencyMs := ms.toNat }

def setPeerDrop (self : Transport Url) (peerUrl : Url) (prob : Rat) : Transport Url :=
  if prob ≤ 0 then
    { self with peerDropProb := Function.update self.peerDropProb peerUrl none }
  else
    { self with
      peerDropProb :=
        Function.update self.peerDropProb peerUrl (some (Probability.clamp prob)) }

def setGlobalDrop (self : Transport Url) (prob : Rat) : Transport Url :=
  { self with globalDropProb := Probability.clamp prob }

def clearAllFaults (self : Transport Url) : Transport Url :=
  { self with
    partitionedPeers := ∅
    peerLatencyMs := fun _ => none
    peerDropProb := fun _ => none
    globalLatencyMs := 0
    globalDropProb := .never }

def inject (self : Transport Url) : Fault Url → Transport Url
  | .partitionPeer peerUrl => self.partitionPeer peerUrl
  | .healPeer peerUrl => self.healPeer peerUrl
  | .healAll => self.healAll
  | .setPeerLatency peerUrl ms => self.setPeerLatency peerUrl ms
  | .setGlobalLatency ms => self.setGlobalLatency ms
  | .setPeerDrop peerUrl prob => self.setPeerDrop peerUrl prob
  | .setGlobalDrop prob => self.setGlobalDrop prob
  | .clearAllFaults => self.clearAllFaults

def stats (self : Transport Url) (peerUrl : Url) : Stats :=
  (self.peerStats peerUrl).getD {}

/-- One of the counters of `peerUrl` goes up. -/
def count (self : Transport Url) (peerUrl : Url) (increment : Stats → Stats) :
    Transport Url :=
  { self with
    peerStats :=
      Function.update self.peerStats peerUrl (some (increment (self.stats peerUrl))) }

def effectiveLatency (self : Transport Url) (peerUrl : Url) : Nat :=
  max ((self.peerLatencyMs peerUrl).getD 0) self.globalLatencyMs

def effectiveDrop (self : Transport Url) (peerUrl : Url) : Rat :=
  let peer := ((self.peerDropProb peerUrl).getD .never).value
  if peer ≤ self.globalDropProb.value then self.globalDropProb.value else peer

end Transport

/-- Why a call was not answered: an injected fault, or an error of the POST itself. -/
inductive CallError (Failure : Type) where
  | injected (message code : String)
  | post (err : Failure)

inductive Progress (Response Failure : Type) where
  | delayed
  | posted
  | fulfilled (response : Response)
  | rejected (error : CallError Failure)

structure Call (Url Body Response Failure : Type) where
  peerUrl : Url
  path : String
  body : Body
  timeoutMs : Option Nat
  progress : Progress Response Failure

/-- An HTTP request, with the peers that were partitioned when it was issued. -/
structure Issued (Url Body : Type) where
  url : Url
  path : String
  body : Body
  timeout : Nat
  partitionedPeers : Finset Url

/-- The transport, the calls made on it and the requests it has issued. -/
structure Traffic (Url Body Response Failure : Type) where
  transport : Transport Url := {}
  calls : List (Call Url Body Response Failure) := []
  issued : List (Issued Url Body) := []

/-- `latencyEnds` and `answer` name a call by its number; `random` is what
`Math.random()` returns in a call. -/
inductive Action (Url Body Response Failure : Type) where
  | admin (fault : Fault Url)
  | call (peerUrl : Url) (path : String) (body : Body) (timeoutMs : Option Nat)
      (random : Rat)
  | broadcast (peerUrls : List (Url × Rat)) (path : String) (body : Body)
      (timeoutMs : Option Nat)
  | latencyEnds (index : Nat)
  | answer (index : Nat) (result : Except Failure Response)

variable {Url Body Response Failure : Type}

namespace Call

def isDelayed (call : Call Url Body Response Failure) : Bool :=
  match call.progress with
  | .delayed => true
  | _ => false

def isPosted (call : Call Url Body Response Failure) : Bool :=
  match call.progress with
  | .posted => true
  | _ => false

/-- What `axios.post` is asked to send. -/
def request (call : Call Url Body Response Failure) (transport : Transport Url) :
    Issued Url Body where
  url := call.peerUrl
  path := call.path
  body := call.body
  timeout := call.timeoutMs.getD transport.defaultTimeoutMs
  partitionedPeers := transport.partitionedPeers

/-- How the promise of the call was settled, if it was. -/
def settled (call : Call Url Body Response Failure) :
    Option (Except (CallError Failure) Response) :=
  match call.progress with
  | .fulfilled response => some (.ok response)
  | .rejected error => some (.error error)
  | _ => none

/-- What a broadcast returns: each peer with its outcome, once all calls are settled. -/
def outcomes (calls : List (Call Url Body Response Failure)) :
    Option (List (Url × Except (CallError Failure) Response)) :=
  calls.mapM fun call => call.settled.map fun outcome => (call.peerUrl, outcome)

theorem outcomes_peers {calls : List (Call Url Body Response Failure)}
    {results : List (Url × Except (CallError Failure) Response)}
    (returned : outcomes calls = some results) :
    results.map Prod.fst = calls.map Call.peerUrl := by
  induction calls generalizing results with
  | nil =>
      obtain rfl := Option.some.inj returned
      rfl
  | cons call calls ih =>
      simp only [outcomes, List.mapM_cons, Option.bind_eq_bind, Option.bind_eq_some_iff,
        Option.map_eq_some_iff] at returned
      obtain ⟨_, ⟨outcome, _, rfl⟩, rest, returned, same⟩ := returned
      obtain rfl := Option.some.inj same
      rw [List.map_cons, List.map_cons, ih returned]

end Call

namespace Traffic

variable [DecidableEq Url]

def admin (self : Traffic Url Body Response Failure) (fault : Fault Url) :
    Traffic Url Body Response Failure :=
  { self with transport := self.transport.inject fault }

/-- A new call, in the state its synchronous part leaves it in. -/
def enter (self : Traffic Url Body Response Failure) (transport : Transport Url)
    (call : Call Url Body Response Failure) : Traffic Url Body Response Failure :=
  { self with transport, calls := self.calls ++ [call] }

/-- `Transport.call` until it first waits. -/
def call [ToString Url] (self : Traffic Url Body Response Failure) (peerUrl : Url)
    (path : String) (body : Body) (timeoutMs : Option Nat) (random : Rat) :
    Traffic Url Body Response Failure :=
  let transport := self.transport.count peerUrl fun s => { s with sent := s.sent + 1 }
  let drop := transport.effectiveDrop peerUrl
  if peerUrl ∈ transport.partitionedPeers then
    let refused := transport.count peerUrl fun s =>
      { s with partitioned := s.partitioned + 1 }
    let err := .injected s!"partitioned from {peerUrl}" "PARTITIONED"
    self.enter refused { peerUrl, path, body, timeoutMs, progress := .rejected err }
  else if 0 < drop ∧ random < drop then
    let refused := transport.count peerUrl fun s => { s with dropped := s.dropped + 1 }
    let err := .injected s!"dropped call to {peerUrl}{path}" "DROPPED"
    self.enter refused { peerUrl, path, body, timeoutMs, progress := .rejected err }
  else if 0 < transport.effectiveLatency peerUrl then
    self.enter transport { peerUrl, path, body, timeoutMs, progress := .delayed }
  else
    let call := { peerUrl, path, body, timeoutMs, progress := .posted }
    { self.enter transport call with issued := self.issued ++ [call.request transport] }

/-- The calls of a broadcast all start before any of them waits. -/
def broadcast [ToString Url] (self : Traffic Url Body Response Failure)
    (peerUrls : List (Url × Rat)) (path : String) (body : Body)
    (timeoutMs : Option Nat) : Traffic Url Body Response Failure :=
  peerUrls.foldl (fun traffic peer => traffic.call peer.1 path body timeoutMs peer.2) self

/-- The injected latency of a call has passed. -/
def latencyEnds (self : Traffic Url Body Response Failure) (index : Nat) :
    Option (Traffic Url Body Response Failure) := do
  let call ← self.calls[index]?
  if call.isDelayed then
    some { self with
      calls := self.calls.set index { call with progress := .posted }
      issued := self.issued ++ [call.request self.transport] }
  else none

def answer (self : Traffic Url Body Response Failure) (index : Nat)
    (result : Except Failure Response) : Option (Traffic Url Body Response Failure) := do
  let call ← self.calls[index]?
  if call.isPosted then
    match result with
    | .ok response =>
        some { self with
          transport := self.transport.count call.peerUrl fun s => { s with ok := s.ok + 1 }
          calls := self.calls.set index { call with progress := .fulfilled response } }
    | .error err =>
        some { self with
          transport :=
            self.transport.count call.peerUrl fun s => { s with failed := s.failed + 1 }
          calls := self.calls.set index { call with progress := .rejected (.post err) } }
  else none

def step [ToString Url] (self : Traffic Url Body Response Failure) :
    Action Url Body Response Failure → Option (Traffic Url Body Response Failure)
  | .admin fault => some (self.admin fault)
  | .call peerUrl path body timeoutMs random =>
      some (self.call peerUrl path body timeoutMs random)
  | .broadcast peerUrls path body timeoutMs =>
      some (self.broadcast peerUrls path body timeoutMs)
  | .latencyEnds index => self.latencyEnds index
  | .answer index result => self.answer index result

/-- What the synchronous part of a call may do: the partitions stay as they are, and the
call waits or its request is issued only if the peer is not partitioned. -/
structure Begins (before next : Traffic Url Body Response Failure)
    (call : Call Url Body Response Failure) : Prop where
  partitionedPeers : next.transport.partitionedPeers = before.transport.partitionedPeers
  calls : next.calls = before.calls ++ [call]
  waits : call.isDelayed = true → call.peerUrl ∉ before.transport.partitionedPeers
  issued : next.issued = before.issued ∨
    call.peerUrl ∉ before.transport.partitionedPeers ∧
      next.issued = before.issued ++ [call.request next.transport]

theorem call_begins [ToString Url] (self : Traffic Url Body Response Failure) (peerUrl : Url)
    (path : String) (body : Body) (timeoutMs : Option Nat) (random : Rat) :
    ∃ call : Call Url Body Response Failure, call.peerUrl = peerUrl ∧
      Begins self (self.call peerUrl path body timeoutMs random) call := by
  unfold Traffic.call
  dsimp only
  split
  next partitioned => exact ⟨_, rfl, rfl, rfl, nofun, .inl rfl⟩
  next open_ =>
    split
    next dropped => exact ⟨_, rfl, rfl, rfl, nofun, .inl rfl⟩
    next kept =>
      split
      next late => exact ⟨_, rfl, rfl, rfl, fun _ => open_, .inl rfl⟩
      next prompt => exact ⟨_, rfl, rfl, rfl, nofun, .inr ⟨open_, rfl⟩⟩

/-- A broadcast makes one call to each peer, in order. -/
theorem broadcast_calls [ToString Url] (self : Traffic Url Body Response Failure)
    (peerUrls : List (Url × Rat)) (path : String) (body : Body) (timeoutMs : Option Nat) :
    ∃ started, (self.broadcast peerUrls path body timeoutMs).calls = self.calls ++ started ∧
      started.map Call.peerUrl = peerUrls.map Prod.fst := by
  induction peerUrls generalizing self with
  | nil => exact ⟨[], (List.append_nil _).symm, rfl⟩
  | cons peer peers ih =>
      obtain ⟨call, called, begun⟩ := self.call_begins peer.1 path body timeoutMs peer.2
      obtain ⟨started, calls, order⟩ := ih (self.call peer.1 path body timeoutMs peer.2)
      refine ⟨call :: started, ?_, ?_⟩
      · rw [begun.calls, List.append_assoc] at calls
        exact calls
      · rw [List.map_cons, List.map_cons, called, order]

omit [DecidableEq Url] in
theorem latencyEnds_cases {self next : Traffic Url Body Response Failure} {index : Nat}
    (ends : self.latencyEnds index = some next) :
    ∃ call, self.calls[index]? = some call ∧ call.isDelayed = true ∧
      next = { self with
        calls := self.calls.set index { call with progress := .posted }
        issued := self.issued ++ [call.request self.transport] } := by
  simp only [latencyEnds, Option.bind_eq_bind, Option.bind_eq_some_iff,
    Option.ite_none_right_eq_some] at ends
  obtain ⟨call, found, delayed, same⟩ := ends
  exact ⟨call, found, delayed, (Option.some.inj same).symm⟩

/-- An answer settles its call and touches no partition. -/
theorem answer_cases {self next : Traffic Url Body Response Failure} {index : Nat}
    {result : Except Failure Response} (answers : self.answer index result = some next) :
    ∃ call transport, call.isDelayed = false ∧
      transport.partitionedPeers = self.transport.partitionedPeers ∧
      next = { self with transport, calls := self.calls.set index call } := by
  simp only [answer, Option.bind_eq_bind, Option.bind_eq_some_iff,
    Option.ite_none_right_eq_some] at answers
  obtain ⟨call, found, posted, settled⟩ := answers
  cases result with
  | ok response =>
      refine ⟨{ call with progress := .fulfilled response }, _, rfl, ?_,
        (Option.some.inj settled).symm⟩
      rfl
  | error err =>
      refine ⟨{ call with progress := .rejected (.post err) }, _, rfl, ?_,
        (Option.some.inj settled).symm⟩
      rfl

end Traffic

/-- A replica's outbound calls, from the start of its process. -/
def traffic (Url Body Response Failure : Type) [DecidableEq Url] [ToString Url] :
    Transition.System (Traffic Url Body Response Failure)
      (Action Url Body Response Failure) where
  init := {}
  step := Traffic.step

end RaftCanvas.Chaos
