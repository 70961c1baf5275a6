import RaftCanvas.Chaos.Transport

/-!
# Partitions

A partition means that the node refuses to send to the peer.  A call that was delayed
before the partition is not tested again when its latency ends: it is sent anyway.  As
long as no peer is partitioned while a call to it waits, nothing is sent to a partitioned
peer.
-/

namespace RaftCanvas.Chaos

variable {Url Body Response Failure : Type}

namespace Traffic

/-- No call to the peer waits out a latency. -/
def Idle (state : Traffic Url Body Response Failure) (peerUrl : Url) : Prop :=
  ∀ call ∈ state.calls, call.isDelayed = true → call.peerUrl ≠ peerUrl

/-- A peer is partitioned only while no call to it is delayed. -/
def Prudent (state : Traffic Url Body Response Failure) :
    Action Url Body Response Failure → Prop
  | .admin (.partitionPeer peerUrl) => state.Idle peerUrl
  | _ => True

instance [DecidableEq Url] (state : Traffic Url Body Response Failure)
    (action : Action Url Body Response Failure) : Decidable (state.Prudent action) := by
  unfold Prudent Idle
  split <;> infer_instance

/-- Nothing was sent to a partitioned peer, and no call that waits will be. -/
structure Sealed (state : Traffic Url Body Response Failure) : Prop where
  waiting : ∀ call ∈ state.calls, call.isDelayed = true →
    call.peerUrl ∉ state.transport.partitionedPeers
  issued : ∀ request ∈ state.issued, request.url ∉ request.partitionedPeers

namespace Sealed

variable {state next : Traffic Url Body Response Failure}

theorem begins {call : Call Url Body Response Failure} (intact : state.Sealed)
    (begun : Begins state next call) : next.Sealed := by
  constructor
  case waiting =>
    intro other member delayed
    rw [begun.calls, List.mem_append, List.mem_singleton] at member
    rw [begun.partitionedPeers]
    rcases member with earlier | rfl
    · exact intact.waiting other earlier delayed
    · exact begun.waits delayed
  case issued =>
    rcases begun.issued with same | ⟨clear, sent⟩
    · rw [same]
      exact intact.issued
    · intro request member
      rw [sent, List.mem_append, List.mem_singleton] at member
      rcases member with earlier | rfl
      · exact intact.issued request earlier
      · simpa only [Call.request, begun.partitionedPeers] using clear

/-- A call moves on to a stage in which it is not delayed. -/
theorem proceed (intact : state.Sealed) (index : Nat)
    (moved : Call Url Body Response Failure) (transport : Transport Url)
    (awake : moved.isDelayed = false)
    (same : transport.partitionedPeers = state.transport.partitionedPeers) :
    Sealed { state with transport, calls := state.calls.set index moved } := by
  refine ⟨?_, intact.issued⟩
  intro call member delayed
  rw [same]
  rcases List.mem_or_eq_of_mem_set member with earlier | rfl
  · exact intact.waiting call earlier delayed
  · rw [awake] at delayed
    cases delayed

theorem latencyEnds {index : Nat} (intact : state.Sealed)
    (ends : state.latencyEnds index = some next) : next.Sealed := by
  obtain ⟨call, found, delayed, rfl⟩ := latencyEnds_cases ends
  have clear := intact.waiting call (List.mem_of_getElem? found) delayed
  have moved :=
    intact.proceed index { call with progress := .posted } state.transport rfl rfl
  refine ⟨moved.waiting, ?_⟩
  intro request member
  rcases List.mem_append.mp member with earlier | fresh
  · exact intact.issued request earlier
  · rw [List.mem_singleton.mp fresh]
    exact clear

variable [DecidableEq Url]

theorem admin (intact : state.Sealed) (fault : Fault Url)
    (prudent : state.Prudent (.admin fault)) :
    (state.admin fault).Sealed := by
  constructor
  case issued => exact intact.issued
  case waiting =>
    intro call member delayed
    have clear := intact.waiting call member delayed
    cases fault with
    | partitionPeer peerUrl =>
        simp only [Traffic.admin, Transport.inject, Transport.partitionPeer,
          Finset.mem_insert, not_or]
        exact ⟨prudent call member delayed, clear⟩
    | healPeer peerUrl =>
        intro still
        exact clear (Finset.mem_of_mem_erase still)
    | healAll => exact Finset.notMem_empty _
    | setPeerLatency peerUrl ms =>
        simp only [Traffic.admin, Transport.inject, Transport.setPeerLatency]
        split <;> exact clear
    | setGlobalLatency ms => exact clear
    | setPeerDrop peerUrl prob =>
        simp only [Traffic.admin, Transport.inject, Transport.setPeerDrop]
        split <;> exact clear
    | setGlobalDrop prob => exact clear
    | clearAllFaults => exact Finset.notMem_empty _

theorem call [ToString Url] (intact : state.Sealed) (peerUrl : Url) (path : String)
    (body : Body) (timeoutMs : Option Nat) (random : Rat) :
    (state.call peerUrl path body timeoutMs random).Sealed := by
  obtain ⟨_, _, begun⟩ := state.call_begins peerUrl path body timeoutMs random
  exact intact.begins begun

theorem broadcast [ToString Url] (intact : state.Sealed) (peerUrls : List (Url × Rat))
    (path : String) (body : Body) (timeoutMs : Option Nat) :
    (state.broadcast peerUrls path body timeoutMs).Sealed := by
  induction peerUrls generalizing state with
  | nil => exact intact
  | cons peer peers ih => exact ih (intact.call peer.1 path body timeoutMs peer.2)

theorem answer {index : Nat} {result : Except Failure Response} (intact : state.Sealed)
    (answers : state.answer index result = some next) : next.Sealed := by
  obtain ⟨moved, transport, awake, same, rfl⟩ := answer_cases answers
  exact intact.proceed index moved transport awake same

theorem step [ToString Url] {action : Action Url Body Response Failure}
    (intact : state.Sealed) (prudent : state.Prudent action)
    (stepped : state.step action = some next) : next.Sealed := by
  cases action with
  | admin fault => exact Option.some.inj stepped ▸ intact.admin fault prudent
  | call peerUrl path body timeoutMs random =>
      exact Option.some.inj stepped ▸ intact.call peerUrl path body timeoutMs random
  | broadcast peerUrls path body timeoutMs =>
      exact Option.some.inj stepped ▸ intact.broadcast peerUrls path body timeoutMs
  | latencyEnds index => exact intact.latencyEnds stepped
  | answer index result => exact intact.answer stepped

theorem reach [ToString Url]
    (reached : (traffic Url Body Response Failure).Reach Prudent state) : state.Sealed :=
  reached.invariant ⟨nofun, nofun⟩ fun _ _ _ _ intact prudent stepped =>
    intact.step prudent stepped

end Sealed

/-- A partition under a delayed call leaks: the request goes out when the latency ends. -/
theorem not_idle_iff [DecidableEq Url] {state : Traffic Url Body Response Failure}
    {peerUrl : Url} :
    ¬ state.Idle peerUrl ↔ ∃ index next request,
      (state.admin (.partitionPeer peerUrl)).latencyEnds index = some next ∧
        next.issued = state.issued ++ [request] ∧ request.url = peerUrl ∧
        peerUrl ∈ request.partitionedPeers := by
  constructor
  · intro busy
    simp only [Idle, not_forall, not_not] at busy
    obtain ⟨call, member, delayed, rfl⟩ := busy
    obtain ⟨index, bound, found⟩ := List.getElem_of_mem member
    have located : state.calls[index]? = some call := by
      rw [List.getElem?_eq_getElem bound, found]
    let severed := state.admin (.partitionPeer call.peerUrl)
    have ends : severed.latencyEnds index = some { severed with
        calls := severed.calls.set index { call with progress := .posted }
        issued := severed.issued ++ [call.request severed.transport] } := by
      simp [latencyEnds, Traffic.admin, located, delayed, severed]
    exact ⟨index, _, call.request severed.transport, ends, rfl, rfl,
      Finset.mem_insert_self _ _⟩
  · rintro ⟨index, next, request, ends, issued, targeted, _⟩ idle
    obtain ⟨call, found, delayed, rfl⟩ := latencyEnds_cases ends
    have sent := List.singleton_inj.mp (List.append_cancel_left issued)
    refine idle call (List.mem_of_getElem? found) delayed ?_
    rw [← targeted, ← sent]
    rfl

end Traffic

section

variable [DecidableEq Url] [ToString Url]

/-- In every run that partitions no peer while a call to it is delayed, nothing is sent
to a partitioned peer.  A partition under a delayed call is one step from the leak. -/
theorem partition_absolute :
    (∀ state, (traffic Url Body Response Failure).Reach Traffic.Prudent state →
      ∀ request ∈ state.issued, request.url ∉ request.partitionedPeers) ∧
    ∀ (state : Traffic Url Body Response Failure) (peerUrl : Url),
      ¬ state.Prudent (.admin (.partitionPeer peerUrl)) ↔
        ∃ index next request,
          (state.admin (.partitionPeer peerUrl)).latencyEnds index = some next ∧
            next.issued = state.issued ++ [request] ∧ request.url = peerUrl ∧
            peerUrl ∈ request.partitionedPeers :=
  ⟨fun _ reached => (Traffic.Sealed.reach reached).issued,
    fun _ _ => Traffic.not_idle_iff⟩

end

/-- A delayed call goes out although the other peer has been partitioned. -/
theorem partition_absolute_other :
    ∃ state, (traffic Nat Unit Unit Unit).Reach Traffic.Prudent state ∧
      1 ∈ state.transport.partitionedPeers ∧ state.issued ≠ [] ∧
      ∀ request ∈ state.issued, request.url ∉ request.partitionedPeers := by
  have found := Transition.System.exists_reach_of_run (traffic Nat Unit Unit Unit)
    Traffic.Prudent
    [.admin (.setGlobalLatency 50), .broadcast [(0, 0), (1, 0)] "/append-entries" () none,
      .latencyEnds 1, .admin (.partitionPeer 1), .latencyEnds 0]
    (fun state => decide (1 ∈ state.transport.partitionedPeers) && !state.issued.isEmpty)
    (by decide)
  obtain ⟨state, reached, severed⟩ := found
  rw [Bool.and_eq_true, decide_eq_true_iff] at severed
  exact ⟨state, reached, severed.1, by simpa using severed.2,
    partition_absolute.1 state reached⟩

/-- A delayed call, a partition of its peer, and the end of the latency. -/
def leaking : List (Action Nat Unit Unit Unit) :=
  [.admin (.setGlobalLatency 50), .call 0 "/append-entries" () none 0,
    .admin (.partitionPeer 0), .latencyEnds 0]

theorem partition_leaks :
    ∃ state, (traffic Nat Unit Unit Unit).Reach (fun _ _ => True) state ∧
      ∃ request ∈ state.issued, request.url ∈ request.partitionedPeers := by
  have found := Transition.System.exists_reach_of_run (traffic Nat Unit Unit Unit)
    (fun _ _ => True) leaking
    (fun state => state.issued.any fun request =>
      decide (request.url ∈ request.partitionedPeers)) (by decide)
  obtain ⟨state, reached, leaked⟩ := found
  refine ⟨state, reached, ?_⟩
  simpa using leaked

end RaftCanvas.Chaos
