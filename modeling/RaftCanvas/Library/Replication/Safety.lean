import RaftCanvas.Library.Replication.Preservation

/-!
# Leader completeness and its consequences

Leader completeness is derived from the evidence kept in `Sound`, by strong
induction on the later term: the majority that committed and the majority that
voted share a member whose log, when it voted, already held the committed prefix.
-/

namespace Replication

namespace State

variable {Member Entry : Type} [Stamped Entry] [Fintype Member] [DecidableEq Member]
variable {state : State Member Entry}

omit [DecidableEq Member] in
/-- Nothing is decided in a term that nobody has won. -/
theorem Sound.undecided (sound : state.Sound) {era : Nat}
    (vacant : state.elected era = none) : state.decided era = 0 := by
  by_contra positive
  exact (sound.decided era (Nat.pos_of_ne_zero positive)).1 vacant

omit [DecidableEq Member] in
/-- A log at least as recent as one that holds a prefix ending in an entry of
`era` holds that prefix too, if the winners in between inherited it. -/
theorem Sound.upToDate_carries (sound : state.Sound) {era count limit : Nat}
    {challenger own : List Entry} (led : state.elected era ≠ none)
    (above : (state.base era).length < count)
    (within : count ≤ (state.ledger era).length)
    (ownBacked : state.Backed own) (backed : state.Backed challenger)
    (older : ∀ entry ∈ challenger, term entry < limit)
    (recent : UpToDate challenger own)
    (held : (state.ledger era).take count <+: own)
    (inherited : state.Inherited era count (limit - 1)) :
    (state.ledger era).take count <+: challenger := by
  have heldLength : count ≤ own.length := by
    have bound := held.length_le
    rw [List.length_take] at bound
    omega
  -- the last entry of `own` is of a term from `era` on
  obtain ⟨ownLast, ownEnds⟩ := Option.isSome_iff_exists.mp
    (List.getLast?_isSome.mpr (List.length_pos_iff.mp (show 0 < own.length by omega)))
  obtain ⟨entry, foundLedger⟩ : ∃ entry, (state.ledger era)[count - 1]? = some entry :=
    ⟨_, List.getElem?_eq_getElem (by omega)⟩
  have entryTerm := sound.ledger_own era led _ entry foundLedger (by omega)
  have foundOwn : own[count - 1]? = some entry := by
    obtain ⟨suffix, grown⟩ := held
    rw [← grown, List.getElem?_append_left (by rw [List.length_take]; omega),
      List.getElem?_take_of_lt (by omega), foundLedger]
  have ownLower : era ≤ term ownLast := by
    have foundLast : own[own.length - 1]? = some ownLast := by
      rw [← List.getLast?_eq_getElem?, ownEnds]
    have ordered := sound.terms_mono ownBacked (by omega) foundOwn foundLast
    omega
  obtain ⟨_, _, ownInside⟩ := ownBacked.inside_ledger ownEnds
  -- hence the challenger is not empty
  have ownTerm : lastTerm own = term ownLast := by simp [lastTerm, ownEnds]
  cases ends : challenger.getLast? with
  | none =>
      have noTerm : lastTerm challenger = -1 := by simp [lastTerm, ends]
      rcases recent with higher | ⟨same, _⟩ <;> omega
  | some last =>
      have lastTerm_eq : lastTerm challenger = term last := by simp [lastTerm, ends]
      obtain ⟨ledLast, aboveLast, inside⟩ := backed.inside_ledger ends
      have bounded := older last (List.mem_of_getLast? ends)
      rcases recent with higher | ⟨same, longer⟩
      · have inBase := inherited (term last) (by omega) (by omega) ledLast
        have baseInside := List.prefix_of_prefix_length_le
          (sound.base_prefix _ ledLast) inside aboveLast.le
        exact inBase.trans baseInside
      · have sameTerm : term ownLast = term last := by omega
        rw [sameTerm] at ownInside
        exact held.trans (List.prefix_of_prefix_length_le ownInside inside longer)

omit [DecidableEq Member] in
/-- Every winner of a term after a commitment starts with the committed prefix. -/
theorem Sound.leader_complete [DecidableEq Member] (sound : state.Sound)
    {era count : Nat} (committed : state.Committed era count) (limit : Nat) :
    state.Inherited era count limit := by
  intro later
  induction later using Nat.strongRecOn with
  | ind later ih =>
      intro after bounded won
      obtain ⟨led, above, within, group, majority, acked⟩ := committed
      obtain ⟨voters, voterMajority, voted⟩ := sound.evidence later won
      obtain ⟨voter, inGroup, inVoters⟩ := majority.inter voterMajority
      obtain ⟨_, own, ownBacked, recent, recalls⟩ := voted voter inVoters
      have inherited : state.Inherited era count (later - 1) :=
        fun between lower upper wonBetween =>
          ih between (by omega) lower (by omega) wonBetween
      have held := recalls era count after above (acked voter inGroup) inherited
      have baseBacked : state.Backed (state.base later) :=
        (sound.backed_ledger later won).restrict (sound.base_prefix later won)
      exact sound.upToDate_carries led above within ownBacked baseBacked
        (sound.base_old later won) recent held inherited

/-- A committed prefix is in the ledger of every later term. -/
theorem Sound.committed_prefix (sound : state.Sound) {era count later : Nat}
    (committed : state.Committed era count) (ordered : era ≤ later)
    (won : state.elected later ≠ none) :
    (state.ledger era).take count <+: state.ledger later := by
  rcases Nat.lt_or_eq_of_le ordered with before | rfl
  · exact (sound.leader_complete committed later later before (Nat.le_refl _) won).trans
      (sound.base_prefix later won)
  · exact List.take_prefix _ _

/-- What the winner of a term decided is in the ledger of every later term. -/
theorem Sound.decided_prefix (sound : state.Sound) {era later : Nat}
    (ordered : era ≤ later) (won : state.elected later ≠ none) :
    (state.ledger era).take (state.decided era) <+: state.ledger later := by
  by_cases idle : state.decided era = 0
  · rw [idle, List.take_zero]
    exact List.nil_prefix
  · exact sound.committed_prefix (sound.decided era (Nat.pos_of_ne_zero idle)) ordered won

/-- A certified log lies inside the ledger of the certifying bound. -/
theorem Sound.certified_inside (sound : state.Sound) {limit : Nat} {log : List Entry}
    (certified : state.Certified limit log) (won : state.elected limit ≠ none) :
    log <+: state.ledger limit := by
  obtain ⟨era, bounded, covered⟩ := certified
  exact covered.trans (sound.decided_prefix bounded won)

/-- Decisions of different terms agree on everything they both cover. -/
theorem Sound.decided_agree (sound : state.Sound) {era era' : Nat}
    (ordered : era ≤ era') {left right : List Entry}
    (leftCovered : left <+: (state.ledger era).take (state.decided era))
    (rightCovered : right <+: (state.ledger era').take (state.decided era')) :
    left <+: right ∨ right <+: left := by
  by_cases idle : state.decided era' = 0
  · rw [idle, List.take_zero, List.prefix_nil] at rightCovered
    exact Or.inr (rightCovered ▸ List.nil_prefix)
  · have led := (sound.decided era' (Nat.pos_of_ne_zero idle)).1
    exact List.prefix_or_prefix_of_prefix
      (leftCovered.trans (sound.decided_prefix ordered led))
      (rightCovered.trans (List.take_prefix _ _))

/-- Certified logs agree on everything they both cover. -/
theorem Sound.certified_agree (sound : state.Sound) {limit limit' : Nat}
    {left right : List Entry} (leftCertified : state.Certified limit left)
    (rightCertified : state.Certified limit' right) :
    left <+: right ∨ right <+: left := by
  obtain ⟨era, _, leftCovered⟩ := leftCertified
  obtain ⟨era', _, rightCovered⟩ := rightCertified
  rcases le_total era era' with ordered | ordered
  · exact sound.decided_agree ordered leftCovered rightCovered
  · exact (sound.decided_agree ordered rightCovered leftCovered).symm

/-- Whoever acknowledged a committed prefix still holds it. -/
theorem Sound.committed_held (sound : state.Sound) {era count : Nat}
    (committed : state.Committed era count) {member : Member}
    (acked : count ≤ state.acked member era) :
    (state.ledger era).take count <+: state.log member := by
  have seen := (sound.acked_led member era (by have := committed.2.1; omega)).2.1
  exact sound.retained member era count (by omega) committed.2.1 acked
    (sound.leader_complete committed _)

/-- A certified prefix of a member's log survives everything a member does. -/
theorem Step.retains {actor member : Member} {next : State Member Entry}
    (sound : state.Sound) (stepped : Step actor state next) {log : List Entry}
    (certified : state.Certified (state.current member) log)
    (held : log <+: state.log member) : log <+: next.log member := by
  by_cases acting : member = actor
  · subst acting
    cases stepped with
    | raise | stand | vote | elect | commit => exact held
    | append entry leads stamped =>
        simp only [State.append, Function.update_self]
        exact held.trans (List.prefix_append _ _)
    | accept count accepted led other within covers source keeps =>
        simp only [State.accept, Function.update_self]
        exact keeps log held (sound.certified_inside certified led)
  · rw [stepped.frame.log member acting]
    exact held

theorem Steps.retains {actor member : Member} {next : State Member Entry}
    (sound : state.Sound) (stepped : Steps actor state next) {log : List Entry}
    (certified : state.Certified (state.current member) log)
    (held : log <+: state.log member) : log <+: next.log member := by
  induction stepped with
  | refl => exact held
  | tail before stepped ih =>
      obtain ⟨soundMid, extended, _⟩ := Steps.sound sound before
      exact stepped.retains soundMid
        ((certified.extends sound extended).mono (extended.current member)) ih

/-! ## The initial state -/

/-- Nobody has seen, won or written anything. -/
def initial : State Member Entry where
  current _ := 0
  log _ := []
  elected _ := none
  base _ := []
  ledger _ := []
  acked _ _ := 0
  decided _ := 0
  ballot _ _ _ := False
  campaign _ _ := none

omit [DecidableEq Member] in
theorem sound_initial : (initial : State Member Entry).Sound where
  backed_log _ _ _ found := by simp [initial] at found
  backed_ledger _ led := absurd rfl led
  base_prefix _ led := absurd rfl led
  base_old _ led := absurd rfl led
  ledger_own _ led := absurd rfl led
  log_term _ _ inside := by simp [initial] at inside
  winner _ _ won := by simp [initial] at won
  acked_led _ _ positive := by simp [initial] at positive
  acked_held _ := by simp [initial]
  campaigned _ _ _ campaigned := by simp [initial] at campaigned
  retained _ _ _ _ above acked := by
    simp only [initial, List.length_nil] at above acked
    omega
  ballots _ _ _ cast := cast.elim
  evidence _ led := absurd rfl led
  decided _ positive := by simp [initial] at positive

end State

end Replication
