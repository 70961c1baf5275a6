import RaftCanvas.Library.Replication.State

/-!
# The invariant of the abstract protocol

History only grows (`Extends`), other members are untouched (`Frame`), and the
invariant `Sound` ties logs, acknowledgements and ballots to the ledgers.  The
last three fields are the induction hypothesis of leader completeness: what a
member acknowledged stays in its log, was in its log when it voted, and hence was
compared with the log of every winner it voted for.
-/

namespace Replication

namespace State

variable {Member Entry : Type}

/-- History recorded so far is kept. -/
structure Extends (state next : State Member Entry) : Prop where
  current : ∀ member, state.current member ≤ next.current member
  elected : ∀ era winner, state.elected era = some winner →
    next.elected era = some winner
  base : ∀ era, state.elected era ≠ none → next.base era = state.base era
  ledger : ∀ era, state.elected era ≠ none → state.ledger era <+: next.ledger era
  acked : ∀ member era, state.acked member era ≤ next.acked member era
  decided : ∀ era, state.decided era ≤ next.decided era
  ballot : ∀ voter era choice, state.ballot voter era choice →
    next.ballot voter era choice
  campaign : ∀ member era log, state.campaign member era = some log →
    next.campaign member era = some log

theorem Extends.refl (state : State Member Entry) : state.Extends state where
  current _ := Nat.le_refl _
  elected _ _ won := won
  base _ _ := rfl
  ledger _ _ := List.prefix_rfl
  acked _ _ := Nat.le_refl _
  decided _ := Nat.le_refl _
  ballot _ _ _ cast := cast
  campaign _ _ _ campaigned := campaigned

theorem Extends.elected_ne_none {state next : State Member Entry}
    (extended : state.Extends next) {era : Nat} (led : state.elected era ≠ none) :
    next.elected era ≠ none := by
  obtain ⟨winner, won⟩ := Option.ne_none_iff_exists'.mp led
  simp [extended.elected era winner won]

theorem Extends.trans {first second third : State Member Entry}
    (left : first.Extends second) (right : second.Extends third) :
    first.Extends third where
  current member := (left.current member).trans (right.current member)
  elected era winner won := right.elected era winner (left.elected era winner won)
  base era led :=
    (right.base era (left.elected_ne_none led)).trans (left.base era led)
  ledger era led :=
    (left.ledger era led).trans (right.ledger era (left.elected_ne_none led))
  acked member era := (left.acked member era).trans (right.acked member era)
  decided era := (left.decided era).trans (right.decided era)
  ballot voter era choice cast :=
    right.ballot voter era choice (left.ballot voter era choice cast)
  campaign member era log campaigned :=
    right.campaign member era log (left.campaign member era log campaigned)

/-- A prefix that fits into the ledger survives its growth. -/
theorem Extends.take_ledger {state next : State Member Entry}
    (extended : state.Extends next) {era count : Nat}
    (led : state.elected era ≠ none) (within : count ≤ (state.ledger era).length) :
    (next.ledger era).take count = (state.ledger era).take count := by
  obtain ⟨suffix, grown⟩ := extended.ledger era led
  rw [← grown, List.take_append_of_le_length within]

theorem Committed.extends [Fintype Member] {state next : State Member Entry}
    (extended : state.Extends next) {era count : Nat}
    (committed : state.Committed era count) : next.Committed era count := by
  obtain ⟨led, above, within, group, majority, held⟩ := committed
  refine ⟨extended.elected_ne_none led, ?_, ?_, group, majority, ?_⟩
  · rw [extended.base era led]
    exact above
  · exact within.trans (extended.ledger era led).length_le
  · intro member inside
    exact (held member inside).trans (extended.acked member era)

theorem Certified.nil (state : State Member Entry) (limit : Nat) :
    state.Certified limit [] :=
  ⟨0, Nat.zero_le _, List.nil_prefix⟩

theorem Certified.mono {state : State Member Entry} {limit larger : Nat}
    {log : List Entry} (certified : state.Certified limit log)
    (raised : limit ≤ larger) : state.Certified larger log := by
  obtain ⟨era, bounded, covered⟩ := certified
  exact ⟨era, bounded.trans raised, covered⟩

theorem Certified.restrict {state : State Member Entry} {limit : Nat}
    {log whole : List Entry} (certified : state.Certified limit whole)
    (inside : log <+: whole) : state.Certified limit log := by
  obtain ⟨era, bounded, covered⟩ := certified
  exact ⟨era, bounded, inside.trans covered⟩

/-! ## Backed logs -/

variable [Stamped Entry]

theorem Backed.extends {state next : State Member Entry}
    (extended : state.Extends next) {log : List Entry} (backed : state.Backed log) :
    next.Backed log := by
  intro position entry found
  obtain ⟨led, above, inside⟩ := backed position entry found
  refine ⟨extended.elected_ne_none led, ?_, inside.trans (extended.ledger _ led)⟩
  rw [extended.base _ led]
  exact above

/-- A log inside a backed one is backed. -/
theorem Backed.restrict {state : State Member Entry} {log whole : List Entry}
    (backed : state.Backed whole) (inside : log <+: whole) : state.Backed log := by
  intro position entry found
  obtain ⟨suffix, rfl⟩ := inside
  have bound : position < log.length := (List.getElem?_eq_some_iff.mp found).1
  have foundWhole : (log ++ suffix)[position]? = some entry := by
    rw [List.getElem?_append_left bound, found]
  have supported := backed position entry foundWhole
  rwa [List.take_append_of_le_length (by omega)] at supported

/-- Two backed logs that share an entry's position and term agree up to it. -/
theorem Backed.matching {state : State Member Entry} {left right : List Entry}
    (leftBacked : state.Backed left) (rightBacked : state.Backed right)
    {position : Nat} {leftEntry rightEntry : Entry}
    (foundLeft : left[position]? = some leftEntry)
    (foundRight : right[position]? = some rightEntry)
    (sameTerm : term leftEntry = term rightEntry) :
    left.take (position + 1) = right.take (position + 1) := by
  obtain ⟨_, _, insideLeft⟩ := leftBacked position leftEntry foundLeft
  obtain ⟨_, _, insideRight⟩ := rightBacked position rightEntry foundRight
  rw [sameTerm] at insideLeft
  have boundLeft := (List.getElem?_eq_some_iff.mp foundLeft).1
  have boundRight := (List.getElem?_eq_some_iff.mp foundRight).1
  have sameLength : (left.take (position + 1)).length =
      (right.take (position + 1)).length := by
    simp only [List.length_take]
    omega
  exact (List.prefix_of_prefix_length_le insideLeft insideRight
    sameLength.le).eq_of_length sameLength

/-- A backed log lies inside the ledger of its last entry's term and reaches
above the log that term's winner started from. -/
theorem Backed.inside_ledger {state : State Member Entry} {log : List Entry}
    (backed : state.Backed log) {entry : Entry} (ends : log.getLast? = some entry) :
    state.elected (term entry) ≠ none ∧
      (state.base (term entry)).length < log.length ∧
      log <+: state.ledger (term entry) := by
  have nonempty : log ≠ [] := by
    rintro rfl
    simp at ends
  have positive := List.length_pos_iff.mpr nonempty
  have found : log[log.length - 1]? = some entry := by
    rw [← List.getLast?_eq_getElem?, ends]
  obtain ⟨led, above, inside⟩ := backed _ entry found
  rw [Nat.sub_add_cancel positive, List.take_length] at inside
  exact ⟨led, by omega, inside⟩

/-- `own` holds whatever `voter` acknowledged in terms before `era`, as far as the
winners up to `limit` inherited it. -/
def Recalls (state : State Member Entry) (voter : Member) (era limit : Nat)
    (own : List Entry) : Prop :=
  ∀ earlier count, earlier < era → (state.base earlier).length < count →
    count ≤ state.acked voter earlier → state.Inherited earlier count limit →
    (state.ledger earlier).take count <+: own

variable [Fintype Member]

/-! ## The invariant -/

/-- The inductive invariant of the protocol. -/
structure Sound (state : State Member Entry) : Prop where
  backed_log : ∀ member, state.Backed (state.log member)
  backed_ledger : ∀ era, state.elected era ≠ none → state.Backed (state.ledger era)
  base_prefix : ∀ era, state.elected era ≠ none →
    state.base era <+: state.ledger era
  base_old : ∀ era, state.elected era ≠ none →
    ∀ entry ∈ state.base era, term entry < era
  ledger_own : ∀ era, state.elected era ≠ none →
    ∀ position entry, (state.ledger era)[position]? = some entry →
      (state.base era).length ≤ position → term entry = era
  log_term : ∀ member, ∀ entry ∈ state.log member,
    term entry ≤ state.current member
  winner : ∀ era member, state.elected era = some member →
    era ≤ state.current member ∧
      (state.current member = era → state.log member = state.ledger era) ∧
      state.acked member era = (state.ledger era).length
  acked_led : ∀ member era, 0 < state.acked member era →
    state.elected era ≠ none ∧ era ≤ state.current member ∧
      state.acked member era ≤ (state.ledger era).length
  acked_held : ∀ member,
    (state.ledger (state.current member)).take
      (state.acked member (state.current member)) <+: state.log member
  campaigned : ∀ member era log, state.campaign member era = some log →
    era ≤ state.current member
  /-- An acknowledged entry outlives all winners that inherited it. -/
  retained : ∀ member,
    state.Recalls member (state.current member + 1) (state.current member)
      (state.log member)
  /-- A voter compared the candidate with a log holding all it acknowledged. -/
  ballots : ∀ voter era choice, state.ballot voter era choice →
    era ≤ state.current voter ∧
      ∃ offered own, state.campaign choice era = some offered ∧
        state.Backed own ∧ UpToDate offered own ∧ state.Recalls voter era era own
  /-- The same for a majority, against the log a winner was elected with. -/
  evidence : ∀ era, state.elected era ≠ none →
    ∃ group : Finset Member, Quorum.Majority group ∧
      ∀ voter ∈ group, era ≤ state.current voter ∧
        ∃ own, state.Backed own ∧ UpToDate (state.base era) own ∧
          state.Recalls voter era (era - 1) own
  decided : ∀ era, 0 < state.decided era → state.Committed era (state.decided era)

/-- What was covered by a decision stays covered. -/
theorem Certified.extends {state next : State Member Entry} (sound : state.Sound)
    (extended : state.Extends next) {limit : Nat} {log : List Entry}
    (certified : state.Certified limit log) : next.Certified limit log := by
  obtain ⟨era, bounded, covered⟩ := certified
  refine ⟨era, bounded, covered.trans ?_⟩
  by_cases idle : state.decided era = 0
  · rw [idle, List.take_zero]
    exact List.nil_prefix
  · obtain ⟨led, _, within, _⟩ := sound.decided era (Nat.pos_of_ne_zero idle)
    rw [← extended.take_ledger led within]
    exact List.take_prefix_take_left (extended.decided era)

namespace Sound

variable {state : State Member Entry} (sound : state.Sound)
include sound

/-- Terms in a ledger never exceed its own. -/
theorem ledger_term {era : Nat} (led : state.elected era ≠ none)
    {position : Nat} {entry : Entry}
    (found : (state.ledger era)[position]? = some entry) : term entry ≤ era := by
  by_cases old : position < (state.base era).length
  · obtain ⟨suffix, grown⟩ := sound.base_prefix era led
    rw [← grown, List.getElem?_append_left old] at found
    exact Nat.le_of_lt (sound.base_old era led entry (List.mem_of_getElem? found))
  · exact Nat.le_of_eq (sound.ledger_own era led position entry found (by omega))

/-- Terms never decrease along a backed log. -/
theorem terms_mono {log : List Entry} (backed : state.Backed log)
    {left right : Nat} {earlier later : Entry} (ordered : left ≤ right)
    (foundLeft : log[left]? = some earlier)
    (foundRight : log[right]? = some later) : term earlier ≤ term later := by
  obtain ⟨led, _, inside⟩ := backed right later foundRight
  refine sound.ledger_term led (?_ : (state.ledger (term later))[left]? = some earlier)
  have kept : (log.take (right + 1))[left]? = some earlier := by
    rw [List.getElem?_take_of_lt (by omega), foundLeft]
  obtain ⟨suffix, grown⟩ := inside
  rw [← grown, List.getElem?_append_left
    ((List.getElem?_eq_some_iff.mp kept).1), kept]

/-- Once a member holds an entry of its current term, its whole log lies inside
that term's ledger. -/
theorem log_inside_ledger {member : Member} {count : Nat}
    (led : state.elected (state.current member) ≠ none)
    (above : (state.base (state.current member)).length < count)
    (within : count ≤ (state.ledger (state.current member)).length)
    (covers : (state.ledger (state.current member)).take count <+:
      state.log member) :
    state.log member <+: state.ledger (state.current member) := by
  have lengthLog : count ≤ (state.log member).length := by
    have bound := covers.length_le
    rw [List.length_take] at bound
    omega
  have nonempty : state.log member ≠ [] := List.length_pos_iff.mp (by omega)
  obtain ⟨last, ends⟩ := Option.isSome_iff_exists.mp
    (List.getLast?_isSome.mpr nonempty)
  obtain ⟨_, _, inside⟩ := (sound.backed_log member).inside_ledger ends
  have upper := sound.log_term member last (List.mem_of_getLast? ends)
  -- the entry at `count - 1` is of the current term, and terms do not decrease
  obtain ⟨own, foundLedger⟩ : ∃ own,
      (state.ledger (state.current member))[count - 1]? = some own :=
    ⟨_, List.getElem?_eq_getElem (by omega)⟩
  have ownTerm := sound.ledger_own _ led _ own foundLedger (by omega)
  have foundLog : (state.log member)[count - 1]? = some own := by
    obtain ⟨suffix, grown⟩ := covers
    rw [← grown, List.getElem?_append_left (by rw [List.length_take]; omega),
      List.getElem?_take_of_lt (by omega), foundLedger]
  have foundLast : (state.log member)[(state.log member).length - 1]? = some last := by
    rw [← List.getLast?_eq_getElem?, ends]
  have lower := sound.terms_mono (sound.backed_log member) (by omega) foundLog foundLast
  have lastTerm : term last = state.current member := by omega
  rwa [lastTerm] at inside

end Sound

end State

end Replication
