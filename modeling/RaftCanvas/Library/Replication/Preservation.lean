import RaftCanvas.Library.Replication.Invariant

/-!
# Every step keeps the invariant
-/

namespace Replication

namespace State

variable {Member Entry : Type}

/-- Members other than the acting one are untouched. -/
structure Frame (actor : Member) (state next : State Member Entry) : Prop where
  current : ∀ other, other ≠ actor → next.current other = state.current other
  log : ∀ other, other ≠ actor → next.log other = state.log other
  acked : ∀ other era, other ≠ actor → next.acked other era = state.acked other era

theorem Frame.refl (actor : Member) (state : State Member Entry) :
    state.Frame actor state where
  current _ _ := rfl
  log _ _ := rfl
  acked _ _ _ := rfl

theorem Frame.trans {actor : Member} {first second third : State Member Entry}
    (left : first.Frame actor second) (right : second.Frame actor third) :
    first.Frame actor third where
  current other different :=
    (right.current other different).trans (left.current other different)
  log other different := (right.log other different).trans (left.log other different)
  acked other era different :=
    (right.acked other era different).trans (left.acked other era different)

/-! ## Recalled acknowledgements -/

section Recall

variable {state next : State Member Entry}

/-- Recorded history cannot make more winners inherit a prefix. -/
theorem Inherited.of_extends (extended : state.Extends next) {era count limit : Nat}
    (led : state.elected era ≠ none) (within : count ≤ (state.ledger era).length)
    (inherited : next.Inherited era count limit) :
    state.Inherited era count limit := by
  intro later above below won
  have kept := inherited later above below (extended.elected_ne_none won)
  rwa [extended.take_ledger led within, extended.base later won] at kept

theorem Inherited.mono {era count limit smaller : Nat} (below : smaller ≤ limit)
    (inherited : state.Inherited era count limit) :
    state.Inherited era count smaller :=
  fun later above bounded => inherited later above (bounded.trans below)

variable [Stamped Entry] [Fintype Member]

/-- What was recalled stays recalled while no new acknowledgement is counted. -/
theorem Recalls.extends (sound : state.Sound) (extended : state.Extends next)
    {voter : Member} {era limit larger : Nat} {own : List Entry}
    (same : ∀ earlier, earlier < era →
      next.acked voter earlier = state.acked voter earlier)
    (below : limit ≤ larger) (recalls : state.Recalls voter era limit own) :
    next.Recalls voter era larger own := by
  intro earlier count before above acked inherited
  rw [same earlier before] at acked
  obtain ⟨led, _, within⟩ := sound.acked_led voter earlier (by omega)
  rw [extended.base earlier led] at above
  rw [extended.take_ledger led (acked.trans within)]
  exact recalls earlier count before above acked
    ((inherited.of_extends extended led (acked.trans within)).mono below)

/-- A later bound on the terms adds nothing once acknowledgements stop there. -/
theorem Recalls.raise (sound : state.Sound) {voter : Member}
    {limit : Nat} {own : List Entry}
    (recalls : state.Recalls voter (state.current voter + 1) limit own) (later : Nat) :
    state.Recalls voter later limit own := by
  intro earlier count _ above acked inherited
  have bounded := (sound.acked_led voter earlier (by omega)).2.1
  exact recalls earlier count (by omega) above acked inherited

end Recall

variable [DecidableEq Member] {state : State Member Entry} {actor : Member}

/-! ## History grows -/

theorem extends_raise {era : Nat} (higher : state.current actor < era) :
    state.Extends (state.raise actor era) where
  current member := by
    by_cases same : member = actor
    · subst same
      simp [raise, higher.le]
    · simp [raise, same]
  elected _ _ won := won
  base _ _ := rfl
  ledger _ _ := List.prefix_rfl
  acked _ _ := Nat.le_refl _
  decided _ := Nat.le_refl _
  ballot _ _ _ cast := cast
  campaign _ _ _ campaigned := campaigned

variable [Stamped Entry] [Fintype Member]

theorem extends_stand (sound : state.Sound) {era : Nat}
    (higher : state.current actor < era) : state.Extends (state.stand actor era) where
  current member := by
    by_cases same : member = actor
    · subst same
      simp [stand, higher.le]
    · simp [stand, same]
  elected _ _ won := won
  base _ _ := rfl
  ledger _ _ := List.prefix_rfl
  acked _ _ := Nat.le_refl _
  decided _ := Nat.le_refl _
  ballot _ _ _ cast := Or.inr cast
  campaign member at_ log campaigned := by
    have bounded := sound.campaigned member at_ log campaigned
    have unseen : ¬(member = actor ∧ at_ = era) := by
      rintro ⟨rfl, rfl⟩
      omega
    simp only [stand, if_neg unseen, campaigned]

omit [Stamped Entry] [Fintype Member] [DecidableEq Member] in
theorem extends_vote {choice : Member} : state.Extends (state.vote actor choice) where
  current _ := Nat.le_refl _
  elected _ _ won := won
  base _ _ := rfl
  ledger _ _ := List.prefix_rfl
  acked _ _ := Nat.le_refl _
  decided _ := Nat.le_refl _
  ballot _ _ _ cast := Or.inr cast
  campaign _ _ _ campaigned := campaigned

theorem extends_elect (sound : state.Sound)
    (vacant : state.elected (state.current actor) = none) :
    state.Extends (state.elect actor) where
  current _ := Nat.le_refl _
  elected era winner won := by
    have different : era ≠ state.current actor := by
      rintro rfl
      simp [vacant] at won
    simp only [elect, Function.update_of_ne different, won]
  base era led := by
    have different : era ≠ state.current actor := fun same => led (same ▸ vacant)
    simp only [elect, Function.update_of_ne different]
  ledger era led := by
    have different : era ≠ state.current actor := fun same => led (same ▸ vacant)
    simp only [elect, Function.update_of_ne different]
    exact List.prefix_rfl
  acked member era := by
    by_cases same : member = actor ∧ era = state.current actor
    · obtain ⟨rfl, rfl⟩ := same
      by_cases idle : 0 < state.acked member (state.current member)
      · exact absurd vacant (sound.acked_led _ _ idle).1
      · omega
    · simp only [elect, if_neg same, Nat.le_refl]
  decided _ := Nat.le_refl _
  ballot _ _ _ cast := cast
  campaign _ _ _ campaigned := campaigned

theorem extends_append (sound : state.Sound) (entry : Entry)
    (leads : state.elected (state.current actor) = some actor) :
    state.Extends (state.append actor entry) where
  current _ := Nat.le_refl _
  elected _ _ won := won
  base _ _ := rfl
  ledger era _ := by
    by_cases same : era = state.current actor
    · subst same
      have own := (sound.winner _ actor leads).2.1 rfl
      simp only [append, Function.update_self, own]
      exact List.prefix_append _ _
    · simp only [append, Function.update_of_ne same]
      exact List.prefix_rfl
  acked member era := by
    by_cases same : member = actor ∧ era = state.current actor
    · obtain ⟨rfl, rfl⟩ := same
      obtain ⟨_, own, acked⟩ := sound.winner _ member leads
      simp [append, acked, own rfl]
    · simp only [append, if_neg same, Nat.le_refl]
  decided _ := Nat.le_refl _
  ballot _ _ _ cast := cast
  campaign _ _ _ campaigned := campaigned

omit [Stamped Entry] [Fintype Member] [DecidableEq Member] in
theorem extends_commit {count : Nat}
    (grows : state.decided (state.current actor) ≤ count) :
    state.Extends (state.commit actor count) where
  current _ := Nat.le_refl _
  elected _ _ won := won
  base _ _ := rfl
  ledger _ _ := List.prefix_rfl
  acked _ _ := Nat.le_refl _
  decided era := by
    by_cases same : era = state.current actor
    · subst same
      simpa [commit] using grows
    · simp only [commit, Function.update_of_ne same, Nat.le_refl]
  ballot _ _ _ cast := cast
  campaign _ _ _ campaigned := campaigned

omit [Stamped Entry] [Fintype Member] in
theorem extends_accept {count : Nat} {log : List Entry} :
    state.Extends (state.accept actor count log) where
  current _ := Nat.le_refl _
  elected _ _ won := won
  base _ _ := rfl
  ledger _ _ := List.prefix_rfl
  acked member era := by
    by_cases same : member = actor ∧ era = state.current actor
    · simp [accept, same]
    · simp only [accept, if_neg same, Nat.le_refl]
  decided _ := Nat.le_refl _
  ballot _ _ _ cast := cast
  campaign _ _ _ campaigned := campaigned

theorem Step.extends {next : State Member Entry} (sound : state.Sound)
    (stepped : Step actor state next) : state.Extends next := by
  cases stepped with
  | raise era higher => exact extends_raise higher
  | stand era higher => exact extends_stand sound higher
  | vote choice offered campaigned recent => exact extends_vote
  | elect group vacant campaigned majority voted => exact extends_elect sound vacant
  | append entry leads stamped => exact extends_append sound entry leads
  | commit count leads grows committed => exact extends_commit grows
  | accept count log led other within covers source keeps => exact extends_accept

omit [Stamped Entry] [Fintype Member] in
theorem Step.frame [Stamped Entry] [Fintype Member] {next : State Member Entry}
    (stepped : Step actor state next) : state.Frame actor next := by
  cases stepped with
  | vote | raise | stand | elect | append | commit | accept =>
      constructor <;> intros <;> simp_all [State.raise, State.stand, State.vote,
        State.elect, State.append, State.commit, State.accept, Function.update_of_ne]

omit [Stamped Entry] [Fintype Member] in
/-- Only the winner of a term decides in it. -/
theorem Step.decided_other [Stamped Entry] [Fintype Member] {next : State Member Entry}
    (stepped : Step actor state next) {era : Nat} {winner : Member}
    (won : state.elected era = some winner) (different : winner ≠ actor) :
    next.decided era = state.decided era := by
  cases stepped with
  | raise | stand | vote | elect | append | accept => rfl
  | commit count leads grows committed =>
      have other : era ≠ state.current actor := by
        rintro rfl
        exact different (Option.some.inj (won.symm.trans leads))
      simp only [State.commit, Function.update_of_ne other]

/-! ## The invariant is kept -/

section Preserved

omit [DecidableEq Member]

variable {next : State Member Entry}

/-- Ballots and winners' evidence survive any step that counts no new
acknowledgement for a term below one the voter has already seen. -/
private theorem evidence_extends (sound : state.Sound) (extended : state.Extends next)
    (same : ∀ voter earlier, earlier < state.current voter →
      next.acked voter earlier = state.acked voter earlier)
    {era : Nat} (led : state.elected era ≠ none) :
    ∃ group : Finset Member, Quorum.Majority group ∧
      ∀ voter ∈ group, era ≤ next.current voter ∧
        ∃ own, next.Backed own ∧ UpToDate (next.base era) own ∧
          next.Recalls voter era (era - 1) own := by
  obtain ⟨group, majority, voted⟩ := sound.evidence era led
  refine ⟨group, majority, fun voter inside => ?_⟩
  obtain ⟨seen, own, backed, recent, recalls⟩ := voted voter inside
  refine ⟨seen.trans (extended.current voter), own, backed.extends extended, ?_, ?_⟩
  · rwa [extended.base era led]
  · exact recalls.extends sound extended
      (fun earlier before => same voter earlier (by omega)) (Nat.le_refl _)

private theorem ballot_extends (sound : state.Sound) (extended : state.Extends next)
    (same : ∀ voter earlier, earlier < state.current voter →
      next.acked voter earlier = state.acked voter earlier)
    {voter choice : Member} {era : Nat} (cast : state.ballot voter era choice) :
    era ≤ next.current voter ∧
      ∃ offered own, next.campaign choice era = some offered ∧
        next.Backed own ∧ UpToDate offered own ∧ next.Recalls voter era era own := by
  obtain ⟨seen, offered, own, campaigned, backed, recent, recalls⟩ :=
    sound.ballots voter era choice cast
  refine ⟨seen.trans (extended.current voter), offered, own,
    extended.campaign _ _ _ campaigned, backed.extends extended, recent, ?_⟩
  exact recalls.extends sound extended
    (fun earlier before => same voter earlier (by omega)) (Nat.le_refl _)

/-- Members that did not act keep what they acknowledged. -/
private theorem retained_frame (sound : state.Sound) (extended : state.Extends next)
    (frame : state.Frame actor next) {other : Member} (different : other ≠ actor) :
    next.Recalls other (next.current other + 1) (next.current other)
      (next.log other) := by
  rw [frame.current other different, frame.log other different]
  exact (sound.retained other).extends sound extended
    (fun earlier _ => frame.acked other earlier different) (Nat.le_refl _)

end Preserved

theorem Sound.raise (sound : state.Sound) {era : Nat}
    (higher : state.current actor < era) : (state.raise actor era).Sound := by
  have extended := extends_raise higher
  have frame : state.Frame actor (state.raise actor era) :=
    (Step.raise era higher).frame
  have unacked : ∀ voter earlier, earlier < state.current voter →
      (state.raise actor era).acked voter earlier = state.acked voter earlier :=
    fun _ _ _ => rfl
  exact {
    backed_log := fun member => (sound.backed_log member).extends extended
    backed_ledger := fun at_ led => (sound.backed_ledger at_ led).extends extended
    base_prefix := sound.base_prefix
    base_old := sound.base_old
    ledger_own := sound.ledger_own
    log_term := fun member entry inside =>
      (sound.log_term member entry inside).trans (extended.current member)
    winner := fun at_ member won => by
      obtain ⟨seen, own, acked⟩ := sound.winner at_ member won
      refine ⟨seen.trans (extended.current member), fun same => ?_, acked⟩
      by_cases acting : member = actor
      · subst acting
        simp only [State.raise, Function.update_self] at same
        omega
      · rw [frame.current member acting] at same
        exact own same
    acked_led := fun member at_ positive => by
      obtain ⟨led, seen, within⟩ := sound.acked_led member at_ positive
      exact ⟨led, seen.trans (extended.current member), within⟩
    acked_held := fun member => by
      by_cases acting : member = actor
      · subst acting
        have unseen : state.acked member era = 0 := by
          by_contra positive
          have seen := (sound.acked_led member era (by omega)).2.1
          omega
        simp [State.raise, unseen]
      · rw [frame.current member acting]
        exact sound.acked_held member
    campaigned := fun member at_ log campaigned =>
      (sound.campaigned member at_ log campaigned).trans (extended.current member)
    retained := fun member => by
      by_cases acting : member = actor
      · subst acting
        have recalls := (sound.retained member).raise sound (era + 1)
        have kept := recalls.extends sound extended (fun _ _ => rfl) higher.le
        simpa [State.raise] using kept
      · exact retained_frame sound extended frame acting
    ballots := fun _ _ _ cast => ballot_extends sound extended unacked cast
    evidence := fun _ led => evidence_extends sound extended unacked led
    decided := fun era positive => (sound.decided era positive).extends extended }

omit [DecidableEq Member] in
theorem Sound.vote (sound : state.Sound) {choice : Member} {offered : List Entry}
    (campaigned : state.campaign choice (state.current actor) = some offered)
    (recent : UpToDate offered (state.log actor)) :
    (state.vote actor choice).Sound := by
  have extended : state.Extends (state.vote actor choice) := extends_vote
  have unacked : ∀ voter earlier, earlier < state.current voter →
      (state.vote actor choice).acked voter earlier = state.acked voter earlier :=
    fun _ _ _ => rfl
  exact {
    backed_log := sound.backed_log
    backed_ledger := sound.backed_ledger
    base_prefix := sound.base_prefix
    base_old := sound.base_old
    ledger_own := sound.ledger_own
    log_term := sound.log_term
    winner := sound.winner
    acked_led := sound.acked_led
    acked_held := sound.acked_held
    campaigned := sound.campaigned
    retained := sound.retained
    ballots := fun voter era other cast => by
      rcases cast with ⟨rfl, rfl, rfl⟩ | cast
      · refine ⟨Nat.le_refl _, offered, state.log voter, campaigned,
          sound.backed_log voter, recent, ?_⟩
        intro earlier count before above acked inherited
        exact sound.retained voter earlier count (Nat.lt_succ_of_lt before) above acked
          inherited
      · exact ballot_extends sound extended unacked cast
    evidence := fun _ led => evidence_extends sound extended unacked led
    decided := fun era positive => (sound.decided era positive).extends extended }

theorem Sound.stand (sound : state.Sound) {era : Nat}
    (higher : state.current actor < era) : (state.stand actor era).Sound := by
  have raised := sound.raise higher
  have extended := extends_stand sound higher
  have unacked : ∀ voter earlier, earlier < state.current voter →
      (state.stand actor era).acked voter earlier = state.acked voter earlier :=
    fun _ _ _ => rfl
  exact {
    backed_log := raised.backed_log
    backed_ledger := raised.backed_ledger
    base_prefix := raised.base_prefix
    base_old := raised.base_old
    ledger_own := raised.ledger_own
    log_term := raised.log_term
    winner := raised.winner
    acked_led := raised.acked_led
    acked_held := raised.acked_held
    campaigned := fun member at_ log campaigned => by
      by_cases own : member = actor ∧ at_ = era
      · obtain ⟨rfl, rfl⟩ := own
        simp [State.stand]
      · simp only [State.stand, if_neg own] at campaigned
        exact (sound.campaigned member at_ log campaigned).trans
          (extended.current member)
    retained := raised.retained
    ballots := fun voter at_ choice cast => by
      rcases cast with ⟨rfl, rfl, rfl⟩ | cast
      · refine ⟨by simp [State.stand], state.log choice, state.log choice,
          by simp [State.stand], (sound.backed_log choice).extends extended,
          UpToDate.refl _, ?_⟩
        exact ((sound.retained choice).raise sound at_).extends sound extended
          (fun _ _ => rfl) higher.le
      · exact ballot_extends sound extended unacked cast
    evidence := fun _ led => evidence_extends sound extended unacked led
    decided := fun era positive => (sound.decided era positive).extends extended }

omit [DecidableEq Member] in
/-- The winner's own log holds nothing of the term it has just won. -/
private theorem log_old (sound : state.Sound)
    (vacant : state.elected (state.current actor) = none) {entry : Entry}
    (inside : entry ∈ state.log actor) : term entry < state.current actor := by
  have bounded := sound.log_term actor entry inside
  obtain ⟨position, found⟩ := List.mem_iff_getElem?.mp inside
  have led := (sound.backed_log actor position entry found).1
  have different : term entry ≠ state.current actor := fun same => led (same ▸ vacant)
  omega

theorem Sound.elect (sound : state.Sound) {group : Finset Member}
    (vacant : state.elected (state.current actor) = none)
    (campaigned : state.campaign actor (state.current actor) = some (state.log actor))
    (majority : Quorum.Majority group)
    (voted : ∀ member ∈ group, state.ballot member (state.current actor) actor) :
    (state.elect actor).Sound := by
  have extended := extends_elect sound vacant
  have frame : state.Frame actor (state.elect actor) :=
    (Step.elect group vacant campaigned majority voted).frame
  have unacked : ∀ voter earlier, earlier < state.current voter →
      (state.elect actor).acked voter earlier = state.acked voter earlier := by
    rintro voter earlier before
    have older : ¬(voter = actor ∧ earlier = state.current actor) := by
      rintro ⟨rfl, rfl⟩
      omega
    simp only [State.elect, if_neg older]
  have silent : ∀ member, state.acked member (state.current actor) = 0 := by
    intro member
    by_contra positive
    exact (sound.acked_led member _ (by omega)).1 vacant
  exact {
    backed_log := fun member => (sound.backed_log member).extends extended
    backed_ledger := fun era led => by
      by_cases own : era = state.current actor
      · subst own
        simpa [State.elect] using (sound.backed_log actor).extends extended
      · simp only [State.elect, Function.update_of_ne own] at led ⊢
        exact (sound.backed_ledger era led).extends extended
    base_prefix := fun era led => by
      by_cases own : era = state.current actor
      · subst own
        simp [State.elect]
      · simp only [State.elect, Function.update_of_ne own] at led ⊢
        exact sound.base_prefix era led
    base_old := fun era led entry inside => by
      by_cases own : era = state.current actor
      · subst own
        simp only [State.elect, Function.update_self] at inside
        exact log_old sound vacant inside
      · simp only [State.elect, Function.update_of_ne own] at led inside
        exact sound.base_old era led entry inside
    ledger_own := fun era led position entry found above => by
      by_cases own : era = state.current actor
      · subst own
        simp only [State.elect, Function.update_self] at found above
        have bound := (List.getElem?_eq_some_iff.mp found).1
        omega
      · simp only [State.elect, Function.update_of_ne own] at led found above
        exact sound.ledger_own era led position entry found above
    log_term := sound.log_term
    winner := fun era member won => by
      by_cases own : era = state.current actor
      · subst own
        simp only [State.elect, Function.update_self, Option.some.injEq] at won
        subst won
        simp [State.elect]
      · simp only [State.elect, Function.update_of_ne own] at won ⊢
        simpa [own] using sound.winner era member won
    acked_led := fun member era positive => by
      by_cases own : era = state.current actor
      · subst own
        by_cases acting : member = actor
        · subst acting
          simp [State.elect]
        · simp [State.elect, acting, silent member] at positive
      · simp only [State.elect, own, and_false, if_false,
          Function.update_of_ne own] at positive ⊢
        exact sound.acked_led member era positive
    acked_held := fun member => by
      by_cases acting : member = actor
      · subst acting
        simp [State.elect]
      · rw [frame.current member acting, frame.acked member _ acting,
          frame.log member acting]
        by_cases own : state.current member = state.current actor
        · simp [own, silent member]
        · simp only [State.elect, Function.update_of_ne own]
          exact sound.acked_held member
    campaigned := sound.campaigned
    retained := fun member => by
      by_cases acting : member = actor
      · subst acting
        intro earlier count before above acked inherited
        by_cases own : earlier = state.current member
        · subst own
          simp only [State.elect, Function.update_self, and_self, if_true] at above acked
          omega
        · have older : earlier < state.current member := by
            have bound : earlier < state.current member + 1 := before
            omega
          have kept : (state.elect member).Recalls member (state.current member)
              (state.current member) (state.log member) := by
            refine Recalls.extends sound extended
              (fun at_ below => unacked member at_ below) (Nat.le_refl _) ?_
            intro at_ amount _ higher counted passed
            exact sound.retained member at_ amount (by omega) higher counted passed
          exact kept earlier count older above acked inherited
      · exact retained_frame sound extended frame acting
    ballots := fun _ _ _ cast => ballot_extends sound extended unacked cast
    evidence := fun era led => by
      by_cases own : era = state.current actor
      · subst own
        refine ⟨group, majority, fun voter inside => ?_⟩
        obtain ⟨seen, offered, log, offer, backed, recent, recalls⟩ :=
          sound.ballots voter _ actor (voted voter inside)
        rw [campaigned, Option.some.injEq] at offer
        subst offer
        refine ⟨seen, log, backed.extends extended, by simpa [State.elect] using recent, ?_⟩
        -- before the election nobody had won the current term
        have earlierLimit : state.Recalls voter (state.current actor)
            (state.current actor - 1) log := by
          intro earlier count before above acked inherited
          apply recalls earlier count before above acked
          intro later higher bounded won
          have notOwn : later ≠ state.current actor := fun same => won (same ▸ vacant)
          exact inherited later higher (by omega) won
        exact earlierLimit.extends sound extended
          (fun earlier before => unacked voter earlier (by omega)) (Nat.le_refl _)
      · have ledBefore : state.elected era ≠ none := by
          simpa [State.elect, Function.update_of_ne own] using led
        exact evidence_extends sound extended unacked ledBefore
    decided := fun era positive => (sound.decided era positive).extends extended }

theorem Sound.append (sound : state.Sound) {entry : Entry}
    (leads : state.elected (state.current actor) = some actor)
    (stamped : term entry = state.current actor) : (state.append actor entry).Sound := by
  have extended := extends_append sound entry leads
  have frame : state.Frame actor (state.append actor entry) :=
    (Step.append entry leads stamped).frame
  have led : state.elected (state.current actor) ≠ none := by simp [leads]
  obtain ⟨_, own, ackedOwn⟩ := sound.winner _ actor leads
  have log_eq := own rfl
  have unacked : ∀ voter earlier, earlier < state.current voter →
      (state.append actor entry).acked voter earlier = state.acked voter earlier := by
    rintro voter earlier before
    have older : ¬(voter = actor ∧ earlier = state.current actor) := by
      rintro ⟨rfl, rfl⟩
      omega
    simp only [State.append, if_neg older]
  have base_le : (state.base (state.current actor)).length ≤ (state.log actor).length := by
    rw [log_eq]
    exact (sound.base_prefix _ led).length_le
  have backed : (state.append actor entry).Backed (state.log actor ++ [entry]) := by
    intro position found inside
    by_cases old : position < (state.log actor).length
    · rw [List.getElem?_append_left old] at inside
      have supported := (sound.backed_log actor).extends extended position found inside
      rwa [List.take_append_of_le_length (by omega)]
    · have bound := (List.getElem?_eq_some_iff.mp inside).1
      simp only [List.length_append, List.length_singleton] at bound
      obtain rfl : position = (state.log actor).length := by omega
      simp only [List.getElem?_concat_length, Option.some.injEq] at inside
      subst inside
      have whole := List.take_prefix ((state.log actor).length + 1)
        (state.log actor ++ [entry])
      simpa [State.append, stamped, leads, base_le] using whole
  exact {
    backed_log := fun member => by
      by_cases acting : member = actor
      · subst acting
        simpa [State.append] using backed
      · rw [frame.log member acting]
        exact (sound.backed_log member).extends extended
    backed_ledger := fun era ledEra => by
      by_cases same : era = state.current actor
      · subst same
        simpa [State.append] using backed
      · have kept := (sound.backed_ledger era ledEra).extends extended
        simpa [State.append, Function.update_of_ne same] using kept
    base_prefix := fun era ledEra =>
      (sound.base_prefix era ledEra).trans (extended.ledger era ledEra)
    base_old := sound.base_old
    ledger_own := fun era ledEra position found inside above => by
      by_cases same : era = state.current actor
      · subst same
        simp only [State.append, Function.update_self] at inside
        by_cases old : position < (state.log actor).length
        · rw [List.getElem?_append_left old, log_eq] at inside
          exact sound.ledger_own _ ledEra position found inside above
        · have bound := (List.getElem?_eq_some_iff.mp inside).1
          simp only [List.length_append, List.length_singleton] at bound
          obtain rfl : position = (state.log actor).length := by omega
          simp only [List.getElem?_concat_length, Option.some.injEq] at inside
          exact inside ▸ stamped
      · simp only [State.append, Function.update_of_ne same] at inside
        exact sound.ledger_own era ledEra position found inside above
    log_term := fun member found inside => by
      by_cases acting : member = actor
      · subst acting
        simp only [State.append, Function.update_self, List.mem_append,
          List.mem_singleton] at inside
        rcases inside with inside | rfl
        · exact sound.log_term member found inside
        · exact stamped.le
      · rw [frame.log member acting] at inside
        exact sound.log_term member found inside
    winner := fun era member won => by
      by_cases same : era = state.current actor
      · subst same
        have acting : actor = member := by
          simpa [State.append, leads] using won
        subst acting
        simp [State.append]
      · obtain ⟨seen, kept, acked⟩ := sound.winner era member won
        refine ⟨seen, fun current => ?_, ?_⟩
        · have acting : member ≠ actor := by
            rintro rfl
            exact same current.symm
          rw [frame.log member acting]
          simpa [State.append, Function.update_of_ne same] using kept current
        · simpa [State.append, same] using acked
    acked_led := fun member era positive => by
      by_cases acting : member = actor ∧ era = state.current actor
      · obtain ⟨rfl, rfl⟩ := acting
        simp [State.append, leads]
      · simp only [State.append, if_neg acting] at positive ⊢
        obtain ⟨ledEra, seen, within⟩ := sound.acked_led member era positive
        exact ⟨ledEra, seen, within.trans (extended.ledger era ledEra).length_le⟩
    acked_held := fun member => by
      by_cases acting : member = actor
      · subst acting
        simp [State.append, List.take_of_length_le]
      · rw [frame.current member acting, frame.acked member _ acting,
          frame.log member acting]
        by_cases idle : state.acked member (state.current member) = 0
        · simp [idle]
        · obtain ⟨ledEra, _, within⟩ := sound.acked_led member _ (Nat.pos_of_ne_zero idle)
          rw [extended.take_ledger ledEra within]
          exact sound.acked_held member
    campaigned := sound.campaigned
    retained := fun member => by
      by_cases acting : member = actor
      · subst acting
        intro earlier count before above acked inherited
        by_cases same : earlier = state.current member
        · subst same
          simp only [State.append, Function.update_self]
          exact List.take_prefix _ _
        · have older : earlier < state.current member := by
            have bound : earlier < state.current member + 1 := before
            omega
          have kept : (state.append member entry).Recalls member (state.current member)
              (state.current member) (state.log member) := by
            refine Recalls.extends sound extended
              (fun at_ below => unacked member at_ below) (Nat.le_refl _) ?_
            intro at_ amount _ higher counted passed
            exact sound.retained member at_ amount (by omega) higher counted passed
          have inside := kept earlier count older above acked inherited
          simp only [State.append, Function.update_self] at inside ⊢
          exact inside.trans (List.prefix_append _ _)
      · exact retained_frame sound extended frame acting
    ballots := fun _ _ _ cast => ballot_extends sound extended unacked cast
    evidence := fun _ ledEra => evidence_extends sound extended unacked ledEra
    decided := fun era positive => (sound.decided era positive).extends extended }

omit [DecidableEq Member] in
theorem Sound.commit (sound : state.Sound) {count : Nat}
    (committed : state.Committed (state.current actor) count) :
    (state.commit actor count).Sound :=
  { sound with
    decided := fun era positive => by
      by_cases same : era = state.current actor
      · subst same
        simp only [State.commit, Function.update_self]
        exact committed
      · simp only [State.commit, Function.update_of_ne same] at positive ⊢
        exact sound.decided era positive }

theorem Sound.accept (sound : state.Sound) {count : Nat} {log : List Entry}
    (led : state.elected (state.current actor) ≠ none)
    (other : state.elected (state.current actor) ≠ some actor)
    (within : count ≤ (state.ledger (state.current actor)).length)
    (covers : (state.ledger (state.current actor)).take count <+: log)
    (source : log <+: state.log actor ∨
      log = (state.ledger (state.current actor)).take count)
    (keeps : ∀ shared, shared <+: state.log actor →
      shared <+: state.ledger (state.current actor) → shared <+: log) :
    (state.accept actor count log).Sound := by
  have extended : state.Extends (state.accept actor count log) := extends_accept
  have frame : state.Frame actor (state.accept actor count log) :=
    (Step.accept count log led other within covers source keeps).frame
  have unacked : ∀ voter earlier, earlier < state.current voter →
      (state.accept actor count log).acked voter earlier =
        state.acked voter earlier := by
    rintro voter earlier before
    have older : ¬(voter = actor ∧ earlier = state.current actor) := by
      rintro ⟨rfl, rfl⟩
      omega
    simp only [State.accept, if_neg older]
  have held : (state.ledger (state.current actor)).take
      (max (state.acked actor (state.current actor)) count) <+: log := by
    rcases le_total (state.acked actor (state.current actor)) count with below | below
    · rwa [max_eq_right below]
    · rw [max_eq_left below]
      exact keeps _ (sound.acked_held actor) (List.take_prefix _ _)
  exact {
    backed_log := fun member => by
      by_cases acting : member = actor
      · subst acting
        have backed : state.Backed log := by
          rcases source with inside | rfl
          · exact (sound.backed_log member).restrict inside
          · exact (sound.backed_ledger _ led).restrict (List.take_prefix _ _)
        simpa [State.accept] using backed.extends extended
      · rw [frame.log member acting]
        exact sound.backed_log member
    backed_ledger := sound.backed_ledger
    base_prefix := sound.base_prefix
    base_old := sound.base_old
    ledger_own := sound.ledger_own
    log_term := fun member entry inside => by
      by_cases acting : member = actor
      · subst acting
        simp only [State.accept, Function.update_self] at inside
        rcases source with within | rfl
        · exact sound.log_term member entry (within.subset inside)
        · obtain ⟨position, found⟩ :=
            List.mem_iff_getElem?.mp (List.mem_of_mem_take inside)
          exact sound.ledger_term led found
      · rw [frame.log member acting] at inside
        exact sound.log_term member entry inside
    winner := fun era member won => by
      obtain ⟨seen, own, acked⟩ := sound.winner era member won
      have notBoth : ¬(member = actor ∧ era = state.current actor) := by
        rintro ⟨rfl, rfl⟩
        exact other won
      refine ⟨seen, fun same => ?_, by simpa [State.accept, notBoth] using acked⟩
      have acting : member ≠ actor := by
        rintro rfl
        exact notBoth ⟨rfl, same.symm⟩
      rw [frame.log member acting]
      exact own same
    acked_led := fun member era positive => by
      by_cases acting : member = actor ∧ era = state.current actor
      · obtain ⟨rfl, rfl⟩ := acting
        refine ⟨led, Nat.le_refl _, ?_⟩
        simp only [State.accept, and_self, if_true]
        refine max_le ?_ within
        by_cases idle : state.acked member (state.current member) = 0
        · omega
        · exact (sound.acked_led member _ (Nat.pos_of_ne_zero idle)).2.2
      · simp only [State.accept, if_neg acting] at positive ⊢
        exact sound.acked_led member era positive
    acked_held := fun member => by
      by_cases acting : member = actor
      · subst acting
        simpa [State.accept] using held
      · rw [frame.current member acting, frame.acked member _ acting,
          frame.log member acting]
        exact sound.acked_held member
    campaigned := sound.campaigned
    retained := fun member => by
      by_cases acting : member = actor
      · subst acting
        intro earlier amount before above acked inherited
        have shape : (state.accept member count log).log member = log := by
          simp [State.accept]
        rw [shape]
        by_cases same : earlier = state.current member
        · subst same
          have counted : amount ≤ max (state.acked member (state.current member)) count := by
            simpa [State.accept] using acked
          exact (List.take_prefix_take_left counted).trans held
        · have older : earlier < state.current member := by
            have bound : earlier < state.current member + 1 := before
            omega
          have counted : amount ≤ state.acked member earlier := by
            rwa [unacked member earlier older] at acked
          have inherits : state.Inherited earlier amount (state.current member) :=
            inherited
          have inLog := sound.retained member earlier amount (by omega) above counted
            inherits
          have inBase := inherits _ older (Nat.le_refl _) led
          exact keeps _ inLog (inBase.trans (sound.base_prefix _ led))
      · exact retained_frame sound extended frame acting
    ballots := fun _ _ _ cast => ballot_extends sound extended unacked cast
    evidence := fun _ ledEra => evidence_extends sound extended unacked ledEra
    decided := fun era positive => (sound.decided era positive).extends extended }

theorem Step.sound {next : State Member Entry} (sound : state.Sound)
    (stepped : Step actor state next) : next.Sound := by
  cases stepped with
  | raise era higher => exact sound.raise higher
  | stand era higher => exact sound.stand higher
  | vote choice offered campaigned recent => exact sound.vote campaigned recent
  | elect group vacant campaigned majority voted =>
      exact sound.elect vacant campaigned majority voted
  | append entry leads stamped => exact sound.append leads stamped
  | commit count leads grows committed => exact sound.commit committed
  | accept count log led other within covers source keeps =>
      exact sound.accept led other within covers source keeps

/-- A sequence of steps keeps the invariant, extends the history and leaves the
other members alone. -/
theorem Steps.sound {next : State Member Entry} (sound : state.Sound)
    (stepped : Steps actor state next) :
    next.Sound ∧ state.Extends next ∧ state.Frame actor next := by
  induction stepped with
  | refl => exact ⟨sound, Extends.refl state, Frame.refl actor state⟩
  | tail _ stepped ih =>
      obtain ⟨soundMid, extended, frame⟩ := ih
      exact ⟨stepped.sound soundMid, extended.trans (stepped.extends soundMid),
        frame.trans stepped.frame⟩

theorem Steps.decided_other {next : State Member Entry} (sound : state.Sound)
    (stepped : Steps actor state next) {era : Nat} {winner : Member}
    (won : state.elected era = some winner) (different : winner ≠ actor) :
    next.decided era = state.decided era := by
  induction stepped with
  | refl => rfl
  | tail before stepped ih =>
      obtain ⟨_, extended, _⟩ := Steps.sound sound before
      exact (stepped.decided_other (extended.elected _ _ won) different).trans ih

end State

end Replication
