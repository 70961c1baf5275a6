import Mathlib.Data.List.Basic
import RaftCanvas.Library.Quorum

/-!
# Replicated logs: the abstract protocol

Members hold complete logs.  Beside them the state records history that no member
can see: who won which term, the log it won with, the log it went on to build,
who voted for whom, and how long a prefix of the winner's log each member has
acknowledged, and the winner has seen committed, in each term.  No message is modelled; a step is an action of one
member together with the evidence that justifies it.
-/

namespace Replication

/-- Entries are stamped with the term of the leader that created them. -/
class Stamped (Entry : Type) where
  term : Entry → Nat

export Stamped (term)

variable {Member Entry : Type}

/-- Global state with its history. -/
structure State (Member Entry : Type) where
  /-- Latest term each member has seen. -/
  current : Member → Nat
  log : Member → List Entry
  /-- The winner of each term. -/
  elected : Nat → Option Member
  /-- The log the winner of a term was elected with. -/
  base : Nat → List Entry
  /-- Everything the winner of a term has had in its log while leading. -/
  ledger : Nat → List Entry
  /-- Length of the ledger prefix a member has acknowledged in a term. -/
  acked : Member → Nat → Nat
  /-- Length of the ledger prefix the winner of a term has seen committed. -/
  decided : Nat → Nat
  /-- `ballot voter term candidate` -/
  ballot : Member → Nat → Member → Prop
  /-- The log a member campaigned with. -/
  campaign : Member → Nat → Option (List Entry)

variable [Stamped Entry]

/-- Term of the last entry, and `-1` for the empty log. -/
def lastTerm (log : List Entry) : Int :=
  (log.getLast?.map fun entry => (term entry : Int)).getD (-1)

@[simp] theorem lastTerm_nil : lastTerm ([] : List Entry) = -1 := rfl

@[simp] theorem lastTerm_concat (log : List Entry) (entry : Entry) :
    lastTerm (log ++ [entry]) = term entry := by
  simp [lastTerm]

/-- The comparison a voter makes: `challenger` is at least as recent as `own`. -/
def UpToDate (challenger own : List Entry) : Prop :=
  lastTerm own < lastTerm challenger ∨
    lastTerm own = lastTerm challenger ∧ own.length ≤ challenger.length

theorem UpToDate.refl (log : List Entry) : UpToDate log log :=
  Or.inr ⟨rfl, Nat.le_refl _⟩

namespace State

/-- Every entry sits, with everything below it, in the ledger of its own term and
above the log that term's winner started from. -/
def Backed (state : State Member Entry) (log : List Entry) : Prop :=
  ∀ position entry, log[position]? = some entry →
    state.elected (term entry) ≠ none ∧
      (state.base (term entry)).length ≤ position ∧
      log.take (position + 1) <+: state.ledger (term entry)

/-- The first `count` entries of a term's ledger, ending in an entry of that
term, are acknowledged by a majority. -/
def Committed [Fintype Member] (state : State Member Entry) (era count : Nat) : Prop :=
  state.elected era ≠ none ∧ (state.base era).length < count ∧
    count ≤ (state.ledger era).length ∧
    ∃ group : Finset Member, Quorum.Majority group ∧
      ∀ member ∈ group, count ≤ state.acked member era

/-- `log` is covered by what the winner of a term up to `limit` has decided. -/
def Certified (state : State Member Entry) (limit : Nat) (log : List Entry) : Prop :=
  ∃ era, era ≤ limit ∧ log <+: (state.ledger era).take (state.decided era)

/-- Winners after `era` and up to `limit` started with the first `count` entries
of the ledger of `era`. -/
def Inherited (state : State Member Entry) (era count limit : Nat) : Prop :=
  ∀ later, era < later → later ≤ limit → state.elected later ≠ none →
    (state.ledger era).take count <+: state.base later

section Moves

variable [DecidableEq Member]

/-- See a higher term. -/
def raise (state : State Member Entry) (actor : Member) (era : Nat) :
    State Member Entry :=
  { state with current := Function.update state.current actor era }

/-- Campaign in a higher term, voting for oneself. -/
def stand (state : State Member Entry) (actor : Member) (era : Nat) :
    State Member Entry :=
  { state with
    current := Function.update state.current actor era
    campaign := fun member at_ =>
      if member = actor ∧ at_ = era then some (state.log actor)
      else state.campaign member at_
    ballot := fun voter at_ choice =>
      voter = actor ∧ at_ = era ∧ choice = actor ∨ state.ballot voter at_ choice }

/-- Vote in the current term. -/
def vote (state : State Member Entry) (actor choice : Member) : State Member Entry :=
  { state with
    ballot := fun voter at_ other =>
      voter = actor ∧ at_ = state.current actor ∧ other = choice ∨
        state.ballot voter at_ other }

/-- Win the current term. -/
def elect (state : State Member Entry) (actor : Member) : State Member Entry :=
  { state with
    elected := Function.update state.elected (state.current actor) (some actor)
    base := Function.update state.base (state.current actor) (state.log actor)
    ledger := Function.update state.ledger (state.current actor) (state.log actor)
    acked := fun member at_ =>
      if member = actor ∧ at_ = state.current actor then (state.log actor).length
      else state.acked member at_ }

/-- Extend the ledger of the term one leads. -/
def append (state : State Member Entry) (actor : Member) (entry : Entry) :
    State Member Entry :=
  { state with
    log := Function.update state.log actor (state.log actor ++ [entry])
    ledger := Function.update state.ledger (state.current actor)
      (state.log actor ++ [entry])
    acked := fun member at_ =>
      if member = actor ∧ at_ = state.current actor then (state.log actor).length + 1
      else state.acked member at_ }

/-- Decide that the first `count` entries of the term one leads are committed. -/
def commit (state : State Member Entry) (actor : Member) (count : Nat) :
    State Member Entry :=
  { state with
    decided := Function.update state.decided (state.current actor) count }

/-- Follow the winner of the current term and acknowledge `count` entries. -/
def accept (state : State Member Entry) (actor : Member) (count : Nat)
    (log : List Entry) : State Member Entry :=
  { state with
    log := Function.update state.log actor log
    acked := fun member at_ =>
      if member = actor ∧ at_ = state.current actor then
        max (state.acked actor at_) count
      else state.acked member at_ }

end Moves

variable [Fintype Member] [DecidableEq Member]

/-- What one member may do. -/
inductive Step (actor : Member) (state : State Member Entry) :
    State Member Entry → Prop where
  | raise (era : Nat) (higher : state.current actor < era) :
      Step actor state (state.raise actor era)
  | stand (era : Nat) (higher : state.current actor < era) :
      Step actor state (state.stand actor era)
  | vote (choice : Member) (offered : List Entry)
      (campaigned : state.campaign choice (state.current actor) = some offered)
      (recent : UpToDate offered (state.log actor)) :
      Step actor state (state.vote actor choice)
  | elect (group : Finset Member)
      (vacant : state.elected (state.current actor) = none)
      (campaigned : state.campaign actor (state.current actor) =
        some (state.log actor))
      (majority : Quorum.Majority group)
      (voted : ∀ member ∈ group,
        state.ballot member (state.current actor) actor) :
      Step actor state (state.elect actor)
  | append (entry : Entry)
      (leads : state.elected (state.current actor) = some actor)
      (stamped : term entry = state.current actor) :
      Step actor state (state.append actor entry)
  | commit (count : Nat)
      (leads : state.elected (state.current actor) = some actor)
      (grows : state.decided (state.current actor) ≤ count)
      (committed : state.Committed (state.current actor) count) :
      Step actor state (state.commit actor count)
  | accept (count : Nat) (log : List Entry)
      (led : state.elected (state.current actor) ≠ none)
      (other : state.elected (state.current actor) ≠ some actor)
      (within : count ≤ (state.ledger (state.current actor)).length)
      (covers : (state.ledger (state.current actor)).take count <+: log)
      (source : log <+: state.log actor ∨
        log = (state.ledger (state.current actor)).take count)
      (keeps : ∀ shared, shared <+: state.log actor →
        shared <+: state.ledger (state.current actor) → shared <+: log) :
      Step actor state (state.accept actor count log)

/-- A finite number of steps of one member. -/
def Steps (actor : Member) : State Member Entry → State Member Entry → Prop :=
  Relation.ReflTransGen (Step actor)

theorem Steps.single {actor : Member} {state next : State Member Entry}
    (stepped : Step actor state next) : Steps actor state next :=
  Relation.ReflTransGen.single stepped

theorem Steps.refl {actor : Member} (state : State Member Entry) :
    Steps actor state state :=
  Relation.ReflTransGen.refl

theorem Steps.trans {actor : Member} {first second third : State Member Entry}
    (left : Steps actor first second) (right : Steps actor second third) :
    Steps actor first third :=
  Relation.ReflTransGen.trans left right

end State

end Replication
