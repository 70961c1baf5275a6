import RaftCanvas.Raft.Roles

/-!
# Announcing a leader

A replica that wins an election tells the gateway, and tries again every second while it
leads.  It has one variable for the timer of the next attempt, so if it is elected again
before an attempt is over, two rows of attempts go on and only one of them can be stopped.
-/

namespace RaftCanvas

/-- `notifyGateway` and its timers in one process of a replica. -/
structure Notifier where
  gatewayNotifyTimer : Option Nat := none
  /-- The timers that run.  They are numbered in the order in which they were set. -/
  armed : List Nat := []
  timers : Nat := 0
  /-- Announcements that wait for an answer. -/
  attempts : Nat := 0
  /-- Whether one was answered since the last election was won; nothing reads it. -/
  heard : Bool := false
  deriving DecidableEq

namespace Notifier

/-- `notifyGateway` up to its await. -/
def notifyGateway (self : Notifier) : Notifier :=
  { self with gatewayNotifyTimer := none, attempts := self.attempts + 1 }

/-- `node.on("role")` -/
def onRole (self : Notifier) (role : Role) : Notifier :=
  if role = .leader then { self with heard := false }.notifyGateway
  else
    match self.gatewayNotifyTimer with
    | some timer => { self with gatewayNotifyTimer := none, armed := self.armed.erase timer }
    | none => self

/-- The events of a handler. -/
def onRoles (self : Notifier) (roles : List Role) : Notifier :=
  roles.foldl onRole self

/-- A timer fires. -/
def fire (self : Notifier) (timer : Nat) : Option Notifier :=
  if timer ∈ self.armed then
    some { self with armed := self.armed.erase timer }.notifyGateway
  else none

/-- An attempt is over, in a replica that has the role then. -/
def settle (self : Notifier) (role : Role) (ok : Bool) : Option Notifier :=
  if 0 < self.attempts then
    let self := { self with attempts := self.attempts - 1 }
    if ok then some { self with heard := true }
    else if role = .leader then
      some { self with
        gatewayNotifyTimer := some self.timers
        armed := self.armed ++ [self.timers]
        timers := self.timers + 1 }
    else some self
  else none

variable {self next : Notifier} {role before : Role} {roles : List Role} {timer : Nat} {ok : Bool}

/-- Role events only stop timers. -/
theorem onRoles_armed (self : Notifier) (roles : List Role) :
    (self.onRoles roles).armed.Sublist self.armed := by
  induction roles generalizing self with
  | nil => exact .refl _
  | cons role roles ih =>
      refine (ih (self.onRole role)).trans ?_
      rw [onRole]
      split
      · exact .refl _
      · split
        · exact List.erase_sublist
        · exact .refl _

/-- Only a leader sets a timer. -/
theorem settle_armed (idle : role ≠ .leader) (settled : self.settle role ok = some next) :
    next.armed = self.armed := by
  rw [settle, Option.ite_none_right_eq_some] at settled
  obtain ⟨_, settled⟩ := settled
  dsimp only at settled
  split at settled
  · rw [← Option.some.inj settled]
  · rw [← Option.some.inj settled]

/-! ## It does not give up -/

/-- A leader has been heard, or goes on announcing itself. -/
def Urges (self : Notifier) (role : Role) : Prop :=
  role = .leader → self.heard = true ∨ 0 < self.attempts ∨ self.armed ≠ []

theorem notifyGateway_urges (self : Notifier) (role : Role) : self.notifyGateway.Urges role :=
  fun _ => .inr (.inl (Nat.succ_pos _))

theorem onRole_urges (self : Notifier) (role : Role) : (self.onRole role).Urges role := by
  intro leads
  rw [onRole, if_pos leads]
  exact notifyGateway_urges _ role leads

theorem Urges.onRoles (urges : self.Urges before) (roles : List Role) :
    (self.onRoles roles).Urges (before.last roles) := by
  induction roles generalizing self before with
  | nil => exact urges
  | cons role roles ih => exact ih (onRole_urges self role)

theorem fire_urges (fired : self.fire timer = some next) : next.Urges role := by
  rw [fire, Option.ite_none_right_eq_some] at fired
  rw [← Option.some.inj fired.2]
  exact notifyGateway_urges _ role

/-- An attempt that fails is followed by a timer. -/
theorem settle_urges (settled : self.settle role ok = some next) : next.Urges role := by
  intro leads
  rw [settle, Option.ite_none_right_eq_some] at settled
  obtain ⟨_, settled⟩ := settled
  dsimp only at settled
  split at settled
  · rw [← Option.some.inj settled]
    exact .inl rfl
  · rw [← Option.some.inj settled]
    exact .inr (.inr (List.append_ne_nil_of_right_ne_nil _ (List.cons_ne_nil _ _)))

/-! ## One row of attempts -/

/-- The replica is elected only when no announcement waits for its answer. -/
def Calm : Notifier → List Role → Prop
  | _, [] => True
  | self, role :: rest => (role = .leader → self.attempts = 0) ∧ (self.onRole role).Calm rest

instance decidableCalm : (self : Notifier) → (roles : List Role) → Decidable (self.Calm roles)
  | _, [] => .isTrue trivial
  | self, role :: rest =>
      have := decidableCalm (self.onRole role) rest
      inferInstanceAs (Decidable (_ ∧ _))

/-- There is one attempt or one timer at most, and only a leader has a timer. -/
structure Single (state : Notifier) (role : Role) : Prop where
  armed : state.armed = state.gatewayNotifyTimer.toList
  one : state.attempts + state.armed.length ≤ 1
  idle : role ≠ .leader → state.armed = []

theorem single_start (role : Role) : ({} : Notifier).Single role :=
  ⟨rfl, Nat.zero_le _, fun _ => rfl⟩

theorem Single.onRole (single : self.Single before) (calm : role = .leader → self.attempts = 0)
    (stands : role = .leader → before = .candidate) : (self.onRole role).Single role := by
  by_cases leads : role = .leader
  · have idle : self.armed = [] := by
      refine single.idle ?_
      rw [stands leads]
      decide
    rw [Notifier.onRole, if_pos leads]
    refine ⟨idle, ?_, fun other => absurd leads other⟩
    show self.attempts + 1 + self.armed.length ≤ 1
    rw [idle, calm leads]
    exact Nat.le_refl _
  · have armed := single.armed
    rw [Notifier.onRole, if_neg leads]
    cases set : self.gatewayNotifyTimer with
    | some timer =>
        rw [set] at armed
        have erased : self.armed.erase timer = [] := by simp [armed]
        refine ⟨erased, ?_, fun _ => erased⟩
        show self.attempts + (self.armed.erase timer).length ≤ 1
        rw [erased]
        exact Nat.le_trans (Nat.le_add_right _ _) single.one
    | none =>
        rw [set] at armed
        exact ⟨armed.trans (congrArg _ set.symm), single.one, fun _ => armed⟩

theorem Single.onRoles (single : self.Single before) (lawful : before.Lawful roles)
    (calm : self.Calm roles) : (self.onRoles roles).Single (before.last roles) := by
  induction roles generalizing self before with
  | nil => exact single
  | cons role roles ih =>
      exact ih (single.onRole calm.1 lawful.1) lawful.2 calm.2

theorem Single.fire (single : self.Single role) (fired : self.fire timer = some next) :
    next.Single role := by
  rw [Notifier.fire, Option.ite_none_right_eq_some] at fired
  obtain ⟨member, fired⟩ := fired
  rw [← Option.some.inj fired]
  have armed := single.armed
  have one := single.one
  cases set : self.gatewayNotifyTimer with
  | none =>
      rw [armed, set] at member
      cases member
  | some other =>
      rw [set] at armed
      rw [armed] at member one
      obtain rfl := List.mem_singleton.mp member
      have erased : self.armed.erase timer = [] := by simp [armed]
      refine ⟨erased, ?_, fun _ => erased⟩
      show self.attempts + 1 + (self.armed.erase timer).length ≤ 1
      rw [erased]
      exact one

theorem Single.settle (single : self.Single role) (settled : self.settle role ok = some next) :
    next.Single role := by
  rw [Notifier.settle, Option.ite_none_right_eq_some] at settled
  obtain ⟨waits, settled⟩ := settled
  have one := single.one
  have none_armed : self.armed = [] := by
    rw [← List.length_eq_zero_iff]
    omega
  dsimp only at settled
  split at settled
  · obtain rfl := Option.some.inj settled
    exact ⟨single.armed, by dsimp only; omega, single.idle⟩
  · split at settled
    next leads =>
      obtain rfl := Option.some.inj settled
      refine ⟨by simp [none_armed], ?_, fun other => absurd leads other⟩
      simp only [none_armed, List.nil_append, List.length_singleton]
      omega
    · obtain rfl := Option.some.inj settled
      exact ⟨single.armed, by dsimp only; omega, single.idle⟩

end Notifier

end RaftCanvas
