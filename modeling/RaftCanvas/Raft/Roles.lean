import RaftCanvas.Raft.Steady

/-!
# The roles a node goes through

A node emits every change of its role.  What listens to these events knows the role the
node has when a handler is over, and a leader is always announced by a candidate.  A
handler changes the role first and applies entries last, so it applies them in the role
in which it ends.
-/

namespace RaftCanvas

/-- The roles that are announced, in order. -/
def Effect.roles {Id Blob : Type} (effects : List (Effect Id Blob)) : List Role :=
  effects.filterMap fun
    | .event (.role role _) => some role
    | _ => none

namespace Role

/-- Only a candidate becomes a leader. -/
def Lawful : Role → List Role → Prop
  | _, [] => True
  | before, role :: rest => (role = .leader → before = .candidate) ∧ role.Lawful rest

/-- The role in the end. -/
def last : Role → List Role → Role
  | before, [] => before
  | _, role :: rest => role.last rest

theorem last_snoc (before role : Role) (roles : List Role) :
    before.last (roles ++ [role]) = role := by
  induction roles generalizing before with
  | nil => rfl
  | cons next roles ih => exact ih next

theorem lawful_snoc {before role : Role} {roles : List Role} (lawful : before.Lawful roles)
    (elected : role = .leader → before.last roles = .candidate) :
    before.Lawful (roles ++ [role]) := by
  induction roles generalizing before with
  | nil => exact ⟨elected, trivial⟩
  | cons next roles ih => exact ⟨lawful.1, ih lawful.2 elected⟩

end Role

namespace Node

variable {Id : Type} {machine : Machine}

/-- In the course of a handler: its node has the role that was announced last. -/
structure Announced (before : Role) (node : Node Id machine) : Prop where
  lawful : before.Lawful (Effect.roles node.trace)
  last : node.role = before.last (Effect.roles node.trace)

namespace Announced

variable {before : Role} {self after : Node Id machine}

theorem still (announced : Announced before self)
    (roles : Effect.roles after.trace = Effect.roles self.trace)
    (role : after.role = self.role) : Announced before after where
  lawful := roles ▸ announced.lawful
  last := role.trans (roles ▸ announced.last)

/-- A change of role is announced. -/
theorem change (announced : Announced before self)
    (roles : Effect.roles after.trace = Effect.roles self.trace ++ [after.role])
    (elected : after.role = .leader → self.role = .candidate) : Announced before after where
  lawful := roles ▸ Role.lawful_snoc announced.lawful (announced.last ▸ elected)
  last := by rw [roles, Role.last_snoc]

theorem becomeFollower (announced : Announced before self) (term : Nat)
    (leaderId : Option Id) : Announced before (self.becomeFollower term leaderId) := by
  have role := self.becomeFollower_role term leaderId
  refine announced.change ?_ fun leads => absurd (role.symm.trans leads) (by decide)
  rw [role, Node.becomeFollower]
  dsimp only
  split <;> simp [Node.write, Node.emit, Effect.roles]

theorem followLeader (announced : Announced before self) (term : Nat) (leaderId : Id) :
    Announced before (self.followLeader term leaderId) := by
  rw [Node.followLeader]
  split
  · exact announced.becomeFollower term _
  · exact announced.still rfl rfl

theorem steady (config : Config Id) :
    Steady config (fun node : Node Id machine => Announced before node) where
  memory announced _ trace role _ := announced.still (by rw [trace]) role
  emit {self event} ordinary announced := by
    refine announced.still ?_ rfl
    cases event with
    | role => cases ordinary
    | _ => simp [Node.emit, Effect.roles]
  send call announced := announced.still (by simp [Node.send, Effect.roles]) rfl
  perform operation announced := announced.still (by simp [Node.write, Effect.roles]) rfl
  becomeFollower term _ announced := announced.becomeFollower term none
  becomeCandidate _ announced := by
    refine announced.change ?_ (by rintro ⟨⟩)
    simp [Node.becomeCandidate, Node.write, Node.emit, Effect.roles]
  office nextIndex matchIndex _ stands announced := by
    refine announced.change ?_ fun _ => stands
    simp [Node.office, Node.emit, Effect.roles]

end Announced

/-- Whatever reaches a running node, its role in the end is the last it has announced. -/
theorem respond_announced [DecidableEq Id] (config : Config Id) {self : Node Id machine}
    (fresh : self.trace = []) {stimulus : Stimulus Id machine.Blob}
    (lives : ∀ db, stimulus ≠ .restart db) :
    Announced self.role (self.respond config stimulus) := by
  have begun : Announced self.role self := ⟨by rw [fresh]; trivial, by rw [fresh]; rfl⟩
  exact (Announced.steady config).respond fresh begun lives
    fun _ _ term leader _ => begun.followLeader term leader

end Node

/-! ## The role in which an entry is applied -/

namespace Effect

variable {Id Blob : Type}

/-- The entries that are applied, each with the role announced last by then. -/
def applications : Role → List (Effect Id Blob) → List (Role × LogEntry)
  | _, [] => []
  | _, .event (.role role _) :: rest => applications role rest
  | role, .event (.applied entry) :: rest => (role, entry) :: applications role rest
  | role, _ :: rest => applications role rest

/-- Once an entry has been applied, no role is announced. -/
def Settled (effects : List (Effect Id Blob)) : Prop :=
  effects.Pairwise fun earlier later =>
    (∃ entry, earlier = .event (.applied entry)) → roles [later] = []

theorem mem_events_of_applications {before role : Role} {entry : LogEntry}
    {effects : List (Effect Id Blob)} (member : (role, entry) ∈ applications before effects) :
    .applied entry ∈ events effects := by
  induction effects generalizing before with
  | nil => cases member
  | cons effect rest ih =>
      cases effect with
      | write | send => exact ih member
      | event event =>
          cases event with
          | applied other =>
              rcases List.mem_cons.mp member with now | later
              · rw [(Prod.mk.inj now).2]
                exact List.mem_cons_self
              · exact List.mem_cons_of_mem _ (ih later)
          | _ => exact List.mem_cons_of_mem _ (ih member)

theorem Settled.snoc {effects : List (Effect Id Blob)} {effect : Effect Id Blob}
    (settled : Settled effects) (still : roles [effect] = []) :
    Settled (effects ++ [effect]) := by
  refine List.pairwise_append.mpr ⟨settled, List.pairwise_singleton _ _, ?_⟩
  intro earlier _ later member _
  rw [List.mem_singleton.mp member]
  exact still

theorem settled_of_unapplied {effects : List (Effect Id Blob)}
    (unapplied : ∀ entry, .event (.applied entry) ∉ effects) : Settled effects := by
  refine List.pairwise_of_forall_mem_list ?_
  rintro _ member _ _ ⟨entry, rfl⟩
  exact absurd member (unapplied entry)

/-- Then every entry is applied in the role that is announced last of all. -/
theorem Settled.mem_applications {before : Role} {entry : LogEntry}
    {front back : List (Effect Id Blob)} (settled : Settled (front ++ back))
    (applied : .applied entry ∈ events front) :
    (before.last (roles (front ++ back)), entry) ∈ applications before front := by
  induction front generalizing before with
  | nil => cases applied
  | cons effect rest ih =>
      obtain ⟨quiet, onward⟩ := List.pairwise_cons.mp settled
      cases effect with
      | write | send => exact ih onward applied
      | event event =>
          cases event with
          | applied first =>
              -- nothing is announced from here on
              have last : before.last (roles (rest ++ back)) = before := by
                have silent : roles (rest ++ back) = [] := by
                  refine List.filterMap_eq_nil_iff.mpr fun later member => ?_
                  simpa [roles] using quiet later member ⟨first, rfl⟩
                rw [silent]
                rfl
              rcases List.mem_cons.mp applied with now | later
              · obtain rfl := Event.applied.inj now
                exact List.mem_cons.mpr (.inl (Prod.ext last rfl))
              · exact List.mem_cons_of_mem _ (ih onward later)
          | _ =>
              rcases List.mem_cons.mp applied with now | later
              · cases now
              · exact ih onward later

end Effect

namespace Node

variable {Id : Type} {machine : Machine}

theorem becomeFollower_settled {self : Node Id machine} (fresh : self.trace = []) (term : Nat)
    (leaderId : Option Id) : Effect.Settled (self.becomeFollower term leaderId).trace := by
  refine Effect.settled_of_unapplied fun entry => ?_
  rw [Node.becomeFollower]
  dsimp only
  split <;> simp [Node.write, Node.emit, fresh]

theorem settled_steady (config : Config Id) :
    Steady config (fun node : Node Id machine => Effect.Settled node.trace) where
  memory settled _ trace _ _ := trace ▸ settled
  emit {self event} ordinary settled := by
    refine settled.snoc ?_
    cases event with
    | role => cases ordinary
    | _ => rfl
  send call settled := settled.snoc rfl
  perform operation settled := settled.snoc rfl
  becomeFollower term fresh _ := becomeFollower_settled fresh term none
  becomeCandidate fresh _ := by
    refine Effect.settled_of_unapplied fun entry => ?_
    simp [Node.becomeCandidate, Node.write, Node.emit, fresh]
  office nextIndex matchIndex fresh _ _ := by
    refine Effect.settled_of_unapplied fun entry => ?_
    simp [Node.office, Node.emit, fresh]

/-- Whatever reaches a running node, it changes its role before it applies anything. -/
theorem respond_settled [DecidableEq Id] (config : Config Id) {self : Node Id machine}
    (fresh : self.trace = []) {stimulus : Stimulus Id machine.Blob}
    (lives : ∀ db, stimulus ≠ .restart db) :
    Effect.Settled (self.respond config stimulus).trace := by
  have begun : Effect.Settled self.trace := by
    rw [fresh]
    exact List.Pairwise.nil
  refine (settled_steady config).respond fresh begun lives fun _ _ term leader _ => ?_
  rw [Node.followLeader]
  split
  · exact becomeFollower_settled fresh term _
  · exact begun

end Node

end RaftCanvas
