import Mathlib.Data.List.Basic

/-!
# Executable transition systems

A system computes its steps: in every state an action is either refused or leads
to exactly one successor.  Reachability is relative to a restriction on the steps
a run may take, so one model serves claims about all runs and claims about the
runs that keep away from a defect.
-/

namespace Transition

universe u v

/-- An initial state and a partial, executable step function. -/
structure System (State : Type u) (Act : Type v) where
  init : State
  step : State → Act → Option State

namespace System

variable {State : Type u} {Act : Type v} (system : System State Act)

/-- States reached by runs all of whose steps satisfy `allowed`. -/
inductive Reach (allowed : State → Act → Prop) : State → Prop where
  | init : Reach allowed system.init
  | step {state next : State} {act : Act} :
      Reach allowed state → allowed state act →
      system.step state act = some next → Reach allowed next

/-- States reached from `state` by runs all of whose steps satisfy `allowed`. -/
inductive Path (allowed : State → Act → Prop) (state : State) : State → Prop where
  | refl : Path allowed state state
  | step {later next : State} {act : Act} :
      Path allowed state later → allowed later act →
      system.step later act = some next → Path allowed state next

variable {system} {allowed allowed' : State → Act → Prop}

theorem Reach.onward {state later : State} (reached : system.Reach allowed state)
    (path : system.Path allowed state later) : system.Reach allowed later := by
  induction path with
  | refl => exact reached
  | step _ permitted stepped ih => exact ih.step permitted stepped

theorem Path.trans {state middle later : State} (first : system.Path allowed state middle)
    (second : system.Path allowed middle later) : system.Path allowed state later := by
  induction second with
  | refl => exact first
  | step _ permitted stepped ih => exact ih.step permitted stepped

/-- A property that holds initially and is kept by every allowed step holds of
every reachable state. -/
theorem Reach.invariant {property : State → Prop}
    (initially : property system.init)
    (preserved : ∀ state act next, system.Reach allowed state → property state →
      allowed state act → system.step state act = some next → property next)
    {state : State} (reached : system.Reach allowed state) : property state := by
  induction reached with
  | init => exact initially
  | step reached permitted stepped ih =>
      exact preserved _ _ _ reached ih permitted stepped

/-- Fewer restrictions reach more states. -/
theorem Reach.mono (weaker : ∀ state act, allowed state act → allowed' state act)
    {state : State} (reached : system.Reach allowed state) :
    system.Reach allowed' state := by
  induction reached with
  | init => exact .init
  | step _ permitted stepped ih => exact ih.step (weaker _ _ permitted) stepped

variable (system)

/-- Take a list of actions in order; `none` as soon as one is refused or not
allowed. -/
def run (allowed : State → Act → Prop) [∀ state act, Decidable (allowed state act)]
    (state : State) : List Act → Option State
  | [] => some state
  | act :: acts =>
      if allowed state act then
        (system.step state act).bind fun next => run allowed next acts
      else none

variable {system} [∀ state act, Decidable (allowed state act)]

/-- A computed run stays within the reachable states. -/
theorem Reach.run {state final : State} {acts : List Act}
    (reached : system.Reach allowed state)
    (computed : system.run allowed state acts = some final) :
    system.Reach allowed final := by
  induction acts generalizing state with
  | nil =>
      simp only [System.run, Option.some.injEq] at computed
      exact computed ▸ reached
  | cons act acts ih =>
      simp only [System.run, Option.ite_none_right_eq_some,
        Option.bind_eq_some_iff] at computed
      obtain ⟨permitted, next, stepped, computed⟩ := computed
      exact ih (reached.step permitted stepped) computed

theorem Path.run {state mid final : State} {acts : List Act}
    (path : system.Path allowed state mid)
    (computed : system.run allowed mid acts = some final) :
    system.Path allowed state final := by
  induction acts generalizing mid with
  | nil =>
      simp only [System.run, Option.some.injEq] at computed
      exact computed ▸ path
  | cons act acts ih =>
      simp only [System.run, Option.ite_none_right_eq_some,
        Option.bind_eq_some_iff] at computed
      obtain ⟨permitted, next, stepped, computed⟩ := computed
      exact ih (path.step permitted stepped) computed

variable (system)

/-- A test that a computed run passes is passed by a reachable state. -/
theorem exists_reach_of_run (allowed : State → Act → Prop)
    [∀ state act, Decidable (allowed state act)] (acts : List Act) (test : State → Bool)
    (passed : (system.run allowed system.init acts).any test = true) :
    ∃ state, system.Reach allowed state ∧ test state = true := by
  cases computed : system.run allowed system.init acts with
  | none => simp [computed] at passed
  | some final =>
      exact ⟨final, Reach.init.run computed, by simpa [computed] using passed⟩

/-- The same for a run and its continuation. -/
theorem exists_path_of_run (allowed : State → Act → Prop)
    [∀ state act, Decidable (allowed state act)] (acts more : List Act)
    (test : State → State → Bool)
    (passed : ((system.run allowed system.init acts).any fun state =>
      (system.run allowed state more).any (test state)) = true) :
    ∃ state later, system.Reach allowed state ∧ system.Path allowed state later ∧
      test state later = true := by
  obtain ⟨state, computed, onward⟩ := (Option.any_eq_true _ _).mp passed
  obtain ⟨later, continued, passed⟩ := (Option.any_eq_true _ _).mp onward
  exact ⟨state, later, Reach.init.run computed, Path.refl.run continued, passed⟩

end System

end Transition
