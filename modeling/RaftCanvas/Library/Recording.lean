import RaftCanvas.Library.Transition

/-!
# Recorded runs

A system with a history variable: beside its state it keeps what was observed on the way.
Recording restricts no run, and what the state says can be stated in terms of the record.
-/

namespace Transition.System

universe u v w

variable {State : Type u} {Act : Type v} {Obs : Type w}

/-- Keep the observations of every step, oldest first. -/
def recording (system : System State Act) (observe : State → Act → List Obs) :
    System (State × List Obs) Act where
  init := (system.init, [])
  step state act :=
    (system.step state.1 act).map fun next => (next, state.2 ++ observe state.1 act)

variable {system : System State Act} {observe : State → Act → List Obs}
  {allowed : State → Act → Prop}

theorem recording_step {state next : State} {record : List Obs} {act : Act}
    (stepped : system.step state act = some next) :
    (system.recording observe).step (state, record) act =
      some (next, record ++ observe state act) := by
  simp only [recording, stepped, Option.map_some]

theorem recording_cases {state : State} {record : List Obs} {act : Act}
    {next : State × List Obs}
    (stepped : (system.recording observe).step (state, record) act = some next) :
    system.step state act = some next.1 ∧ next.2 = record ++ observe state act := by
  obtain ⟨_, taken, rfl⟩ := Option.map_eq_some_iff.mp stepped
  exact ⟨taken, rfl⟩

/-- A recorded run is a run. -/
theorem Reach.forget {state : State × List Obs}
    (reached : (system.recording observe).Reach (fun state => allowed state.1) state) :
    system.Reach allowed state.1 := by
  induction reached with
  | init => exact .init
  | step _ permitted stepped ih => exact ih.step permitted (recording_cases stepped).1

/-- Every run can be recorded. -/
theorem Reach.recorded {state : State} (reached : system.Reach allowed state) :
    ∃ record, (system.recording observe).Reach (fun state => allowed state.1)
      (state, record) := by
  induction reached with
  | init => exact ⟨[], .init⟩
  | step _ permitted stepped ih =>
      obtain ⟨record, recorded⟩ := ih
      exact ⟨_, recorded.step permitted (recording_step stepped)⟩

/-- What holds of the initial state and an empty record, and is kept by every step that
extends the record, holds of every recorded run. -/
theorem Reach.along {permit : State × List Obs → Act → Prop}
    (property : State → List Obs → Prop) (initially : property system.init [])
    (preserved : ∀ state record act next,
      (system.recording observe).Reach permit (state, record) → property state record →
      permit (state, record) act → system.step state act = some next →
      property next (record ++ observe state act))
    {state : State × List Obs} (reached : (system.recording observe).Reach permit state) :
    property state.1 state.2 := by
  induction reached with
  | init => exact initially
  | step reached permitted stepped ih =>
      obtain ⟨taken, recorded⟩ := recording_cases stepped
      rw [recorded]
      exact preserved _ _ _ _ reached ih permitted taken

end Transition.System
