import RaftCanvas.Library.Transition

/-!
# Parts of a system

A part of a composed system is itself a system, seen through a view of the whole state:
every step of the whole is a step of the part or leaves it alone.  Whatever is proved about
the part then holds within the whole, whichever steps the other parts take in between.
-/

namespace Transition.System

universe u v

variable {Whole State : Type u} {Act Act' : Type v} {whole : System Whole Act}
  {part : System State Act'} {allowed : Whole → Act → Prop} {allowed' : State → Act' → Prop}
  {view : Whole → State}

/-- Seen through `view`, the whole does what the part does. -/
structure Part (whole : System Whole Act) (allowed : Whole → Act → Prop)
    (part : System State Act') (allowed' : State → Act' → Prop) (view : Whole → State) :
    Prop where
  init : view whole.init = part.init
  step : ∀ state act next, allowed state act → whole.step state act = some next →
    view next = view state ∨
      ∃ act', allowed' (view state) act' ∧ part.step (view state) act' = some (view next)

theorem Part.path (is_part : Part whole allowed part allowed' view) {state later : Whole}
    (path : whole.Path allowed state later) :
    part.Path allowed' (view state) (view later) := by
  induction path with
  | refl => exact .refl
  | step _ permitted stepped ih =>
      rcases is_part.step _ _ _ permitted stepped with same | ⟨act', permitted', stepped'⟩
      · rw [same]
        exact ih
      · exact ih.step permitted' stepped'

theorem Part.reach (is_part : Part whole allowed part allowed' view) {state : Whole}
    (reached : whole.Reach allowed state) : part.Reach allowed' (view state) := by
  induction reached with
  | init =>
      rw [is_part.init]
      exact .init
  | step _ permitted stepped ih =>
      rcases is_part.step _ _ _ permitted stepped with same | ⟨act', permitted', stepped'⟩
      · rw [same]
        exact ih
      · exact ih.step permitted' stepped'

end Transition.System
