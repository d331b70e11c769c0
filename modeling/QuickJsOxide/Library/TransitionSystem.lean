import Mathlib.Logic.Relation

namespace QuickJsOxide.Library

/-! Runs of a system that takes labelled steps. -/

structure TransitionSystem (State : Type u) (Label : Type v) where
  initial : State → Prop
  step : State → Label → State → Prop

namespace TransitionSystem

variable (system : TransitionSystem State Label)

/-- States reached by runs all of whose steps meet a condition on the state
before the step and its label. -/
inductive Reachable (admits : State → Label → Prop) : State → Prop where
  | initial (state : State) (start : system.initial state) :
      Reachable admits state
  | step (before after : State) (label : Label)
      (reached : Reachable admits before) (admitted : admits before label)
      (taken : system.step before label after) : Reachable admits after

variable {system}

theorem Reachable.invariant (holds : State → Prop)
    (start : ∀ state, system.initial state → holds state)
    (preserved : ∀ before label after, holds before → admits before label →
      system.step before label after → holds after)
    (reached : system.Reachable admits state) : holds state := by
  induction reached with
  | initial state begins => exact start state begins
  | step before after label _ admitted taken ih =>
    exact preserved before label after ih admitted taken

theorem Reachable.weaken
    (implies : ∀ state label, strict state label → loose state label)
    (reached : system.Reachable strict state) :
    system.Reachable loose state := by
  induction reached with
  | initial state begins => exact .initial state begins
  | step before after label _ admitted taken ih =>
    exact .step before after label ih (implies before label admitted) taken

def Follows (system : TransitionSystem State Label)
    (admits : State → Label → Prop) (next : State → Label → State) :
    State → List Label → Prop
  | _, [] => True
  | state, label :: rest =>
    admits state label ∧ system.step state label (next state label) ∧
      Follows system admits next (next state label) rest

theorem Reachable.foldl (labels : List Label) :
    ∀ {state : State}, system.Reachable admits state →
      system.Follows admits next state labels →
      system.Reachable admits (labels.foldl next state) := by
  induction labels with
  | nil =>
    intro state reached _
    exact reached
  | cons label _ ih =>
    intro state reached follows
    obtain ⟨admitted, taken, later⟩ := follows
    exact ih (.step state _ label reached admitted taken) later

end TransitionSystem

end QuickJsOxide.Library
