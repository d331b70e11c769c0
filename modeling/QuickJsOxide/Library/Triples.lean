import QuickJsOxide.Library.Stateful

namespace QuickJsOxide.Library

/-! Pre- and postconditions of computations that keep their state when they
fail. -/

variable {Error State α β : Type u}

/-- From the given state the computation returns with `returns` or fails with
`fails`. -/
def Meets (operation : EStateM Error State α) (state : State)
    (returns : α → State → Prop) (fails : State → Prop) : Prop :=
  match operation state with
  | .ok value after => returns value after
  | .error _ after => fails after

namespace Meets

theorem pure (holds : returns value state) :
    Meets (Pure.pure value : EStateM Error State α) state returns fails :=
  holds

theorem throw (holds : fails state) :
    Meets (MonadExcept.throw error : EStateM Error State α) state returns
      fails :=
  holds

theorem changed (holds : returns ⟨⟩ (change state)) :
    Meets (modify change : EStateM Error State PUnit) state returns fails :=
  holds

theorem changed_bind
    (continuation : Meets (next ⟨⟩) (change state) returns fails) :
    Meets (modify change >>= next) state returns fails :=
  continuation

theorem get (continuation : Meets (next state) state returns fails) :
    Meets (MonadState.get >>= next) state returns fails :=
  continuation

theorem set (continuation : Meets (next ⟨⟩) new returns fails) :
    Meets (MonadStateOf.set new >>= next) state returns fails :=
  continuation

theorem ofExcept {result : Except Error α} (known : result = .ok value)
    (continuation : Meets (next value) state returns fails) :
    Meets (MonadExcept.ofExcept result >>= next) state returns fails := by
  rw [known]
  exact continuation

theorem ofExcept_error {result : Except Error α} (known : result = .error error)
    (holds : fails state) :
    Meets (MonadExcept.ofExcept result >>= next) state returns fails := by
  rw [known]
  exact holds

theorem bind (start : Meets first state middle failed)
    (continuation : ∀ value after, middle value after →
      Meets (next value) after returns fails)
    (failing : ∀ after, failed after → fails after) :
    Meets (first >>= next) state returns fails := by
  unfold Meets at start
  unfold Meets Bind.bind Monad.toBind EStateM.instMonad EStateM.bind
  dsimp only
  cases outcome : first state with
  | ok value after =>
    rw [outcome] at start
    exact continuation value after start
  | error _ after =>
    rw [outcome] at start
    exact failing after start

theorem sequel (start : Meets first state middle fails)
    (continuation : ∀ value after, middle value after →
      Meets (next value) after returns fails) :
    Meets (first >>= next) state returns fails :=
  start.bind continuation fun _ failed => failed

theorem bind_same (start : Meets first state middle fun after => after = state)
    (continuation : ∀ value after, middle value after →
      Meets (next value) after returns fails) (failing : fails state) :
    Meets (first >>= next) state returns fails := by
  apply bind start continuation
  intro after same
  rw [same]
  exact failing

theorem observe {known : α → Prop} {returns : β → State → Prop}
    (start : Meets first state (fun value after => after = state ∧ known value)
      fun after => after = state) (continuation : ∀ value, known value →
      Meets (next value) state returns fails) (failing : fails state) :
    Meets (first >>= next) state returns fails := by
  refine bind_same start ?_ failing
  intro value after found
  obtain ⟨rfl, holds⟩ := found
  exact continuation value holds

theorem weaken (meets : Meets operation state returns failed)
    (consequence : ∀ value after, returns value after → weaker value after)
    (failing : ∀ after, failed after → fails after) :
    Meets operation state weaker fails := by
  unfold Meets at *
  cases outcome : operation state with
  | ok value after =>
    rw [outcome] at meets
    exact consequence value after meets
  | error _ after =>
    rw [outcome] at meets
    exact failing after meets

theorem surely (meets : Meets operation state returns fun _ => False) :
    Meets operation state returns fails :=
  meets.weaken (fun _ _ holds => holds) fun _ impossible => impossible.elim

theorem both (first : Meets operation state returns fails)
    (second : Meets operation state also failed) : Meets operation state
      (fun value after => returns value after ∧ also value after)
      (fun after => fails after ∧ failed after) := by
  unfold Meets at *
  cases outcome : operation state with
  | ok | error =>
    rw [outcome] at first second
    exact ⟨first, second⟩

theorem last
    (ending : ∀ value middle, Meets (next value) middle returns fun _ => True) :
    Meets (first >>= next) state returns fun _ => True := by
  unfold Meets Bind.bind Monad.toBind EStateM.instMonad EStateM.bind
  dsimp only
  cases outcome : first state with
  | ok value after => exact ending value after
  | error => trivial

end Meets

end QuickJsOxide.Library
