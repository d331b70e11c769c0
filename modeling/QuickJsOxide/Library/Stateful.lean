import Mathlib.Logic.Basic

namespace QuickJsOxide.Library

/-! Computations on a state that keep the state they reached when they
fail. -/

variable {Error State : Type u}

variable (computation : EStateM Error State α)

def Succeeds (before : State) (value : α) (after : State) : Prop :=
  computation before = .ok value after

def Fails (before : State) (error : Error) (after : State) : Prop :=
  computation before = .error error after

def attempt (read : State → Except Error α) : EStateM Error State α :=
  fun state =>
    match read state with
    | .ok value => .ok value state
    | .error error => .error error state

variable {first : EStateM Error State α} {next : α → EStateM Error State β}
  {before middle after : State} {value : α} {result : β} {error : Error}

theorem succeeds_pure :
    Succeeds (pure value : EStateM Error State α) before value before := rfl

theorem Succeeds.of_eq (runs : Succeeds first before value after)
    (values : value = same) (states : after = last) :
    Succeeds first before same last := by
  subst values states
  exact runs

section

variable (start : Succeeds first before value middle)

include start

theorem Succeeds.bind_eq : (first >>= next) before = next value middle := by
  unfold Succeeds at start
  simp [Bind.bind, EStateM.bind, start]

theorem Succeeds.bind (rest : Succeeds (next value) middle result after) :
    Succeeds (first >>= next) before result after :=
  start.bind_eq.trans rest

theorem Succeeds.fails (rest : Fails (next value) middle error after) :
    Fails (first >>= next) before error after :=
  start.bind_eq.trans rest

end

theorem Fails.bind (start : Fails first before error after) :
    Fails (first >>= next) before error after := by
  unfold Fails at start ⊢
  simp [Bind.bind, EStateM.bind, start]

variable {read : State → Except Error α}

theorem succeeds_attempt (reads : read before = .ok value) :
    Succeeds (attempt read) before value before := by
  simp [Succeeds, attempt, reads]

theorem fails_attempt (refuses : read before = .error error) :
    Fails (attempt read) before error before := by
  simp [Fails, attempt, refuses]

theorem succeeds_modify (change : State → State) :
    Succeeds (modify change : EStateM Error State PUnit) before ⟨⟩
      (change before) := rfl

theorem succeeds_get :
    Succeeds (get : EStateM Error State State) before before before := rfl

theorem fails_throw :
    Fails (throw error : EStateM Error State α) before error before := rfl

def final (before : State) : State :=
  match computation before with
  | .ok _ after => after
  | .error _ after => after

theorem final_of_succeeds (runs : Succeeds first before value after) :
    final first before = after := by
  unfold Succeeds at runs
  simp only [final, runs]

theorem final_of_fails (runs : Fails first before error after) :
    final first before = after := by
  unfold Fails at runs
  simp only [final, runs]

theorem final_bind (start : Succeeds first before value middle) :
    final (first >>= next) before = final (next value) middle := by
  simp only [final, start.bind_eq]

def Keeps (invariant : State → Prop) (computation : EStateM Error State α) :
    Prop :=
  ∀ state, invariant state → invariant (final computation state)

section

variable {invariant : State → Prop}

theorem keeps_pure : Keeps invariant (pure value : EStateM Error State α) :=
  fun _ holds => holds

theorem keeps_throw : Keeps invariant (throw error : EStateM Error State α) :=
  fun _ holds => holds

theorem Keeps.bind (start : Keeps invariant first)
    (rest : ∀ value, Keeps invariant (next value)) :
    Keeps invariant (first >>= next) := by
  intro state holds
  have middle := start state holds
  unfold final at middle ⊢
  cases run : first state with
  | ok value after =>
    simp only [run] at middle
    have last := rest value after middle
    simp only [Bind.bind, EStateM.bind, run]
    exact last
  | error =>
    simp only [run] at middle
    simp only [Bind.bind, EStateM.bind, run]
    exact middle

theorem keeps_get
    (keeps : ∀ state, invariant state → invariant (final (rest state) state)) :
    Keeps invariant (get >>= rest) :=
  keeps

theorem keeps_modify
    (keeps : ∀ state, invariant state → invariant (change state)) :
    Keeps invariant (modify change : EStateM Error State PUnit) :=
  keeps

theorem keeps_attempt : Keeps invariant (attempt read) := by
  intro state holds
  unfold final attempt
  cases read state with
  | ok | error => exact holds

end

end QuickJsOxide.Library
