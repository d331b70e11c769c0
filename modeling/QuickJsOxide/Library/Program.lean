import Mathlib.Data.Nat.Basic

namespace QuickJsOxide.Library

/-! Programs whose loops need not end. A program is given a number of turns
and has no answer when they run out; more turns never change an answer. -/

structure Program (ε : Type u) (α : Type v) where
  run : Nat → Option (Except ε α)
  grows : ∀ {turns answer}, run turns = some answer →
    run (turns + 1) = some answer

namespace Program

variable {ε : Type u} {α β : Type v} {σ ρ : Type w}

theorem run_of_le (program : Program ε α) (le : few ≤ many)
    (answered : program.run few = some answer) :
    program.run many = some answer := by
  induction le with
  | refl => exact answered
  | step _ ih => exact program.grows ih

def lift (answer : Except ε α) : Program ε α where
  run _ := some answer
  grows := id

def bind (program : Program ε α) (next : α → Program ε β) : Program ε β where
  run turns :=
    match program.run turns with
    | none => none
    | some (.error error) => some (.error error)
    | some (.ok value) => (next value).run turns
  grows := by
    intro turns answer answered
    cases first : program.run turns with
    | none => simp [first] at answered
    | some result =>
      rw [program.grows first]
      cases result with
      | error error => simpa [first] using answered
      | ok value =>
        apply (next value).grows
        simpa [first] using answered

/-- The same program with its errors seen as errors of another kind. -/
def mapError (program : Program ε α) (embed : ε → ε') : Program ε' α where
  run turns := (program.run turns).map (Except.mapError embed)
  grows := by
    intro turns answer answered
    rw [Option.map_eq_some_iff] at answered ⊢
    obtain ⟨result, run, mapped⟩ := answered
    exact ⟨result, program.grows run, mapped⟩

instance : Monad (Program ε) where
  pure value := lift (.ok value)
  bind := bind

/-- Turns of a loop: the body asks for another turn or breaks. -/
def loopRun (body : σ → Program ε (σ ⊕ ρ)) :
    Nat → σ → Option (Except ε ρ)
  | 0, _ => none
  | turns + 1, state =>
    match (body state).run turns with
    | none => none
    | some (.error error) => some (.error error)
    | some (.ok (.inl after)) => loopRun body turns after
    | some (.ok (.inr result)) => some (.ok result)

theorem loopRun_grows (answered : loopRun body turns state = some answer) :
    loopRun body (turns + 1) state = some answer := by
  induction turns generalizing state with
  | zero => cases answered
  | succ turns ih =>
    rw [loopRun] at answered ⊢
    cases first : (body state).run turns with
    | none => simp [first] at answered
    | some result =>
      rw [(body state).grows first]
      rw [first] at answered
      match result with
      | .error _ => exact answered
      | .ok (.inl _) => exact ih answered
      | .ok (.inr _) => exact answered

def loop (body : σ → Program ε (σ ⊕ ρ)) (state : σ) : Program ε ρ where
  run turns := loopRun body turns state
  grows := loopRun_grows

def Returns (program : Program ε α) (answer : Except ε α) : Prop :=
  ∃ turns, program.run turns = some answer

theorem returns_lift (answer : Except ε α) : Returns (lift answer) answer :=
  ⟨0, rfl⟩

theorem returns_lift_of_eq (same : result = answer) :
    Returns (lift result) answer :=
  ⟨0, congrArg some same⟩

theorem returns_pure (value : α) :
    Returns (pure value : Program ε α) (.ok value) :=
  ⟨0, rfl⟩

variable {program : Program ε α}

theorem Returns.mapError (returns : program.Returns (.ok value))
    (embed : ε → ε') : (program.mapError embed).Returns (.ok value) := by
  obtain ⟨turns, run⟩ := returns
  exact ⟨turns, by simp [Program.mapError, run, Except.mapError]⟩

theorem Returns.bind {answer : Except ε β} (first : program.Returns (.ok value))
    (second : (next value).Returns answer) :
    (program >>= next).Returns answer := by
  obtain ⟨few, first⟩ := first
  obtain ⟨many, second⟩ := second
  refine ⟨max few many, ?_⟩
  have first := program.run_of_le (Nat.le_max_left few many) first
  have second := (next value).run_of_le (Nat.le_max_right few many) second
  change (match program.run (max few many) with
    | none => none
    | some (.error error) => some (.error error)
    | some (.ok value) => (next value).run (max few many)) = some answer
  rw [first]
  exact second

theorem Returns.again (turn : (body state).Returns (.ok (.inl after)))
    (rest : (loop body after).Returns answer) :
    (loop body state).Returns answer := by
  obtain ⟨few, turn⟩ := turn
  obtain ⟨many, rest⟩ := rest
  refine ⟨max few many + 1, ?_⟩
  have turn := (body state).run_of_le (Nat.le_max_left few many) turn
  have rest := (loop body after).run_of_le (Nat.le_max_right few many) rest
  change loopRun body (max few many + 1) state = some answer
  rw [loopRun, turn]
  exact rest

theorem Returns.break (turn : (body state).Returns (.ok (.inr result))) :
    (loop body state).Returns (.ok result) := by
  obtain ⟨turns, turn⟩ := turn
  refine ⟨turns + 1, ?_⟩
  change loopRun body (turns + 1) state = some (.ok result)
  rw [loopRun, turn]

end Program

end QuickJsOxide.Library
