import Mathlib.Logic.Basic

namespace QuickJsOxide.Library

/-! Computations that stop at the first failed check. -/

variable {Error : Type u}

def ensure (condition : Prop) [Decidable condition] (error : Error) :
    Except Error Unit :=
  if condition then .ok () else .error error

theorem bind_eq_ok {next : α → Except Error β} : (first >>= next) = .ok result ↔
      ∃ value, first = .ok value ∧ next value = .ok result := by
  cases first with
  | error | ok => simp [Bind.bind, Except.bind]

@[simp] theorem ensure_eq_ok [Decidable condition] :
    ensure condition error = .ok result ↔ condition := by
  unfold ensure
  split
  · simpa
  · simpa

theorem ensure_bind_eq_ok [Decidable condition] :
    (ensure condition error >>= next) = .ok result ↔
      condition ∧ next () = .ok result := by
  rw [bind_eq_ok]
  constructor
  · rintro ⟨value, checked, rest⟩
    exact ⟨ensure_eq_ok.mp checked, rest⟩
  · rintro ⟨holds, rest⟩
    exact ⟨(), ensure_eq_ok.mpr holds, rest⟩

theorem pure_eq_ok :
    (pure value : Except Error β) = .ok result ↔ value = result := by
  simp [Pure.pure, Except.pure]

theorem bind_eq_some : (first >>= next) = some result ↔
      ∃ value, first = some value ∧ next value = some result :=
  Option.bind_eq_some_iff

theorem guard_bind_eq_some [Decidable condition] :
    (guard condition >>= next) = some result ↔
      condition ∧ next () = some result := by
  change ((if condition then pure () else failure) >>= next) = _ ↔ _
  by_cases holds : condition
  · simp [holds]
  · simp [holds, failure]

end QuickJsOxide.Library
