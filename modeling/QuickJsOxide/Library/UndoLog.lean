import Mathlib.Data.List.Basic

namespace QuickJsOxide.Library

/-! Logs of the values that locations of a memory had before they were
written. -/

variable {Memory : Type u} {Entry : Type v} {Location : Type w}

/-- Writing an entry replaces what its location holds and nothing else. -/
structure Overwrites (restore : Entry → Memory → Memory)
    (location : Entry → Location) : Prop where
  same : ∀ {first second : Entry}, location first = location second →
    ∀ memory, restore first (restore second memory) = restore first memory
  other : ∀ {first second : Entry}, location first ≠ location second →
    ∀ memory, restore first (restore second memory) =
      restore second (restore first memory)

def rollback (restore : Entry → Memory → Memory) (undo : List Entry)
    (memory : Memory) : Memory :=
  undo.foldr restore memory

/-- Keep the entries whose location has none since the checkpoint. -/
def compact [DecidableEq Location] (location : Entry → Location)
    (checkpoint : Nat) : List Entry → List Entry → List Entry
  | kept, [] => kept
  | kept, entry :: rest =>
    if (kept.drop checkpoint).any fun existing =>
        location existing = location entry then
      compact location checkpoint kept rest
    else
      compact location checkpoint (kept ++ [entry]) rest

variable {location : Entry → Location}

theorem rollback_append (older newer : List Entry) (memory : Memory) :
    rollback restore (older ++ newer) memory =
      rollback restore older (rollback restore newer memory) :=
  List.foldr_append

theorem rollback_restore (overwrites : Overwrites restore location)
    (entry : Entry) (undo : List Entry) (memory : Memory) :
    rollback restore undo (restore entry memory) =
        rollback restore undo memory ∨
      (∀ other ∈ undo, location other ≠ location entry) ∧
        rollback restore undo (restore entry memory) =
          restore entry (rollback restore undo memory) := by
  induction undo with
  | nil => exact .inr ⟨by simp, rfl⟩
  | cons first undo ih =>
    change restore first (rollback restore undo (restore entry memory)) =
        restore first (rollback restore undo memory) ∨ _ ∧
      restore first (rollback restore undo (restore entry memory)) =
        restore entry (restore first (rollback restore undo memory))
    rcases ih with undone | ⟨unrecorded, survives⟩
    · exact .inl (congrArg (restore first) undone)
    · rw [survives]
      by_cases same : location first = location entry
      · exact .inl (overwrites.same same _)
      · exact .inr ⟨by simpa using ⟨same, unrecorded⟩,
          overwrites.other same _⟩

theorem rollback_restore_of_mem (overwrites : Overwrites restore location)
    (member : recorded ∈ undo) (same : location recorded = location entry)
    (memory : Memory) : rollback restore undo (restore entry memory) =
      rollback restore undo memory := by
  rcases rollback_restore overwrites entry undo memory with undone | ⟨none, -⟩
  · exact undone
  · exact absurd same (none recorded member)

section

variable [DecidableEq Location]

theorem length_le_compact (kept entries : List Entry) :
    kept.length ≤ (compact location checkpoint kept entries).length := by
  induction entries generalizing kept with
  | nil => exact Nat.le_refl _
  | cons entry _ ih =>
    unfold compact
    split
    · exact ih kept
    · have longer := ih (kept ++ [entry])
      rw [List.length_append] at longer
      exact Nat.le_of_add_right_le longer

theorem rollback_drop_compact (overwrites : Overwrites restore location)
    (order : older ≤ checkpoint) (entries : List Entry) (memory : Memory) :
    ∀ kept : List Entry, checkpoint ≤ kept.length →
      rollback restore ((compact location checkpoint kept entries).drop older)
          memory = rollback restore ((kept ++ entries).drop older) memory := by
  induction entries with
  | nil =>
    intro kept _
    rw [compact, List.append_nil]
  | cons entry rest ih =>
    intro kept long
    unfold compact
    split
    · rename_i found
      obtain ⟨_, member, same⟩ := List.any_eq_true.mp found
      have inside := Nat.le_trans order long
      rw [ih kept long, List.drop_append_of_le_length inside,
        List.drop_append_of_le_length inside, rollback_append, rollback_append]
      refine (rollback_restore_of_mem overwrites ?_
        (of_decide_eq_true same) _).symm
      exact (List.drop_sublist_drop_left kept order).subset member
    · rw [ih (kept ++ [entry]) (by simp; omega), List.append_assoc]
      rfl

end

end QuickJsOxide.Library
