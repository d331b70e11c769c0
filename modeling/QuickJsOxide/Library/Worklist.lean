import Mathlib.Data.List.Basic

namespace QuickJsOxide.Library

/-! Exploration of a graph with a first-in first-out worklist. A table records
what has been explored; processing an item answers with the items to explore
next and the new table. -/

namespace Worklist

variable {Item : Type u} {Table : Type v} {Error : Type w}

/-- Process items until none is left. The answer is empty when the steps run
out first. -/
def run (process : Table → Item → Except Error (List Item × Table)) :
    Nat → List Item → Table → Except Error (Option Table)
  | _, [], table => .ok (some table)
  | 0, _ :: _, _ => .ok none
  | steps + 1, item :: pending, table =>
    match process table item with
    | .error error => .error error
    | .ok (found, table) => run process steps (pending ++ found) table

variable {process : Table → Item → Except Error (List Item × Table)}

/-- What is known about a table that records items and their successors. -/
structure Records
    (process : Table → Item → Except Error (List Item × Table))
    (valid : Table → Prop) (recorded : Table → Item → Prop)
    (follows : Item → Item → Prop) : Prop where
  keeps : ∀ {table item found after}, valid table →
    process table item = .ok (found, after) → valid after
  grows : ∀ {table item found after other}, valid table →
    process table item = .ok (found, after) →
    recorded table other → recorded after other
  records : ∀ {table item found after}, valid table →
    process table item = .ok (found, after) → recorded after item
  expands : ∀ {table item found after other successor}, valid table →
    process table item = .ok (found, after) → recorded after other →
    ¬ recorded table other → follows other successor → successor ∈ found

/-- A completed exploration recorded every pending item and is closed under
successors. -/
theorem Records.closed (records : Records process valid recorded follows)
    (sound : valid table)
    (closed : ∀ item successor, recorded table item → follows item successor →
      recorded table successor ∨ successor ∈ pending)
    (completed : run process steps pending table = .ok (some last)) :
    valid last ∧
    (∀ item, recorded table item ∨ item ∈ pending → recorded last item) ∧
    ∀ item successor, recorded last item → follows item successor →
      recorded last successor := by
  fun_induction run process steps pending table with
  | case1 =>
    cases completed
    refine ⟨sound, fun item => ?_, fun item successor known next => ?_⟩
    · intro known
      simpa using known
    · simpa using closed item successor known next
  | case2 | case3 => cases completed
  | case4 _ item pending table found after processed ih =>
    have moves : ∀ other, recorded table other ∨ other ∈ item :: pending →
        recorded after other ∨ other ∈ pending ++ found := by
      intro other known
      rcases known with old | waiting
      · exact .inl (records.grows sound processed old)
      · rcases List.mem_cons.mp waiting with rfl | later
        · exact .inl (records.records sound processed)
        · exact .inr (List.mem_append_left found later)
    obtain ⟨valid, covered, complete⟩ :=
      ih (records.keeps sound processed) (by
        intro other successor known next
        by_cases old : recorded table other
        · exact moves successor (closed other successor old next)
        · exact .inr (List.mem_append_right pending
            (records.expands sound processed known old next))) completed
    exact ⟨valid, fun other known => covered other (moves other known),
      complete⟩

/-- The steps suffice when each processed item uses up potential of the table
for the items it adds. -/
theorem run_ne_none (potential : Table → Nat)
    (pays : ∀ {table item found after},
      process table item = .ok (found, after) →
      found.length + potential after ≤ potential table)
    (enough : pending.length + potential table ≤ steps) :
    run process steps pending table ≠ .ok none := by
  fun_induction run process steps pending table with
  | case1 => simp
  | case2 => simp at enough
  | case3 => simp
  | case4 _ _ _ _ _ _ processed ih =>
    apply ih
    have paid := pays processed
    simp only [List.length_append, List.length_cons] at enough ⊢
    omega

end Worklist

end QuickJsOxide.Library
