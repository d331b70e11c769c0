import Mathlib.Data.List.Basic
import Mathlib.Logic.Equiv.Basic
import Mathlib.Order.Basic
import Mathlib.Tactic.SplitIfs

namespace QuickJsOxide.Library

open List

/-! Sequences changed in place between two positions. A sequence is a function
of the position; exchanging two positions is composition with their swap. -/

def SortedOn [LE α] (items : Nat → α) (low high : Nat) : Prop :=
  ∀ first second, low ≤ first → first < second → second < high →
    items first ≤ items second

/-- The items are in order, except for pairs that lie in one of the ranges. -/
structure SortedApart [LE α] (length : Nat) (ranges : List (Nat × Nat))
    (items : Nat → α) : Prop where
  disjoint : ranges.Pairwise fun one other =>
    one.1 + one.2 ≤ other.1 ∨ other.1 + other.2 ≤ one.1
  ordered : ∀ first second, first < second → second < length →
    (∀ range ∈ ranges, first < range.1 ∨ range.1 + range.2 ≤ second) →
    items first ≤ items second

namespace SortedApart

variable [LE α] {length count : Nat} {items : Nat → α}

theorem sorted (apart : SortedApart length [] items) :
    SortedOn items 0 length := by
  intro first second _ before below
  exact apart.ordered first second before below (by simp)

section

variable (apart : SortedApart length ((base, count) :: rest) items)

include apart

theorem swap (fits : base + count ≤ length)
    (leftInside : base ≤ left ∧ left < base + count)
    (rightInside : base ≤ right ∧ right < base + count) :
    SortedApart length ((base, count) :: rest)
      (items ∘ Equiv.swap left right) := by
  refine ⟨apart.disjoint, ?_⟩
  intro first second before below outside
  obtain ⟨here, there⟩ := forall_mem_cons.mp outside
  have others := (pairwise_cons.mp apart.disjoint).1
  dsimp only at here others
  simp only [Function.comp_apply, Equiv.swap_apply_def]
  apply apart.ordered
  · split_ifs <;> omega
  · split_ifs <;> omega
  · refine forall_mem_cons.mpr ⟨?_, ?_⟩
    · dsimp only
      split_ifs <;> omega
    · intro range member
      have := there range member
      have := others range member
      split_ifs <;> omega

theorem drop (sorted : SortedOn items base (base + count)) :
    SortedApart length rest items := by
  refine ⟨apart.disjoint.of_cons, ?_⟩
  intro first second before below outside
  by_cases inside : base ≤ first ∧ second < base + count
  · exact sorted first second inside.1 before inside.2
  · refine apart.ordered first second before below
      (forall_mem_cons.mpr ⟨?_, outside⟩)
    dsimp only
    omega

theorem divide (oneInside : base ≤ one.1 ∧ one.1 + one.2 ≤ base + count)
    (otherInside : base ≤ other.1 ∧ other.1 + other.2 ≤ base + count)
    (disjoint : one.1 + one.2 ≤ other.1 ∨ other.1 + other.2 ≤ one.1)
    (ordered : ∀ first second, base ≤ first → first < second →
      second < base + count → (first < one.1 ∨ one.1 + one.2 ≤ second) →
      (first < other.1 ∨ other.1 + other.2 ≤ second) →
      items first ≤ items second) :
    SortedApart length (one :: other :: rest) items := by
  obtain ⟨others, disjointRest⟩ := pairwise_cons.mp apart.disjoint
  dsimp only at others
  refine ⟨?_, ?_⟩
  · simp only [pairwise_cons, forall_mem_cons]
    refine ⟨⟨disjoint, fun range member => ?_⟩, fun range member => ?_,
      disjointRest⟩
    · have := others range member
      omega
    · have := others range member
      omega
  · intro first second before below outside
    obtain ⟨outOne, outside⟩ := forall_mem_cons.mp outside
    obtain ⟨outOther, outside⟩ := forall_mem_cons.mp outside
    by_cases inside : base ≤ first ∧ second < base + count
    · exact ordered first second inside.1 before inside.2 outOne outOther
    · refine apart.ordered first second before below
        (forall_mem_cons.mpr ⟨?_, outside⟩)
      dsimp only
      omega

end

end SortedApart

variable {list : List α}

theorem getElem?_set_eq_some
    (isFound : (list.set index value)[other]? = some found) :
    (index = other ∧ value = found) ∨
      (index ≠ other ∧ list[other]? = some found) := by
  rw [getElem?_set] at isFound
  split_ifs at isFound with same below
  · exact .inl ⟨same, Option.some.inj isFound⟩
  · exact .inr ⟨same, isFound⟩

def Shows (view : α → β) (items : Nat → β) (list : List α) : Prop :=
  ∀ {index value}, list[index]? = some value → items index = view value

variable {view : α → β}

theorem Shows.swap (shows : Shows view items list)
    (atLeft : list[left]? = some leftValue)
    (atRight : list[right]? = some rightValue) :
    Shows view (items ∘ Equiv.swap left right)
      ((list.set left rightValue).set right leftValue) := by
  intro other found isFound
  rw [Function.comp_apply]
  apply shows
  rcases getElem?_set_eq_some isFound with ⟨rfl, rfl⟩ | ⟨notRight, rest⟩
  · rw [Equiv.swap_apply_right]
    exact atLeft
  · rcases getElem?_set_eq_some rest with ⟨rfl, rfl⟩ | ⟨notLeft, unchanged⟩
    · rw [Equiv.swap_apply_left]
      exact atRight
    · rw [Equiv.swap_apply_of_ne_of_ne notLeft.symm notRight.symm]
      exact unchanged

theorem set_set_perm_of_getElem? (atLeft : list[left]? = some leftValue)
    (atRight : list[right]? = some rightValue) :
    ((list.set left rightValue).set right leftValue).Perm list := by
  obtain ⟨leftBelow, rfl⟩ := List.getElem?_eq_some_iff.mp atLeft
  obtain ⟨rightBelow, rfl⟩ := List.getElem?_eq_some_iff.mp atRight
  exact List.set_set_perm leftBelow rightBelow

theorem Shows.pairwise [LE β] (shows : Shows view items list)
    (sorted : SortedOn items 0 list.length) :
    list.Pairwise fun left right => view left ≤ view right := by
  rw [pairwise_iff_getElem]
  intro first second firstBelow secondBelow before
  have ordered := sorted first second (Nat.zero_le _) before secondBelow
  rwa [shows (getElem?_eq_getElem firstBelow),
    shows (getElem?_eq_getElem secondBelow)] at ordered

end QuickJsOxide.Library
