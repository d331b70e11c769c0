import Mathlib.Data.List.Basic

namespace QuickJsOxide.Library

open List

/-! Searching lists whose first elements are those before a point. -/

variable {α : Type u}

def partitionLoop (entries : List α) (before : α → Bool) :
    Nat → Nat → Nat → Nat
  | 0, low, _ => low
  | steps + 1, low, high =>
    if low < high then
      match entries[(low + high) / 2]? with
      | none => low
      | some entry =>
        if before entry then
          partitionLoop entries before steps ((low + high) / 2 + 1) high
        else partitionLoop entries before steps low ((low + high) / 2)
    else low

def partitionPoint (entries : List α) (before : α → Bool) : Nat :=
  partitionLoop entries before entries.length 0 entries.length

theorem partitionLoop_le (entries : List α) (before : α → Bool) (steps : Nat)
    (order : low ≤ high) :
    partitionLoop entries before steps low high ≤ high := by
  fun_induction partitionLoop with
  | case1 | case2 | case5 => exact order
  | case3 _ _ _ _ _ _ _ ih => exact ih (by omega)
  | case4 _ _ _ _ _ _ _ ih => exact Nat.le_trans (ih (by omega)) (by omega)

def Partitioned (entries : List α) (before : α → Bool) : Prop :=
  entries.Pairwise fun first second => before second → before first

variable {entries : List α} {before : α → Bool}

section

variable (partitioned : Partitioned entries before)

include partitioned

theorem Partitioned.of_le {position later : Nat} (order : position ≤ later)
    (here : entries[position]? = some first)
    (there : entries[later]? = some second) (holds : before second) :
    before first := by
  obtain ⟨inside, rfl⟩ := List.getElem?_eq_some_iff.mp here
  obtain ⟨insideToo, rfl⟩ := List.getElem?_eq_some_iff.mp there
  rcases Nat.eq_or_lt_of_le order with same | smaller
  · subst same
    exact holds
  · exact List.pairwise_iff_getElem.mp partitioned position later inside
      insideToo smaller holds

theorem partitionLoop_spec {steps low high : Nat} (enough : high - low ≤ steps)
    (order : low ≤ high) (bounded : high ≤ entries.length)
    (under : ∀ position entry, entries[position]? = some entry →
      position < low → before entry)
    (above : ∀ position entry, entries[position]? = some entry →
      high ≤ position → ¬ before entry)
    (here : entries[position]? = some entry) :
    before entry ↔ position < partitionLoop entries before steps low high := by
  fun_induction partitionLoop with
  | case1 | case5 =>
    refine ⟨fun holds => Nat.lt_of_not_le fun reached => ?_,
      under position entry here⟩
    exact above position entry here (by omega) holds
  | case2 _ _ _ _ outside =>
    rw [getElem?_eq_none_iff] at outside
    omega
  | case3 _ _ _ _ _ middle holds ih =>
    apply ih (by omega) (by omega) bounded _ above
    intro earlier other there less
    exact partitioned.of_le (Nat.le_of_lt_succ less) there middle holds
  | case4 _ _ _ _ _ middle fails ih =>
    apply ih (by omega) (by omega) (by omega) under
    intro later other there less holds
    exact fails (partitioned.of_le less middle there holds)

theorem before_iff_lt_partitionPoint (here : entries[position]? = some entry) :
    before entry ↔ position < partitionPoint entries before := by
  apply partitionLoop_spec partitioned (Nat.sub_le _ _) (Nat.zero_le _)
    (Nat.le_refl _) _ _ here
  · intro position _ _ less
    exact absurd less (Nat.not_lt_zero _)
  · intro position other there beyond
    rw [getElem?_eq_none beyond] at there
    cases there

theorem find?_drop_partitionPoint (wanted : α → Bool) :
    (entries.drop (partitionPoint entries before)).find? wanted =
      entries.find? fun entry => !before entry && wanted entry := by
  have early : (entries.take (partitionPoint entries before)).find?
      (fun entry => !before entry && wanted entry) = none := by
    apply find?_eq_none.mpr
    intro entry member
    obtain ⟨position, here⟩ := mem_iff_getElem?.mp member
    rw [getElem?_take] at here
    split at here
    · rename_i less
      simp [(before_iff_lt_partitionPoint partitioned here).mpr less]
    · cases here
  have late : (entries.drop (partitionPoint entries before)).find? wanted =
      (entries.drop (partitionPoint entries before)).find?
        fun entry => !before entry && wanted entry := by
    rw [← head?_filter, ← head?_filter]
    apply congrArg head?
    apply filter_congr
    intro entry member
    obtain ⟨_, here⟩ := mem_iff_getElem?.mp member
    rw [getElem?_drop] at here
    have fails : before entry = false := by
      apply Bool.eq_false_iff.mpr
      intro holds
      have less := (before_iff_lt_partitionPoint partitioned here).mp holds
      omega
    rw [fails]
    rfl
  conv => rhs; rw [← take_append_drop (partitionPoint entries before) entries]
  rw [late, find?_append, early]
  rfl

end

def binarySearchByKey (entries : List α) (keyOf : α → Nat) (key : Nat) :
    Option Nat :=
  let point := partitionPoint entries fun entry => keyOf entry < key
  match entries[point]? with
  | none => none
  | some entry => if keyOf entry = key then some point else none

theorem partitioned_lt (ordered : (entries.map keyOf).Pairwise (· < ·))
    (key : Nat) : Partitioned entries fun entry => keyOf entry < key := by
  apply (pairwise_map.mp ordered).imp
  intro first second smaller holds
  rw [decide_eq_true_iff] at *
  omega

theorem binarySearchByKey_eq_some_iff
    (ordered : (entries.map keyOf).Pairwise (· < ·)) :
    binarySearchByKey entries keyOf key = some position ↔
      ∃ entry, entries[position]? = some entry ∧ keyOf entry = key := by
  have partitioned := partitioned_lt ordered key
  unfold binarySearchByKey
  dsimp only
  constructor
  · intro found
    split at found
    · cases found
    · rename_i entry here
      split at found
      · rename_i same
        cases found
        exact ⟨entry, here, same⟩
      · cases found
  · intro found
    obtain ⟨entry, here, rfl⟩ := found
    -- the point is neither behind the element nor in front of it
    have point : partitionPoint entries
        (fun other => keyOf other < keyOf entry) = position := by
      apply Nat.le_antisymm
      · apply Nat.le_of_not_lt
        intro beyond
        have holds := (before_iff_lt_partitionPoint partitioned here).mpr beyond
        simp at holds
      · apply Nat.le_of_not_lt
        intro early
        obtain ⟨inside, _⟩ := List.getElem?_eq_some_iff.mp here
        have sooner := Nat.lt_trans early inside
        have between := List.getElem?_eq_getElem sooner
        have smaller := List.pairwise_iff_getElem.mp
          (List.pairwise_map.mp ordered) _ _ sooner inside early
        obtain ⟨_, same⟩ := List.getElem?_eq_some_iff.mp here
        rw [same] at smaller
        have holds := (before_iff_lt_partitionPoint partitioned between).mp
          (decide_eq_true smaller)
        exact Nat.lt_irrefl _ holds
    rw [point, here]
    exact if_pos rfl

end QuickJsOxide.Library
