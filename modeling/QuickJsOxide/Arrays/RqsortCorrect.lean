import QuickJsOxide.Arrays.RqsortOrder
import QuickJsOxide.Library.StableSort

namespace QuickJsOxide.Arrays

open Library SortMachine List

/-! Calls of `advance`, without the turns of its loop. -/

/-- Called again and again, with its comparisons answered from the items and
its swaps applied to them, the machine completes. -/
inductive Drives (length : Nat) :
    SortMachine → Option Ordering → (Nat → Nat) → (Nat → Nat) → Prop
  | complete {machine after : SortMachine} {reply : Option Ordering}
      {items : Nat → Nat}
      (advanced : (machine.advance reply).Returns (.ok (after, .complete))) :
      Drives length machine reply items items
  | compare {machine after : SortMachine} {reply : Option Ordering}
      {items final : Nat → Nat} {left right : Nat}
      (advanced : (machine.advance reply).Returns
        (.ok (after, .compare left right)))
      (leftBelow : left < length) (rightBelow : right < length)
      (rest : Drives length after
        (some (Ord.compare (items left) (items right))) items final) :
      Drives length machine reply items final
  | swap {machine after : SortMachine} {reply : Option Ordering}
      {items final : Nat → Nat} {left right : Nat}
      (advanced : (machine.advance reply).Returns
        (.ok (after, .swap left right)))
      (leftBelow : left < length) (rightBelow : right < length)
      (rest : Drives length after none (items ∘ Equiv.swap left right) final) :
      Drives length machine reply items final

variable {length : Nat}

theorem Drives.again {machine after : SortMachine}
    (turned : machine.turn reply = .ok (.again after rest))
    (drives : Drives length after rest items final) :
    Drives length machine reply items final := by
  cases drives with
  | complete advanced =>
    exact .complete (advance_again turned advanced)
  | compare advanced leftBelow rightBelow remaining =>
    exact .compare (advance_again turned advanced) leftBelow
      rightBelow remaining
  | swap advanced leftBelow rightBelow remaining =>
    exact .swap (advance_again turned advanced) leftBelow
      rightBelow remaining

theorem exists_drives (length : Nat) (items : Nat → Nat) :
    ∃ final, SortedOn final 0 length ∧
      Drives length (.new length) none items final := by
  have start : (none : Option Ordering).isSome =
    (new length).phase.awaits := rfl
  have arranged := arranged_new length items
  revert items
  refine (safe_new length).induct (motive := fun self reply => ∀ items,
    Arranged length self reply items → ∃ final, SortedOn final 0 length ∧
      Drives length self reply items final) ?_ ?_ ?_ ?_ start
  · intro self after reply safe turned onward ih items arranged
    obtain ⟨final, sorted, drives⟩ :=
      ih items (arranged.again safe turned onward)
    exact ⟨final, sorted, drives.again turned⟩
  · intro self reply safe turned onward items arranged
    exact ⟨items, arranged.sorted onward, .complete (advance_act turned)⟩
  · intro self after reply left right safe turned onward ih items arranged
    obtain ⟨final, sorted, drives⟩ :=
      ih _ items (arranged.compare safe turned onward)
    obtain ⟨-, -, fits, ⟨-, leftBelow⟩, -, rightBelow⟩ := onward
    exact ⟨final, sorted, .compare (advance_act turned)
      (leftBelow.trans_le fits) (rightBelow.trans_le fits) drives⟩
  · intro self after reply left right safe turned onward ih items arranged
    obtain ⟨final, sorted, drives⟩ :=
      ih _ (arranged.swap safe turned onward)
    obtain ⟨-, -, fits, ⟨-, leftBelow⟩, -, rightBelow⟩ := onward
    exact ⟨final, sorted, .swap (advance_act turned)
      (leftBelow.trans_le fits) (rightBelow.trans_le fits) drives⟩

section

variable {T ε : Type} {values : List T}
  {compare : List T → Nat → Nat → Except ε Ordering}

theorem Drives.rqsort (drives : Drives length machine reply items final)
    (shows : Shows view items values) (isLength : values.length = length)
    (agrees : ∀ {others : List T} {left right leftValue rightValue},
      others.Perm values → others[left]? = some leftValue →
      others[right]? = some rightValue → compare others left right =
        .ok (Ord.compare (view leftValue) (view rightValue))) :
    ∃ sorted : List T, sorted.Perm values ∧ Shows view final sorted ∧
      (Program.loop (rqsortBody compare) (machine, reply, values)).Returns
        (.ok sorted) := by
  induction drives generalizing values with
  | complete advanced =>
    refine ⟨values, .refl _, shows, Program.Returns.break ?_⟩
    exact (advanced.mapError _).bind (Program.returns_pure _)
  | compare advanced leftBelow rightBelow _ ih =>
      rw [← isLength] at leftBelow rightBelow
      have atLeft := getElem?_eq_getElem leftBelow
      have atRight := getElem?_eq_getElem rightBelow
      obtain ⟨sorted, permuted, showsFinal, returns⟩ :=
        ih shows isLength agrees
      refine ⟨sorted, permuted, showsFinal, Program.Returns.again ?_ returns⟩
      have compared := agrees (.refl _) atLeft atRight
      rw [← shows atLeft, ← shows atRight] at compared
      refine (advanced.mapError _).bind
        ((Program.returns_lift_of_eq ?_).bind (Program.returns_pure _))
      rw [compared]
      rfl
  | swap advanced leftBelow rightBelow _ ih =>
      rw [← isLength] at leftBelow rightBelow
      have atLeft := getElem?_eq_getElem leftBelow
      have atRight := getElem?_eq_getElem rightBelow
      have swapped := set_set_perm_of_getElem? atLeft atRight
      obtain ⟨sorted, permuted, showsFinal, returns⟩ :=
        ih (Shows.swap shows atLeft atRight)
          (swapped.length_eq.trans isLength)
          (fun others => agrees (others.trans swapped))
      refine ⟨sorted, permuted.trans swapped, showsFinal,
        Program.Returns.again ?_ returns⟩
      refine (advanced.mapError _).bind
        ((Program.returns_lift_of_eq ?_).bind (Program.returns_pure _))
      simp only [swapAt, atLeft, atRight]
      rfl

theorem quickjsRqsortBy_returns {position : T → Nat}
    (consistent : Consistent order (fun item => item ∈ values.map key))
    (increasing : values.Pairwise fun left right =>
      position left < position right)
    (agrees : ∀ {others : List T} {left right leftValue rightValue},
      others[left]? = some leftValue → others[right]? = some rightValue →
      compare others left right =
        .ok (tieOrder order key position leftValue rightValue)) :
    (quickjsRqsortBy values compare).Returns
      (.ok (stableSort order key values)) := by
  obtain ⟨_, sortedFinal, drives⟩ := exists_drives values.length
    (fun index => (values[index]?.map (rank order key position values)).getD 0)
  have shows : Shows (rank order key position values)
      (fun index => (values[index]?.map
        (rank order key position values)).getD 0) values := by
    intro index value present
    simp only [present, Option.map_some, Option.getD_some]
  obtain ⟨sorted, permuted, showsFinal, returns⟩ :=
    drives.rqsort shows rfl (by
      intro others left right leftValue rightValue permuted atLeft atRight
      rw [compare_rank consistent increasing
        (permuted.subset (mem_of_getElem? atLeft))
        (permuted.subset (mem_of_getElem? atRight))]
      exact agrees atLeft atRight)
  have isSort : sorted = stableSort order key values := by
    apply eq_stableSort consistent increasing permuted
    rw [← permuted.length_eq] at sortedFinal
    exact tieOrder_of_rank_le consistent increasing id
      (fun member mem => permuted.subset mem)
      (Shows.pairwise showsFinal sortedFinal)
  rw [← isSort]
  exact returns

end

end QuickJsOxide.Arrays
