import Mathlib.Data.List.Induction
import Mathlib.Data.List.Nodup
import Mathlib.Data.List.Perm.Basic

namespace QuickJsOxide.Library

open List

/-! Removing an entry of an unordered table by moving the last one into its
place. -/

variable {α : Type u}

def swapRemove (entries : List α) (position : Nat) : List α :=
  match entries.getLast? with
  | none => []
  | some last => (entries.set position last).dropLast

theorem swapRemove_concat (init : List α) (last : α) (position : Nat) :
    swapRemove (init ++ [last]) position =
      ((init ++ [last]).set position last).dropLast := by
  unfold swapRemove
  rw [getLast?_concat]

variable {entries : List α}

theorem swapRemove_perm (within : position < entries.length) :
    (swapRemove entries position).Perm (entries.eraseIdx position) := by
  induction entries using reverseRecOn with
  | nil => exact absurd within (Nat.not_lt_zero _)
  | append_singleton init last =>
    rw [swapRemove_concat]
    rw [length_append, length_singleton] at within
    by_cases atEnd : position = init.length
    · rw [atEnd, set_append_right _ _ (Nat.le_refl _),
        eraseIdx_append_of_length_le (Nat.le_refl _)]
      simp
    · have inside : position < init.length := by omega
      rw [set_append_left _ _ inside, dropLast_concat,
        eraseIdx_append_of_lt_length inside]
      apply (set_perm_cons_eraseIdx inside last).trans
      exact (perm_append_singleton last _).symm

theorem mem_swapRemove [DecidableEq α] (distinct : entries.Nodup)
    (member : value ∈ entries) (other : α) :
    other ∈ swapRemove entries (entries.idxOf value) ↔
      other ≠ value ∧ other ∈ entries := by
  rw [(swapRemove_perm (idxOf_lt_length_of_mem member)).mem_iff,
    eraseIdx_idxOf_eq_erase, distinct.mem_erase_iff]

theorem nodup_swapRemove [DecidableEq α] (distinct : entries.Nodup)
    (member : value ∈ entries) :
    (swapRemove entries (entries.idxOf value)).Nodup := by
  rw [(swapRemove_perm (idxOf_lt_length_of_mem member)).nodup_iff,
    eraseIdx_idxOf_eq_erase]
  exact distinct.erase value

theorem getElem?_swapRemove (within : position < entries.length) (index : Nat) :
    (swapRemove entries position)[index]? =
      if index + 1 < entries.length then
        if index = position then entries[entries.length - 1]?
        else entries[index]?
      else none := by
  induction entries using reverseRecOn with
  | nil => exact absurd within (Nat.not_lt_zero _)
  | append_singleton init last _ =>
    rw [swapRemove_concat, dropLast_eq_take, getElem?_take]
    simp only [length_set, length_append, length_singleton,
      Nat.add_sub_cancel, Nat.add_lt_add_iff_right]
    split
    · rename_i inside
      by_cases same : index = position
      · rw [if_pos same, same, getElem?_set_self (by simp; omega)]
        simp
      · rw [if_neg same, getElem?_set_ne (Ne.symm same)]
    · rfl

theorem length_swapRemove (within : position < entries.length) :
    (swapRemove entries position).length = entries.length - 1 := by
  rw [(swapRemove_perm within).length_eq, length_eraseIdx_of_lt within]

theorem map_swapRemove (f : α → β) (entries : List α) (position : Nat) :
    (swapRemove entries position).map f = swapRemove (entries.map f) position := by
  unfold swapRemove
  rw [getLast?_map]
  cases entries.getLast? with
  | none => rfl
  | some => simp

theorem position_unique {first second : Nat} (distinct : entries.Nodup)
    (here : entries[first]? = some value)
    (there : entries[second]? = some value) : first = second :=
  (List.getElem?_inj (List.getElem?_eq_some_iff.mp here).1 distinct).mp
    (here.trans there.symm)

theorem idxOf?_eq_some_iff [DecidableEq α] (distinct : entries.Nodup) :
    entries.idxOf? value = some index ↔ entries[index]? = some value := by
  unfold List.idxOf?
  rw [List.findIdx?_eq_some_iff_getElem]
  constructor
  · intro found
    obtain ⟨within, same, _⟩ := found
    rw [List.getElem?_eq_getElem within, beq_iff_eq.mp same]
  · intro found
    obtain ⟨within, same⟩ := List.getElem?_eq_some_iff.mp found
    refine ⟨within, beq_iff_eq.mpr same, ?_⟩
    intro earlier before equal
    have inside : earlier < entries.length := by omega
    have there : entries[earlier]? = some value := by
      rw [List.getElem?_eq_getElem inside, beq_iff_eq.mp equal]
    exact Nat.ne_of_lt before (position_unique distinct there found)

theorem idxOf?_swapRemove [DecidableEq α] (distinct : entries.Nodup)
    (found : entries[position]? = some removed) (value : α) :
    (swapRemove entries position).idxOf? value =
      if value = removed then none
      else if entries[entries.length - 1]? = some value then some position
      else entries.idxOf? value := by
  have within := (List.getElem?_eq_some_iff.mp found).1
  have distinctAfter : (swapRemove entries position).Nodup :=
    ((swapRemove_perm within).nodup_iff).mpr
      (distinct.sublist (List.eraseIdx_sublist _ _))
  apply Option.ext
  intro index
  rw [idxOf?_eq_some_iff distinctAfter, getElem?_swapRemove within]
  by_cases gone : value = removed
  · subst gone
    rw [if_pos rfl, iff_false_right (by rintro ⟨⟩)]
    split_ifs with _ here <;> intro there
    · have same := position_unique distinct found there
      omega
    · exact here (position_unique distinct there found)
    · cases there
  · have apart : entries[position]? ≠ some value := by
      rw [found]
      rintro ⟨⟩
      exact gone rfl
    rw [if_neg gone]
    by_cases last : entries[entries.length - 1]? = some value
    · rw [if_pos last, Option.some_inj]
      constructor
      · intro there
        split_ifs at there with _ here
        · exact here.symm
        · have same := position_unique distinct last there
          omega
      · rintro rfl
        have notLast : position ≠ entries.length - 1 :=
          fun same => apart (same ▸ last)
        rw [if_pos (by omega), if_pos rfl]
        exact last
    · rw [if_neg last, idxOf?_eq_some_iff distinct]
      constructor
      · intro there
        split_ifs at there
        · exact absurd there last
        · exact there
      · intro there
        have inside := (List.getElem?_eq_some_iff.mp there).1
        have notLast : index ≠ entries.length - 1 :=
          fun same => last (same ▸ there)
        rw [if_pos (by omega), if_neg fun same : index = position =>
          apart (same ▸ there)]
        exact there

end QuickJsOxide.Library
