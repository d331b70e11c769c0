import Mathlib.Data.List.Count
import Mathlib.Data.List.Sort

namespace QuickJsOxide.Library

open List

/-! Stable sorting. Entries have a key, by which they are sorted, and a
position that settles ties. -/

structure Consistent (order : α → α → Ordering) (present : α → Prop) :
    Prop where
  swap : ∀ {left right}, present left → present right →
    order right left = (order left right).swap
  trans : ∀ {left middle right}, present left → present middle →
    present right → order left middle ≠ .gt → order middle right ≠ .gt →
    order left right ≠ .gt

section

variable {α : Type u} {present : α → Prop}

theorem Consistent.of_transCmp (order : α → α → Ordering) [Std.TransCmp order]
    (present : α → Prop) : Consistent order present where
  swap := fun _ _ => Std.OrientedCmp.eq_swap
  trans := by
    intro left middle right _ _ _
    simp only [ne_eq, ← Ordering.isLE_iff_ne_gt]
    exact Std.TransCmp.isLE_trans

theorem Consistent.transCmp (consistent : Consistent order present) :
    Std.TransCmp fun left right : { item // present item } =>
      order left right where
  eq_swap := fun {left right} => consistent.swap right.2 left.2
  isLE_trans := by
    intro left middle right
    simp only [Ordering.isLE_iff_ne_gt]
    exact consistent.trans left.2 middle.2 right.2

end

section

variable (order : α → α → Ordering) (key : β → α) (position : β → Nat)

def tieOrder (left right : β) : Ordering :=
  (order (key left) (key right)).then
    (compare (position left) (position right))

def stableSort (entries : List β) : List β :=
  entries.mergeSort fun left right =>
    order (key left) (key right) != .gt

end

def rank (order : α → α → Ordering) (key : β → α) (position : β → Nat)
    (entries : List β) (entry : β) : Nat :=
  entries.countP fun other => tieOrder order key position other entry == .lt

variable {α : Type u} {β : Type v} {order : α → α → Ordering} {key : β → α}
  {position : β → Nat} {entries : List β}

theorem countP_lt_countP (implied : ∀ entry ∈ entries, holds entry → more entry)
    (mem : extra ∈ entries) (isMore : more extra) (notHolds : ¬ holds extra) :
    entries.countP holds < entries.countP more := by
  have inside : (entries.filter more).countP holds = entries.countP holds := by
    rw [countP_filter]
    apply countP_congr
    intro entry present
    simpa using implied entry present
  rw [← inside, countP_eq_length_filter (p := more)]
  apply countP_lt_length_iff.mpr
  exact ⟨extra, mem_filter.mpr ⟨mem, isMore⟩, by simpa using notHolds⟩

variable (consistent : Consistent order (fun item => item ∈ entries.map key))

include consistent

theorem transCmp_key : Std.TransCmp fun left right :
    { entry // entry ∈ entries } => order (key left) (key right) :=
  have := consistent.transCmp
  inferInstanceAs (Std.TransCmp (Ordering.byKey (fun entry :
    { entry // entry ∈ entries } =>
      (⟨key entry, mem_map_of_mem entry.2⟩ : { item // item ∈ entries.map key }))
    fun left right => order left right))

theorem transCmp_tieOrder (position : β → Nat) : Std.TransCmp fun left right :
    { entry // entry ∈ entries } => tieOrder order key position left right :=
  have := transCmp_key consistent
  inferInstanceAs (Std.TransCmp (compareLex (fun left right :
    { entry // entry ∈ entries } => order (key left) (key right))
    (compareOn fun entry => position entry)))

variable (increasing : entries.Pairwise fun left right =>
    position left < position right)

include increasing

omit consistent in
theorem eq_of_tieOrder_eq (leftMem : left ∈ entries) (rightMem : right ∈ entries)
    (tied : tieOrder order key position left right = .eq) : left = right := by
  rw [tieOrder, Ordering.then_eq_eq, Nat.compare_eq_eq] at tied
  have distinct : (entries.map position).Nodup :=
    pairwise_map.mpr (increasing.imp Nat.ne_of_lt)
  exact inj_on_of_nodup_map distinct leftMem rightMem tied.2

theorem compare_rank (leftMem : left ∈ entries) (rightMem : right ∈ entries) :
    compare (rank order key position entries left)
        (rank order key position entries right) =
      tieOrder order key position left right := by
  have ordered := transCmp_tieOrder consistent position
  have strict : ∀ {left right}, left ∈ entries → right ∈ entries →
      tieOrder order key position left right = .lt →
      rank order key position entries left <
        rank order key position entries right := by
    intro left right leftMem rightMem less
    apply countP_lt_countP _ leftMem
    · simpa using less
    · have swapped := ordered.eq_swap (a := ⟨left, leftMem⟩)
        (b := ⟨left, leftMem⟩)
      cases same : tieOrder order key position left left <;> simp_all
    · intro other mem before
      rw [beq_iff_eq] at before ⊢
      exact ordered.lt_trans (a := ⟨other, mem⟩) (b := ⟨left, leftMem⟩)
        (c := ⟨right, rightMem⟩) before less
  cases tied : tieOrder order key position left right with
  | lt => exact Nat.compare_eq_lt.mpr (strict leftMem rightMem tied)
  | gt =>
    apply Nat.compare_eq_gt.mpr
    apply strict rightMem leftMem
    rw [ordered.eq_swap (a := ⟨right, rightMem⟩) (b := ⟨left, leftMem⟩), tied]
    rfl
  | eq =>
    rw [eq_of_tieOrder_eq increasing leftMem rightMem tied]
    exact Nat.compare_eq_eq.mpr rfl

theorem tieOrder_of_rank_le (view : γ → β) {list : List γ}
    (members : ∀ member ∈ list, view member ∈ entries)
    (sorted : list.Pairwise fun left right =>
      rank order key position entries (view left) ≤
        rank order key position entries (view right)) :
    list.Pairwise fun left right =>
      tieOrder order key position (view left) (view right) ≠ .gt := by
  refine sorted.imp_of_mem ?_
  intro left right leftMem rightMem ordered
  rw [← compare_rank consistent increasing (members left leftMem)
    (members right rightMem)]
  intro greater
  exact absurd ordered (Nat.not_le.mpr (Nat.compare_eq_gt.mp greater))

theorem tieOrder_stableSort : (stableSort order key entries).Pairwise
    fun left right => tieOrder order key position left right ≠ .gt := by
  -- The order is only consistent on the entries, so they are sorted as
  -- members of the list, numbered as the sort is stable.
  have ordered := transCmp_key consistent
  let le : { entry // entry ∈ entries } → { entry // entry ∈ entries } → Bool :=
    fun left right => order (key left) (key right) != .gt
  have trans : ∀ left middle right, le left middle → le middle right →
      le left right := by
    intro left middle right
    simp only [le, bne_iff_ne, ne_eq, ← Ordering.isLE_iff_ne_gt]
    exact ordered.isLE_trans
  have total : ∀ left right, le left right || le right left := by
    intro left right
    simp only [le, ordered.eq_swap (a := left) (b := right)]
    cases order (key right) (key left) <;> decide
  have isMap : ((entries.attach.zipIdx.mergeSort (zipIdxLE le)).map
      Prod.fst).map Subtype.val = stableSort order key entries := by
    rw [mergeSort_zipIdx, map_mergeSort (r := le) (f := Subtype.val)
      (s := fun left right => order (key left) (key right) != .gt)
      (fun _ _ _ _ => rfl), attach_map_subtype_val]
    rfl
  rw [← isMap, map_map, pairwise_map]
  refine (pairwise_mergeSort (zipIdxLE_trans trans) (zipIdxLE_total total)
    _).imp_of_mem ?_
  rintro ⟨left, first⟩ ⟨right, second⟩ leftMem rightMem sorted tied
  dsimp only [Function.comp_apply] at tied
  rw [tieOrder, Ordering.then_eq_gt, Nat.compare_eq_gt] at tied
  rcases tied with greater | ⟨equal, later⟩
  · simp [zipIdxLE, le, greater] at sorted
  · have back := ordered.eq_swap (a := right) (b := left)
    have before : first ≤ second := by
      simpa [zipIdxLE, le, equal, back] using sorted
    have attached : entries.attach.Pairwise fun left right =>
        position left.val < position right.val := by
      rwa [← attach_map_subtype_val entries, pairwise_map] at increasing
    rw [mem_mergeSort, mem_zipIdx_iff_getElem?] at leftMem rightMem
    dsimp only at leftMem rightMem
    obtain ⟨leftBelow, rfl⟩ := List.getElem?_eq_some_iff.mp leftMem
    obtain ⟨rightBelow, rfl⟩ := List.getElem?_eq_some_iff.mp rightMem
    rcases Nat.lt_or_eq_of_le before with less | rfl
    · exact Nat.lt_asymm later (pairwise_iff_getElem.mp attached first second
        leftBelow rightBelow less)
    · exact Nat.lt_irrefl _ later

theorem eq_stableSort {after : List β} (permuted : after.Perm entries)
    (sorted : after.Pairwise fun left right =>
      tieOrder order key position left right ≠ .gt) :
    after = stableSort order key entries := by
  have sortPerm : (stableSort order key entries).Perm entries :=
    mergeSort_perm _ _
  refine Perm.eq_of_pairwise ?_ sorted
    (tieOrder_stableSort consistent increasing) (permuted.trans sortPerm.symm)
  intro left right leftMem rightMem forth back
  have leftMem := permuted.subset leftMem
  have rightMem := sortPerm.subset rightMem
  apply eq_of_tieOrder_eq increasing leftMem rightMem
  rw [ne_eq, ← Ordering.isLE_iff_ne_gt] at forth back
  exact (transCmp_tieOrder consistent position).isLE_antisymm
    (a := ⟨left, leftMem⟩) (b := ⟨right, rightMem⟩) forth back

end QuickJsOxide.Library
