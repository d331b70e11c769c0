import Mathlib.Data.List.Induction
import Mathlib.Data.List.Sort
import Mathlib.Data.List.TakeWhile

namespace QuickJsOxide.Unicode

open List

/-! Sets of code points as lists of half-open ranges, as `case.rs` computes
with them. -/

abbrev HalfOpenRange := Nat × Nat

def saturatingSucc (value : Nat) : Nat :=
  min (value + 1) 0xffffffff

abbrev startsBefore (left right : HalfOpenRange) : Prop :=
  left.1 < right.1 ∨ left.1 = right.1 ∧ left.2 ≤ right.2

/-- One turn of the merging loop: a range that touches the last one extends
it. -/
def mergeRange (normalized : List HalfOpenRange) (range : HalfOpenRange) :
    List HalfOpenRange :=
  match normalized.getLast? with
  | none => normalized ++ [range]
  | some previous =>
    if range.1 ≤ previous.2 then
      normalized.dropLast ++ [(previous.1, max previous.2 range.2)]
    else
      normalized ++ [range]

def normalizeHalfOpenRanges (ranges : List HalfOpenRange) :
    List HalfOpenRange :=
  ((ranges.filter fun range => range.1 < range.2).insertionSort
    startsBefore).foldl mergeRange []

/-- The sweep over two lists. The range that ends first is left behind. -/
def intersectHalfOpenRanges :
    List HalfOpenRange → List HalfOpenRange → List HalfOpenRange
  | [], _ | _, [] => []
  | left :: lefts, right :: rights =>
    let start := max left.1 right.1
    let stop := min left.2 right.2
    (if start < stop then [(start, stop)] else []) ++
      if left.2 ≤ right.2 then
        intersectHalfOpenRanges lefts (right :: rights)
      else
        intersectHalfOpenRanges (left :: lefts) rights
termination_by lefts rights => lefts.length + rights.length

def cutRange (cursor stop : Nat) : List HalfOpenRange → List HalfOpenRange
  | [] => if cursor < stop then [(cursor, stop)] else []
  | excluded :: rest =>
    if excluded.1 < stop then
      (if cursor < excluded.1 then [(cursor, min excluded.1 stop)] else []) ++
        if stop ≤ max cursor excluded.2 then []
        else cutRange (max cursor excluded.2) stop rest
    else
      if cursor < stop then [(cursor, stop)] else []

def subtractHalfOpenRanges :
    List HalfOpenRange → List HalfOpenRange → List HalfOpenRange
  | [], _ => []
  | range :: ranges, excluded =>
    let excluded := excluded.dropWhile fun other => other.2 ≤ range.1
    cutRange range.1 range.2 excluded ++
      subtractHalfOpenRanges ranges excluded

def Covers (ranges : List HalfOpenRange) (codePoint : Nat) : Prop :=
  ∃ range ∈ ranges, range.1 ≤ codePoint ∧ codePoint < range.2

structure Separated (ranges : List HalfOpenRange) : Prop where
  nonempty : ∀ range ∈ ranges, range.1 < range.2
  apart : ranges.Pairwise fun left right => left.2 < right.1

@[simp] theorem covers_nil (codePoint : Nat) : ¬ Covers [] codePoint := by
  simp [Covers]

@[simp] theorem covers_cons (range : HalfOpenRange)
    (ranges : List HalfOpenRange) (codePoint : Nat) :
    Covers (range :: ranges) codePoint ↔
      range.1 ≤ codePoint ∧ codePoint < range.2 ∨ Covers ranges codePoint := by
  simp [Covers]

@[simp] theorem covers_append (left right : List HalfOpenRange)
    (codePoint : Nat) : Covers (left ++ right) codePoint ↔
      Covers left codePoint ∨ Covers right codePoint := by
  simp [Covers, or_and_right, exists_or]

theorem Separated.nil : Separated [] :=
  ⟨by simp, .nil⟩

theorem separated_cons {range : HalfOpenRange} {ranges : List HalfOpenRange} :
    Separated (range :: ranges) ↔ range.1 < range.2 ∧
      (∀ other ∈ ranges, range.2 < other.1) ∧ Separated ranges := by
  grind [Separated, pairwise_cons]

theorem separated_append :
    Separated (left ++ right) ↔ Separated left ∧ Separated right ∧
      ∀ first ∈ left, ∀ second ∈ right, first.2 < second.1 := by
  induction left with
  | nil => simp [Separated.nil]
  | cons _ _ ih =>
    rw [cons_append, separated_cons, separated_cons, ih]
    simp only [forall_mem_append, forall_mem_cons]
    tauto

theorem Separated.lt_of_covers {range : HalfOpenRange}
    {ranges : List HalfOpenRange} (separated : Separated (range :: ranges))
    (codePoint : Nat) (covers : Covers ranges codePoint) :
    range.2 < codePoint := by
  obtain ⟨other, member, start, -⟩ := covers
  have := (separated_cons.mp separated).2.1 other member
  omega

theorem mergeRange_spec {normalized : List HalfOpenRange}
    {range : HalfOpenRange} (separated : Separated normalized)
    (nonempty : range.1 < range.2)
    (later : ∀ other ∈ normalized, other.1 ≤ range.1) :
    Separated (mergeRange normalized range) ∧
      (∀ other ∈ mergeRange normalized range, other.1 ≤ range.1) ∧
      ∀ codePoint, Covers (mergeRange normalized range) codePoint ↔
        Covers normalized codePoint ∨
          range.1 ≤ codePoint ∧ codePoint < range.2 := by
  cases normalized using reverseRecOn with
  | nil => simp [mergeRange, separated_cons, Separated.nil, nonempty]
  | append_singleton _ last =>
    simp only [forall_mem_append, forall_mem_singleton] at later
    obtain ⟨inner, hlast, before⟩ := separated_append.mp separated
    have lastNonempty := hlast.nonempty last (mem_singleton_self _)
    simp only [mergeRange, getLast?_concat, dropLast_concat]
    split
    case isTrue =>
        refine ⟨separated_append.mpr ⟨inner, separated_cons.mpr
          ⟨by grind, by simp, .nil⟩, ?_⟩, ?_, fun codePoint => ?_⟩
        · simpa using fun start stop member =>
            before (start, stop) member last (mem_singleton_self _)
        · simpa only [forall_mem_append, forall_mem_singleton]
        · simp only [covers_append, covers_cons, covers_nil, or_false]
          grind
    case isFalse =>
        refine ⟨separated_append.mpr ⟨separated, separated_cons.mpr
          ⟨nonempty, by simp, .nil⟩, ?_⟩, ?_, fun codePoint => ?_⟩
        · intro first member second inside
          obtain rfl := mem_singleton.mp inside
          rcases mem_append.mp member with inFront | isLast
          · have := before first inFront last (mem_singleton_self _)
            omega
          · rw [mem_singleton.mp isLast]
            omega
        · simpa only [forall_mem_append, forall_mem_singleton,
            le_refl, and_true]
        · simp only [covers_append, covers_cons, covers_nil, or_false]

theorem foldl_mergeRange_spec (rest : List HalfOpenRange) :
    ∀ normalized, Separated normalized → (∀ range ∈ rest, range.1 < range.2) →
      rest.Pairwise (fun left right => left.1 ≤ right.1) →
      (∀ other ∈ normalized, ∀ range ∈ rest, other.1 ≤ range.1) →
      Separated (rest.foldl mergeRange normalized) ∧
        ∀ codePoint, Covers (rest.foldl mergeRange normalized) codePoint ↔
          Covers normalized codePoint ∨ Covers rest codePoint := by
  induction rest with
  | nil => simp +contextual
  | cons range _ ih =>
    intro normalized separated nonempty sorted later
    obtain ⟨first, sorted⟩ := pairwise_cons.mp sorted
    obtain ⟨merged, bounded, covers⟩ := mergeRange_spec separated
      (nonempty range mem_cons_self)
      fun other member => later other member range mem_cons_self
    obtain ⟨result, same⟩ := ih (mergeRange normalized range) merged
      (fun other member => nonempty other (mem_cons_of_mem _ member))
      sorted (fun other member next inside =>
        (bounded other member).trans (first next inside))
    refine ⟨result, fun codePoint => ?_⟩
    rw [foldl_cons, same, covers, covers_cons, or_assoc]

instance : IsTrans HalfOpenRange startsBefore :=
  ⟨fun _ _ _ first second => by grind⟩

instance : Std.Total startsBefore :=
  ⟨fun left right => by grind⟩

theorem normalizeHalfOpenRanges_spec (ranges : List HalfOpenRange) :
    Separated (normalizeHalfOpenRanges ranges) ∧
      ∀ codePoint, Covers (normalizeHalfOpenRanges ranges) codePoint ↔
        Covers ranges codePoint := by
  have perm := perm_insertionSort startsBefore
    (ranges.filter fun range => range.1 < range.2)
  have member : ∀ range, range ∈ (ranges.filter fun range =>
      range.1 < range.2).insertionSort startsBefore ↔
      range ∈ ranges ∧ range.1 < range.2 := by
    intro range
    rw [perm.mem_iff, mem_filter, decide_eq_true_iff]
  have sorted := (pairwise_insertionSort startsBefore
    (ranges.filter fun range => range.1 < range.2)).imp
    (S := fun left right => left.1 ≤ right.1) (by grind)
  obtain ⟨separated, covers⟩ := foldl_mergeRange_spec _ [] .nil
    (fun range inside => ((member range).mp inside).2) sorted (by simp)
  refine ⟨separated, fun codePoint => ?_⟩
  rw [normalizeHalfOpenRanges, covers]
  simp only [Covers, member]
  grind

theorem mem_intersectHalfOpenRanges {range : HalfOpenRange}
    (lefts rights : List HalfOpenRange)
    (member : range ∈ intersectHalfOpenRanges lefts rights) :
    range.1 < range.2 ∧ ∃ left ∈ lefts, ∃ right ∈ rights,
      range = (max left.1 right.1, min left.2 right.2) := by
  fun_induction intersectHalfOpenRanges lefts rights <;> grind

theorem Separated.piece (separated : Separated rest) (start stop : Nat)
    (beyond : ∀ range ∈ rest, stop < range.1) :
    Separated ((if start < stop then [(start, stop)] else []) ++ rest) := by
  split
  case isTrue nonempty =>
      exact separated_cons.mpr ⟨nonempty, beyond, separated⟩
  case isFalse => exact separated

theorem covers_piece (start stop codePoint : Nat) :
    Covers (if start < stop then [(start, stop)] else []) codePoint ↔
      start ≤ codePoint ∧ codePoint < stop := by
  split <;> simp
  omega

theorem intersectHalfOpenRanges_spec {lefts rights : List HalfOpenRange}
    (hlefts : Separated lefts) (hrights : Separated rights) :
    Separated (intersectHalfOpenRanges lefts rights) ∧
      ∀ codePoint, Covers (intersectHalfOpenRanges lefts rights) codePoint ↔
        Covers lefts codePoint ∧ Covers rights codePoint := by
  fun_induction intersectHalfOpenRanges lefts rights with
  | case1 | case2 => simp [Separated.nil]
  | case3 left _ right _ start stop dropLeft dropRight =>
    obtain ⟨-, leftBeyond, leftTail⟩ := separated_cons.mp hlefts
    obtain ⟨-, rightBeyond, rightTail⟩ := separated_cons.mp hrights
    simp only [covers_append, covers_piece]
    by_cases ends : left.2 ≤ right.2
    · obtain ⟨separated, covers⟩ := dropLeft leftTail hrights
      simp only [if_pos ends]
      refine ⟨separated.piece start stop ?_, fun codePoint => ?_⟩
      · intro range member
        obtain ⟨-, other, isLeft, -, -, rfl⟩ :=
          mem_intersectHalfOpenRanges _ _ member
        have := leftBeyond other isLeft
        grind
      · have later := hrights.lt_of_covers codePoint
        rw [covers, covers_cons left, covers_cons right]
        grind
    · obtain ⟨separated, covers⟩ := dropRight hlefts rightTail
      simp only [if_neg ends]
      refine ⟨separated.piece start stop ?_, fun codePoint => ?_⟩
      · intro range member
        obtain ⟨-, -, -, other, isRight, rfl⟩ :=
          mem_intersectHalfOpenRanges _ _ member
        have := rightBeyond other isRight
        grind
      · have later := hlefts.lt_of_covers codePoint
        rw [covers, covers_cons left, covers_cons right]
        grind

theorem cutRange_spec (cursor stop : Nat) {excluded : List HalfOpenRange}
    (separated : Separated excluded) :
    Separated (cutRange cursor stop excluded) ∧
      (∀ range ∈ cutRange cursor stop excluded,
        cursor ≤ range.1 ∧ range.2 ≤ stop) ∧
      ∀ codePoint, Covers (cutRange cursor stop excluded) codePoint ↔
        cursor ≤ codePoint ∧ codePoint < stop ∧ ¬ Covers excluded codePoint := by
  -- the code points from `cursor` on, when nothing is excluded any more
  have last : ∀ cursor, Separated
      (if cursor < stop then [(cursor, stop)] else []) := by
    intro cursor
    simpa using Separated.nil.piece cursor stop (by simp)
  induction excluded generalizing cursor with
  | nil =>
    refine ⟨last cursor, by grind [cutRange], fun codePoint => ?_⟩
    rw [cutRange, covers_piece]
    simp
  | cons range _ ih =>
    obtain ⟨_, _, tail⟩ := separated_cons.mp separated
    have later := separated.lt_of_covers
    by_cases reaches : range.1 < stop
    · by_cases covered : stop ≤ max cursor range.2
      · simp only [cutRange, if_pos reaches, if_pos covered,
          Nat.min_eq_left reaches.le]
        refine ⟨Separated.nil.piece _ _ (by simp), by grind, fun codePoint => ?_⟩
        rw [append_nil, covers_piece, covers_cons]
        grind
      · obtain ⟨rest, within, covers⟩ := ih (max cursor range.2) tail
        simp only [cutRange, if_pos reaches, if_neg covered,
          Nat.min_eq_left reaches.le]
        refine ⟨rest.piece _ _ ?_, by grind, fun codePoint => ?_⟩
        · intro piece member
          have := (within piece member).1
          omega
        · rw [covers_append, covers_piece, covers, covers_cons]
          grind
    · simp only [cutRange, if_neg reaches]
      refine ⟨last cursor, by grind, fun codePoint => ?_⟩
      rw [covers_piece, covers_cons]
      grind

theorem subtractHalfOpenRanges_spec {ranges excluded : List HalfOpenRange}
    (separated : Separated ranges) (hexcluded : Separated excluded) :
    Separated (subtractHalfOpenRanges ranges excluded) ∧
      (∀ piece ∈ subtractHalfOpenRanges ranges excluded,
        ∃ range ∈ ranges, range.1 ≤ piece.1) ∧
      ∀ codePoint, Covers (subtractHalfOpenRanges ranges excluded) codePoint ↔
        Covers ranges codePoint ∧ ¬ Covers excluded codePoint := by
  induction ranges generalizing excluded with
  | nil => simp [subtractHalfOpenRanges, Separated.nil]
  | cons range ranges ih =>
    obtain ⟨_, beyond, tail⟩ := separated_cons.mp separated
    have split := takeWhile_append_dropWhile
      (p := fun other : HalfOpenRange => decide (other.2 ≤ range.1))
      (l := excluded)
    have skipped : ∀ other ∈ excluded.takeWhile
        fun other : HalfOpenRange => decide (other.2 ≤ range.1),
        other.2 ≤ range.1 := by
      intro other member
      simpa using mem_takeWhile_imp member
    rw [subtractHalfOpenRanges]
    generalize excluded.dropWhile _ = rest at split ⊢
    generalize excluded.takeWhile _ = front at split skipped
    subst split
    have hrest := (separated_append.mp hexcluded).2.1
    obtain ⟨pieces, within, covers⟩ := cutRange_spec range.1 range.2 hrest
    obtain ⟨others, starts, same⟩ := ih tail hrest
    -- what was skipped ends before any code point of the ranges to come
    have early : ∀ codePoint, range.1 ≤ codePoint →
        ¬ Covers front codePoint := by
      rintro codePoint above ⟨other, member, -, below⟩
      have := skipped other member
      omega
    refine ⟨separated_append.mpr ⟨pieces, others, ?_⟩, ?_, fun codePoint => ?_⟩
    · intro first member second inside
      obtain ⟨other, isRange, start⟩ := starts second inside
      have := (within first member).2
      have := beyond other isRange
      omega
    · intro piece member
      rcases mem_append.mp member with here | there
      · exact ⟨range, mem_cons_self, (within piece here).1⟩
      · obtain ⟨other, isRange, start⟩ := starts piece there
        exact ⟨other, mem_cons_of_mem _ isRange, start⟩
    · have later := separated.lt_of_covers codePoint
      have := early codePoint
      rw [covers_append, covers, same, covers_cons, covers_append]
      grind

end QuickJsOxide.Unicode
