import QuickJsOxide.Library.BinarySearch
import QuickJsOxide.Unicode.Ranges

namespace QuickJsOxide.RegExp

open Library Unicode List

/-! Character classes as lists of inclusive ranges, as the compiler of regular
expressions computes with them and the executor searches them. -/

structure CharacterRange where
  start : Nat
  stop : Nat
deriving Repr, DecidableEq

def maxCodePoint : Nat := 0x10ffff

abbrev CharacterRange.before (left right : CharacterRange) : Prop :=
  left.start < right.start ∨ left.start = right.start ∧ left.stop ≤ right.stop

/-- One turn of the loop of `normalize_ranges`. -/
def mergeCharacterRange (normalized : List CharacterRange)
    (range : CharacterRange) : List CharacterRange :=
  match normalized.getLast? with
  | none => normalized ++ [range]
  | some previous =>
    if range.start ≤ saturatingSucc previous.stop then
      normalized.dropLast ++
        [{ previous with stop := max previous.stop range.stop }]
    else
      normalized ++ [range]

def normalizeRanges (ranges : List CharacterRange) : List CharacterRange :=
  (ranges.insertionSort CharacterRange.before).foldl mergeCharacterRange []

/-- The loop of `complement_ranges` from `start` on. -/
def complementFrom (limit start : Nat) :
    List CharacterRange → List CharacterRange
  | [] => if start ≤ limit then [⟨start, limit⟩] else []
  | range :: rest =>
    (if start < range.start then [⟨start, range.start - 1⟩] else []) ++
      if limit ≤ range.stop then []
      else complementFrom limit (range.stop + 1) rest

def complementRanges (ranges : List CharacterRange) (limit : Nat) :
    List CharacterRange :=
  complementFrom limit 0 (normalizeRanges ranges)

/-- The loop of `intersect_ranges` over what is left of both lists. -/
def intersectFrom :
    List CharacterRange → List CharacterRange → List CharacterRange
  | [], _ | _, [] => []
  | left :: lefts, right :: rights =>
    let start := max left.start right.start
    let stop := min left.stop right.stop
    (if start ≤ stop then [⟨start, stop⟩] else []) ++
      if left.stop < right.stop then intersectFrom lefts (right :: rights)
      else intersectFrom (left :: lefts) rights
termination_by lefts rights => lefts.length + rights.length

def intersectRanges (left right : List CharacterRange) : List CharacterRange :=
  intersectFrom (normalizeRanges left) (normalizeRanges right)

/-- What the loops of `subtract_ranges` leave of one range, from `start` on. -/
def cutCharacterRange (start stop : Nat) :
    List CharacterRange → List CharacterRange
  | [] => if start ≤ stop then [⟨start, stop⟩] else []
  | removed :: rest =>
    if removed.start ≤ stop then
      (if start < removed.start then [⟨start, removed.start - 1⟩] else []) ++
        if stop ≤ removed.stop then
          if saturatingSucc stop ≤ stop then [⟨saturatingSucc stop, stop⟩]
          else []
        else
          cutCharacterRange (max start (saturatingSucc removed.stop)) stop rest
    else
      if start ≤ stop then [⟨start, stop⟩] else []

/-- The outer loop of `subtract_ranges`. -/
def subtractFrom :
    List CharacterRange → List CharacterRange → List CharacterRange
  | [], _ => []
  | left :: lefts, rights =>
    let rights := rights.dropWhile fun right => right.stop < left.start
    cutCharacterRange left.start left.stop rights ++ subtractFrom lefts rights

def subtractRanges (left right : List CharacterRange) : List CharacterRange :=
  subtractFrom (normalizeRanges left) (normalizeRanges right)

def rangeContains (ranges : List CharacterRange) (character : Nat) : Bool :=
  match partitionPoint ranges fun range => range.start ≤ character with
  | 0 => false
  | index + 1 => ranges[index]?.any fun range => character ≤ range.stop

def CharacterRange.Valid (range : CharacterRange) : Prop :=
  range.start ≤ range.stop ∧ range.stop ≤ maxCodePoint

def Contains (ranges : List CharacterRange) (character : Nat) : Prop :=
  ∃ range ∈ ranges, range.start ≤ character ∧ character ≤ range.stop

/-- Sorted, disjoint and without adjacent ranges. -/
structure Normal (ranges : List CharacterRange) : Prop where
  valid : ∀ range ∈ ranges, range.Valid
  apart : ranges.Pairwise fun left right => left.stop + 1 < right.start

structure RangeAlgebra (left right : List CharacterRange) : Prop where
  normalize : Normal (normalizeRanges left) ∧
    ∀ character, Contains (normalizeRanges left) character ↔
      Contains left character
  complement : Normal (complementRanges left maxCodePoint) ∧
    ∀ character, Contains (complementRanges left maxCodePoint) character ↔
      character ≤ maxCodePoint ∧ ¬ Contains left character
  intersect : Normal (intersectRanges left right) ∧
    ∀ character, Contains (intersectRanges left right) character ↔
      Contains left character ∧ Contains right character
  subtract : Normal (subtractRanges left right) ∧
    ∀ character, Contains (subtractRanges left right) character ↔
      Contains left character ∧ ¬ Contains right character
  contains : Normal left → ∀ character,
    rangeContains left character = true ↔ Contains left character

def CharacterRange.halfOpen (range : CharacterRange) : HalfOpenRange :=
  (range.start, range.stop + 1)

theorem contains_iff_covers (ranges : List CharacterRange) (character : Nat) :
    Contains ranges character ↔
      Covers (ranges.map CharacterRange.halfOpen) character := by
  simp only [Contains, Covers, CharacterRange.halfOpen, Nat.lt_succ_iff,
    mem_map, exists_exists_and_eq_and]

variable {ranges left right : List CharacterRange}

/-- Each range contains its last character, so that a bound on the characters
is one on the ranges. -/
theorem normal_of_separated {denoted : Nat → Prop}
    (separated : Separated (ranges.map CharacterRange.halfOpen))
    (covers : ∀ character,
      Covers (ranges.map CharacterRange.halfOpen) character ↔ denoted character)
    (bounded : ∀ character, denoted character → character ≤ maxCodePoint) :
    Normal ranges ∧
      ∀ character, Contains ranges character ↔ denoted character := by
  have same : ∀ character, Contains ranges character ↔ denoted character :=
    fun character => (contains_iff_covers ranges character).trans
      (covers character)
  refine ⟨⟨fun range member => ?_, pairwise_map.mp separated.apart⟩, same⟩
  have order : range.start ≤ range.stop := Nat.lt_succ_iff.mp
    (separated.nonempty _ (mem_map_of_mem member))
  exact ⟨order, bounded range.stop
    ((same range.stop).mp ⟨range, member, order, le_rfl⟩)⟩

theorem mergeCharacterRange_halfOpen {range : CharacterRange}
    (valid : ∀ range ∈ ranges, range.stop ≤ maxCodePoint) :
    (mergeCharacterRange ranges range).map CharacterRange.halfOpen =
      mergeRange (ranges.map CharacterRange.halfOpen) range.halfOpen := by
  cases ranges using reverseRecOn with
  | nil => rfl
  | append_singleton _ last =>
    have bound := valid last (by simp)
    have succ : saturatingSucc last.stop = last.stop + 1 := by
      unfold saturatingSucc maxCodePoint at *
      omega
    simp only [mergeCharacterRange, mergeRange, map_append, map_cons,
      map_nil, getLast?_concat, dropLast_concat, succ,
      CharacterRange.halfOpen]
    split <;> simp [CharacterRange.halfOpen]

theorem foldl_mergeCharacterRange_halfOpen (rest : List CharacterRange) :
    ∀ normalized : List CharacterRange,
      (∀ range ∈ normalized, range.stop ≤ maxCodePoint) →
      (∀ range ∈ rest, range.stop ≤ maxCodePoint) →
      (rest.foldl mergeCharacterRange normalized).map CharacterRange.halfOpen =
        (rest.map CharacterRange.halfOpen).foldl mergeRange
          (normalized.map CharacterRange.halfOpen) := by
  induction rest with
  | nil =>
    intro normalized _ _
    rfl
  | cons range _ ih =>
    intro normalized valid bounded
    rw [foldl_cons, map_cons, foldl_cons,
      ← mergeCharacterRange_halfOpen valid]
    apply ih _ _ fun other member => bounded other (mem_cons_of_mem _ member)
    have bound := bounded range mem_cons_self
    unfold mergeCharacterRange
    intro other member
    cases normalized using reverseRecOn with
    | nil => grind
    | append_singleton _ last =>
      have := valid last (by simp)
      have := fun inside => valid other (mem_append_left [last] inside)
      simp only [getLast?_concat, dropLast_concat] at member
      grind

section

variable (valid : ∀ range ∈ ranges, range.Valid)

include valid

theorem normalizeRanges_halfOpen :
    (normalizeRanges ranges).map CharacterRange.halfOpen =
      normalizeHalfOpenRanges (ranges.map CharacterRange.halfOpen) := by
  have perm := perm_insertionSort CharacterRange.before ranges
  have same := foldl_mergeCharacterRange_halfOpen
    (ranges.insertionSort CharacterRange.before) [] (by simp)
    fun range member => (valid range (perm.mem_iff.mp member)).2
  have kept : (ranges.map CharacterRange.halfOpen).filter
      (fun range => range.1 < range.2) = ranges.map CharacterRange.halfOpen := by
    rw [filter_eq_self]
    simpa [CharacterRange.halfOpen, Nat.lt_succ_iff] using
      fun range member => (valid range member).1
  have sorted : (ranges.insertionSort CharacterRange.before).map
      CharacterRange.halfOpen =
        (ranges.map CharacterRange.halfOpen).insertionSort startsBefore := by
    apply map_insertionSort
    intro first _ second _
    simp [CharacterRange.before, startsBefore, CharacterRange.halfOpen]
  rw [normalizeHalfOpenRanges, kept, normalizeRanges, same, sorted]
  rfl

theorem le_of_contains (inside : Contains ranges character) :
    character ≤ maxCodePoint := by
  obtain ⟨range, member, -, stop⟩ := inside
  exact stop.trans (valid range member).2

theorem normalizeRanges_spec : Normal (normalizeRanges ranges) ∧
      ∀ character, Contains (normalizeRanges ranges) character ↔
        Contains ranges character := by
  obtain ⟨separated, covers⟩ :=
    normalizeHalfOpenRanges_spec (ranges.map CharacterRange.halfOpen)
  rw [← normalizeRanges_halfOpen valid] at separated covers
  refine normal_of_separated separated (fun character => ?_)
    fun character => le_of_contains valid
  rw [covers, contains_iff_covers]

end

theorem Normal.separated (normal : Normal ranges) :
    Separated (ranges.map CharacterRange.halfOpen) := by
  refine ⟨?_, pairwise_map.mpr normal.apart⟩
  simpa [CharacterRange.halfOpen, Nat.lt_succ_iff] using
    fun range member => (normal.valid range member).1

theorem complementFrom_halfOpen (limit start : Nat)
    (sorted : ranges.Pairwise fun left right => left.stop + 1 < right.start)
    (inside : ∀ range ∈ ranges, start ≤ range.start ∧
      range.start ≤ range.stop ∧ range.start ≤ limit) :
    (complementFrom limit start ranges).map CharacterRange.halfOpen =
      cutRange start (limit + 1) (ranges.map CharacterRange.halfOpen) := by
  induction ranges generalizing start with
  | nil =>
    simp only [complementFrom, cutRange, map_nil, Nat.lt_succ_iff]
    split <;> rfl
  | cons range rest ih =>
    obtain ⟨_, _, bound⟩ := inside range mem_cons_self
    obtain ⟨apart, sorted⟩ := pairwise_cons.mp sorted
    have rest := ih (range.stop + 1) sorted fun other member => by
      have := apart other member
      have := inside other (mem_cons_of_mem _ member)
      omega
    have cursor : max start (range.stop + 1) = range.stop + 1 := by omega
    simp only [complementFrom, cutRange, map_cons, map_append,
      CharacterRange.halfOpen, Nat.lt_succ_iff, bound, cursor,
      Nat.add_le_add_iff_right, if_true]
    congr 1
    · split
      · simp [CharacterRange.halfOpen]
        omega
      · rfl
    · split
      · rfl
      · exact rest

theorem piece_halfOpen (start stop : Nat) :
    (if start ≤ stop then [CharacterRange.mk start stop] else []).map
        CharacterRange.halfOpen =
      if start < stop + 1 then [(start, stop + 1)] else [] := by
  simp only [Nat.lt_succ_iff]
  split <;> rfl

/-- Of two ranges with the same end the sweeps leave different ones behind, so
that the lists change places. -/
theorem intersectFrom_halfOpen (lefts rights : List CharacterRange) :
    (intersectFrom lefts rights).map CharacterRange.halfOpen =
      intersectHalfOpenRanges (rights.map CharacterRange.halfOpen)
        (lefts.map CharacterRange.halfOpen) := by
  fun_induction intersectFrom lefts rights with
  | case1 rights => cases rights <;> simp [intersectHalfOpenRanges]
  | case2 => simp [intersectHalfOpenRanges]
  | case3 left lefts right rights start stop ihLeft ihRight =>
    have ends : min (right.stop + 1) (left.stop + 1) = stop + 1 := by omega
    have starts : max right.start left.start = start := by omega
    rw [map_cons] at ihLeft ihRight
    simp only [map_append, piece_halfOpen, map_cons,
      intersectHalfOpenRanges, CharacterRange.halfOpen, starts, ends]
    congr 1
    split
    · rename_i shorter
      rw [if_neg (by omega)]
      exact ihLeft
    · rename_i longer
      rw [if_pos (by omega)]
      exact ihRight

theorem cutCharacterRange_halfOpen (order : start ≤ stop)
    (bound : stop ≤ maxCodePoint) :
    (cutCharacterRange start stop ranges).map CharacterRange.halfOpen =
      cutRange start (stop + 1) (ranges.map CharacterRange.halfOpen) := by
  have succ : ∀ value ≤ maxCodePoint, saturatingSucc value = value + 1 := by
    unfold saturatingSucc maxCodePoint
    omega
  induction ranges generalizing start with
  | nil => exact piece_halfOpen start stop
  | cons removed _ ih =>
    simp only [cutCharacterRange, cutRange, map_cons, CharacterRange.halfOpen]
    by_cases meets : removed.start ≤ stop
    · rw [if_pos meets, if_pos (Nat.lt_succ_of_le meets), map_append]
      congr 1
      · split
        · rw [min_eq_left (by omega)]
          simp only [map_cons, map_nil, CharacterRange.halfOpen]
          rw [Nat.sub_add_cancel (by omega)]
        · rfl
      · by_cases covered : stop ≤ removed.stop
        · rw [if_pos covered, succ stop bound,
            if_neg (Nat.not_succ_le_self stop), if_pos (by omega), map_nil]
        · rw [if_neg covered, if_neg (by omega), succ removed.stop (by omega)]
          exact ih (by omega)
    · rw [if_neg meets, if_neg (mt Nat.lt_succ_iff.mp meets)]
      exact piece_halfOpen start stop

theorem subtractFrom_halfOpen (rights : List CharacterRange)
    (valid : ∀ range ∈ left, range.Valid) :
    (subtractFrom left rights).map CharacterRange.halfOpen =
      subtractHalfOpenRanges (left.map CharacterRange.halfOpen)
        (rights.map CharacterRange.halfOpen) := by
  induction left generalizing rights with
  | nil => rfl
  | cons range _ ih =>
    obtain ⟨order, bound⟩ := valid range mem_cons_self
    have passed : (rights.map CharacterRange.halfOpen).dropWhile
        (fun other => other.2 ≤ range.start) =
          (rights.dropWhile fun right => right.stop < range.start).map
            CharacterRange.halfOpen :=
      dropWhile_map
    simp only [subtractFrom, subtractHalfOpenRanges, map_cons,
      map_append, cutCharacterRange_halfOpen order bound,
      CharacterRange.halfOpen] at *
    rw [passed]
    congr 1
    exact ih _ fun other member => valid other (mem_cons_of_mem _ member)

theorem complementRanges_spec (valid : ∀ range ∈ ranges, range.Valid) :
    Normal (complementRanges ranges maxCodePoint) ∧
      ∀ character, Contains (complementRanges ranges maxCodePoint) character ↔
        character ≤ maxCodePoint ∧ ¬ Contains ranges character := by
  obtain ⟨normal, same⟩ := normalizeRanges_spec valid
  have cut := complementFrom_halfOpen maxCodePoint 0 normal.apart
    fun range member => by
      obtain ⟨order, bound⟩ := normal.valid range member
      omega
  obtain ⟨separated, -, covers⟩ :=
    cutRange_spec 0 (maxCodePoint + 1) normal.separated
  rw [← cut] at separated covers
  refine normal_of_separated separated (fun character => ?_)
    fun character inside => inside.1
  rw [complementRanges, covers, ← contains_iff_covers, same, Nat.lt_succ_iff]
  simp

section

variable (hleft : ∀ range ∈ left, range.Valid)
  (hright : ∀ range ∈ right, range.Valid)
include hleft hright

theorem intersectRanges_spec : Normal (intersectRanges left right) ∧
    ∀ character, Contains (intersectRanges left right) character ↔
      Contains left character ∧ Contains right character := by
  obtain ⟨lefts, sameLeft⟩ := normalizeRanges_spec hleft
  obtain ⟨rights, sameRight⟩ := normalizeRanges_spec hright
  obtain ⟨separated, covers⟩ :=
    intersectHalfOpenRanges_spec rights.separated lefts.separated
  rw [← intersectFrom_halfOpen] at separated covers
  refine normal_of_separated separated (fun character => ?_)
    fun character inside => le_of_contains hleft inside.1
  rw [intersectRanges, covers, ← contains_iff_covers, ← contains_iff_covers,
    sameLeft, sameRight, and_comm]

theorem subtractRanges_spec : Normal (subtractRanges left right) ∧
    ∀ character, Contains (subtractRanges left right) character ↔
      Contains left character ∧ ¬ Contains right character := by
  obtain ⟨lefts, sameLeft⟩ := normalizeRanges_spec hleft
  obtain ⟨rights, sameRight⟩ := normalizeRanges_spec hright
  obtain ⟨separated, -, covers⟩ :=
    subtractHalfOpenRanges_spec lefts.separated rights.separated
  rw [← subtractFrom_halfOpen _ lefts.valid] at separated covers
  refine normal_of_separated separated (fun character => ?_)
    fun character inside => le_of_contains hleft inside.1
  rw [subtractRanges, covers, ← contains_iff_covers, ← contains_iff_covers,
    sameLeft, sameRight]

end

/-- The last range that starts at or before the character is the only one that
may contain it. -/
theorem rangeContains_iff (normal : Normal ranges) (character : Nat) :
    rangeContains ranges character = true ↔ Contains ranges character := by
  have partitioned :
      Partitioned ranges fun range => decide (range.start ≤ character) := by
    refine normal.apart.imp_of_mem ?_
    intro first second member _ apart
    have := (normal.valid first member).1
    simp only [decide_eq_true_eq]
    omega
  have before := @before_iff_lt_partitionPoint _ _ _ partitioned
  have bound := partitionLoop_le ranges
    (fun range => decide (range.start ≤ character)) ranges.length
    (Nat.zero_le ranges.length)
  simp only [decide_eq_true_eq] at before
  unfold rangeContains
  change partitionPoint _ _ ≤ _ at bound
  cases point : partitionPoint ranges
      (fun range => decide (range.start ≤ character)) with
  | zero =>
    simp only [Bool.false_eq_true, false_iff]
    rintro ⟨range, member, start, -⟩
    obtain ⟨position, here⟩ := List.mem_iff_getElem?.mp member
    have := (before here).mp start
    omega
  | succ index =>
    rw [point] at before bound
    have here := List.getElem?_eq_getElem bound
    have start := (before here).mpr (Nat.lt_succ_self index)
    simp only [here, Option.any_some, decide_eq_true_eq]
    constructor
    · intro stop
      exact ⟨_, List.getElem_mem bound, start, stop⟩
    · rintro ⟨range, member, starts, stops⟩
      obtain ⟨position, there⟩ := List.mem_iff_getElem?.mp member
      have earlier := (before there).mp starts
      rcases Nat.lt_or_eq_of_le (Nat.le_of_lt_succ earlier) with less | rfl
      · obtain ⟨inside, rfl⟩ := List.getElem?_eq_some_iff.mp there
        have := List.pairwise_iff_getElem.mp normal.apart position index
          inside bound less
        omega
      · rw [here] at there
        cases there
        exact stops

theorem rangeAlgebra (hleft : ∀ range ∈ left, range.Valid)
    (hright : ∀ range ∈ right, range.Valid) : RangeAlgebra left right where
  normalize := normalizeRanges_spec hleft
  complement := complementRanges_spec hleft
  intersect := intersectRanges_spec hleft hright
  subtract := subtractRanges_spec hleft hright
  contains := rangeContains_iff

theorem rangeAlgebra_letters :
    RangeAlgebra [⟨97, 122⟩, ⟨65, 90⟩] [⟨48, 57⟩, ⟨58, 70⟩] :=
  rangeAlgebra (by simp [CharacterRange.Valid, maxCodePoint])
    (by simp [CharacterRange.Valid, maxCodePoint])

/-- A set of characters has one normal form: the first range starts at the least
character and ends before the first gap. -/
theorem Normal.ext (hleft : Normal left) (hright : Normal right)
    (same : ∀ character, Contains left character ↔ Contains right character) :
    left = right := by
  induction left generalizing right with
  | nil =>
    cases right with
    | nil => rfl
    | cons range =>
      have order := (hright.valid range mem_cons_self).1
      obtain ⟨_, ⟨⟩, _⟩ :=
        (same range.start).mpr ⟨range, .head _, le_rfl, order⟩
  | cons first lefts ih =>
    have ⟨validLeft, apartLeft⟩ := hleft
    have ⟨validRight, apartRight⟩ := hright
    have order := (validLeft first mem_cons_self).1
    cases right with
    | nil =>
      obtain ⟨_, ⟨⟩, _⟩ :=
        (same first.start).mp ⟨first, .head _, le_rfl, order⟩
    | cons second rights =>
      rw [forall_mem_cons] at validLeft validRight
      rw [pairwise_cons] at apartLeft apartRight
      simp only [Contains, mem_cons, exists_eq_or_imp, CharacterRange.Valid] at *
      have starts : first.start = second.start := by
        have := same first.start
        have := same second.start
        grind
      have stops : first.stop = second.stop := by
        have := same (min first.stop second.stop + 1)
        grind
      have rest : lefts = rights := by
        refine ih ⟨validLeft.2, apartLeft.2⟩ ⟨validRight.2, apartRight.2⟩
          fun character => ?_
        have := same character
        grind
      cases first
      cases second
      simp_all

theorem classes_canonical (hleft : ∀ range ∈ left, range.Valid)
    (hright : ∀ range ∈ right, range.Valid) :
    (normalizeRanges left = normalizeRanges right ↔
      ∀ character, Contains left character ↔ Contains right character) ∧
    complementRanges (complementRanges left maxCodePoint) maxCodePoint =
      normalizeRanges left ∧
    subtractRanges left right =
      intersectRanges left (complementRanges right maxCodePoint) ∧
    complementRanges (left ++ right) maxCodePoint =
      subtractRanges (complementRanges left maxCodePoint) right := by
  have both : ∀ range ∈ left ++ right, range.Valid := by
    simpa [or_imp, forall_and] using ⟨hleft, hright⟩
  obtain ⟨normalLeft, sameLeft⟩ := normalizeRanges_spec hleft
  obtain ⟨normalRight, sameRight⟩ := normalizeRanges_spec hright
  obtain ⟨outLeft, notLeft⟩ := complementRanges_spec hleft
  obtain ⟨outRight, notRight⟩ := complementRanges_spec hright
  obtain ⟨outBoth, notBoth⟩ := complementRanges_spec both
  obtain ⟨twice, notTwice⟩ := complementRanges_spec outLeft.valid
  obtain ⟨less, inLess⟩ := subtractRanges_spec hleft hright
  obtain ⟨meet, inMeet⟩ := intersectRanges_spec hleft outRight.valid
  obtain ⟨rest, inRest⟩ := subtractRanges_spec outLeft.valid hright
  have bounded : ∀ character, Contains left character →
      character ≤ maxCodePoint := fun _ => le_of_contains hleft
  refine ⟨⟨fun equal character => ?_, fun same => ?_⟩, ?_, ?_, ?_⟩
  · rw [← sameLeft, ← sameRight, equal]
  · exact normalLeft.ext normalRight (by simpa [sameLeft, sameRight] using same)
  · exact twice.ext normalLeft fun character => by grind
  · exact less.ext meet fun character => by grind
  · exact outBoth.ext rest fun character => by grind [Contains]

theorem classes_canonical_letters :
    complementRanges [⟨97, 122⟩, ⟨65, 90⟩] maxCodePoint =
      subtractRanges (complementRanges [⟨97, 122⟩] maxCodePoint) [⟨65, 90⟩] :=
  (@classes_canonical [⟨97, 122⟩] [⟨65, 90⟩]
    (by simp [CharacterRange.Valid, maxCodePoint])
    (by simp [CharacterRange.Valid, maxCodePoint])).2.2.2

end QuickJsOxide.RegExp
