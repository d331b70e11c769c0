import Mathlib.Data.List.Chain
import Mathlib.Data.List.Induction
import QuickJsOxide.Unicode.Normalize

namespace QuickJsOxide.Unicode

open List

/-! The composition algorithm of UAX #15 on the text retained so far. -/

section

variable (combiningClass : Nat → Nat) (composePair : Nat → Nat → Option Nat)

def CanonicallyOrdered (text : List Nat) : Prop :=
  text.IsChain fun left right => combiningClass right ≠ 0 →
    combiningClass left ≤ combiningClass right

instance (text : List Nat) :
    Decidable (CanonicallyOrdered combiningClass text) :=
  inferInstanceAs (Decidable (IsChain _ text))

def lastStarter : List Nat → Option (List Nat × Nat × List Nat)
  | [] => none
  | codePoint :: rest =>
    match lastStarter rest with
    | some (before, starter, between) =>
      some (codePoint :: before, starter, between)
    | none =>
      if combiningClass codePoint = 0 then
        some ([], codePoint, rest)
      else
        none

def blocked (between : List Nat) (codePoint : Nat) : Bool :=
  between.any fun other => combiningClass other = 0 ∨
    combiningClass codePoint ≤ combiningClass other

def openStarter (retained : List Nat) (codePoint : Nat) :
    Option (List Nat × Nat × List Nat) :=
  (lastStarter combiningClass retained).filter fun split =>
    !blocked combiningClass split.2.2 codePoint

def composeNext (retained : List Nat) (codePoint : Nat) : List Nat :=
  match openStarter combiningClass retained codePoint with
  | none => retained ++ [codePoint]
  | some (before, starter, between) =>
    match composePair starter codePoint with
    | none => retained ++ [codePoint]
    | some composed => before ++ composed :: between

def composeText (text : List Nat) : List Nat :=
  text.foldl (composeNext combiningClass composePair) []

structure ComposesCanonically (text : List Nat) : Prop where
  result : compose combiningClass composePair text =
    composeText combiningClass composePair text
  tests : ∀ consumed codePoint rest, text = consumed ++ codePoint :: rest →
    let retained := composeText combiningClass composePair consumed
    seekStarter combiningClass retained (combiningClass codePoint)
        retained.length =
      (openStarter combiningClass retained codePoint).map fun split =>
        split.1.length

end

variable {combiningClass : Nat → Nat} {composePair : Nat → Nat → Option Nat}

theorem lastStarter_of_marks
    (marks : ∀ codePoint ∈ retained, combiningClass codePoint ≠ 0) :
    lastStarter combiningClass retained = none := by
  induction retained with
  | nil => rfl
  | cons codePoint _ ih =>
    rw [lastStarter, ih fun other member =>
      marks other (mem_cons_of_mem _ member)]
    exact if_neg (marks codePoint mem_cons_self)

theorem lastStarter_append (isStarter : combiningClass starter = 0)
    (marks : ∀ codePoint ∈ between, combiningClass codePoint ≠ 0)
    (before : List Nat) :
    lastStarter combiningClass (before ++ starter :: between) =
      some (before, starter, between) := by
  induction before with
  | nil => simp [lastStarter, lastStarter_of_marks marks, isStarter]
  | cons _ _ ih => rw [cons_append, lastStarter, ih]

theorem marks_or_starter (combiningClass : Nat → Nat) (retained : List Nat) :
    (∀ codePoint ∈ retained, combiningClass codePoint ≠ 0) ∨
    ∃ before starter between, retained = before ++ starter :: between ∧
      combiningClass starter = 0 ∧
      ∀ codePoint ∈ between, combiningClass codePoint ≠ 0 := by
  induction retained using reverseRecOn with
  | nil => exact .inl (by simp)
  | append_singleton retained last ih =>
    by_cases isStarter : combiningClass last = 0
    · exact .inr ⟨retained, last, [], rfl, isStarter, by simp⟩
    · rcases ih with marks | ⟨before, starter, between, rfl, first, marks⟩
      · exact .inl (by simpa [or_imp, forall_and] using ⟨marks, isStarter⟩)
      · refine .inr ⟨before, starter, between ++ [last], by simp, first, ?_⟩
        simpa [or_imp, forall_and] using ⟨marks, isStarter⟩

theorem seekStarter_append (retained rest : List Nat) (class_ : Nat)
    {length : Nat} (within : length ≤ retained.length) :
    seekStarter combiningClass (retained ++ rest) class_ length =
      seekStarter combiningClass retained class_ length := by
  induction length generalizing class_ with
  | zero => rfl
  | succ length ih =>
    have read : (retained ++ rest).getD length 0 = retained.getD length 0 := by
      simp only [getD_eq_getElem?_getD, getElem?_append_left within]
    rw [seekStarter, seekStarter, ih 256 (by omega), read]

theorem seekStarter_concat (retained : List Nat) (last class_ : Nat) :
    seekStarter combiningClass (retained ++ [last]) class_
        (retained ++ [last]).length =
      if combiningClass last = 0 then some retained.length
      else if class_ ≤ combiningClass last then none
      else seekStarter combiningClass retained 256 retained.length := by
  rw [length_append, length_singleton, seekStarter,
    seekStarter_append retained [last] 256 le_rfl]
  simp [getD_eq_getElem?_getD]

theorem seekStarter_of_marks
    (marks : ∀ codePoint ∈ retained, combiningClass codePoint ≠ 0)
    (class_ : Nat) :
    seekStarter combiningClass retained class_ retained.length = none := by
  induction retained using reverseRecOn generalizing class_ with
  | nil => rfl
  | append_singleton _ _ ih =>
    simp only [mem_append, mem_singleton, or_imp, forall_and,
      forall_eq] at marks
    rw [seekStarter_concat, if_neg marks.2, ih marks.1, ite_self]

theorem seekStarter_of_bounded
    (bounded : ∀ codePoint, combiningClass codePoint < 256)
    (isStarter : combiningClass starter = 0) (before : List Nat)
    (marks : ∀ codePoint ∈ between, combiningClass codePoint ≠ 0) :
    seekStarter combiningClass (before ++ starter :: between) 256
        (before ++ starter :: between).length = some before.length := by
  induction between using reverseRecOn with
  | nil => rw [seekStarter_concat, if_pos isStarter]
  | append_singleton _ last ih =>
    simp only [mem_append, mem_singleton, or_imp, forall_and,
      forall_eq] at marks
    rw [← cons_append, ← append_assoc, seekStarter_concat,
      if_neg marks.2, if_neg (Nat.not_le.mpr (bounded last)), ih marks.1]

theorem CanonicallyOrdered.sorted
    (ordered : CanonicallyOrdered combiningClass marks)
    (isMark : ∀ codePoint ∈ marks, combiningClass codePoint ≠ 0) :
    marks.Pairwise fun left right =>
      combiningClass left ≤ combiningClass right := by
  have trans : Trans (fun left right => combiningClass left ≤
      combiningClass right) (fun left right => combiningClass left ≤
      combiningClass right) fun left right => combiningClass left ≤
      combiningClass right := ⟨Nat.le_trans⟩
  exact (IsChain.imp_of_mem_imp (fun left right _ member rel =>
    rel (isMark right member)) ordered).pairwise

theorem CanonicallyOrdered.remove
    (ordered : CanonicallyOrdered combiningClass (marks ++ codePoint :: rest))
    (isMark : marks ≠ [] → combiningClass codePoint ≠ 0) :
    CanonicallyOrdered combiningClass (marks ++ rest) := by
  obtain ⟨first, second, joins⟩ := isChain_append.mp ordered
  refine isChain_append.mpr ⟨first, second.tail, ?_⟩
  intro last hlast next hnext nextMark
  have nonempty : marks ≠ [] := by
    rintro rfl
    cases hlast
  exact (joins last hlast codePoint rfl (isMark nonempty)).trans
    (second.rel_head? hnext nextMark)

variable (combiningClass) in
/-- The marks at the end of the text go on in canonical order. -/
def Continues (retained rest : List Nat) : Prop :=
  ∀ before marks, retained = before ++ marks →
    (∀ codePoint ∈ marks, combiningClass codePoint ≠ 0) →
    CanonicallyOrdered combiningClass (marks ++ rest)

variable {retained rest : List Nat}

theorem Continues.keep
    (ordered : Continues combiningClass retained (codePoint :: rest)) :
    Continues combiningClass (retained ++ [codePoint]) rest := by
  intro before marks split isMark
  cases marks using reverseRecOn with
  | nil => exact (ordered retained [] (by simp) (by simp)).tail
  | append_singleton marks =>
    rw [← append_assoc] at split
    obtain ⟨inner, same⟩ := append_inj' split rfl
    obtain rfl := singleton_inj.mp same
    rw [append_assoc]
    exact ordered before marks inner fun other member =>
      isMark other (mem_append_left _ member)

theorem Continues.replace
    (ordered : Continues combiningClass (before ++ starter :: between)
      (codePoint :: rest)) (isStarter : combiningClass composed = 0)
    (unblocked : blocked combiningClass between codePoint = false) :
    Continues combiningClass (before ++ composed :: between) rest := by
  intro front marks split isMark
  have suffix : ∃ inner, between = inner ++ marks := by
    rcases append_eq_append_iff.mp split with
      ⟨extra, -, here⟩ | ⟨extra, -, here⟩
    · cases extra with
      | nil =>
        cases marks with
        | nil => exact ⟨between, by simp⟩
        | cons =>
          obtain rfl := (cons.inj here).1
          exact (isMark composed mem_cons_self isStarter).elim
      | cons _ extra => exact ⟨extra, (cons.inj here).2⟩
    · exact (isMark composed (here ▸ by simp) isStarter).elim
  obtain ⟨inner, rfl⟩ := suffix
  refine (ordered (before ++ starter :: inner) marks (by simp) isMark).remove ?_
  intro nonempty
  obtain ⟨first, member⟩ := exists_mem_of_ne_nil marks nonempty
  have small := any_eq_false.mp unblocked first
    (mem_append_right _ member)
  simp only [decide_eq_true_eq, not_or] at small
  omega

theorem lastStarter_eq_some (found : lastStarter combiningClass retained =
      some (before, starter, between)) :
    retained = before ++ starter :: between ∧ combiningClass starter = 0 := by
  rcases marks_or_starter combiningClass retained with
    marks | ⟨front, first, behind, rfl, isStarter, marks⟩
  · rw [lastStarter_of_marks marks] at found
    cases found
  · rw [lastStarter_append isStarter marks] at found
    cases found
    exact ⟨rfl, isStarter⟩

section

variable (bounded : ∀ codePoint, combiningClass codePoint < 256)
include bounded

theorem seekStarter_eq
    (ordered : Continues combiningClass retained (codePoint :: rest)) :
    seekStarter combiningClass retained (combiningClass codePoint)
        retained.length =
      (openStarter combiningClass retained codePoint).map fun split =>
        split.1.length := by
  rcases marks_or_starter combiningClass retained with
    marks | ⟨before, starter, between, rfl, isStarter, marks⟩
  · rw [seekStarter_of_marks marks, openStarter, lastStarter_of_marks marks]
    rfl
  · rw [openStarter, lastStarter_append isStarter marks, Option.filter_some]
    have chain := ordered (before ++ [starter]) between (by simp) marks
    cases between using reverseRecOn with
    | nil =>
      rw [seekStarter_concat, if_pos isStarter]
      simp [blocked]
    | append_singleton between last =>
      have isMark := marks last (by simp)
      have inner : ∀ other ∈ between, combiningClass other ≠ 0 :=
        fun other member => marks other (by simp [member])
      obtain ⟨-, -, largest⟩ := pairwise_append.mp
        (CanonicallyOrdered.sorted chain.left_of_append marks)
      rw [← cons_append, ← append_assoc, seekStarter_concat, if_neg isMark]
      by_cases blocks : combiningClass codePoint ≤ combiningClass last
      · simp [blocked, blocks]
      · have unblocked : blocked combiningClass (between ++ [last])
            codePoint = false := by
          simp only [blocked, any_append, any_cons, any_nil,
            Bool.or_false, Bool.or_eq_false_iff, any_eq_false,
            decide_eq_true_eq, decide_eq_false_iff_not]
          refine ⟨fun other member => ?_, by omega⟩
          have small := largest other member last (mem_singleton_self _)
          have mark := inner other member
          omega
        rw [if_neg blocks, unblocked,
          seekStarter_of_bounded bounded isStarter before inner]
        rfl

end

variable (starters : ∀ first second composed, combiningClass first = 0 →
  composePair first second = some composed → combiningClass composed = 0)

include starters in
theorem Continues.next
    (ordered : Continues combiningClass retained (codePoint :: rest)) :
    Continues combiningClass
      (composeNext combiningClass composePair retained codePoint) rest := by
  unfold composeNext
  split
  · exact ordered.keep
  · rename_i before starter between found
    obtain ⟨last, unblocked⟩ := Option.filter_eq_some_iff.mp found
    obtain ⟨rfl, isStarter⟩ := lastStarter_eq_some last
    split
    · exact ordered.keep
    · rename_i composed pair
      exact ordered.replace (starters _ _ _ isStarter pair)
        (by simpa using unblocked)

include starters in
theorem Continues.foldl (consumed : List Nat) :
    ∀ retained, Continues combiningClass retained (consumed ++ rest) →
      Continues combiningClass
        (consumed.foldl (composeNext combiningClass composePair) retained)
        rest := by
  induction consumed with
  | nil =>
    intro retained ordered
    exact ordered
  | cons _ _ ih =>
    intro retained ordered
    exact ih _ (ordered.next starters)

theorem CanonicallyOrdered.continues
    (ordered : CanonicallyOrdered combiningClass text) :
    Continues combiningClass [] text := by
  intro before marks split _
  obtain ⟨rfl, rfl⟩ := append_eq_nil_iff.mp split.symm
  exact ordered

theorem set_keep (retained gap rest : List Nat) (codePoint : Nat) :
    ∃ gap' : List Nat, gap'.length = gap.length ∧
      (retained ++ gap ++ codePoint :: rest).set retained.length codePoint =
        retained ++ [codePoint] ++ gap' ++ rest := by
  cases gap with
  | nil => exact ⟨[], rfl, by simp⟩
  | cons _ gap => exact ⟨gap ++ [codePoint], by simp, by simp⟩

variable (bounded : ∀ codePoint, combiningClass codePoint < 256)
include starters bounded

/-- Between the retained text and the rest there is room for the code points
that were composed away. -/
theorem composeFrom_eq (rest : List Nat) :
    ∀ retained gap : List Nat, Continues combiningClass retained rest →
      composeFrom combiningClass composePair rest.length
          (retained.length + gap.length) retained.length
          (retained ++ gap ++ rest) =
        rest.foldl (composeNext combiningClass composePair) retained := by
  induction rest with
  | nil =>
    intro retained gap _
    simp [composeFrom]
  | cons codePoint rest ih =>
    intro retained gap ordered
    have later := ordered.next starters
    have read : (retained ++ gap ++ codePoint :: rest).getD
        (retained.length + gap.length) 0 = codePoint := by
      simp [getD_eq_getElem?_getD]
    have seek := seekStarter_eq bounded ordered
    rw [← seekStarter_append retained (gap ++ codePoint :: rest) _ le_rfl,
      ← append_assoc] at seek
    have keep : composeNext combiningClass composePair retained codePoint =
        retained ++ [codePoint] →
        composeFrom combiningClass composePair rest.length
          (retained.length + gap.length + 1) (retained.length + 1)
          ((retained ++ gap ++ codePoint :: rest).set retained.length
            codePoint) =
        rest.foldl (composeNext combiningClass composePair)
          (retained ++ [codePoint]) := by
      intro kept
      rw [kept] at later
      obtain ⟨gap', length, moved⟩ := set_keep retained gap rest codePoint
      have done := ih (retained ++ [codePoint]) gap' later
      rw [moved, ← done, length, length_append, length_singleton,
        Nat.add_right_comm]
    rw [length_cons, composeFrom, composeAt, read, seek, foldl_cons]
    cases found : openStarter combiningClass retained codePoint with
    | none =>
      have kept : composeNext combiningClass composePair retained codePoint =
          retained ++ [codePoint] := by rw [composeNext, found]
      rw [kept]
      exact keep kept
    | some split =>
      obtain ⟨before, starter, between⟩ := split
      obtain ⟨last, -⟩ := Option.filter_eq_some_iff.mp found
      obtain ⟨rfl, -⟩ := lastStarter_eq_some last
      have atStarter : (before ++ starter :: between ++ gap ++
          codePoint :: rest).getD before.length 0 = starter := by
        simp [getD_eq_getElem?_getD]
      simp only [Option.map_some, Option.bind_eq_bind, Option.bind_some,
        atStarter]
      cases pair : composePair starter codePoint with
      | none =>
        have kept : composeNext combiningClass composePair
            (before ++ starter :: between) codePoint =
            before ++ starter :: between ++ [codePoint] := by
          simp only [composeNext, found, pair]
        rw [kept]
        exact keep kept
      | some composed =>
        have composes : composeNext combiningClass composePair
            (before ++ starter :: between) codePoint =
            before ++ composed :: between := by
          simp only [composeNext, found, pair]
        rw [composes] at later ⊢
        have done := ih (before ++ composed :: between)
          (gap ++ [codePoint]) later
        simpa [Nat.add_assoc] using done

/-- Composition in place is the composition algorithm, if classes fit a byte and
a starter composes to a starter. -/
theorem compose_composesCanonically {text : List Nat}
    (ordered : CanonicallyOrdered combiningClass text) :
    ComposesCanonically combiningClass composePair text := by
  refine ⟨?_, ?_⟩
  · unfold compose
    split
    · match text with
      | [] => rfl
      | [codePoint] => rfl
    · match text, ordered with
      | codePoint :: rest, ordered =>
        have later := ordered.continues.foldl starters [codePoint] []
        exact composeFrom_eq starters bounded rest [codePoint] [] later
  · rintro consumed codePoint rest rfl
    exact seekStarter_eq bounded
      (ordered.continues.foldl starters consumed [])

omit bounded starters

def accentClass (codePoint : Nat) : Nat :=
  if codePoint = 0x301 then 230 else 0

def accentPair (first second : Nat) : Option Nat :=
  if first = 0x65 ∧ second = 0x301 then some 0xe9 else none

theorem compose_composesCanonically_accent :
    ComposesCanonically accentClass accentPair [0x65, 0x301, 0x66] := by
  refine compose_composesCanonically ?_ ?_ (by decide)
  · intro first second composed _ pair
    unfold accentPair at pair
    split at pair
    · cases pair
      rfl
    · cases pair
  · intro codePoint
    unfold accentClass
    split <;> decide

/-- A class that does not fit a byte blocks where it should not, and a composite
that is not a starter does not block where it should. -/
theorem compose_differs :
    (∃ combiningClass composePair text, CanonicallyOrdered combiningClass text ∧
      (∀ first second composed, combiningClass first = 0 →
        composePair first second = some composed →
        combiningClass composed = 0) ∧ compose combiningClass composePair text ≠
        composeText combiningClass composePair text) ∧
    ∃ combiningClass composePair text, CanonicallyOrdered combiningClass text ∧
      (∀ codePoint, combiningClass codePoint < 256) ∧
      compose combiningClass composePair text ≠
        composeText combiningClass composePair text := by
  constructor
  · refine ⟨(300 * ·), fun _ second => if second = 3 then some 0 else none,
      [0, 1, 2, 3], by decide, ?_, by decide⟩
    intro first second composed _ pair
    dsimp only at pair
    split at pair
    · cases pair
      rfl
    · cases pair
  · refine ⟨fun codePoint => [0, 0, 10, 20, 30, 40, 200].getD codePoint 0,
      fun first second => match first, second with
        | 1, 4 => some 6
        | 0, 5 => some 0
        | _, _ => none, [0, 1, 2, 3, 4, 5], by decide, ?_, by decide⟩
    intro codePoint
    match codePoint with
    | 0 | 1 | 2 | 3 | 4 | 5 | 6 => decide
    | _ + 7 => simp

end QuickJsOxide.Unicode
