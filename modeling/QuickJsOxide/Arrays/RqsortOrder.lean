import QuickJsOxide.Arrays.RqsortSafety
import QuickJsOxide.Library.Segments

namespace QuickJsOxide.Arrays

open Library SortMachine Function Equiv

/-! What the items show while the machine sorts them, when its comparisons are
answered from the items. -/

attribute [simp] Nat.compare_eq_lt Nat.compare_eq_eq Nat.compare_eq_gt

def IsChild (child parent : Nat) : Prop :=
  child = parent * 2 + 1 ∨ child = parent * 2 + 2

namespace SortMachine

section

variable (self : SortMachine)

def unsorted : List (Nat × Nat) :=
  (self.base, self.count) ::
    (pending self.stack self.stackLen).map fun range => (range.1, range.2.1)

/-- While the range is scanned from both ends, what equals the pivot is parked
at its two ends. -/
def scannedOrder (upper index : Nat) : Option Ordering :=
  if index < self.lowerEqualEnd then some .eq
  else if index < self.left then some .gt
  else if index < upper then none
  else if index < self.upperEqualStart then some .lt
  else some .eq

/-- The items parked at the lower end change places with the last of the
smaller ones. -/
def loweredOrder (index : Nat) : Option Ordering :=
  if index < self.base + self.offset then some .gt
  else if index < self.lowerEqualEnd then some .eq
  else if index < self.left - self.span then some .gt
  else if index < self.left - self.span + self.offset then some .eq
  else if index < self.left then some .gt
  else if index < self.upperEqualStart then some .lt
  else some .eq

/-- The items parked at the upper end change places with the first of the
greater ones. -/
def raisedOrder (index : Nat) : Option Ordering :=
  if index < self.base + self.lowerCount then some .gt
  else if index < self.left + self.offset then some .eq
  else if index < self.upperEqualStart then some .lt
  else if index < self.top - self.span then some .eq
  else if index < self.top - self.span + self.offset then some .lt
  else some .eq

def dividedOrder (index : Nat) : Option Ordering :=
  if index < self.base + self.lowerCount then some .gt
  else if index < self.upperBase then some .eq
  else some .lt

variable (items : Nat → Nat)

def Divided (expected : Nat → Option Ordering) (pivot : Nat) : Prop :=
  ∀ index, self.base ≤ index → index < self.top → ∀ order ∈ expected index,
    compare pivot (items index) = order

/-- The items up to `current` are in order except for the one at `position`. -/
def Sinking : Prop :=
  ∀ first second, self.base ≤ first → first < second →
    second ≤ self.current → second ≠ self.position →
    items first ≤ items second

/-- No parent from `low` on has a greater child, except those exempted. -/
def Heaped (low high : Nat) (exempt : Nat → Prop) : Prop :=
  ∀ parent child, low ≤ parent → ¬exempt parent → IsChild child parent →
    child < high → items (self.base + child) ≤ items (self.base + parent)

def Extracted (low : Nat) : Prop :=
  ∀ first second, first < second → low ≤ second → second < self.count →
    items (self.base + first) ≤ items (self.base + second)

def heapLow : Nat :=
  if self.heapBuilding then self.heapCursor else 0

structure Sifting (machine : SortMachine) (items : Nat → Nat) : Prop where
  above : machine.heapLow ≤ machine.root
  heaped : machine.Heaped items machine.heapLow machine.heapEnd
    (· = machine.root)
  grand : ∀ parent child, machine.heapLow ≤ parent →
    IsChild machine.root parent → IsChild child machine.root →
    child < machine.heapEnd →
    items (machine.base + child) ≤ items (machine.base + parent)
  extracted : machine.Extracted items machine.heapEnd

def Greatest : Prop :=
  IsChild self.child self.root ∧ ∀ other, IsChild other self.root →
    other < self.heapEnd →
    items (self.base + other) ≤ items (self.base + self.child)

def Shown (reply : Option Ordering) : Prop :=
  match self.phase with
  | .pop => SortedOn items self.base self.top
  | .partition | .medianFirst | .medianSecond _ | .medianThird _ | .pivot =>
    True
  | .left => ∃ pivot, self.Divided items (self.scannedOrder self.right) pivot
  | .leftReply => ∃ pivot,
      self.Divided items (self.scannedOrder self.right) pivot ∧
        reply = some (compare pivot (items self.left))
  | .right => ∃ pivot,
      self.Divided items (self.scannedOrder self.right) pivot ∧
        (self.left < self.right → compare pivot (items self.left) = .lt)
  | .rightReply => ∃ pivot,
      self.Divided items (self.scannedOrder (self.right + 1)) pivot ∧
        compare pivot (items self.left) = .lt ∧
        reply = some (compare pivot (items self.right))
  | .cross => ∃ pivot,
      self.Divided items (self.scannedOrder
        (if self.left < self.right then self.right + 1 else self.left))
        pivot ∧
      (self.left < self.right → compare pivot (items self.left) = .lt ∧
        compare pivot (items self.right) = .gt)
  | .lowerSwap => ∃ pivot, self.Divided items self.loweredOrder pivot
  | .upperSwap => ∃ pivot, self.Divided items self.raisedOrder pivot
  | .split => ∃ pivot, self.Divided items self.dividedOrder pivot
  | .insertion => self.Sinking items
  | .insertionReply => self.Sinking items ∧ reply =
      some (compare (items (self.position - 1)) (items self.position))
  | .insertionSwap =>
    self.Sinking items ∧ items self.position < items (self.position - 1)
  | .heapBuild => self.Heaped items self.heapCursor self.count fun _ => False
  | .heapExtract =>
    self.Heaped items 0 (self.heapCursor + 1) (fun _ => False) ∧
      self.Extracted items (self.heapCursor + 1)
  | .sift => self.Sifting items
  | .siftChild => self.Sifting items ∧ reply =
      some (compare (items (self.base + self.child))
        (items (self.base + self.child + 1)))
  | .siftRoot => self.Sifting items ∧ self.Greatest items ∧ reply =
      some (compare (items (self.base + self.root))
        (items (self.base + self.child)))
  | .siftSwap => self.Sifting items ∧ self.Greatest items ∧
      items (self.base + self.root) ≤ items (self.base + self.child)

end

variable {self : SortMachine}

theorem Divided.atBase {upper pivot : Nat}
    (divided : self.Divided items (self.scannedOrder upper) pivot)
    (parked : self.base < self.lowerEqualEnd) (nonempty : self.base < self.top) :
    pivot = items self.base :=
  Nat.compare_eq_eq.mp
    (divided self.base le_rfl nonempty .eq (if_pos parked))

theorem Heaped.le_root (heaped : self.Heaped items 0 high fun _ => False)
    (below : index < high) : items (self.base + index) ≤ items self.base := by
  induction index using Nat.strong_induction_on with
  | h index ih =>
    cases index with
    | zero => exact le_rfl
    | succ index =>
      have isChild : IsChild (index + 1) (index / 2) := by
        unfold IsChild
        omega
      exact (heaped _ _ (Nat.zero_le _) id isChild below).trans
        (ih (index / 2) (by omega) (by omega))

end SortMachine

def Turn.Shows (items : Nat → Nat) : Turn → Prop
  | .again after rest => after.Shown items rest
  | .act after .complete => after.Shown items none
  | .act after (.compare left right) =>
    after.Shown items (some (compare (items left) (items right)))
  | .act after (.swap left right) =>
    after.Shown (items ∘ swap left right) none

theorem SortMachine.Sifting.sifted {self after : SortMachine}
    (sifting : self.Sifting items) (heaping : self.Heaping length)
    (ordered : ∀ child, IsChild child self.root → child < self.heapEnd →
      items (self.base + child) ≤ items (self.base + self.root))
    (phase : after.phase = self.siftedPhase) (base : after.base = self.base)
    (count : after.count = self.count)
    (cursor : after.heapCursor = self.heapCursor) :
    (Turn.again after reply).Shows items := by
  have heaped : self.Heaped items self.heapLow self.heapEnd
      fun _ => False := by
    intro parent child above _ isChild below
    by_cases isRoot : parent = self.root
    · subst isRoot
      exact ordered child isChild below
    · exact sifting.heaped parent child above isRoot isChild below
  have extracted := sifting.extracted
  obtain ⟨-, -, -, isEnd⟩ := heaping
  simp only [Turn.Shows, Shown, phase, siftedPhase]
  unfold Heaped Extracted heapLow at *
  rw [base, count, cursor]
  cases building : self.heapBuilding with
  | true =>
    simp only [building, if_true] at heaped isEnd ⊢
    rwa [← isEnd]
  | false =>
    simp only [building, Bool.false_eq_true, if_false] at heaped isEnd ⊢
    rw [← isEnd]
    exact ⟨heaped, extracted⟩

section

variable {self : SortMachine} {turn : Turn}
  (turned : self.turn reply = .ok turn)

include turned

theorem shows_partition (phase : self.phase = .partition) :
    turn.Shows items := by
  simp only [SortMachine.turn, phase] at turned
  split_ifs at turned with few deep <;> cases turned
  · intro first second above before below other
    dsimp only at above below other
    omega
  · intro parent child above _ isChild below
    unfold IsChild at isChild
    dsimp only at above below
    omega
  · trivial

theorem shows_pivot (phase : self.phase = .pivot) : turn.Shows items := by
  simp only [SortMachine.turn, phase] at turned
  cases turned
  refine ⟨(items ∘ swap self.base self.pivot) self.base, ?_⟩
  intro index above below order expected
  simp only [scannedOrder, top] at above below expected
  obtain rfl : index = self.base := by grind
  grind

variable (placed : self.Placed length) (shown : self.Shown items reply)

include placed shown

theorem shows_left (phase : self.phase = .left) : turn.Shows items := by
  simp only [Placed, phase, Scanning, Dividing, top] at placed
  simp only [Shown, phase] at shown
  simp only [SortMachine.turn, phase] at turned
  obtain ⟨pivot, divided⟩ := shown
  have atBase := divided.atBase (by omega) (by unfold top; omega)
  split_ifs at turned with room <;> cases turned
  · exact ⟨pivot, divided, by rw [atBase]⟩
  · exact ⟨pivot, divided, fun within => absurd within room⟩

theorem shows_leftReply (phase : self.phase = .leftReply) :
    turn.Shows items := by
  simp only [Placed, phase, Scanning, Dividing, top] at placed
  simp only [Shown, phase] at shown
  obtain ⟨pivot, divided, rfl⟩ := shown
  simp only [SortMachine.turn, phase, expectReply, ok_bind] at turned
  cases compared : compare pivot (items self.left)
  all_goals
    rw [compared] at turned
    cases turned
  case lt => exact ⟨pivot, divided, fun _ => compared⟩
  case eq =>
    refine ⟨pivot, ?_⟩
    simp only [SortMachine.Divided, scannedOrder, top, comp_apply,
      swap_apply_def] at divided ⊢
    grind
  case gt =>
    refine ⟨pivot, ?_⟩
    simp only [SortMachine.Divided, scannedOrder, top] at divided ⊢
    grind

theorem shows_right (phase : self.phase = .right) : turn.Shows items := by
  simp only [Placed, phase, Scanning, Dividing, top] at placed
  simp only [Shown, phase] at shown
  obtain ⟨pivot, divided, greater⟩ := shown
  have atBase := divided.atBase (by omega) (by unfold top; omega)
  simp (disch := omega) only [SortMachine.turn, phase, checkedSub_eq_ok,
    ok_bind] at turned
  split_ifs at turned with met <;> cases turned
  · refine ⟨pivot, ?_, fun within => absurd within (Nat.not_lt.mpr met)⟩
    simp only [SortMachine.Divided, scannedOrder, top] at divided ⊢
    grind
  · refine ⟨pivot, ?_, greater (by omega), by rw [atBase]⟩
    simp only [SortMachine.Divided, scannedOrder, top] at divided ⊢
    grind

theorem shows_rightReply (phase : self.phase = .rightReply) :
    turn.Shows items := by
  simp only [Placed, phase, Scanning, Dividing, top] at placed
  simp only [Shown, phase] at shown
  obtain ⟨pivot, divided, greater, rfl⟩ := shown
  simp (disch := omega) only [SortMachine.turn, phase, expectReply,
    checkedSub_eq_ok, ok_bind] at turned
  simp only [SortMachine.Divided, scannedOrder, top] at divided
  cases compared : compare pivot (items self.right)
  all_goals
    rw [compared] at turned
    cases turned
  case lt =>
    refine ⟨pivot, ?_, fun _ => greater⟩
    simp only [SortMachine.Divided, scannedOrder, top]
    grind
  case eq =>
    refine ⟨pivot, ?_, fun _ => ?_⟩
    · simp only [SortMachine.Divided, scannedOrder, top,
        comp_apply, swap_apply_def]
      grind
    · simp only [comp_apply, swap_apply_def]
      grind
  case gt =>
    refine ⟨pivot, ?_, fun _ => ⟨greater, compared⟩⟩
    simp only [SortMachine.Divided, scannedOrder, top]
    grind

theorem shows_cross (phase : self.phase = .cross) : turn.Shows items := by
  simp only [Placed, phase, Scanning, Dividing, top] at placed
  simp only [Shown, phase] at shown
  obtain ⟨pivot, divided, known⟩ := shown
  simp (disch := omega) only [SortMachine.turn, phase, checkedSub_eq_ok,
    ok_bind] at turned
  simp only [SortMachine.Divided, scannedOrder, top] at divided
  split_ifs at turned <;> cases turned
  all_goals
    refine ⟨pivot, ?_⟩
    simp only [SortMachine.Divided, scannedOrder, loweredOrder, top,
      comp_apply, swap_apply_def]
    grind

theorem shows_swap
    (phase : self.phase = .lowerSwap ∨ self.phase = .upperSwap) :
    turn.Shows items := by
  rcases phase with phase | phase
  all_goals
    simp only [Placed, phase, Scanning, Dividing, top] at placed
    simp only [Shown, phase] at shown
    obtain ⟨pivot, divided⟩ := shown
    simp (disch := omega) only [SortMachine.turn, phase, checkedSub_eq_ok,
      ok_bind] at turned
    simp only [SortMachine.Divided, loweredOrder, raisedOrder, top] at divided
    split_ifs at turned <;> cases turned
    all_goals
      simp only [Turn.Shows, Shown]
      refine ⟨pivot, ?_⟩
      simp only [SortMachine.Divided, loweredOrder, raisedOrder, dividedOrder,
        top, comp_apply, swap_apply_def]
      grind

theorem shows_insertion (phase : self.phase = .insertion) :
    turn.Shows items := by
  simp only [Placed, phase, top] at placed
  simp only [Shown, phase] at shown
  simp only [SortMachine.turn, phase] at turned
  split_ifs at turned with done atBase
  · cases turned
    intro first second above before below
    dsimp only [top] at above below
    exact shown first second above before (by omega) (by omega)
  · cases turned
    simp only [Turn.Shows, Shown]
    intro first second above before below other
    dsimp only at above below other
    exact shown first second above before (by omega) (by omega)
  · rw [checkedSub_eq_ok (by omega)] at turned
    cases turned
    exact ⟨shown, rfl⟩

theorem shows_insertionReply (phase : self.phase = .insertionReply) :
    turn.Shows items := by
  simp only [Placed, phase, top] at placed
  simp only [Shown, phase] at shown
  obtain ⟨sinking, rfl⟩ := shown
  simp only [SortMachine.turn, phase, expectReply, ok_bind] at turned
  split_ifs at turned with greater <;> cases turned
  · exact ⟨sinking, by simpa using greater⟩
  · intro first second above before below other
    dsimp only at above below other
    have stays : items (self.position - 1) ≤ items self.position := by
      simpa using greater
    by_cases sank : second = self.position
    · rw [sank]
      refine le_trans ?_ stays
      rcases Nat.lt_or_ge first (self.position - 1) with further | next
      · exact sinking first _ above further (by omega) (by omega)
      · rw [show first = self.position - 1 by omega]
    · exact sinking first second above before (by omega) sank

theorem shows_insertionSwap (phase : self.phase = .insertionSwap) :
    turn.Shows items := by
  simp only [Placed, phase, top] at placed
  simp only [Shown, phase] at shown
  obtain ⟨sinking, less⟩ := shown
  simp (disch := omega) only [SortMachine.turn, phase, checkedSub_eq_ok,
    ok_bind] at turned
  cases turned
  intro first second above before below other
  dsimp only at above below other
  simp only [comp_apply, swap_apply_def]
  rcases Nat.decEq second self.position with notNext | rfl
  · rw [if_neg notNext, if_neg other]
    split_ifs
    all_goals exact sinking _ second (by omega) (by omega) below notNext
  · rw [if_pos rfl, if_neg (by omega)]
    split_ifs
    · exact less.le
    · exact sinking first _ above (by omega) (by omega) (by omega)

theorem shows_heapBuild (phase : self.phase = .heapBuild) :
    turn.Shows items := by
  simp only [Placed, phase, top] at placed
  simp only [Shown, phase] at shown
  simp (disch := omega) only [SortMachine.turn, phase, checkedSub_eq_ok,
    ok_bind] at turned
  split_ifs at turned <;> cases turned
  · refine ⟨?_, ?_⟩
    · intro parent child above _ isChild below
      dsimp only at below
      exact shown parent child (by omega) id isChild (by omega)
    · intro first second before above below
      dsimp only at above below
      omega
  · have low : heapLow
        { self with
          heapCursor := self.heapCursor - 1, root := self.heapCursor - 1,
          phase := .sift } = self.heapCursor - 1 := by
      simp [heapLow, placed]
    refine ⟨low.le, ?_, ?_, ?_⟩
    · rw [low]
      intro parent child above notRoot isChild below
      dsimp only at below notRoot
      exact shown parent child (by omega) id isChild (by omega)
    · rw [low]
      intro parent child above isParent
      unfold IsChild at isParent
      dsimp only at isParent
      omega
    · intro first second before above below
      dsimp only at above below
      omega

theorem shows_heapExtract (phase : self.phase = .heapExtract) :
    turn.Shows items := by
  simp only [Placed, phase, top] at placed
  simp only [Shown, phase] at shown
  obtain ⟨heaped, extracted⟩ := shown
  simp only [SortMachine.turn, phase] at turned
  split_ifs at turned with last <;> cases turned
  · intro first second above before below
    dsimp only [top] at above below
    have ordered := extracted (first - self.base) (second - self.base)
      (by omega) (by omega) (by omega)
    rwa [Nat.add_sub_cancel' above, Nat.add_sub_cancel' (by omega)] at ordered
  · have low : heapLow
        { self with
          heapEnd := self.heapCursor, heapCursor := self.heapCursor - 1,
          root := 0, phase := .sift } = 0 := by
      simp [heapLow, placed]
    refine ⟨low.le, ?_, ?_, ?_⟩
    · rw [low]
      intro parent child _ notRoot isChild below
      dsimp only at below notRoot
      have := heaped parent child (Nat.zero_le _) id isChild (by omega)
      unfold IsChild at isChild
      simp only [comp_apply]
      rwa [swap_apply_of_ne_of_ne (by omega) (by omega),
        swap_apply_of_ne_of_ne (by omega) (by omega)]
    · intro parent child _ isParent
      unfold IsChild at isParent
      dsimp only at isParent
      omega
    · intro first second before above below
      dsimp only at above below
      simp only [comp_apply]
      rcases Nat.lt_or_ge self.heapCursor second with beyond | atCursor
      · have kept : swap self.base (self.base + self.heapCursor)
            (self.base + second) = self.base + second :=
          swap_apply_of_ne_of_ne (by omega) (by omega)
        rw [kept, swap_apply_def]
        split_ifs
        · exact extracted _ second beyond beyond below
        · exact extracted 0 second (by omega) beyond below
        · exact extracted first second before beyond below
      · obtain rfl : second = self.heapCursor := by omega
        rw [swap_apply_right, swap_apply_def]
        split_ifs
        · exact heaped.le_root (by omega)
        · exact le_rfl
        · exact heaped.le_root (by omega)

theorem shows_sift (phase : self.phase = .sift) : turn.Shows items := by
  simp only [Placed, phase] at placed
  simp only [Shown, phase] at shown
  simp only [SortMachine.turn, phase] at turned
  split_ifs at turned with leaf pair <;> cases turned
  · refine shown.sifted placed.1 ?_ rfl rfl rfl rfl
    intro child isChild below
    unfold IsChild at isChild
    omega
  · exact ⟨{ shown with }, rfl⟩
  · refine ⟨{ shown with }, ⟨.inl rfl, ?_⟩, rfl⟩
    rintro other (rfl | rfl) below
    · exact le_rfl
    · dsimp only at below
      omega

theorem shows_siftChild (phase : self.phase = .siftChild) :
    turn.Shows items := by
  simp only [Placed, phase] at placed
  obtain ⟨-, isFirst, -⟩ := placed
  simp only [Shown, phase] at shown
  obtain ⟨sifting, rfl⟩ := shown
  simp only [SortMachine.turn, phase, expectReply, ok_bind] at turned
  cases turned
  refine ⟨{ sifting with }, ?_, rfl⟩
  unfold Greatest IsChild
  rw [isFirst]
  cases compared : compare (items (self.base + (self.root * 2 + 1)))
    (items (self.base + (self.root * 2 + 1) + 1)) with
  | lt | eq =>
    refine ⟨.inr rfl, ?_⟩
    rintro other (rfl | rfl) below
    · simp at compared
      exact compared.le
    · exact le_rfl
  | gt =>
    refine ⟨.inl rfl, ?_⟩
    rintro other (rfl | rfl) below
    · exact le_rfl
    · simp at compared
      exact compared.le

theorem shows_siftRoot (phase : self.phase = .siftRoot) : turn.Shows items := by
  simp only [Placed, phase] at placed
  simp only [Shown, phase] at shown
  obtain ⟨sifting, greatest, rfl⟩ := shown
  simp only [SortMachine.turn, phase, expectReply, ok_bind] at turned
  split_ifs at turned with greater <;> cases turned
  · refine sifting.sifted placed.1 ?_ rfl rfl rfl rfl
    intro child isChild below
    refine (greatest.2 child isChild below).trans ?_
    simp at greater
    exact greater.le
  · exact ⟨{ sifting with }, greatest, by simpa using greater⟩

theorem shows_siftSwap (phase : self.phase = .siftSwap) : turn.Shows items := by
  simp only [Placed, phase] at placed
  simp only [Shown, phase] at shown
  obtain ⟨sifting, ⟨isChild, greatest⟩, less⟩ := shown
  simp only [SortMachine.turn, phase] at turned
  cases turned
  refine ⟨?_, ?_, ?_, ?_⟩
  · have above := sifting.above
    unfold IsChild at isChild
    simp only [heapLow] at above ⊢
    omega
  · intro parent other above notChild isOther otherBelow
    simp only [comp_apply, swap_apply_def,
      Nat.add_left_cancel_iff, if_neg notChild]
    rcases Nat.decEq parent self.root with notRoot | isRoot
    · rw [if_neg notRoot]
      have notGrand : other ≠ self.child := by
        unfold IsChild at *
        omega
      split_ifs with otherRoot
      · subst otherRoot
        exact sifting.grand parent self.child above isOther isChild placed.2.2
      · exact sifting.heaped parent other above notRoot isOther otherBelow
    · subst isRoot
      have notParent : other ≠ self.root := by
        unfold IsChild at *
        omega
      rw [if_pos rfl, if_neg notParent]
      split_ifs
      · exact less
      · exact greatest other isOther otherBelow
  · intro parent grandchild above isParent isGrandchild grandBelow
    have heaped := sifting.heaped self.child grandchild
    have low := sifting.above
    unfold IsChild at isChild isParent isGrandchild heaped
    dsimp only at isParent isGrandchild
    obtain rfl : parent = self.root := by omega
    have notParent : grandchild ≠ self.root := by omega
    have notChild : grandchild ≠ self.child := by omega
    simp only [comp_apply, swap_apply_def,
      Nat.add_left_cancel_iff, if_neg notParent, if_neg notChild, if_true]
    exact heaped (by omega) (by omega) isGrandchild grandBelow
  · intro first second before above below
    dsimp only at above below
    have kept : swap (self.base + self.root) (self.base + self.child)
        (self.base + second) = self.base + second :=
      swap_apply_of_ne_of_ne (by omega) (by omega)
    simp only [comp_apply]
    rw [kept, swap_apply_def]
    split_ifs
    all_goals exact sifting.extracted _ second (by omega) above below

theorem shows_turn : turn.Shows items := by
  cases phase : self.phase with
  | partition => exact shows_partition turned phase
  | pivot => exact shows_pivot turned phase
  | left => exact shows_left turned placed shown phase
  | leftReply => exact shows_leftReply turned placed shown phase
  | right => exact shows_right turned placed shown phase
  | rightReply => exact shows_rightReply turned placed shown phase
  | cross => exact shows_cross turned placed shown phase
  | lowerSwap => exact shows_swap turned placed shown (.inl phase)
  | upperSwap => exact shows_swap turned placed shown (.inr phase)
  | insertion => exact shows_insertion turned placed shown phase
  | insertionReply => exact shows_insertionReply turned placed shown phase
  | insertionSwap => exact shows_insertionSwap turned placed shown phase
  | heapBuild => exact shows_heapBuild turned placed shown phase
  | heapExtract => exact shows_heapExtract turned placed shown phase
  | sift => exact shows_sift turned placed shown phase
  | siftChild => exact shows_siftChild turned placed shown phase
  | siftRoot => exact shows_siftRoot turned placed shown phase
  | siftSwap => exact shows_siftSwap turned placed shown phase
  | pop =>
    simp only [SortMachine.turn, phase] at turned
    simp only [Shown, phase] at shown
    split at turned
    · cases turned
      simpa only [Turn.Shows, Shown, phase] using shown
    · split at turned <;> cases turned
      trivial
  | split =>
    simp only [SortMachine.turn, phase] at turned
    split_ifs at turned <;> cases turned <;> trivial
  | medianFirst | medianThird | medianSecond =>
    simp only [SortMachine.turn, phase] at turned
    cases reply with
    | none => cases turned
    | some =>
      simp only [expectReply, ok_bind] at turned
      first
      | cases turned
        trivial
      | split_ifs at turned <;> cases turned <;> trivial

end

structure Arranged (length : Nat) (machine : SortMachine)
    (reply : Option Ordering) (items : Nat → Nat) : Prop where
  apart : SortedApart length machine.unsorted items
  shown : machine.Shown items reply

theorem SortMachine.SameRanges.unsorted
    (same : SameRanges self after) : after.unsorted = self.unsorted := by
  obtain ⟨stack, stackLen, base, count⟩ := same
  simp only [SortMachine.unsorted, stack, stackLen, base, count]

namespace Arranged

variable {self after : SortMachine}
  (arranged : Arranged length self reply items)

include arranged

theorem sorted (complete : (Turn.act self .complete).Onward length self) :
    SortedOn items 0 length := by
  obtain ⟨apart, shown⟩ := arranged
  obtain ⟨-, phase, empty⟩ := complete
  simp only [Shown, phase] at shown
  simp only [unsorted, empty, pending, List.take_zero] at apart
  exact (apart.drop shown).sorted

theorem pop (phase : self.phase = .pop)
    (turned : self.turn reply = .ok (.again after none)) :
    SortedApart length after.unsorted items := by
  obtain ⟨apart, shown⟩ := arranged
  simp only [Shown, phase] at shown
  have remaining := apart.drop shown
  simp only [turn, phase] at turned
  split at turned
  · cases turned
  · rename_i nonempty
    split at turned
    · cases turned
    · rename_i found
      obtain ⟨_, last⟩ := Nat.exists_eq_succ_of_ne_zero nonempty
      rw [last, Nat.succ_sub_one] at found
      rw [last, pending_succ found, List.map_cons] at remaining
      cases turned
      simpa only [unsorted, last, Nat.succ_sub_one] using remaining

variable (safe : self.Safe length)

include safe

theorem split (phase : self.phase = .split)
    (turned : self.turn reply = .ok (.again after none)) :
    SortedApart length after.unsorted items := by
  obtain ⟨apart, shown⟩ := arranged
  obtain ⟨⟨capacity, -⟩, placed⟩ := safe
  simp only [Placed, phase, Dividing, top] at placed
  simp only [Shown, phase] at shown
  obtain ⟨pivot, divided⟩ := shown
  have room : self.stackLen < self.stack.length := by omega
  have ordered : ∀ first second, self.base ≤ first → first < second →
      second < self.base + self.count →
      self.base + self.lowerCount ≤ second → first < self.upperBase →
      items first ≤ items second := by
    intro first second above before below notLower notUpper
    have atFirst := divided first above (by unfold top; omega)
    have atSecond := divided second (by omega) below
    simp only [dividedOrder, if_pos notUpper,
      if_neg (Nat.not_lt.mpr notLower)] at atFirst atSecond
    have atMost : items first ≤ pivot := by
      split_ifs at atFirst
      · exact (Nat.compare_eq_gt.mp (atFirst .gt rfl)).le
      · exact (Nat.compare_eq_eq.mp (atFirst .eq rfl)).ge
    refine atMost.trans ?_
    split_ifs at atSecond
    · exact (Nat.compare_eq_eq.mp (atSecond .eq rfl)).le
    · exact (Nat.compare_eq_lt.mp (atSecond .lt rfl)).le
  simp only [turn, phase, room, not_true, if_false] at turned
  -- Either part may be the one that goes on the stack.
  split at turned <;> cases turned
  all_goals
    simp only [unsorted, pending_push room, List.map_cons]
    refine apart.divide ?_ ?_ ?_ ?_
    · dsimp only; omega
    · dsimp only; omega
    · dsimp only; omega
    · intro first second above before below notStacked notKept
      dsimp only at notStacked notKept
      exact ordered first second above before below (by omega) (by omega)

theorem again (turned : self.turn reply = .ok (.again after none))
    (onward : (Turn.again after none).Onward length self) :
    Arranged length after none items := by
  refine ⟨?_, shows_turn turned safe.2 arranged.shown⟩
  obtain ⟨-, -, same⟩ := onward
  by_cases isPop : self.phase = .pop
  · exact arranged.pop isPop turned
  · by_cases isSplit : self.phase = .split
    · exact arranged.split safe isSplit turned
    · rw [(same isPop isSplit).unsorted]
      exact arranged.apart

theorem compare {left right : Nat}
    (turned : self.turn reply = .ok (.act after (.compare left right)))
    (onward : (Turn.act after (.compare left right)).Onward length self) :
    Arranged length after (some (Ord.compare (items left) (items right)))
      items := by
  refine ⟨?_, shows_turn turned safe.2 arranged.shown⟩
  rw [onward.2.1.unsorted]
  exact arranged.apart

theorem swap {left right : Nat}
    (turned : self.turn reply = .ok (.act after (.swap left right)))
    (onward : (Turn.act after (.swap left right)).Onward length self) :
    Arranged length after none (items ∘ swap left right) := by
  refine ⟨?_, shows_turn turned safe.2 arranged.shown⟩
  obtain ⟨-, same, fits, leftInside, rightInside⟩ := onward
  rw [same.unsorted]
  exact arranged.apart.swap fits leftInside rightInside

end Arranged

theorem arranged_new (length : Nat) (items : Nat → Nat) :
    Arranged length (.new length) none items := by
  refine ⟨?_, fun first second _ _ below => absurd below (Nat.not_lt_zero _)⟩
  rcases Nat.lt_or_ge length 2 with short | long
  · refine ⟨?_, fun first second before below => by omega⟩
    simp [unsorted, new, Nat.not_le.mpr short, pending]
  · have whole : (new length).unsorted = [(0, 0), (0, length)] := by
      simp [unsorted, new, long, pending]
    rw [whole]
    refine ⟨by simp, fun first second before below outside => ?_⟩
    have := outside (0, length) (by simp)
    omega

end QuickJsOxide.Arrays
