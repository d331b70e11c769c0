import QuickJsOxide.Library.Program

namespace QuickJsOxide.Arrays

open Library

/-! The resumable sort of slots by index. The machine never sees the slots:
it asks for comparisons and swaps of two positions. -/

inductive SortAction where
  | complete
  | compare (left right : Nat)
  | swap (left right : Nat)
deriving Repr, DecidableEq

inductive Phase where
  | pop
  | partition
  | medianFirst
  | medianSecond (less : Bool)
  | medianThird (less : Bool)
  | pivot
  | left
  | leftReply
  | right
  | rightReply
  | cross
  | lowerSwap
  | upperSwap
  | split
  | insertion
  | insertionReply
  | insertionSwap
  | heapBuild
  | heapExtract
  | sift
  | siftChild
  | siftRoot
  | siftSwap
deriving Repr, DecidableEq

inductive Panic where
  | expected (message : String)
  | outOfBounds
  | underflow
  | assertion
deriving Repr, DecidableEq

structure SortMachine where
  stack : List (Nat × Nat × Nat)
  stackLen : Nat
  base : Nat
  count : Nat
  depth : Nat
  phase : Phase
  pivot : Nat
  scanned : Nat
  lowerEqual : Nat
  left : Nat
  lowerEqualEnd : Nat
  upperEqual : Nat
  right : Nat
  upperEqualStart : Nat
  span : Nat
  offset : Nat
  lowerCount : Nat
  upperBase : Nat
  upperCount : Nat
  current : Nat
  position : Nat
  heapBuilding : Bool
  heapCursor : Nat
  heapEnd : Nat
  root : Nat
  child : Nat
deriving Repr

/-- The capacity of the stack of pending ranges, and the depth from which
ranges are sorted as heaps. -/
def stackCapacity : Nat := 50

/-- One turn of the loop in `advance`: continue it with what is left of the
reply, or return an action. -/
inductive Turn where
  | again (machine : SortMachine) (reply : Option Ordering)
  | act (machine : SortMachine) (action : SortAction)
deriving Repr

@[simp] theorem ok_bind (value : α) (next : α → Except ε β) :
    (.ok value >>= next) = next value := rfl

@[simp] theorem pure_eq (value : α) : (pure value : Except ε α) = .ok value :=
  rfl

def checkedSub (left right : Nat) : Except Panic Nat :=
  if right ≤ left then .ok (left - right) else .error .underflow

theorem checkedSub_eq_ok (le : right ≤ left) :
    checkedSub left right = .ok (left - right) :=
  if_pos le

@[simp] def expectReply : Option Ordering → Except Panic Ordering
  | some order => .ok order
  | none => .error (.expected "rqsort comparison reply")

namespace SortMachine

def new (length : Nat) : SortMachine where
  stack := (0, length, 0) :: List.replicate (stackCapacity - 1) (0, 0, 0)
  stackLen := if 2 ≤ length then 1 else 0
  base := 0
  count := 0
  depth := 0
  phase := .pop
  pivot := 0
  scanned := 0
  lowerEqual := 0
  left := 0
  lowerEqualEnd := 0
  upperEqual := 0
  right := 0
  upperEqualStart := 0
  span := 0
  offset := 0
  lowerCount := 0
  upperBase := 0
  upperCount := 0
  current := 0
  position := 0
  heapBuilding := false
  heapCursor := 0
  heapEnd := 0
  root := 0
  child := 0

def siftedPhase (self : SortMachine) : Phase :=
  if self.heapBuilding then .heapBuild else .heapExtract

def turn (self : SortMachine) (reply : Option Ordering) :
    Except Panic Turn :=
  match self.phase with
  | .pop =>
    if self.stackLen = 0 then .ok (.act self .complete)
    else
      match self.stack[self.stackLen - 1]? with
      | none => .error .outOfBounds
      | some (base, count, depth) =>
        .ok (.again
          { self with
            stackLen := self.stackLen - 1, base, count, depth,
            phase := .partition }
          reply)
  | .partition =>
    if self.count ≤ 6 then
      .ok (.again
        { self with
          current := self.base + 1, position := self.base + 1,
          phase := .insertion }
        reply)
    else if self.depth + 1 > stackCapacity then
      .ok (.again
        { self with
          depth := self.depth + 1, heapBuilding := true,
          heapCursor := self.count / 2, heapEnd := self.count,
          phase := .heapBuild }
        reply)
    else
      let quarter := self.count / 4
      .ok (.act
        { self with depth := self.depth + 1, phase := .medianFirst }
        (.compare (self.base + quarter) (self.base + 2 * quarter)))
  | .medianFirst => do
    let order ← expectReply reply
    let quarter := self.count / 4
    return .act { self with phase := .medianSecond order.isLT }
      (.compare (self.base + 2 * quarter) (self.base + 3 * quarter))
  | .medianSecond less => do
    let order ← expectReply reply
    let quarter := self.count / 4
    if (less && order.isLT) || (!less && order.isGT) then
      return .again
        { self with pivot := self.base + 2 * quarter, phase := .pivot } none
    else
      return .act { self with phase := .medianThird less }
        (.compare (self.base + quarter) (self.base + 3 * quarter))
  | .medianThird less => do
    let order ← expectReply reply
    let quarter := self.count / 4
    return .again
      { self with
        pivot := self.base +
          (if order.isLT = less then 3 * quarter else quarter),
        phase := .pivot }
      none
  | .pivot =>
    .ok (.act
      { self with
        scanned := 1, lowerEqual := 1, left := self.base + 1,
        lowerEqualEnd := self.base + 1, upperEqual := self.count,
        right := self.base + self.count,
        upperEqualStart := self.base + self.count, phase := .left }
      (.swap self.base self.pivot))
  | .left =>
    if self.left < self.right then
      .ok (.act { self with phase := .leftReply }
        (.compare self.base self.left))
    else
      .ok (.again { self with phase := .right } reply)
  | .leftReply => do
    let order ← expectReply reply
    if order.isLT then
      return .again { self with phase := .right } none
    else if order.isEq then
      return .act
        { self with
          scanned := self.scanned + 1, left := self.left + 1,
          lowerEqual := self.lowerEqual + 1,
          lowerEqualEnd := self.lowerEqualEnd + 1, phase := .left }
        (.swap self.lowerEqualEnd self.left)
    else
      return .again
        { self with
          scanned := self.scanned + 1, left := self.left + 1,
          phase := .left }
        none
  | .right => do
    let right ← checkedSub self.right 1
    if self.left ≥ right then
      return .again { self with right, phase := .cross } reply
    else
      return .act { self with right, phase := .rightReply }
        (.compare self.base right)
  | .rightReply => do
    let order ← expectReply reply
    if order.isGT then
      return .again { self with phase := .cross } none
    else if order.isEq then
      let upperEqual ← checkedSub self.upperEqual 1
      let upperEqualStart ← checkedSub self.upperEqualStart 1
      return .act { self with upperEqual, upperEqualStart, phase := .right }
        (.swap upperEqualStart self.right)
    else
      return .again { self with phase := .right } none
  | .cross => do
    if self.left < self.right then
      return .act
        { self with
          scanned := self.scanned + 1, left := self.left + 1,
          phase := .left }
        (.swap self.left self.right)
    else
      let equal ← checkedSub self.lowerEqualEnd self.base
      let lower ← checkedSub self.left self.lowerEqualEnd
      let lowerCount ← checkedSub self.scanned self.lowerEqual
      return .again
        { self with
          span := min equal lower, lowerCount, offset := 0,
          phase := .lowerSwap }
        reply
  | .lowerSwap => do
    if self.offset < self.span then
      let start ← checkedSub self.left self.span
      return .act { self with offset := self.offset + 1 }
        (.swap (self.base + self.offset) (start + self.offset))
    else
      let top := self.base + self.count
      let middle ← checkedSub self.upperEqualStart self.left
      let upperBase ← checkedSub top middle
      let upperCount ← checkedSub self.upperEqual self.scanned
      let equal ← checkedSub top self.upperEqualStart
      return .again
        { self with
          upperBase, upperCount, span := min equal middle, offset := 0,
          phase := .upperSwap }
        reply
  | .upperSwap => do
    if self.offset < self.span then
      let start ← checkedSub (self.base + self.count) self.span
      return .act { self with offset := self.offset + 1 }
        (.swap (self.left + self.offset) (start + self.offset))
    else
      return .again { self with phase := .split } reply
  | .split =>
    if ¬ self.stackLen < self.stack.length then .error .assertion
    else if self.lowerCount > self.upperCount then
      .ok (.again
        { self with
          stack := self.stack.set self.stackLen
            (self.base, self.lowerCount, self.depth),
          base := self.upperBase, count := self.upperCount,
          stackLen := self.stackLen + 1, phase := .partition }
        reply)
    else
      .ok (.again
        { self with
          stack := self.stack.set self.stackLen
            (self.upperBase, self.upperCount, self.depth),
          count := self.lowerCount,
          stackLen := self.stackLen + 1, phase := .partition }
        reply)
  | .insertion => do
    if self.current ≥ self.base + self.count then
      return .again { self with phase := .pop } reply
    else if self.position ≤ self.base then
      return .again
        { self with
          current := self.current + 1, position := self.current + 1 }
        reply
    else
      let previous ← checkedSub self.position 1
      return .act { self with phase := .insertionReply }
        (.compare previous self.position)
  | .insertionReply => do
    let order ← expectReply reply
    if order.isGT then
      return .again { self with phase := .insertionSwap } none
    else
      return .again
        { self with
          current := self.current + 1, position := self.current + 1,
          phase := .insertion }
        none
  | .insertionSwap => do
    let previous ← checkedSub self.position 1
    return .act { self with position := previous, phase := .insertion }
      (.swap self.position previous)
  | .heapBuild => do
    if self.heapCursor = 0 then
      let last ← checkedSub self.count 1
      return .again
        { self with
          heapBuilding := false, heapCursor := last,
          phase := .heapExtract }
        reply
    else
      return .again
        { self with
          heapCursor := self.heapCursor - 1, root := self.heapCursor - 1,
          phase := .sift }
        reply
  | .heapExtract =>
    if self.heapCursor = 0 then
      .ok (.again { self with phase := .pop } reply)
    else
      .ok (.act
        { self with
          heapEnd := self.heapCursor, heapCursor := self.heapCursor - 1,
          root := 0, phase := .sift }
        (.swap self.base (self.base + self.heapCursor)))
  | .sift =>
    let child := self.root * 2 + 1
    if child ≥ self.heapEnd then
      .ok (.again { self with child, phase := self.siftedPhase } reply)
    else if child + 1 < self.heapEnd then
      .ok (.act { self with child, phase := .siftChild }
        (.compare (self.base + child) (self.base + child + 1)))
    else
      .ok (.act { self with child, phase := .siftRoot }
        (.compare (self.base + self.root) (self.base + child)))
  | .siftChild => do
    let order ← expectReply reply
    let child := if !order.isGT then self.child + 1 else self.child
    return .act { self with child, phase := .siftRoot }
      (.compare (self.base + self.root) (self.base + child))
  | .siftRoot => do
    let order ← expectReply reply
    if order.isGT then
      return .again { self with phase := self.siftedPhase } none
    else
      return .again { self with phase := .siftSwap } none
  | .siftSwap =>
    .ok (.act { self with root := self.child, phase := .sift }
      (.swap (self.base + self.root) (self.base + self.child)))

def turnBody (state : SortMachine × Option Ordering) :
    Except Panic
      ((SortMachine × Option Ordering) ⊕ (SortMachine × SortAction)) :=
  match state.1.turn state.2 with
  | .error panic => .error panic
  | .ok (.again machine reply) => .ok (.inl (machine, reply))
  | .ok (.act machine action) => .ok (.inr (machine, action))

def advance (self : SortMachine) (reply : Option Ordering) :
    Program Panic (SortMachine × SortAction) :=
  Program.loop (fun state => Program.lift (turnBody state)) (self, reply)

variable {self after : SortMachine}

theorem advance_again (turned : self.turn reply = .ok (.again after rest))
    (returns : (after.advance rest).Returns answer) :
    (self.advance reply).Returns answer := by
  refine Program.Returns.again ?_ returns
  simpa only [turnBody, turned] using
    Program.returns_lift (turnBody (self, reply))

theorem advance_act (turned : self.turn reply = .ok (.act after action)) :
    (self.advance reply).Returns (.ok (after, action)) := by
  apply Program.Returns.break
  simpa only [turnBody, turned] using
    Program.returns_lift (turnBody (self, reply))

end SortMachine

def swapAt (values : List α) (left right : Nat) : Except Panic (List α) :=
  match values[left]?, values[right]? with
  | some leftValue, some rightValue =>
    .ok ((values.set left rightValue).set right leftValue)
  | _, _ => .error .outOfBounds

section

variable {ε : Type} {T : Type}

def rqsortBody (compare : List T → Nat → Nat → Except ε Ordering)
    (state : SortMachine × Option Ordering × List T) :
    Program (Panic ⊕ ε)
      ((SortMachine × Option Ordering × List T) ⊕ List T) := do
  let (machine, reply, values) := state
  let (machine, action) ← (machine.advance reply).mapError Sum.inl
  match action with
  | .complete => return .inr values
  | .compare left right =>
    let reply ← Program.lift ((compare values left right).mapError Sum.inr)
    return .inl (machine, some reply, values)
  | .swap left right =>
    let values ← Program.lift ((swapAt values left right).mapError Sum.inl)
    return .inl (machine, none, values)

def quickjsRqsortBy (values : List T)
    (compare : List T → Nat → Nat → Except ε Ordering) :
    Program (Panic ⊕ ε) (List T) :=
  Program.loop (rqsortBody compare) (.new values.length, none, values)

end

end QuickJsOxide.Arrays
