import Mathlib.Algebra.GroupWithZero.Nat
import Mathlib.Data.Prod.Lex
import Mathlib.Tactic.SplitIfs
import QuickJsOxide.Arrays.Rqsort

namespace QuickJsOxide.Arrays

open Library List

/-! What every turn of the machine keeps, whatever the replies are, and why it
stops asking. -/

def pending (stack : List (Nat × Nat × Nat)) (stackLen : Nat) :
    List (Nat × Nat × Nat) :=
  (stack.take stackLen).reverse

/-- Every waiting range lies in the slots, and is as deep at least as the number
of ranges that wait below it. -/
def Waiting (length : Nat) : List (Nat × Nat × Nat) → Prop
  | [] => True
  | (base, count, depth) :: rest =>
    base + count ≤ length ∧ rest.length ≤ depth ∧ Waiting length rest

def owed (ranges : List (Nat × Nat × Nat)) : Nat :=
  (ranges.map fun range => 2 * range.2.1 + 1).sum

section

variable {range : Nat × Nat × Nat}

theorem pending_succ (found : stack[stackLen]? = some range) :
    pending stack (stackLen + 1) = range :: pending stack stackLen := by
  simp [pending, take_add_one, found]

theorem pending_push (below : stackLen < stack.length) :
    pending (stack.set stackLen range) (stackLen + 1) =
      range :: pending stack stackLen := by
  rw [pending_succ (getElem?_set_self below)]
  simp [pending, take_set_of_le]

theorem length_pending (le : stackLen ≤ stack.length) :
    (pending stack stackLen).length = stackLen := by
  simp [pending, le]

end

def Phase.awaits : Phase → Bool
  | .medianFirst | .medianSecond _ | .medianThird _ | .leftReply | .rightReply
  | .insertionReply | .siftChild | .siftRoot => true
  | _ => false

structure Stacked (length : Nat) (stack : List (Nat × Nat × Nat))
    (stackLen : Nat) : Prop where
  capacity : stack.length = stackCapacity
  bounded : stackLen ≤ stackCapacity
  waiting : Waiting length (pending stack stackLen)

namespace SortMachine

section

variable (self : SortMachine) (length : Nat)

def top : Nat :=
  self.base + self.count

/-- The range is being divided, with room on the stack for one half. -/
def Dividing : Prop :=
  6 < self.count ∧ self.top ≤ length ∧ self.stackLen < self.depth ∧
    self.depth ≤ stackCapacity

def Scanning : Prop :=
  self.Dividing length ∧ self.base + self.scanned = self.left ∧
    self.base + self.lowerEqual = self.lowerEqualEnd ∧
    self.base + self.upperEqual = self.upperEqualStart ∧
    self.base < self.lowerEqualEnd ∧ self.lowerEqualEnd ≤ self.left ∧
    self.left ≤ self.upperEqualStart ∧ self.upperEqualStart ≤ self.top

/-- The heap takes the whole range until its greatest item is taken out. -/
def Heaping : Prop :=
  self.top ≤ length ∧ self.heapCursor < self.count ∧
    self.heapEnd ≤ self.count ∧ self.heapEnd =
      if self.heapBuilding then self.count else self.heapCursor + 1

def Placed : Prop :=
  match self.phase with
  | .pop => True
  | .partition => self.top ≤ length ∧ self.stackLen ≤ self.depth
  | .medianFirst | .medianSecond _ | .medianThird _ => self.Dividing length
  | .pivot =>
    self.Dividing length ∧ self.base ≤ self.pivot ∧ self.pivot < self.top
  | .left | .right =>
    self.Scanning length ∧ self.left ≤ self.right ∧
      self.right ≤ self.upperEqualStart
  | .leftReply =>
    self.Scanning length ∧ self.left < self.right ∧
      self.right ≤ self.upperEqualStart
  | .rightReply =>
    self.Scanning length ∧ self.left < self.right ∧
      self.right < self.upperEqualStart
  | .cross => self.Scanning length ∧ self.right < self.upperEqualStart
  | .lowerSwap =>
    self.Scanning length ∧ self.offset ≤ self.span ∧
      self.span = min (self.lowerEqualEnd - self.base) self.lowerCount ∧
      self.lowerEqualEnd + self.lowerCount = self.left
  | .upperSwap =>
    self.Scanning length ∧ self.offset ≤ self.span ∧
      self.span = min (self.top - self.upperEqualStart) self.upperCount ∧
      self.lowerEqualEnd + self.lowerCount = self.left ∧
      self.left + self.upperCount = self.upperEqualStart ∧
      self.upperBase + self.upperCount = self.top
  | .split =>
    self.Dividing length ∧
      self.lowerCount + self.upperCount < self.count ∧
      self.upperBase + self.upperCount = self.top
  | .insertion =>
    self.top ≤ length ∧ self.base ≤ self.position ∧
      self.position ≤ self.current ∧
      (self.top ≤ self.current → self.position = self.current)
  | .insertionReply | .insertionSwap =>
    self.top ≤ length ∧ self.base < self.position ∧
      self.position ≤ self.current ∧ self.current < self.top
  | .heapBuild =>
    self.top ≤ length ∧ 0 < self.count ∧ self.heapCursor ≤ self.count ∧
      self.heapEnd = self.count ∧ self.heapBuilding = true
  | .heapExtract =>
    self.top ≤ length ∧ self.heapCursor < self.count ∧
      self.heapBuilding = false
  | .sift => self.Heaping length ∧ self.root < self.heapEnd
  | .siftChild =>
    self.Heaping length ∧ self.child = self.root * 2 + 1 ∧
      self.child + 1 < self.heapEnd
  | .siftRoot | .siftSwap =>
    self.Heaping length ∧ self.root < self.child ∧
      self.child < self.heapEnd

def Safe : Prop :=
  Stacked length self.stack self.stackLen ∧ self.Placed length

/-- In lexicographic order: the ranges left to sort, the part of the work on the
current one, and how far that part is from its end. -/
def rank : Nat ×ₗ Nat ×ₗ Nat ×ₗ Nat :=
  let waiting := owed (pending self.stack self.stackLen)
  let ranked (stage part detail : Nat) : Nat ×ₗ Nat ×ₗ Nat ×ₗ Nat :=
    toLex (waiting + 2 * self.count + 1, toLex (stage, toLex (part, detail)))
  let scanning := ranked 3 (self.right - self.left)
  let inserting (detail : Nat) :=
    ranked 0 (self.top - self.current) (3 * self.position + detail)
  let sifting (detail : Nat) :=
    ranked (if self.heapBuilding then 2 else 1) self.heapCursor
      (4 * (self.heapEnd - self.root) + detail)
  match self.phase with
  | .pop => toLex (waiting, toLex (9, toLex (0, 0)))
  | .partition => ranked 8 0 0
  | .medianFirst => ranked 7 0 0
  | .medianSecond _ => ranked 6 0 0
  | .medianThird _ => ranked 5 0 0
  | .pivot => ranked 4 0 0
  | .left => scanning 4
  | .leftReply => scanning 3
  | .rightReply => scanning 2
  | .right => scanning 1
  | .cross => scanning 0
  | .lowerSwap => ranked 2 (self.span - self.offset) 0
  | .upperSwap => ranked 1 (self.span - self.offset) 0
  | .split => ranked 0 0 0
  | .insertion => inserting 2
  | .insertionReply => inserting 1
  | .insertionSwap => inserting 0
  | .heapBuild => ranked 2 self.heapCursor 0
  | .heapExtract => ranked 1 self.heapCursor 0
  | .sift => sifting 4
  | .siftChild => sifting 3
  | .siftRoot => sifting 2
  | .siftSwap => sifting 1

end

def SameRanges (before after : SortMachine) : Prop :=
  after.stack = before.stack ∧ after.stackLen = before.stackLen ∧
    after.base = before.base ∧ after.count = before.count

def Covers (self : SortMachine) (index : Nat) : Prop :=
  self.base ≤ index ∧ index < self.top

end SortMachine

open SortMachine

variable {length : Nat} {self after : SortMachine}

def Nearer (length : Nat) (self after : SortMachine) (awaits : Bool) : Prop :=
  after.phase.awaits = awaits ∧ after.Safe length ∧ after.rank < self.rank

/-- What a turn can do: it asks for positions of the current range only, and
changes the ranges only where it pops or pushes one. -/
def Turn.Onward (length : Nat) (self : SortMachine) : Turn → Prop
  | .again after rest => rest = none ∧ Nearer length self after false ∧
      (self.phase ≠ .pop → self.phase ≠ .split → SameRanges self after)
  | .act after .complete =>
    after = self ∧ self.phase = .pop ∧ self.stackLen = 0
  | .act after (.compare left right) => Nearer length self after true ∧
      SameRanges self after ∧ self.top ≤ length ∧ self.Covers left ∧
      self.Covers right
  | .act after (.swap left right) => Nearer length self after false ∧
      SameRanges self after ∧ self.top ≤ length ∧ self.Covers left ∧
      self.Covers right

namespace SortMachine.Safe

variable (safe : self.Safe length)

include safe

theorem turn_pop (phase : self.phase = .pop) :
    ∃ turn, self.turn none = .ok turn ∧ turn.Onward length self := by
  obtain ⟨⟨capacity, bounded, waiting⟩, -⟩ := safe
  simp only [turn, phase]
  cases last : self.stackLen with
  | zero => exact ⟨_, rfl, rfl, phase, last⟩
  | succ stackLen =>
    rw [last] at bounded waiting
    obtain ⟨⟨base, count, depth⟩, found⟩ :
        ∃ range, self.stack[stackLen]? = some range :=
      ⟨_, getElem?_eq_getElem (by omega)⟩
    rw [pending_succ found] at waiting
    obtain ⟨inside, deep, waiting⟩ := waiting
    rw [length_pending (by omega)] at deep
    simp only [Nat.add_one_ne_zero, if_false, Nat.add_sub_cancel, found]
    refine ⟨_, rfl, rfl, ⟨rfl, ⟨⟨capacity, Nat.le_of_succ_le bounded,
      waiting⟩, inside, deep⟩, ?_⟩, absurd phase⟩
    simp [rank, phase, last, pending_succ found, owed,
      Prod.Lex.toLex_lt_toLex]
    omega

theorem push {base count : Nat} (phase : self.phase = .split)
    (pushed : base + count ≤ length) (stack : after.stack =
      self.stack.set self.stackLen (base, count, self.depth))
    (stackLen : after.stackLen = self.stackLen + 1)
    (depth : after.depth = self.depth) (goes : after.phase = .partition)
    (fits : after.base + after.count ≤ length)
    (fewer : count + after.count < self.count) :
    Nearer length self after false := by
  obtain ⟨⟨capacity, bounded, waiting⟩, placed⟩ := safe
  simp only [Placed, phase, Dividing] at placed
  have room : self.stackLen < self.stack.length := by omega
  have few := length_pending room.le
  refine ⟨by rw [goes]; rfl, ⟨⟨?_, by omega, ?_⟩, ?_⟩, ?_⟩
  · rw [stack, length_set, capacity]
  · rw [stack, stackLen, pending_push room]
    exact ⟨pushed, by omega, waiting⟩
  · simp only [Placed, goes, top]
    omega
  · simp only [rank, goes, phase, stack, stackLen, pending_push room, owed,
      Prod.Lex.toLex_lt_toLex, map_cons, sum_cons]
    omega

theorem turn_split (phase : self.phase = .split) :
    ∃ turn, self.turn none = .ok turn ∧ turn.Onward length self := by
  obtain ⟨⟨capacity, -⟩, placed⟩ := id safe
  simp only [Placed, phase, Dividing, top] at placed
  have room : self.stackLen < self.stack.length := by omega
  simp only [turn, phase, room, not_true, if_false]
  split
  all_goals
    exact ⟨_, rfl, rfl, safe.push phase (by omega) rfl rfl rfl rfl
      (by dsimp only; omega) (by dsimp only; omega), fun _ => absurd phase⟩

theorem turn_none (calm : self.phase.awaits = false) :
    ∃ turn, self.turn none = .ok turn ∧ turn.Onward length self := by
  obtain ⟨stacked, placed⟩ := id safe
  simp only [Placed, Dividing, Scanning, Heaping, top] at placed
  cases phase : self.phase with
  | medianFirst | medianSecond | medianThird | leftReply | rightReply
  | insertionReply | siftChild | siftRoot =>
    rw [phase] at calm
    cases calm
  | pop => exact safe.turn_pop phase
  | split => exact safe.turn_split phase
  | pivot | insertionSwap | siftSwap =>
    simp only [phase] at placed
    simp (disch := omega) only [turn, phase, checkedSub_eq_ok,
      ok_bind, pure_eq]
    refine ⟨_, rfl, ?_⟩
    simp [Turn.Onward, Nearer, Phase.awaits, Safe, stacked, Placed, rank,
      phase, Prod.Lex.toLex_lt_toLex, Dividing, Scanning, Heaping, top,
      SameRanges, Covers, placed]
    all_goals omega
  | insertion =>
    -- Only the last branch subtracts, and only there is there room to.
    simp only [phase] at placed
    simp only [turn, phase]
    split_ifs
    all_goals
      try simp (disch := omega) only [checkedSub_eq_ok, ok_bind, pure_eq]
      refine ⟨_, rfl, ?_⟩
      simp [Turn.Onward, Nearer, Phase.awaits, Safe, stacked, Placed, rank,
        phase, Prod.Lex.toLex_lt_toLex, top, SameRanges, Covers]
    all_goals omega
  | partition | left | right | cross | lowerSwap | upperSwap | heapBuild
  | heapExtract | sift =>
    simp only [phase] at placed
    simp (disch := omega) only [turn, phase, checkedSub_eq_ok,
      ok_bind, pure_eq, siftedPhase]
    split_ifs
    all_goals
      refine ⟨_, rfl, ?_⟩
      simp [Turn.Onward, Nearer, Phase.awaits, Safe, Placed, rank, Dividing,
        Scanning, Heaping, top, SameRanges, Covers,
        Prod.Lex.toLex_lt_toLex, *] at placed ⊢ <;> omega

theorem turn_some (order : Ordering) (awaits : self.phase.awaits = true) :
    ∃ turn, self.turn (some order) = .ok turn ∧ turn.Onward length self := by
  obtain ⟨_, placed⟩ := id safe
  simp only [Placed, Dividing, Scanning, Heaping, top] at placed
  cases phase : self.phase with
  | pop | partition | pivot | left | right | cross | lowerSwap | upperSwap
  | split | insertion | insertionSwap | heapBuild | heapExtract | sift
  | siftSwap =>
    rw [phase] at awaits
    cases awaits
  | medianFirst | medianSecond | medianThird | leftReply | rightReply
  | insertionReply | siftChild | siftRoot =>
    simp only [phase] at placed
    simp (disch := omega) only [turn, phase, expectReply,
      checkedSub_eq_ok, ok_bind, pure_eq, siftedPhase]
    try split_ifs
    all_goals
      refine ⟨_, rfl, ?_⟩
      simp [Turn.Onward, Nearer, Phase.awaits, Safe, Placed, rank, Dividing,
        Scanning, Heaping, top, SameRanges, Covers,
        Prod.Lex.toLex_lt_toLex, *] at placed ⊢ <;> omega

theorem turn (awaited : reply.isSome = self.phase.awaits) :
    ∃ turn, self.turn reply = .ok turn ∧ turn.Onward length self := by
  cases reply with
  | none => exact safe.turn_none awaited.symm
  | some order => exact safe.turn_some order awaited.symm

omit safe in
theorem induct {motive : SortMachine → Option Ordering → Prop}
    (again : ∀ {self after reply}, self.Safe length →
      self.turn reply = .ok (.again after none) →
      (Turn.again after none).Onward length self → motive after none →
      motive self reply) (complete : ∀ {self reply}, self.Safe length →
      self.turn reply = .ok (.act self .complete) →
      (Turn.act self .complete).Onward length self → motive self reply)
    (compare : ∀ {self after reply left right}, self.Safe length →
      self.turn reply = .ok (.act after (.compare left right)) →
      (Turn.act after (.compare left right)).Onward length self →
      (∀ order, motive after (some order)) → motive self reply)
    (swap : ∀ {self after reply left right}, self.Safe length →
      self.turn reply = .ok (.act after (.swap left right)) →
      (Turn.act after (.swap left right)).Onward length self →
      motive after none → motive self reply) {self : SortMachine}
    (safe : self.Safe length) (awaited : reply.isSome = self.phase.awaits) :
    motive self reply := by
  induction ranked : self.rank using WellFoundedLT.induction
    generalizing self reply with
  | ind _ ih =>
    subst ranked
    obtain ⟨turn, turned, onward⟩ := safe.turn awaited
    match turn with
    | .again after rest =>
      obtain ⟨rfl, ⟨calm, safeAfter, lower⟩, -⟩ := id onward
      exact again safe turned onward (ih _ lower safeAfter calm.symm rfl)
    | .act after .complete =>
      obtain ⟨rfl, -⟩ := id onward
      exact complete safe turned onward
    | .act after (.compare left right) =>
      obtain ⟨⟨awaits, safeAfter, lower⟩, -⟩ := id onward
      exact compare safe turned onward fun order =>
        ih _ lower safeAfter awaits.symm rfl
    | .act after (.swap left right) =>
      obtain ⟨⟨calm, safeAfter, lower⟩, -⟩ := id onward
      exact swap safe turned onward (ih _ lower safeAfter calm.symm rfl)

end SortMachine.Safe

theorem safe_new (length : Nat) : (new length).Safe length := by
  refine ⟨⟨rfl, ?_, ?_⟩, trivial⟩
  · simp only [new, stackCapacity]
    split <;> omega
  · simp only [new]
    split
    · exact ⟨Nat.zero_add length |>.le, le_rfl, trivial⟩
    · trivial

/-- The owner of the slots carries out what the machine asks for, with any
replies to its comparisons, until the machine completes. -/
inductive Session (replies : Nat → Ordering) :
    Nat → SortMachine → Option Ordering → List T → List T → Prop
  | complete {asked : Nat} {machine after : SortMachine}
      {reply : Option Ordering} {slots : List T}
      (advanced : (machine.advance reply).Returns (.ok (after, .complete))) :
      Session replies asked machine reply slots slots
  | compare {asked : Nat} {machine after : SortMachine}
      {reply : Option Ordering} {slots final : List T} {left right : Nat}
      (advanced : (machine.advance reply).Returns
        (.ok (after, .compare left right)))
      (leftBelow : left < slots.length) (rightBelow : right < slots.length)
      (rest : Session replies (asked + 1) after (some (replies asked)) slots
        final) : Session replies asked machine reply slots final
  | swap {asked : Nat} {machine after : SortMachine}
      {reply : Option Ordering} {slots swapped final : List T}
      {left right : Nat}
      (advanced : (machine.advance reply).Returns
        (.ok (after, .swap left right)))
      (leftBelow : left < slots.length) (rightBelow : right < slots.length)
      (exchanged : swapAt slots left right = .ok swapped)
      (rest : Session replies asked after none swapped final) :
      Session replies asked machine reply slots final

theorem Session.again (turned : self.turn reply = .ok (.again after none))
    (session : Session replies asked after none slots final) :
    Session replies asked self reply slots final := by
  cases session with
  | complete advanced => exact .complete (advance_again turned advanced)
  | compare advanced leftBelow rightBelow rest =>
    exact .compare (advance_again turned advanced) leftBelow rightBelow rest
  | swap advanced leftBelow rightBelow exchanged rest =>
    exact .swap (advance_again turned advanced) leftBelow rightBelow
      exchanged rest

theorem swapAt_of_lt {left right : Nat} (leftBelow : left < slots.length)
    (rightBelow : right < slots.length) :
    ∃ swapped, swapAt slots left right = .ok swapped ∧ swapped.Perm slots := by
  refine ⟨(slots.set left slots[right]).set right slots[left], ?_,
    set_set_perm leftBelow rightBelow⟩
  simp only [swapAt, getElem?_eq_getElem leftBelow,
    getElem?_eq_getElem rightBelow]

theorem session_completes (slots : List T) (replies : Nat → Ordering) :
    ∃ final, final.Perm slots ∧
      Session replies 0 (.new slots.length) none slots final := by
  suffices run : ∀ asked (held : List T), held.Perm slots → ∃ final,
      final.Perm slots ∧
        Session replies asked (.new slots.length) none held final from
    run 0 slots (.refl slots)
  have start : (none : Option Ordering).isSome =
    (new slots.length).phase.awaits := rfl
  refine (safe_new slots.length).induct (motive := fun self reply =>
    ∀ asked (held : List T), held.Perm slots → ∃ final, final.Perm slots ∧
      Session replies asked self reply held final) ?_ ?_ ?_ ?_ start
  · intro self after reply safe turned onward ih asked held same
    obtain ⟨final, permuted, session⟩ := ih asked held same
    exact ⟨final, permuted, session.again turned⟩
  · intro self reply safe turned onward asked held same
    exact ⟨held, same, .complete (advance_act turned)⟩
  · intro self after reply left right safe turned onward ih asked held same
    obtain ⟨-, -, fits, ⟨-, leftBelow⟩, -, rightBelow⟩ := onward
    have := same.length_eq
    obtain ⟨final, permuted, session⟩ :=
      ih (replies asked) (asked + 1) held same
    exact ⟨final, permuted,
      .compare (advance_act turned) (by omega) (by omega) session⟩
  · intro self after reply left right safe turned onward ih asked held same
    obtain ⟨-, -, fits, ⟨-, leftBelow⟩, -, rightBelow⟩ := onward
    have := same.length_eq
    obtain ⟨swapped, exchanged, moved⟩ := swapAt_of_lt
      (by omega : left < held.length) (by omega : right < held.length)
    obtain ⟨final, permuted, session⟩ := ih asked swapped (moved.trans same)
    exact ⟨final, permuted, .swap (advance_act turned) (by omega) (by omega)
      exchanged session⟩

end QuickJsOxide.Arrays
