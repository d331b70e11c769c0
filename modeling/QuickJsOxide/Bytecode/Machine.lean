import QuickJsOxide.Bytecode.Verifier
import QuickJsOxide.Library.TransitionSystem

namespace QuickJsOxide.Bytecode

open Library

/-! The operand-stack machine described by the stack contracts: slots have
kinds, unwind regions are dynamic, and every instruction may throw. -/

/-- The `Gosub` that pushed a return address. The machine resumes at `pc`; the
rest records what the frame looked like. -/
structure Caller where
  pc : Nat
  depth : Nat
  regions : List UnwindRegionState
deriving Repr, DecidableEq

inductive Slot where
  | value
  | catchMarker
  | iteratorRecord
  | superPair
  | returnAddress (caller : Caller)
deriving Repr, DecidableEq

/-- A running frame. The bottom of the stack and the innermost region come
first. -/
structure Machine where
  pc : Nat
  stack : List Slot
  regions : List UnwindRegionState
deriving Repr

inductive MachineFault where
  | outsideCode
  | underflow
  | noRegion
  | misplacedRecord
  | noReturnAddress
deriving Repr, DecidableEq

/-- How one instruction goes on: it completes, it completes and takes its
branch, or it throws. -/
inductive Choice where
  | proceed
  | branch
  | throw
deriving Repr, DecidableEq

/-- Unwind to the innermost catch handler and close the iterators above it. The
exception leaves the frame when there is no handler. -/
def unwind (stack : List Slot) : List UnwindRegionState → Option Machine
  | [] => none
  | .catch_ target markerDepth :: outer =>
    some ⟨target.toNat, stack.take (markerDepth - 1) ++ [.value], outer⟩
  | .iterator recordBase _ _ _ :: outer => unwind (stack.take recordBase) outer

structure Operands where
  stack : List Slot
  regions : List UnwindRegionState
deriving Repr

namespace Operands

variable (operands : Operands)

def depth : Nat := operands.stack.length

def exchange (popped : Nat) (pushed : List Slot) :
    Except MachineFault Operands :=
  if popped ≤ operands.depth then
    .ok { operands with
      stack := operands.stack.take (operands.depth - popped) ++ pushed }
  else
    .error .underflow

/-- Replace everything from `base` on by the topmost slot and `extra`. -/
def keepTop (base : Nat) (extra : List Slot)
    (regions : List UnwindRegionState) : Except MachineFault Operands :=
  match operands.stack.getLast? with
  | none => .error .underflow
  | some top => .ok ⟨operands.stack.take base ++ top :: extra, regions⟩

def dropCatch : Except MachineFault Operands :=
  match operands.regions with
  | .catch_ _ markerDepth :: outer =>
    if operands.depth = markerDepth then
      .ok ⟨operands.stack.take (markerDepth - 1), outer⟩
    else
      .error .misplacedRecord
  | _ => .error .noRegion

def preserveCatch : Except MachineFault Operands :=
  match operands.regions with
  | .catch_ _ markerDepth :: outer =>
    if markerDepth < operands.depth then
      operands.keepTop (markerDepth - 1) [] outer
    else
      .error .misplacedRecord
  | _ => .error .noRegion

def enterIterator (kind : IteratorRegionKind) : Except MachineFault Operands := do
  let entered ← operands.exchange 1 (List.replicate 3 .iteratorRecord)
  return { entered with
    regions := .iterator (operands.depth - 1) (operands.depth + 2) kind .stable ::
      operands.regions }

/-- Read the iterator record under `offset` slots and push what it yields. -/
def advance (offset : Nat) (phase : IteratorRegionPhase) (pushed : Nat) :
    Except MachineFault Operands :=
  match operands.regions with
  | .iterator recordBase markerDepth kind _ :: outer =>
    if operands.depth = markerDepth + offset then
      .ok ⟨operands.stack ++ List.replicate pushed .value,
        .iterator recordBase markerDepth kind phase :: outer⟩
    else
      .error .misplacedRecord
  | _ => .error .noRegion

/-- Replace the result above the iterator record by its value and done flag. -/
def finishValue : Except MachineFault Operands :=
  match operands.regions with
  | .iterator recordBase markerDepth kind _ :: outer =>
    if operands.depth = markerDepth + 1 then
      .ok ⟨operands.stack.take markerDepth ++ List.replicate 2 .value,
        .iterator recordBase markerDepth kind .stable :: outer⟩
    else
      .error .misplacedRecord
  | _ => .error .noRegion

def closeIterator : Except MachineFault Operands :=
  match operands.regions with
  | .iterator recordBase markerDepth _ _ :: outer =>
    if operands.depth = markerDepth then
      .ok ⟨operands.stack.take recordBase, outer⟩
    else
      .error .misplacedRecord
  | _ => .error .noRegion

def preserveIterator (extra : List Slot) : Except MachineFault Operands :=
  match operands.regions with
  | .iterator recordBase markerDepth _ _ :: outer =>
    if markerDepth < operands.depth then
      operands.keepTop recordBase extra outer
    else
      .error .misplacedRecord
  | _ => .error .noRegion

def popReturnAddress : Except MachineFault (Caller × Operands) :=
  match operands.stack.getLast? with
  | some (.returnAddress caller) =>
    .ok (caller, { operands with stack := operands.stack.dropLast })
  | _ => .error .noReturnAddress

end Operands

namespace Machine

variable (machine : Machine)

def operands : Operands := ⟨machine.stack, machine.regions⟩

/-- The stack part of an instruction that does not pop a return address. -/
def execute (instruction : Instruction) : Except MachineFault Operands :=
  let (popped, pushed) := instruction.nominalStackEffect
  match instruction with
  | .markSuperCall =>
    machine.operands.exchange popped (List.replicate pushed .superPair)
  | .catch_ target => .ok ⟨machine.stack ++ [.catchMarker],
      .catch_ target (machine.stack.length + 1) :: machine.regions⟩
  | .dropCatch => machine.operands.dropCatch
  | .nipCatch => machine.operands.preserveCatch
  | .forOfStart => machine.operands.enterIterator .sync
  | .forAwaitOfStart => machine.operands.enterIterator .async
  | .forOfNext offset => machine.operands.advance offset.toNat .stable 2
  | .forAwaitOfNext => machine.operands.advance 0 .asyncNextPending 1
  | .iteratorGetValueDone => machine.operands.finishValue
  | .iteratorClose => machine.operands.closeIterator
  | .iteratorClosePreserve | .iteratorDropPreserve =>
    machine.operands.preserveIterator []
  | .iteratorDetachPreserve => machine.operands.preserveIterator [.value]
  | .gosub _ => .ok { machine.operands with
      stack := machine.stack ++ [.returnAddress
        ⟨machine.pc + 1, machine.stack.length, machine.regions⟩] }
  | .dropGosub => do
    let (_, operands) ← machine.operands.popReturnAddress
    return operands
  | _ => machine.operands.exchange popped (List.replicate pushed .value)

def resumeAt (pc : Nat) (operands : Operands) : Option Machine :=
  some ⟨pc, operands.stack, operands.regions⟩

def continueWith (instruction : Instruction) (choice : Choice)
    (operands : Operands) : Option Machine :=
  match instruction.controlEffect with
  | .next | .suspend | .catch_ _ | .ret => resumeAt (machine.pc + 1) operands
  | .jump target | .gosub target => resumeAt target.toNat operands
  | .branch target =>
    if choice = .branch then
      resumeAt target.toNat operands
    else
      resumeAt (machine.pc + 1) operands
  | .return_ | .tailCall => none
  | .throw => unwind operands.stack operands.regions

def complete (instruction : Instruction) (choice : Choice) :
    Except MachineFault (Option Machine) :=
  match instruction with
  | .ret => do
    let (caller, operands) ← machine.operands.popReturnAddress
    return resumeAt caller.pc operands
  | _ => do
    let operands ← machine.execute instruction
    return machine.continueWith instruction choice operands

/-- One step of a frame; no machine is left when the frame is done. -/
def step (code : List Instruction) (choice : Choice) :
    Except MachineFault (Option Machine) :=
  match code[machine.pc]? with
  | none => .error .outsideCode
  | some instruction =>
    match choice with
    | .throw => .ok (unwind machine.stack machine.regions)
    | choice => machine.complete instruction choice

end Machine

def frames (code : List Instruction) : TransitionSystem Machine Choice where
  initial machine := machine = ⟨0, [], []⟩
  step before choice after := before.step code choice = .ok (some after)

/-- The number of topmost slots an instruction takes as plain operands. -/
def Instruction.operandCount (instruction : Instruction) : Nat :=
  match instruction.stackStateEffect with
  | .ordinary | .resumeYield | .resumeAwait | .markSuperCall |
      .enterIterator => instruction.nominalStackEffect.1
  | .consumeSuperCall => instruction.nominalStackEffect.1 - 2
  | .preserveCatch | .preserveIterator | .detachIterator |
      .finishIteratorValue => 1
  | .enterCatch | .dropCatch | .advanceIterator | .closeIterator |
      .enterGosub | .consumeGosub => 0

namespace Machine

def topSlots (machine : Machine) (count : Nat) : List Slot :=
  machine.stack.drop (machine.stack.length - count)

/-- The step pops the operands it is entitled to and cannot go wrong. -/
structure Safe (machine : Machine) (code : List Instruction) : Prop where
  enough : ∀ instruction, code[machine.pc]? = some instruction →
    instruction.nominalStackEffect.1 ≤ machine.stack.length
  plain : ∀ instruction, code[machine.pc]? = some instruction →
    ∀ slot ∈ machine.topSlots instruction.operandCount, slot = .value
  pair : ∀ instruction, code[machine.pc]? = some instruction →
    instruction.stackStateEffect = .consumeSuperCall →
    (machine.topSlots instruction.nominalStackEffect.1).take 2 =
      [.superPair, .superPair]
  runs : ∀ choice, ∃ outcome, machine.step code choice = .ok outcome
  returns : code[machine.pc]? = some .ret → ∃ caller target rest,
    machine.stack = rest ++ [.returnAddress caller] ∧
    code[caller.pc - 1]? = some (.gosub target) ∧
    rest.length = caller.depth ∧ machine.regions = caller.regions ∧
    ∀ choice, choice ≠ .throw →
      machine.step code choice = .ok (some ⟨caller.pc, rest, caller.regions⟩)

/-- `IteratorGetValueDone` is about to take a return address for the result of
an iterator. -/
def Clobbers (machine : Machine) (code : List Instruction) : Prop :=
  code[machine.pc]? = some .iteratorGetValueDone ∧
    ∃ caller, machine.stack.getLast? = some (.returnAddress caller)

end Machine

end QuickJsOxide.Bytecode
