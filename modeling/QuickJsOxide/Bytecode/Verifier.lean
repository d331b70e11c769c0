import QuickJsOxide.Bytecode.Instruction
import QuickJsOxide.Library.Checks
import QuickJsOxide.Library.Worklist

namespace QuickJsOxide.Bytecode

open Library

/-! The verifier: operands of all instructions are validated, then a worklist
walk assigns one symbolic stack state to every reachable instruction. -/

def maxStackSize : Nat := 65534

def atomMaxInt : Nat := 2 ^ 31 - 1

inductive IteratorRegionKind where
  | sync
  | async
deriving Repr, DecidableEq

inductive IteratorRegionPhase where
  | stable
  | asyncNextPending
deriving Repr, DecidableEq

inductive UnwindRegionState where
  | catch_ (target : UInt32) (markerDepth : Nat)
  | iterator (recordBase markerDepth : Nat) (kind : IteratorRegionKind)
      (phase : IteratorRegionPhase)
deriving Repr, DecidableEq

namespace UnwindRegionState

def markerDepth : UnwindRegionState → Nat
  | .catch_ _ markerDepth => markerDepth
  | .iterator _ markerDepth _ _ => markerDepth

def isIterator : UnwindRegionState → Bool
  | .catch_ _ _ => false
  | .iterator _ _ _ _ => true

end UnwindRegionState

/-- What the verifier knows when it reaches an instruction. The lists have the
innermost region, the topmost address and the innermost pair first. -/
structure VerificationState where
  depth : Nat
  regions : List UnwindRegionState
  returnAddresses : List Nat
  superCallBases : List Nat
deriving Repr

def verifySuperCallPairUntouched (state : VerificationState)
    (remainingDepth popped : Nat) : Except String Unit :=
  ensure (popped = 0 ∨ ∀ base ∈ state.superCallBases.head?,
      base + 2 ≤ remainingDepth)
    "ordinary bytecode touched a protected super-call pair"

def verifyOrdinaryConsumption (state : VerificationState)
    (remainingDepth popped : Nat) : Except String Unit := do
  ensure (popped = 0 ∨ ∀ address ∈ state.returnAddresses.head?,
      address < remainingDepth)
    "ordinary bytecode consumed a gosub return address"
  ensure (∀ region ∈ state.regions.head?, region.markerDepth ≤ remainingDepth)
    "bytecode stack crossed an active unwind marker"

/-! The arms of the verifier. Each receives the state before the instruction,
the depth that is left after the nominal pops, and the number of pops and
pushes. -/

def markSuperCall (state : VerificationState) (remainingDepth popped pushed : Nat) :
    Except String VerificationState := do
  verifyOrdinaryConsumption state remainingDepth popped
  return { state with
    depth := remainingDepth + pushed
    superCallBases := remainingDepth :: state.superCallBases }

def consumeSuperCall (state : VerificationState)
    (remainingDepth popped pushed : Nat) : Except String VerificationState := do
  ensure (state.superCallBases.head? = some remainingDepth)
    "typed super construction did not consume its protected pair"
  verifyOrdinaryConsumption state remainingDepth popped
  return { state with
    depth := remainingDepth + pushed
    superCallBases := state.superCallBases.tail }

def dropCatch (state : VerificationState) (remainingDepth pushed : Nat) :
    Except String VerificationState :=
  match state.regions with
  | [] => .error "DropCatch has no active catch handler"
  | .iterator _ _ _ _ :: _ =>
    .error "DropCatch did not target the innermost unwind region"
  | .catch_ _ markerDepth :: outer => do
    ensure (state.depth = markerDepth)
      "DropCatch did not reach its catch entry depth"
    return { state with depth := remainingDepth + pushed, regions := outer }

def nipCatch (state : VerificationState) : Except String VerificationState :=
  match state.regions with
  | [] => .error "NipCatch has no active catch handler"
  | .iterator _ _ _ _ :: _ =>
    .error "NipCatch did not target the innermost unwind region"
  | .catch_ _ markerDepth :: outer => do
    ensure (markerDepth < state.depth)
      "NipCatch has no value above its catch marker"
    ensure (state.returnAddresses.head? ≠ some (state.depth - 1))
      "NipCatch cannot preserve a gosub return address"
    return { state with
      depth := markerDepth
      regions := outer
      -- Addresses under the marker survive the truncation.
      returnAddresses :=
        state.returnAddresses.filter (· < markerDepth - 1) }

def startIterator (kind : IteratorRegionKind) (state : VerificationState)
    (remainingDepth popped pushed : Nat) : Except String VerificationState := do
  verifyOrdinaryConsumption state remainingDepth popped
  return { state with
    depth := remainingDepth + pushed
    regions := .iterator remainingDepth (remainingDepth + pushed) kind .stable ::
      state.regions }

def forOfNext (offset : UInt8) (state : VerificationState)
    (remainingDepth pushed : Nat) : Except String VerificationState :=
  match state.regions with
  | .iterator recordBase markerDepth kind phase :: _ => do
    ensure (kind = .sync) "ForOfNext requires a synchronous iterator region"
    ensure (phase = .stable)
      "ForOfNext reached an async-next-pending iterator region"
    ensure (state.depth = markerDepth + offset.toNat)
      "ForOfNext offset does not reach its iterator record"
    ensure (recordBase + 3 = markerDepth)
      "ForOfNext iterator marker has invalid depth"
    ensure (∀ base ∈ state.superCallBases,
        ¬ (base < markerDepth ∧ recordBase < base + 2))
      "ForOfNext touched a protected super-call pair"
    return { state with depth := remainingDepth + pushed }
  | _ => .error "ForOfNext has no innermost iterator region"

def forAwaitOfNext (state : VerificationState) (remainingDepth pushed : Nat) :
    Except String VerificationState :=
  match state.regions with
  | .iterator recordBase markerDepth kind phase :: outer => do
    ensure (kind = .async)
      "ForAwaitOfNext requires an asynchronous iterator region"
    ensure (phase = .stable)
      "ForAwaitOfNext repeated before async iterator result completion"
    ensure (state.depth = markerDepth)
      "ForAwaitOfNext did not reach its iterator record"
    ensure (recordBase + 3 = markerDepth)
      "ForAwaitOfNext iterator marker has invalid depth"
    ensure (∀ base ∈ state.superCallBases,
        ¬ (base < markerDepth ∧ recordBase < base + 2))
      "ForAwaitOfNext touched a protected super-call pair"
    return { state with
      depth := remainingDepth + pushed
      regions := .iterator recordBase markerDepth kind .asyncNextPending ::
        outer }
  | _ => .error "ForAwaitOfNext has no innermost iterator region"

def iteratorGetValueDone (state : VerificationState)
    (remainingDepth pushed : Nat) : Except String VerificationState :=
  match state.regions with
  | .iterator recordBase markerDepth kind phase :: outer => do
    ensure (kind = .async)
      "IteratorGetValueDone requires an asynchronous iterator region"
    ensure (phase = .asyncNextPending)
      "IteratorGetValueDone requires a pending async iterator result"
    ensure (state.depth = markerDepth + 1)
      "IteratorGetValueDone did not reach its pending iterator result"
    ensure (recordBase + 3 = markerDepth)
      "IteratorGetValueDone iterator marker has invalid depth"
    ensure (∀ base ∈ state.superCallBases,
        ¬ (base < markerDepth ∧ recordBase < base + 2))
      "IteratorGetValueDone touched a protected super-call pair"
    return { state with
      depth := remainingDepth + pushed
      regions := .iterator recordBase markerDepth kind .stable :: outer }
  | _ => .error "IteratorGetValueDone has no innermost iterator region"

def iteratorClose (state : VerificationState) (remainingDepth pushed : Nat) :
    Except String VerificationState :=
  match state.regions with
  | [] => .error "IteratorClose has no iterator region"
  | .catch_ _ _ :: _ =>
    .error "IteratorClose did not target the innermost unwind region"
  | .iterator recordBase markerDepth _ phase :: outer => do
    ensure (phase = .stable)
      "IteratorClose cannot consume an async-next-pending iterator region"
    ensure (state.depth = markerDepth ∧ remainingDepth = recordBase)
      "IteratorClose did not reach its iterator record"
    ensure (∀ address ∈ state.returnAddresses, address < recordBase)
      "IteratorClose cannot discard a gosub return address"
    return { state with depth := remainingDepth + pushed, regions := outer }

/-- The arm that `IteratorClosePreserve`, `IteratorDropPreserve` and
`IteratorDetachPreserve` share; `kept` values replace the iterator record. -/
def preserveIterator (operation : String) (kept : Nat)
    (state : VerificationState) : Except String VerificationState :=
  match state.regions with
  | [] => .error (operation ++ " has no iterator region")
  | .catch_ _ _ :: _ =>
    .error (operation ++ " did not target the innermost unwind region")
  | .iterator recordBase markerDepth _ phase :: outer => do
    ensure (phase = .stable) (operation ++
      " cannot consume an async-next-pending iterator region")
    ensure (markerDepth < state.depth)
      (operation ++ " has no value above its iterator marker")
    ensure (state.returnAddresses.head? ≠ some (state.depth - 1))
      (operation ++ " cannot preserve a gosub return address")
    return { state with
      depth := recordBase + kept
      regions := outer
      returnAddresses := state.returnAddresses.filter (· < recordBase) }

def consumeGosub (name : String) (state : VerificationState)
    (remainingDepth pushed : Nat) : Except String VerificationState := do
  ensure (state.returnAddresses.head? = some (state.depth - 1))
    (name ++ " did not consume a gosub return address")
  ensure (∀ region ∈ state.regions.head?, region.markerDepth ≤ remainingDepth)
    "gosub return address crossed an active unwind marker"
  return { state with
    depth := remainingDepth + pushed
    returnAddresses := state.returnAddresses.tail }

def ordinary (state : VerificationState) (remainingDepth popped pushed : Nat) :
    Except String VerificationState := do
  verifyOrdinaryConsumption state remainingDepth popped
  return { state with depth := remainingDepth + pushed }

def verifyArm (instruction : Instruction) (state : VerificationState)
    (remainingDepth popped pushed : Nat) : Except String VerificationState :=
  match instruction with
  | .markSuperCall => markSuperCall state remainingDepth popped pushed
  | .constructSuper _ | .applySuper =>
    consumeSuperCall state remainingDepth popped pushed
  | .dropCatch => dropCatch state remainingDepth pushed
  | .nipCatch => nipCatch state
  | .forOfStart => startIterator .sync state remainingDepth popped pushed
  | .forAwaitOfStart => startIterator .async state remainingDepth popped pushed
  | .forOfNext offset => forOfNext offset state remainingDepth pushed
  | .forAwaitOfNext => forAwaitOfNext state remainingDepth pushed
  | .iteratorGetValueDone => iteratorGetValueDone state remainingDepth pushed
  | .iteratorClose => iteratorClose state remainingDepth pushed
  | .iteratorClosePreserve => preserveIterator "IteratorClosePreserve" 1 state
  | .iteratorDropPreserve => preserveIterator "IteratorDropPreserve" 1 state
  | .iteratorDetachPreserve => preserveIterator "IteratorDetachPreserve" 2 state
  | .ret => consumeGosub "Ret" state remainingDepth pushed
  | .dropGosub => consumeGosub "DropGosub" state remainingDepth pushed
  | _ => ordinary state remainingDepth popped pushed

/-- Instructions that leave the frame and so may not bypass an iterator. -/
def Instruction.leavesFrame : Instruction → Bool
  | .tailCall _ | .tailCallMethod _ | .return_ | .returnUndefined |
      .returnDerived _ => true
  | _ => false

def verifySuperPair (instruction : Instruction) (state : VerificationState)
    (remainingDepth popped : Nat) : Except String Unit :=
  if instruction.stackStateEffect.preservesSuperPair then
    verifySuperCallPairUntouched state remainingDepth popped
  else
    .ok ()

def transfer (instruction : Instruction) (state : VerificationState) :
    Except String VerificationState := do
  let (popped, pushed) := instruction.nominalStackEffect
  ensure (popped ≤ state.depth) "bytecode stack underflow"
  verifySuperPair instruction state (state.depth - popped) popped
  let next ← verifyArm instruction state (state.depth - popped) popped pushed
  ensure (∀ base ∈ next.superCallBases.head?, base + 2 ≤ next.depth)
    "bytecode stack crossed a protected super-call pair"
  ensure (instruction.leavesFrame = true →
      ∀ region ∈ state.regions, region.isIterator = false)
    "Return bypassed an active iterator close"
  return next

def recordMaximumDepth (maximum depth declaredMaxStack : Nat) :
    Except String Nat := do
  ensure (max maximum depth ≤ declaredMaxStack)
    "declared maximum stack is smaller than required"
  return max maximum depth

def validateTarget (target : UInt32) (codeLen : Nat) : Except String Nat := do
  ensure (target.toNat < codeLen) "jump target is out of bounds"
  return target.toNat

def fallthrough (pc codeLen : Nat) : Except String Nat := do
  ensure (pc + 1 < codeLen) "bytecode ended without return"
  return pc + 1

abbrev WorkItem := Nat × VerificationState

def enqueue (instruction : Instruction) (pc codeLen declaredMaxStack : Nat)
    (state next : VerificationState) (maximum : Nat) :
    Except String (List WorkItem × Nat) :=
  match instruction with
  | .tailCall _ | .tailCallMethod _ | .return_ | .returnUndefined |
      .returnDerived _ | .throw | .ret | .throwReadOnly _ |
      .throwRedeclaration _ | .throwDeleteSuper | .throwIteratorMissingThrow =>
      .ok ([], maximum)
  | .goto target => do
    let target ← validateTarget target codeLen
    return ([(target, next)], maximum)
  | .ifFalse target | .ifTrue target => do
    let target ← validateTarget target codeLen
    let following ← fallthrough pc codeLen
    return ([(target, next), (following, next)], maximum)
  | .catch_ handler => do
    let maximum ← recordMaximumDepth maximum next.depth declaredMaxStack
    let target ← validateTarget handler codeLen
    let following ← fallthrough pc codeLen
    return ([(target, { state with depth := next.depth }),
      (following, { next with
        regions := .catch_ handler next.depth :: next.regions })], maximum)
  | .gosub target => do
    let maximum ← recordMaximumDepth maximum (state.depth + 1) declaredMaxStack
    let target ← validateTarget target codeLen
    let following ← fallthrough pc codeLen
    return ([(target, { state with
        depth := state.depth + 1
        returnAddresses := state.depth :: state.returnAddresses }),
      (following, next)], maximum)
  | _ => do
    let following ← fallthrough pc codeLen
    return ([(following, next)], maximum)

/-- The largest machine word marks an instruction that was not visited. -/
def unvisited : Nat := 2 ^ 64 - 1

/-- Depths of the visited instructions; full states are kept only once some
state has more than a depth. -/
structure CompactVisits where
  depths : List Nat
  exceptional : Option (List (Option VerificationState))
deriving Repr

namespace CompactVisits

def new (length : Nat) : CompactVisits where
  depths := List.replicate length unvisited
  exceptional := none

variable (visits : CompactVisits)

def previous (pc : Nat) : Option VerificationState :=
  visits.exceptional.bind fun states => states[pc]?.join

def revisit (pc depth : Nat) (state : VerificationState) : Except String
    (Bool × CompactVisits) := do
  ensure (depth = state.depth)
    "control flow joins with inconsistent stack depth"
  ensure ((visits.previous pc).elim [] (·.regions) = state.regions)
    "control flow joins with inconsistent unwind regions"
  ensure ((visits.previous pc).elim [] (·.returnAddresses) =
      state.returnAddresses)
    "control flow joins with inconsistent gosub return addresses"
  ensure ((visits.previous pc).elim [] (·.superCallBases) =
      state.superCallBases)
    "control flow joins with inconsistent super-call markers"
  return (false, visits)

def record (pc : Nat) (state : VerificationState) : CompactVisits :=
  let depths := visits.depths.set pc state.depth
  if state.regions.isEmpty && state.returnAddresses.isEmpty &&
      state.superCallBases.isEmpty then
    { visits with depths }
  else
    let states :=
      visits.exceptional.getD (List.replicate visits.depths.length none)
    { depths, exceptional := some (states.set pc (some state)) }

/-- The answer is true on a first visit and false on an identical revisit. -/
def visit (pc : Nat) (state : VerificationState) :
    Except String (Bool × CompactVisits) :=
  match visits.depths[pc]? with
  | none => .error "control flow target is out of bounds"
  | some depth =>
    if depth ≠ unvisited then
      visits.revisit pc depth state
    else
      .ok (true, visits.record pc state)

end CompactVisits

structure VerifierTable where
  visits : CompactVisits
  maximum : Nat
deriving Repr

variable (code : List Instruction)

/-- The rest of the loop body for an instruction visited for the first time. -/
def expand (declaredMaxStack pc : Nat) (state : VerificationState)
    (visits : CompactVisits) (maximum : Nat) :
    Except String (List WorkItem × VerifierTable) :=
  match code[pc]? with
  | none => .error "control flow target is out of bounds"
  | some instruction => do
    let next ← transfer instruction state
    let maximum ← recordMaximumDepth maximum next.depth declaredMaxStack
    let (found, maximum) ← enqueue instruction pc code.length declaredMaxStack
      state next maximum
    return (found, ⟨visits, maximum⟩)

def processItem (declaredMaxStack : Nat) (table : VerifierTable)
    (item : WorkItem) : Except String (List WorkItem × VerifierTable) := do
  let maximum ← recordMaximumDepth table.maximum item.2.depth declaredMaxStack
  let (first, visits) ← table.visits.visit item.1 item.2
  match first with
  | false => return ([], ⟨visits, maximum⟩)
  | true => expand code declaredMaxStack item.1 item.2 visits maximum

def Instruction.constantIndex : Instruction → Option UInt32
  | .pushConst index | .fClosure index | .regExp index | .setName index |
      .throwReadOnly index | .throwRedeclaration index | .getField index |
      .getField2 index | .putField index | .defineField index |
      .defineMethod index _ _ | .defineClass index _ |
      .hasEvalVariable _ index | .getEvalVariable _ index |
      .putEvalVariable _ index | .deleteEvalVariable _ index |
      .defineEvalVariable _ index | .hasDynamicBinding _ index |
      .getDynamicBinding _ index | .putDynamicBinding _ index |
      .deleteDynamicBinding _ index | .getRefValue index |
      .getRefValueUndef index | .putRefValue index => some index
  | _ => none

def validateConstant (instruction : Instruction) (constantCount : Nat) :
    Except String Unit :=
  match instruction.constantIndex with
  | none => .ok ()
  | some index =>
    ensure (index.toNat < constantCount) "constant index is out of bounds"

/-- The validation of one instruction's operands, dead code included. -/
def validateOperands (codeLen constantCount pc : Nat) :
    Instruction → Except String Unit
  | .pushAtomValueIndex index =>
    ensure (index.toNat ≤ atomMaxInt)
      "atom-value index exceeds QuickJS JS_ATOM_MAX_INT"
  | .goto target | .ifFalse target | .ifTrue target | .catch_ target => do
    let _ ← validateTarget target codeLen
    return ()
  | .gosub target => do
    let _ ← validateTarget target codeLen
    ensure (pc + 1 < 2 ^ 31) "gosub return PC does not fit Int"
  | instruction => validateConstant instruction constantCount

def validateCode (codeLen constantCount : Nat) :
    Nat → List Instruction → Except String Unit
  | _, [] => .ok ()
  | pc, instruction :: rest => do
    validateOperands codeLen constantCount pc instruction
    validateCode codeLen constantCount (pc + 1) rest

def initialState : VerificationState := ⟨0, [], [], []⟩

/-- The walk visits each instruction once and each visit adds at most two
items. -/
def walk (declaredMaxStack : Nat) : Except String (Option VerifierTable) :=
  Worklist.run (processItem code declaredMaxStack) (2 * code.length + 1)
    [(0, initialState)] ⟨.new code.length, 0⟩

def verifyParts (constantCount declaredMaxStack : Nat) : Except String Nat := do
  ensure (declaredMaxStack ≤ maxStackSize)
    "declared bytecode stack exceeds QuickJS JS_STACK_SIZE_MAX"
  ensure (code ≠ []) "bytecode function has no instructions"
  validateCode code.length constantCount 0 code
  match ← walk code declaredMaxStack with
  | none => .error "the walk ran out of steps"
  | some table => do
    ensure (table.maximum < 2 ^ 16) "bytecode stack exceeds u16::MAX"
    return table.maximum

end QuickJsOxide.Bytecode
