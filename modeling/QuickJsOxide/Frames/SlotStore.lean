import QuickJsOxide.Basics
import QuickJsOxide.Library.Stateful

namespace QuickJsOxide.Frames

open Library

/-! Frame windows in one shared slot vector. A window holds indices only; the
store decides by owner, identity and end whether a window is the newest one.
Values are handles with one owner each: copying makes an owner, releasing ends
one, and both are recorded. -/

inductive JsValue where
  | undefined
  | null
  | bool (value : Bool)
  | int (value : Int32)
  | float (bits : UInt64)
  | string (id : LeafId)
  | bigInt (id : LeafId)
  | shortBigInt (value : Int64)
  | symbol (atom : Nat)
  | object (id : Handle)
deriving Repr, DecidableEq

def JsValue.isScalar : JsValue → Bool
  | .undefined | .null | .bool _ | .int _ | .float _ | .shortBigInt _ => true
  | .string _ | .bigInt _ | .symbol _ | .object _ => false

inductive FrameBinding where
  | direct (value : JsValue)
  | privateName (atom : Nat)
  | privateCallable (object : Handle)
  | uninitialized
  | captured (varRef : Handle)
deriving Repr, DecidableEq

abbrev Slots := List (Option FrameBinding)

structure VariableDefinition where
  isLexical : Bool
deriving Repr

structure FrameLayout where
  argumentCount : Nat
  locals : List VariableDefinition
  maxStack : Nat
deriving Repr

def FrameLayout.argumentSlots (layout : FrameLayout) (actualCount : Nat) :
    Nat :=
  max actualCount layout.argumentCount

def FrameLayout.operandCapacity (layout : FrameLayout) : Nat :=
  layout.maxStack

/-- The boundaries of a window's four areas: original arguments, parameters,
locals and operands. -/
structure FrameWindow where
  actualCount : Nat
  owner : Nat
  id : Nat
  base : Nat
  originalEnd : Nat
  parametersEnd : Nat
  localsEnd : Nat
  windowEnd : Nat
  depth : Nat
deriving Repr, DecidableEq

structure FrameStorage where
  originalArguments : List JsValue
  parameters : List FrameBinding
  locals : List FrameBinding
  operands : List JsValue
deriving Repr

def FrameStorage.empty : FrameStorage := ⟨[], [], [], []⟩

structure SlotStore where
  slots : Slots
  activeEnd : Nat
  owner : Nat
  nextWindow : Nat
  windows : List Nat
  limit : Nat
deriving Repr

def SlotStore.new (owner limit : Nat) : SlotStore where
  slots := []
  activeEnd := 0
  owner := owner
  nextWindow := 1
  windows := []
  limit := limit

/-- A failed call: an internal error of the source, or a panic. -/
inductive Fault where
  | internal (message : String)
  | panic (message : String)
deriving Repr, DecidableEq

/-- The store with the bindings it made itself (copies, padding and initial
locals) and those it released so far. -/
structure Machine where
  store : SlotStore
  created : List FrameBinding
  released : List FrameBinding
deriving Repr

abbrev Storing := EStateM Fault Machine

structure Access where
  machine : Machine
  window : FrameWindow
deriving Repr

abbrev Accessing := EStateM Fault Access

def onMachine (operation : Storing α) : Accessing α := fun access =>
  match operation access.machine with
  | .ok value machine => .ok value { access with machine }
  | .error fault machine => .error fault { access with machine }

def create (bindings : List FrameBinding) : Storing Unit :=
  modify fun machine => { machine with created := machine.created ++ bindings }

def dupJsvalue (value : JsValue) : Storing JsValue := do
  create [.direct value]
  return value

def releaseBinding (binding : FrameBinding) : Storing Unit :=
  modify fun machine =>
    { machine with released := machine.released ++ [binding] }

def releaseFrameStorageTolerant (storage : FrameStorage) : Storing Unit :=
  modify fun machine => { machine with released := machine.released ++
    (storage.originalArguments.map .direct ++ storage.operands.map .direct ++
      storage.parameters ++ storage.locals) }

def slotOutOfBounds : Fault := .panic "index out of bounds"

def readSlot (slots : Slots) (index : Nat) :
    Except Fault (Option FrameBinding) :=
  match slots[index]? with
  | some slot => .ok slot
  | none => .error slotOutOfBounds

def putSlot (index : Nat) (slot : Option FrameBinding) : Storing Unit := do
  let _ ← attempt fun machine => readSlot machine.store.slots index
  modify fun machine => { machine with store := { machine.store with
    slots := machine.store.slots.set index slot } }

def takeSlot (index : Nat) : Storing (Option FrameBinding) := do
  let slot ← attempt fun machine => readSlot machine.store.slots index
  putSlot index none
  return slot

def checkCurrent (store : SlotStore) (window : FrameWindow) :
    Except Fault Unit :=
  if store.owner = window.owner ∧ store.windows.getLast? = some window.id ∧
      store.activeEnd = window.windowEnd then
    .ok ()
  else
    .error (.internal "frame window is not the active arena window")

def operandStackUnderflow : Fault := .internal "owned operand stack underflow"

def operandSlotNotAValue : Fault :=
  .internal "owned operand slot is not a value"

def peekCurrent (store : SlotStore) (window : FrameWindow) (fromTop : Nat) :
    Except Fault JsValue :=
  if window.depth < fromTop + 1 then
    .error operandStackUnderflow
  else do
    match ← readSlot store.slots
        (window.localsEnd + (window.depth - (fromTop + 1))) with
    | some (.direct value) => .ok value
    | _ => .error operandSlotNotAValue

def peek (store : SlotStore) (window : FrameWindow) (fromTop : Nat) :
    Except Fault JsValue := do
  checkCurrent store window
  peekCurrent store window fromTop

def operandPushIndex (store : SlotStore) (window : FrameWindow) :
    Except Fault Nat :=
  if window.windowEnd - window.localsEnd ≤ window.depth then
    .error (.internal "owned operand stack exceeds verified capacity")
  else do
    let index := window.localsEnd + window.depth
    match ← readSlot store.slots index with
    | some _ =>
      .error (.internal "owned operand push would replace a live value")
    | none => .ok index

def inspect (read : SlotStore → FrameWindow → Except Fault α) : Accessing α :=
  attempt fun access => read access.machine.store access.window

def setDepth (depth : Nat → Nat) : Accessing Unit :=
  modify fun access => { access with
    window := { access.window with depth := depth access.window.depth } }

def installOperand (index : Nat) (value : JsValue) : Accessing Unit := do
  onMachine (putSlot index (some (.direct value)))
  setDepth (· + 1)

def pushCurrent (value : JsValue) : Accessing Unit := do
  let index ← inspect operandPushIndex
  installOperand index value

def push (value : JsValue) : Accessing Unit := do
  inspect checkCurrent
  pushCurrent value

def popCurrent : Accessing JsValue := do
  let _ ← inspect fun store window => peekCurrent store window 0
  setDepth (· - 1)
  let window := (← get).window
  match ← onMachine (takeSlot (window.localsEnd + window.depth)) with
  | some (.direct value) => return value
  | _ => throw (.panic "peek authenticated this slot before the move")

def pop : Accessing JsValue := do
  inspect checkCurrent
  popCurrent

def rotateOnce (left : Bool) (values : List α) : List α :=
  let split := if left then 1 else values.length - 1
  values.drop split ++ values.take split

def rotateSlots (start stop : Nat) (left : Bool) (slots : Slots) : Slots :=
  slots.take start ++ rotateOnce left ((slots.drop start).take (stop - start)) ++
    slots.drop stop

def rotateOperandsCurrent (skipTop count : Nat) (left : Bool) :
    Accessing Unit := do
  if count = 0 then
    throw (.internal "invalid owned operand rotation")
  let _ ← inspect fun store window =>
    peekCurrent store window (skipTop + count - 1)
  let access ← get
  let stop := access.window.localsEnd + access.window.depth - skipTop
  if access.machine.store.slots.length < stop then
    throw slotOutOfBounds
  onMachine (modify fun machine => { machine with store := { machine.store with
    slots := rotateSlots (stop - count) stop left machine.store.slots } })

def rotateOperands (skipTop count : Nat) (left : Bool) : Accessing Unit := do
  inspect checkCurrent
  rotateOperandsCurrent skipTop count left

def insertCopyCurrent (sourceFromTop destinationFromTop : Nat) :
    Accessing Unit := do
  let _ ← inspect fun store window => peekCurrent store window sourceFromTop
  let window := (← get).window
  if window.depth < destinationFromTop ∨
      window.windowEnd - window.localsEnd ≤ window.depth then
    throw (.internal "owned insertion exceeds verified capacity")
  let value ← inspect fun store window =>
    peekCurrent store window sourceFromTop
  let copied ← onMachine (dupJsvalue value)
  pushCurrent copied
  rotateOperandsCurrent 0 (destinationFromTop + 1) false

def insertCopy (sourceFromTop destinationFromTop : Nat) : Accessing Unit := do
  inspect checkCurrent
  insertCopyCurrent sourceFromTop destinationFromTop

/-- The loop of `duplicate_operands`: as the depth grows, the fixed offset
visits the next operand. -/
def duplicateLoop (source : Nat) : Nat → Accessing Unit
  | 0 => return ()
  | count + 1 => do
    let value ← inspect fun store window => peekCurrent store window source
    let copied ← onMachine (dupJsvalue value)
    pushCurrent copied
    duplicateLoop source count

def duplicateOperandsCurrent (count : Nat) : Accessing Unit := do
  if count = 0 then
    throw (.internal "empty owned operand duplication")
  let _ ← inspect fun store window => peekCurrent store window (count - 1)
  let window := (← get).window
  if window.windowEnd - window.localsEnd - window.depth < count then
    throw (.internal "owned duplication exceeds verified capacity")
  duplicateLoop (count - 1) count

def duplicateOperands (count : Nat) : Accessing Unit := do
  inspect checkCurrent
  duplicateOperandsCurrent count

def replaceOperand (fromTop : Nat) (value : JsValue) : Accessing JsValue := do
  let _ ← inspect fun store window => peek store window fromTop
  let window := (← get).window
  let index := window.localsEnd + window.depth - fromTop - 1
  let slot ← attempt fun access => readSlot access.machine.store.slots index
  onMachine (putSlot index (some (.direct value)))
  match slot with
  | some (.direct previous) => return previous
  | _ => throw (.panic "entered unreachable code")

/-- Answers of the allocator to the two reservations of a frame push. -/
structure Reservation where
  slots : Bool
  windows : Bool
deriving Repr

/-- The callee's function object and the local that holds its name. -/
structure Initializer where
  function : Handle
  functionName : Option UInt16
deriving Repr

inductive RetainPoint where
  | argument (index : Nat)
  | localBinding (index : Nat)
deriving Repr, DecidableEq

/-- The error with which the heap refuses to retain an owner, if it does. -/
abbrev Retains := RetainPoint → Option String

def Retains.granted : Retains := fun _ => none

/-- Only the local that holds the callee's name retains an owner. -/
def Retains.local (retains : Retains) (initializer : Initializer)
    (index : Nat) : Option String :=
  if initializer.functionName = some (UInt16.ofNat index) then
    retains (.localBinding index)
  else
    none

def initialLocalBinding (lexical functionName : Bool) (callable : Handle) :
    Storing FrameBinding :=
  if functionName then do
    let value ← dupJsvalue (.object callable)
    return .direct value
  else do
    let binding := if lexical then .uninitialized else .direct .undefined
    create [binding]
    return binding

def releaseSlots (start : Nat) : Nat → Storing Unit
  | 0 => return ()
  | count + 1 => do
    match ← takeSlot start with
    | some binding => releaseBinding binding
    | none => pure ()
    releaseSlots (start + 1) count

def clearUnpublished (start count : Nat) : Storing Unit :=
  releaseSlots start count

def refuse (storage : FrameStorage) (message : String) : Storing α := do
  releaseFrameStorageTolerant storage
  throw (.internal message)

/-- Stage a copy of every argument in the parameter area. The arguments are the
caller's operands from `sourceStart` on, or the given storage. -/
def copyArguments (retains : Retains) (storage : FrameStorage)
    (sourceStart : Option Nat) (originalEnd : Nat) :
    (index remaining : Nat) → Storing Unit
  | _, 0 => return ()
  | index, remaining + 1 => do
    let value ← match sourceStart with
      | some start => do
        match ← attempt fun machine =>
            readSlot machine.store.slots (start + index) with
        | some (.direct value) => pure value
        | _ => do
          clearUnpublished originalEnd index
          refuse storage "outgoing argument is not a direct owner"
      | none =>
        match storage.originalArguments[index]? with
        | some value => pure value
        | none => throw slotOutOfBounds
    match retains (.argument index) with
    | some message => do
      clearUnpublished originalEnd index
      refuse storage message
    | none => do
      let copied ← dupJsvalue value
      putSlot (originalEnd + index) (some (.direct copied))
      copyArguments retains storage sourceStart originalEnd (index + 1)
        remaining

def fillUndefined (start : Nat) : Nat → Storing Unit
  | 0 => return ()
  | count + 1 => do
    create [.direct .undefined]
    putSlot start (some (.direct .undefined))
    fillUndefined (start + 1) count

/-- Stage the locals; `rollback` is what happens if the binding at an index is
refused. -/
def initializeLocals (initializer : Initializer) (parametersEnd : Nat)
    (rollback : Nat → Option (Storing Unit)) :
    (index : Nat) → List VariableDefinition → Storing Unit
  | _, [] => return ()
  | index, definition :: definitions =>
    match rollback index with
    | some rollback => rollback
    | none => do
      let binding ← initialLocalBinding definition.isLexical
        (initializer.functionName = some (UInt16.ofNat index))
        initializer.function
      putSlot (parametersEnd + index) (some binding)
      initializeLocals initializer parametersEnd rollback (index + 1)
        definitions

/-- The rollback of `push_frame_storage` from a refused local. It starts behind
the originals and yet counts them. -/
def rollbackLocals (retains : Retains) (storage : FrameStorage)
    (initializer : Initializer) (originalEnd actualCount parameterCount : Nat)
    (index : Nat) : Option (Storing Unit) :=
  (retains.local initializer index).map fun message => do
    clearUnpublished originalEnd (actualCount + parameterCount + index)
    refuse storage message

def putBindings (start : Nat) : List FrameBinding → Storing Unit
  | [] => return ()
  | binding :: bindings => do
    putSlot start (some binding)
    putBindings (start + 1) bindings

def moveSlots (source target : Nat) : Nat → Storing Unit
  | 0 => return ()
  | count + 1 => do
    let slot ← takeSlot source
    putSlot target slot
    moveSlots (source + 1) (target + 1) count

def growSlots (windowEnd : Nat) (slots : Slots) : Slots :=
  slots ++ List.replicate (windowEnd - slots.length) none

def publish (actualCount originalEnd parametersEnd localsEnd windowEnd
    depth : Nat) : Storing FrameWindow := fun machine =>
  let store := machine.store
  .ok {
      actualCount
      owner := store.owner
      id := store.nextWindow
      base := store.activeEnd
      originalEnd
      parametersEnd
      localsEnd
      windowEnd
      depth }
    { machine with store := { store with
      activeEnd := windowEnd
      nextWindow := store.nextWindow + 1
      windows := store.windows ++ [store.nextWindow] } }

def methodSlots (method : Bool) : Nat := if method then 1 else 0

/-- The checks of a frame push, in order, and the boundaries they establish. -/
def frameRefusal (store : SlotStore) (layout : FrameLayout)
    (storage : FrameStorage) (fresh : Option Initializer)
    (actualCount : Nat) (reservation : Reservation) : Option String :=
  let parameterCount := layout.argumentSlots actualCount
  let localCount := layout.locals.length
  if fresh.isSome ∧ (storage.parameters ≠ [] ∨ storage.locals ≠ [] ∨
      storage.operands ≠ []) then
    some "fresh frame already contains initialized bindings"
  else if (fresh.bind Initializer.functionName).any (localCount ≤ ·.toNat) then
    some "function-name local is outside the frame"
  else if (fresh = none ∧ (storage.parameters.length ≠ parameterCount ∨
      storage.locals.length ≠ localCount)) ∨
      layout.operandCapacity < storage.operands.length then
    some "owned frame storage disagrees with its published layout"
  else if 2 ^ 64 ≤ store.nextWindow + 1 then
    some "frame window identity exhausted"
  else if store.limit < store.activeEnd + actualCount + parameterCount +
      localCount + layout.operandCapacity then
    some "execution slot limit exceeded"
  else if reservation.slots = false then
    some "execution slot allocation failed"
  else if reservation.windows = false then
    some "execution window allocation failed"
  else
    none

/-- Push a frame. `source` is the calling window with the number of arguments
and whether a receiver lies under the callee; the answer holds the new window
and the calling one. -/
def pushFrameStorage (retains : Retains) (layout : FrameLayout)
    (storage : FrameStorage) (fresh : Option Initializer)
    (source : Option (FrameWindow × Nat × Bool)) (reservation : Reservation) :
    Storing (FrameWindow × Option FrameWindow) := do
  let actualCount := match source with
    | some (_, count, _) => count
    | none => storage.originalArguments.length
  let sourceStart := source.map fun (parent, count, _) =>
    parent.localsEnd + parent.depth - count
  let parameterCount := layout.argumentSlots actualCount
  let store := (← get).store
  match frameRefusal store layout storage fresh actualCount
      reservation with
  | some message => refuse storage message
  | none =>
    let base := store.activeEnd
    let originalEnd := base + actualCount
    let parametersEnd := originalEnd + parameterCount
    let localsEnd := parametersEnd + layout.locals.length
    let windowEnd := localsEnd + layout.operandCapacity
    modify fun machine => { machine with store := { machine.store with
      slots := growSlots windowEnd machine.store.slots } }
    let parent ← match fresh with
      | some initializer => do
        copyArguments retains storage sourceStart originalEnd 0 actualCount
        fillUndefined (originalEnd + actualCount)
          (parameterCount - actualCount)
        initializeLocals initializer parametersEnd
          (rollbackLocals retains storage initializer originalEnd actualCount
            parameterCount) 0 layout.locals
        match source with
        | some (parent, count, method) => do
          let start := parent.localsEnd + parent.depth - count
          moveSlots start base count
          releaseSlots (start - 1 - methodSlots method)
            (1 + methodSlots method)
          pure (some { parent with
            depth := parent.depth - (count + 1 + methodSlots method) })
        | none => do
          putBindings base (storage.originalArguments.map .direct)
          pure none
      | none => do
        putBindings base (storage.originalArguments.map .direct)
        putBindings originalEnd storage.parameters
        putBindings parametersEnd storage.locals
        pure none
    putBindings localsEnd (storage.operands.map .direct)
    let window ← publish actualCount originalEnd parametersEnd localsEnd
      windowEnd storage.operands.length
    return (window, parent)

def pushFrame (layout : FrameLayout) (storage : FrameStorage)
    (reservation : Reservation) : Storing FrameWindow := do
  let (window, _) ← pushFrameStorage .granted layout storage none none
    reservation
  return window

def pushInitializedFrame (layout : FrameLayout) (storage : FrameStorage)
    (initializer : Initializer) (reservation : Reservation) :
    Storing FrameWindow := do
  let (window, _) ← pushFrameStorage .granted layout storage
    (some initializer) none reservation
  return window

def peekAll (store : SlotStore) (window : FrameWindow) :
    (offset remaining : Nat) → Except Fault Unit
  | _, 0 => .ok ()
  | offset, remaining + 1 => do
    let _ ← peekCurrent store window offset
    peekAll store window (offset + 1) remaining

def pushCallFrame (retains : Retains) (layout : FrameLayout) (count : Nat)
    (method : Bool) (initializer : Initializer) (reservation : Reservation) :
    Accessing FrameWindow := do
  inspect checkCurrent
  let parent := (← get).window
  let consumed := count + 1 + methodSlots method
  if parent.depth < consumed then
    throw (.internal "outgoing call exceeds caller operands")
  inspect fun store window => peekAll store window 0 consumed
  let (window, caller) ← onMachine (pushFrameStorage retains layout .empty
    (some initializer) (some (parent, count, method)) reservation)
  modify fun access => { access with window := caller.getD access.window }
  return window

/-! Ordinary calls: originals are kept only if something can observe them. -/

/-- Whether an outgoing argument owns something; fails at a slot that holds no
value. -/
def scanOutgoing (slots : Slots) (start : Nat) :
    (index remaining : Nat) → Bool → Except Fault Bool
  | _, 0, keep => .ok keep
  | index, remaining + 1, keep => do
    match ← readSlot slots index with
    | some (.direct value) =>
      scanOutgoing slots start (index + 1) remaining
        (keep || (decide (start ≤ index) && !value.isScalar))
    | _ => .error (.internal "outgoing argument is not a direct owner")

def copyOrdinary (start originalEnd : Nat) :
    (index remaining : Nat) → Storing Unit
  | _, 0 => return ()
  | index, remaining + 1 => do
    match ← attempt fun machine =>
        readSlot machine.store.slots (start + index) with
    | some (.direct value) => do
      let copied ← dupJsvalue value
      putSlot (originalEnd + index) (some (.direct copied))
    | _ => throw (.panic "entered unreachable code")
    copyOrdinary start originalEnd (index + 1) remaining

def ordinaryRefusal (store : SlotStore) (layout : FrameLayout) (count : Nat)
    (keepOriginals : Bool) (initializer : Initializer)
    (reservation : Reservation) : Option String :=
  if initializer.functionName.any (layout.locals.length ≤ ·.toNat) then
    some "function-name local is outside the frame"
  else if 2 ^ 64 ≤ store.nextWindow + 1 then
    some "frame window identity exhausted"
  else if store.limit < store.activeEnd + (if keepOriginals then count else 0) +
      layout.argumentSlots count + layout.locals.length +
      layout.operandCapacity then
    some "execution slot limit exceeded"
  else if reservation.slots = false then
    some "execution slot allocation failed"
  else if reservation.windows = false then
    some "execution window allocation failed"
  else
    none

/-- Fill and publish the window of an ordinary call whose arguments begin at
`start` among the caller's operands. -/
def enterOrdinaryFrame (layout : FrameLayout) (start count : Nat)
    (method keepOriginals : Bool) (initializer : Initializer) :
    Storing FrameWindow := do
  let base := (← get).store.activeEnd
  let originalEnd := base + if keepOriginals then count else 0
  let parametersEnd := originalEnd + layout.argumentSlots count
  let localsEnd := parametersEnd + layout.locals.length
  let windowEnd := localsEnd + layout.operandCapacity
  modify fun machine => { machine with store := { machine.store with
    slots := growSlots windowEnd machine.store.slots } }
  if keepOriginals then
    copyOrdinary start originalEnd 0 count
  fillUndefined (originalEnd + count) (layout.argumentSlots count - count)
  initializeLocals initializer parametersEnd (fun _ => none) 0 layout.locals
  moveSlots start base count
  releaseSlots (start - 1 - methodSlots method) (1 + methodSlots method)
  publish count originalEnd parametersEnd localsEnd windowEnd 0

def pushOrdinaryFrame (layout : FrameLayout) (count : Nat) (method : Bool)
    (initializer : Initializer) (observesArguments : Bool)
    (reservation : Reservation) : Accessing FrameWindow := do
  inspect checkCurrent
  let parent := (← get).window
  let consumed := count + 1 + methodSlots method
  if parent.depth < consumed then
    throw (.internal "outgoing call exceeds caller operands")
  let start := parent.localsEnd + parent.depth - count
  let keepOriginals ← inspect fun store _ => scanOutgoing store.slots start
    (start - 1 - methodSlots method) consumed observesArguments
  inspect fun store _ =>
    match ordinaryRefusal store layout count keepOriginals initializer
        reservation with
    | some message => .error (.internal message)
    | none => .ok ()
  let window ← onMachine (enterOrdinaryFrame layout start count method
    keepOriginals initializer)
  setDepth (· - consumed)
  return window

/-- Move values out of consecutive slots; the flag says whether all of them
held a value. -/
def takeValues (start : Nat) : Nat → Storing (List JsValue × Bool)
  | 0 => return ([], true)
  | count + 1 => do
    match ← takeSlot start with
    | some (.direct value) => do
      let (values, complete) ← takeValues (start + 1) count
      return (value :: values, complete)
    | _ => return ([], false)

def takeBindings (start : Nat) : Nat → Storing (List FrameBinding)
  | 0 => return []
  | count + 1 => do
    match ← takeSlot start with
    | some binding => do
      let bindings ← takeBindings (start + 1) count
      return binding :: bindings
    | none =>
      throw (.panic "called `Option::unwrap()` on a `None` value")

inductive Handoff where
  | granted
  | originals
  | parameters
  | locals
  | operands
deriving Repr, DecidableEq

def Handoff.problem : Handoff → Option String
  | .granted => none
  | .originals => some "original argument handoff allocation failed"
  | .parameters => some "parameter handoff allocation failed"
  | .locals => some "local handoff allocation failed"
  | .operands => some "operand handoff allocation failed"

variable (window : FrameWindow)

/-- The owners moved out of a window, with the error that stopped the move. -/
def takeFrameSpan (handoff : Handoff) :
    Storing (FrameStorage × Option String) := do
  if handoff ≠ .granted then
    return (.empty, handoff.problem)
  let (originals, complete) ← takeValues window.base
    (window.originalEnd - window.base)
  if complete = false then
    return ({ FrameStorage.empty with originalArguments := originals },
      some "original argument is not an owned value")
  let missing :=
    List.replicate (window.actualCount - originals.length) JsValue.undefined
  create (missing.map .direct)
  let originals := originals ++ missing
  let parameters ← takeBindings window.originalEnd
    (window.parametersEnd - window.originalEnd)
  let locals ← takeBindings window.parametersEnd
    (window.localsEnd - window.parametersEnd)
  let (operands, complete) ← takeValues window.localsEnd window.depth
  let taken : FrameStorage := ⟨originals, parameters, locals, operands⟩
  if complete = false then
    return (taken, some "operand is not an owned value")
  return (taken, none)

def surrender (taken : FrameStorage) : Storing Unit :=
  modify fun machine => { machine with released := machine.released ++
    (taken.originalArguments.map .direct ++ taken.parameters ++ taken.locals ++
      taken.operands.map .direct) }

def takeFrame (handoff : Handoff) : Storing FrameStorage := do
  attempt fun machine => checkCurrent machine.store window
  let (taken, problem) ← takeFrameSpan window handoff
  match problem with
  | some message => do
    surrender taken
    throw (.internal message)
  | none => do
    modify fun machine => { machine with store := { machine.store with
      activeEnd := window.base
      windows := machine.store.windows.dropLast } }
    return taken

def clearFrame : Storing Unit := do
  attempt fun machine => checkCurrent machine.store window
  modify fun machine => { machine with store := { machine.store with
    activeEnd := window.base } }
  releaseSlots window.base (window.localsEnd + window.depth - window.base)
  modify fun machine => { machine with store := { machine.store with
    windows := machine.store.windows.dropLast } }

end QuickJsOxide.Frames
