import QuickJsOxide.Arrays.Rqsort
import QuickJsOxide.Collections.Values

namespace QuickJsOxide.Arrays

open Library

/-! The driver of array sorts. It collects the elements of an object, answers
the machine's comparisons and writes the sorted elements back. Everything
script code can see or do is a request to the host. -/

abbrev ObjectRef := Handle

abbrev CallableRef := Handle

abbrev JsString := List UInt16

inductive RuntimeError where
  | invariant (message : String)
  | outOfMemory
  | heap (error : HeapError)
deriving Repr, DecidableEq

inductive Failure where
  | panic (panic : Panic)
  | error (error : RuntimeError)
deriving Repr, DecidableEq

inductive Completion where
  | returned (value : RawValue)
  | thrown (value : RawValue)
deriving Repr, DecidableEq

inductive NativeConversion (α : Type) where
  | value (value : α)
  | thrown (value : RawValue)
deriving Repr, DecidableEq

inductive NativeErrorKind where
  | type
  | range
deriving Repr, DecidableEq

inductive PropertySetRejection where
  | readOnly
  | arrayLengthReadOnly
  | notConfigurable
  | noSetter
  | notExtensible
  | notObject
deriving Repr, DecidableEq

inductive InternalSetResult where
  | accepted
  | rejectedProxyTrap
  | rejected (reason : PropertySetRejection)
deriving Repr, DecidableEq

inductive SortKey where
  | length
  | index (index : Nat)
deriving Repr, DecidableEq

inductive BigIntRepr where
  | short (value : Int64)
  | heap (cell : Nat)
deriving Repr, DecidableEq

/-- The rest of the engine, as far as sorting calls it. Operations that can
run script code change the world. -/
structure Host (World : Type) where
  asCallable : World → ObjectRef → Except RuntimeError (Option CallableRef)
  toObject : World → RawValue →
    Except RuntimeError (World × NativeConversion ObjectRef)
  getProperty : World → ObjectRef → SortKey →
    Except RuntimeError (World × Completion)
  toNumber : World → RawValue →
    Except RuntimeError (World × NativeConversion UInt64)
  toJsString : World → RawValue →
    Except RuntimeError (World × NativeConversion JsString)
  hasProperty : World → ObjectRef → Nat →
    Except RuntimeError (World × NativeConversion Bool)
  call : World → CallableRef → RawValue → RawValue →
    Except RuntimeError (World × Completion)
  setProperty : World → ObjectRef → Nat → RawValue →
    Except RuntimeError (World × NativeConversion InternalSetResult)
  deleteProperty : World → ObjectRef → Nat →
    Except RuntimeError (World × NativeConversion Bool)
  newArrayFromValues : World → List RawValue →
    Except RuntimeError (World × ObjectRef)
  newNativeError : World → NativeErrorKind → String →
    Except RuntimeError (World × RawValue)
  stringCell : World → LeafId → Except RuntimeError Nat
  bigIntRepr : World → LeafId → Except RuntimeError BigIntRepr

variable (bits : UInt64)

def isPositive : Bool :=
  !Collections.Double.isNaN bits && !Collections.Double.isZero bits &&
    bits.toNat < 2 ^ 63

def isNegative : Bool :=
  !Collections.Double.isNaN bits && !Collections.Double.isZero bits &&
    2 ^ 63 ≤ bits.toNat

def orderFromNumber : Ordering :=
  if isPositive bits then .gt else if isNegative bits then .lt else .eq

/-- The integer part of a positive double. -/
def truncate : Nat :=
  let exponent := bits.toNat / 2 ^ 52
  if exponent < 1023 then 0
  else (2 ^ 52 + bits.toNat % 2 ^ 52) * 2 ^ (exponent - 1023) / 2 ^ 52

def maxSafeInteger : Nat := 2 ^ 53 - 1

/-- Positive doubles are ordered as their bits. -/
def lengthFromNumber : Nat :=
  if !isPositive bits then 0
  else if (0x433fffffffffffff : UInt64).toNat ≤ bits.toNat then maxSafeInteger
  else truncate bits

structure ArraySortSlot where
  value : RawValue
  cachedString : Option JsString
  originalPosition : Nat
deriving Repr, DecidableEq

inductive SortPhase where
  | length
  | lengthNumber
  | collectHas
  | collectRead
  | compareCall
  | compareNumber
  | leftString
  | rightString
  | write
  | delete
deriving Repr, DecidableEq

structure SortResumeState where
  copying : Bool
  object : ObjectRef
  comparator : Option CallableRef
  phase : SortPhase
  length : Nat
  cursor : Nat
  undefinedCount : Nat
  definedCount : Nat
  values : List RawValue
  slots : List ArraySortSlot
  logicalCapacity : Nat
  machine : SortMachine
  left : Nat
  right : Nat
deriving Repr

inductive SortStep where
  | complete (result : Completion)
  | read (object : ObjectRef) (key : SortKey) (resume : SortResumeState)
  | number (value : RawValue) (resume : SortResumeState)
  | string (value : RawValue) (resume : SortResumeState)
  | has (object : ObjectRef) (index : Nat) (resume : SortResumeState)
  | call (callable : CallableRef) (left right : RawValue)
      (resume : SortResumeState)
  | set (object : ObjectRef) (index : Nat) (value : RawValue)
      (resume : SortResumeState)
  | delete (object : ObjectRef) (index : Nat) (resume : SortResumeState)
deriving Repr

def slotAt (slots : List ArraySortSlot) (index : Nat) :
    Except Failure ArraySortSlot :=
  match slots[index]? with
  | some slot => .ok slot
  | none => .error (.panic .outOfBounds)

def maxFastArrayLength : Nat := 2147483647

/-- The next capacity of the slots. Reserving memory is taken to succeed. -/
def reserveArraySortSlotCapacity (length capacity : Nat) :
    Except RuntimeError Nat :=
  if length < capacity then .ok capacity
  else if capacity + capacity / 2 + 31 < 2 ^ 64 then
    .ok ((capacity + capacity / 2 + 31) / 16 * 16)
  else .error .outOfMemory

section

variable {World : Type} (host : Host World)

/-- The elision of comparator calls compares representation, not content. -/
def sameRepresentation (world : World) (left right : RawValue) :
    Except RuntimeError Bool :=
  match left, right with
  | .undefined, .undefined | .null, .null => .ok true
  | .bool left, .bool right => .ok (left == right)
  | .int left, .int right => .ok (left == right)
  | .float left, .float right => .ok (left == right)
  | .symbol left, .symbol right => .ok (left == right)
  | .object left, .object right => .ok (left == right)
  | .string left, .string right =>
    if left = right then .ok true
    else do
      let leftCell ← host.stringCell world left
      let rightCell ← host.stringCell world right
      return leftCell == rightCell
  | .shortBigInt left, .shortBigInt right => .ok (left == right)
  | .shortBigInt value, .bigInt id | .bigInt id, .shortBigInt value => do
    let repr ← host.bigIntRepr world id
    return BigIntRepr.short value == repr
  | .bigInt left, .bigInt right =>
    if left = right then .ok true
    else do
      let leftRepr ← host.bigIntRepr world left
      let rightRepr ← host.bigIntRepr world right
      return leftRepr == rightRepr
  | _, _ => .ok false

/-- One turn of the loop that skips slots already in place, or the request
after it. -/
def writeBody (self : SortResumeState) :
    Except Failure (SortResumeState ⊕ SortStep) :=
  if self.cursor < self.definedCount then do
    let slot ← slotAt self.slots self.cursor
    let self := { self with
      slots := self.slots.set self.cursor
        { slot with cachedString := none, value := .undefined } }
    if slot.originalPosition = self.cursor then
      return .inl { self with cursor := self.cursor + 1 }
    else
      return .inr (.set self.object self.cursor slot.value
        { self with phase := .write })
  else
    let self := { self with slots := [] }
    if self.cursor < self.definedCount + self.undefinedCount then
      .ok (.inr (.set self.object self.cursor .undefined
        { self with phase := .write }))
    else if self.cursor < self.length then
      .ok (.inr (.delete self.object self.cursor
        { self with phase := .delete }))
    else
      .ok (.inr (.complete (.returned (.object self.object))))

def writeNext (self : SortResumeState) : Program Failure SortStep :=
  Program.loop (fun self => Program.lift (writeBody self)) self

def breakTie (self : SortResumeState) (ordering : Ordering) :
    Except Failure Ordering :=
  if ordering.isEq then do
    let left ← slotAt self.slots self.left
    let right ← slotAt self.slots self.right
    return compare left.originalPosition right.originalPosition
  else .ok ordering

def compareStrings (self : SortResumeState) :
    Except Failure (SortStep ⊕ Ordering) := do
  let left ← slotAt self.slots self.left
  let right ← slotAt self.slots self.right
  match left.cachedString with
  | none => return .inl (.string left.value { self with phase := .leftString })
  | some leftString =>
    match right.cachedString with
    | none =>
      return .inl (.string right.value { self with phase := .rightString })
    | some rightString => return .inr (compare leftString rightString)

def compareSlots (world : World) (self : SortResumeState) :
    Except Failure ((SortResumeState × Option Ordering) ⊕ SortStep) := do
  let left ← slotAt self.slots self.left
  let right ← slotAt self.slots self.right
  match self.comparator with
  | some callable =>
    match sameRepresentation host world left.value right.value with
    | .error error => .error (.error error)
    | .ok true =>
      return .inl (self,
        some (compare left.originalPosition right.originalPosition))
    | .ok false =>
      return .inr (.call callable left.value right.value
        { self with phase := .compareCall })
  | none =>
    match left.cachedString, right.cachedString with
    | some leftString, some rightString =>
      let ordering := compare leftString rightString
      return .inl (self, some (if ordering.isEq then
          compare left.originalPosition right.originalPosition
        else ordering))
    | _, _ =>
      match ← compareStrings self with
      | .inl step => return .inr step
      | .inr ordering => return .inl (self, some (← breakTie self ordering))

def sortBody (world : World) (state : SortResumeState × Option Ordering) :
    Program Failure ((SortResumeState × Option Ordering) ⊕ SortStep) := do
  let self := state.1
  let (machine, action) ← (self.machine.advance state.2).mapError Failure.panic
  let self := { self with machine }
  match action with
  | .complete =>
    let step ← writeNext
      { self with cursor := 0, definedCount := self.slots.length }
    return .inr step
  | .swap left right =>
    let slots ← Program.lift
      ((swapAt self.slots left right).mapError Failure.panic)
    return .inl ({ self with slots }, none)
  | .compare left right =>
    Program.lift (compareSlots host world { self with left, right })

def sortNext (world : World) (self : SortResumeState)
    (reply : Option Ordering) : Program Failure SortStep :=
  Program.loop (sortBody host world) (self, reply)

def compared (world : World) (self : SortResumeState) (ordering : Ordering) :
    Program Failure SortStep := do
  let ordering ← Program.lift (breakTie self ordering)
  sortNext host world self (some ordering)

def collectCopied :
    List RawValue → Nat → SortResumeState → Except Failure SortResumeState
  | [], _, self => .ok self
  | value :: values, index, self =>
    match reserveArraySortSlotCapacity self.slots.length
      self.logicalCapacity with
    | .error error => .error (.error error)
    | .ok logicalCapacity =>
      let self := { self with logicalCapacity }
      if value = .undefined then
        collectCopied values (index + 1)
          { self with undefinedCount := self.undefinedCount + 1 }
      else
        collectCopied values (index + 1)
          { self with
            slots := self.slots ++ [⟨value, none, index⟩] }

def collectNext (world : World) (self : SortResumeState) :
    Program Failure (World × SortStep) := do
  if self.cursor = self.length then
    if self.copying then
      let self ← Program.lift (collectCopied self.values 0 self)
      let (world, object) ← Program.lift
        ((host.newArrayFromValues world self.values).mapError .error)
      let self := { self with object, values := [] }
      let step ← sortNext host world
        { self with machine := .new self.slots.length } none
      return (world, step)
    else
      let step ← sortNext host world
        { self with machine := .new self.slots.length } none
      return (world, step)
  else
    let self ←
      if self.copying then pure self
      else do
        let logicalCapacity ← Program.lift
          ((reserveArraySortSlotCapacity self.slots.length
            self.logicalCapacity).mapError .error)
        pure { self with logicalCapacity }
    return (world, .has self.object self.cursor
      { self with phase := .collectHas })

def collectValue (self : SortResumeState) (value : RawValue) :
    Except Failure SortResumeState :=
  if self.copying then
    if self.cursor < self.values.length then
      .ok { self with values := self.values.set self.cursor value }
    else .error (.panic .outOfBounds)
  else if value = .undefined then
    .ok { self with undefinedCount := self.undefinedCount + 1 }
  else
    .ok { self with slots := self.slots ++ [⟨value, none, self.cursor⟩] }

def resume (world : World) (self : SortResumeState) (result : Completion) :
    Program Failure (World × SortStep) :=
  match result with
  | .thrown value => pure (world, .complete (.thrown value))
  | .returned value =>
    match self.phase with
    | .length =>
      pure (world, .number value { self with phase := .lengthNumber })
    | .collectRead => do
      let self ← Program.lift (collectValue self value)
      collectNext host world { self with cursor := self.cursor + 1 }
    | .compareCall =>
      match value with
      | .int value => do
        let step ← compared host world self
          (orderFromNumber (Collections.Double.ofInt value))
        return (world, step)
      | value =>
        pure (world, .number value { self with phase := .compareNumber })
    | _ => Program.lift (.error (.error
        (.invariant "Array sort value phase mismatch")))

def number (world : World) (self : SortResumeState)
    (result : NativeConversion UInt64) : Program Failure (World × SortStep) :=
  match result with
  | .thrown value => pure (world, .complete (.thrown value))
  | .value number =>
    match self.phase with
    | .lengthNumber =>
      let self := { self with length := lengthFromNumber number }
      if self.copying then
        if self.length > maxFastArrayLength then do
          let (world, error) ← Program.lift
            ((host.newNativeError world .range
              "invalid array length").mapError .error)
          return (world, .complete (.thrown error))
        else
          collectNext host world
            { self with values := List.replicate self.length .undefined }
      else collectNext host world self
    | .compareNumber => do
      let step ← compared host world self (orderFromNumber number)
      return (world, step)
    | _ => Program.lift (.error (.error
        (.invariant "Array sort number phase mismatch")))

def boolean (world : World) (self : SortResumeState)
    (result : NativeConversion Bool) : Program Failure (World × SortStep) :=
  match result with
  | .thrown value => pure (world, .complete (.thrown value))
  | .value value =>
    match self.phase with
    | .collectHas =>
      if value then
        pure (world, .read self.object (.index self.cursor)
          { self with phase := .collectRead })
      else
        collectNext host world { self with cursor := self.cursor + 1 }
    | .delete =>
      if value then do
        let step ← writeNext { self with cursor := self.cursor + 1 }
        return (world, step)
      else do
        let (world, error) ← Program.lift
          ((host.newNativeError world .type
            "could not delete property").mapError .error)
        return (world, .complete (.thrown error))
    | _ => Program.lift (.error (.error
        (.invariant "Array sort boolean phase mismatch")))

def stringIndex (self : SortResumeState) : Except Failure Nat :=
  match self.phase with
  | .leftString => .ok self.left
  | .rightString => .ok self.right
  | _ => .error (.error (.invariant "Array sort string phase mismatch"))

def string (world : World) (self : SortResumeState)
    (result : NativeConversion JsString) : Program Failure (World × SortStep) :=
  match result with
  | .thrown value => pure (world, .complete (.thrown value))
  | .value value => do
    let index ← Program.lift (stringIndex self)
    let slot ← Program.lift (slotAt self.slots index)
    let self := { self with
      slots := self.slots.set index
        { slot with cachedString := some value } }
    match ← Program.lift (compareStrings self) with
    | .inl step => return (world, step)
    | .inr ordering =>
      let step ← compared host world self ordering
      return (world, step)

def setRejectionMessage (index : Nat) : InternalSetResult → String
  | .accepted => ""
  | .rejectedProxyTrap => "proxy: cannot set property"
  | .rejected .readOnly => "'" ++ toString index ++ "' is read-only"
  | .rejected .arrayLengthReadOnly => "'length' is read-only"
  | .rejected .notConfigurable => "not configurable"
  | .rejected .noSetter => "no setter for property"
  | .rejected .notExtensible => "object is not extensible"
  | .rejected .notObject => "not an object"

def finishSetPropertyOrThrow (world : World) (index : Nat) :
    NativeConversion InternalSetResult →
    Except RuntimeError (World × Option RawValue)
  | .value .accepted => .ok (world, none)
  | .thrown value => .ok (world, some value)
  | .value result => do
    let (world, error) ← host.newNativeError world .type
      (setRejectionMessage index result)
    return (world, some error)

def set (world : World) (self : SortResumeState) (index : Nat)
    (result : NativeConversion InternalSetResult) :
    Program Failure (World × SortStep) :=
  if self.phase ≠ .write then
    Program.lift (.error (.error (.invariant "Array sort set phase mismatch")))
  else do
    let (world, thrown) ← Program.lift
      ((finishSetPropertyOrThrow host world index result).mapError .error)
    match thrown with
    | some value => return (world, .complete (.thrown value))
    | none =>
      let step ← writeNext { self with cursor := self.cursor + 1 }
      return (world, step)

def nativeSortComparator (world : World) (argument : RawValue) :
    Except RuntimeError (World × NativeConversion (Option CallableRef)) := do
  match argument with
  | .undefined => return (world, .value none)
  | .object id =>
    match ← host.asCallable world id with
    | some callable => return (world, .value (some callable))
    | none =>
      let (world, error) ← host.newNativeError world .type
        "not a function"
      return (world, .thrown error)
  | _ =>
    let (world, error) ← host.newNativeError world .type "not a function"
    return (world, .thrown error)

def SortResumeState.initial (copying : Bool) (object : ObjectRef)
    (comparator : Option CallableRef) : SortResumeState where
  copying := copying
  object := object
  comparator := comparator
  phase := .length
  length := 0
  cursor := 0
  undefinedCount := 0
  definedCount := 0
  values := []
  slots := []
  logicalCapacity := 0
  machine := .new 0
  left := 0
  right := 0

def start (world : World) (copying : Bool) (thisValue argument : RawValue) :
    Except RuntimeError (World × SortStep) := do
  let (world, comparator) ← nativeSortComparator host world argument
  match comparator with
  | .thrown value => return (world, .complete (.thrown value))
  | .value comparator =>
    let (world, object) ← host.toObject world thisValue
    match object with
    | .thrown value => return (world, .complete (.thrown value))
    | .value object =>
      return (world, .read object .length
        (.initial copying object comparator))

def finishBody (state : World × SortStep) :
    Program Failure ((World × SortStep) ⊕ (World × Completion)) := do
  let (world, step) := state
  match step with
  | .complete result => return .inr (world, result)
  | .read object key self =>
    let (world, result) ← Program.lift
      ((host.getProperty world object key).mapError .error)
    return .inl (← resume host world self result)
  | .number value self =>
    let (world, result) ← Program.lift
      ((host.toNumber world value).mapError .error)
    return .inl (← number host world self result)
  | .string value self =>
    let (world, result) ← Program.lift
      ((host.toJsString world value).mapError .error)
    return .inl (← string host world self result)
  | .has object index self =>
    let (world, result) ← Program.lift
      ((host.hasProperty world object index).mapError .error)
    return .inl (← boolean host world self result)
  | .call callable left right self =>
    let (world, result) ← Program.lift
      ((host.call world callable left right).mapError .error)
    return .inl (← resume host world self result)
  | .set object index value self =>
    let (world, result) ← Program.lift
      ((host.setProperty world object index value).mapError .error)
    return .inl (← set host world self index result)
  | .delete object index self =>
    let (world, result) ← Program.lift
      ((host.deleteProperty world object index).mapError .error)
    return .inl (← boolean host world self result)

def finish (world : World) (step : SortStep) :
    Program Failure (World × Completion) :=
  Program.loop (finishBody host) (world, step)

def callArrayPrototypeSort (world : World) (copying : Bool)
    (thisValue argument : RawValue) : Program Failure (World × Completion) := do
  let (world, step) ← Program.lift
    ((start host world copying thisValue argument).mapError .error)
  finish host world step

end

end QuickJsOxide.Arrays
