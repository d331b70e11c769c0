import Mathlib.Tactic

namespace QuickJsOxide.Strings

/-! String representations behind reference-counted handles. A `JsString` is
the address of a representation; clones of one handle share it, and rewriting a
rope into its linearized form is visible through every clone. -/

abbrev JsString := Nat

inductive RopeState where
  | tree (left right : JsString)
  | linearized (flat : JsString)
deriving Repr, DecidableEq

structure RopeRepr where
  len : Nat
  isWide : Bool
  depth : Nat
  state : RopeState
deriving Repr, DecidableEq

inductive StringData where
  | latin1 (units : List UInt8)
  | utf16 (units : List UInt16)
  | rope (rope : RopeRepr)
deriving Repr, DecidableEq

structure StringRepr where
  contentHash : Option UInt32
  data : StringData
deriving Repr, DecidableEq

structure Store where
  reprs : List StringRepr
deriving Repr, DecidableEq

inductive JsStringError where
  | tooLong
  | outOfMemory
deriving Repr, DecidableEq

/-- How an operation can stop early: with an error of the source, with a panic,
or because a loop used up the steps it was given here. -/
inductive Fault where
  | error (error : JsStringError)
  | panic (message : String)
  | exhausted
deriving Repr, DecidableEq

abbrev Operation := EStateM Fault Store

def maxLen : Nat := 2 ^ 30 - 1

def ropeShortLen : Nat := 512

def ropeShort2Len : Nat := 8192

def ropeMaxDepth : Nat := 60

def ropeBucketLengths : List Nat :=
  [1, 2, 3, 5, 8, 13, 21, 34, 55, 89, 144, 233, 377, 610, 987, 1597, 2584,
    4181, 6765, 10946, 17711, 28657, 46368, 75025, 121393, 196418, 317811,
    514229, 832040, 1346269, 2178309, 3524578, 5702887, 9227465, 14930352,
    24157817, 39088169, 63245986, 102334155, 165580141, 267914296, 433494437,
    701408733, 1134903170]

/-- Capacity of the pending stacks of `Utf16Units` and `forEachFlatLeaf`. -/
def traversalCapacity : Nat := 61

def rebalanceCapacity : Nat := 62

/-- Steps granted to a traversal; more than any rope with an eight-bit depth
needs. -/
def traversalSteps : Nat := 2 ^ 256

namespace Store

variable (store : Store) (string : JsString)

/-- The representation behind a handle. A handle always points to one, so the
empty string given for other addresses is never read. -/
def data (store : Store) (string : JsString) : StringData :=
  ((store.reprs[string]?).map StringRepr.data).getD (.latin1 [])

def len (store : Store) (string : JsString) : Nat :=
  match store.data string with
  | .latin1 units => units.length
  | .utf16 units => units.length
  | .rope rope => rope.len

def isEmpty : Bool :=
  store.len string == 0

def isWide (store : Store) (string : JsString) : Bool :=
  match store.data string with
  | .latin1 _ => false
  | .utf16 _ => true
  | .rope rope => rope.isWide

def depth (store : Store) (string : JsString) : Nat :=
  match store.data string with
  | .latin1 _ | .utf16 _ => 0
  | .rope rope => rope.depth

def isFlat : Bool :=
  match store.data string with
  | .latin1 _ | .utf16 _ => true
  | .rope _ => false

def setData (data : StringData) : Store :=
  { reprs := store.reprs.modify string fun repr => { repr with data } }

def setContentHash (contentHash : Option UInt32) : Store :=
  { reprs := store.reprs.modify string fun repr => { repr with contentHash } }

end Store

def allocate (data : StringData) : Operation JsString := fun store =>
  .ok store.reprs.length
    { reprs := store.reprs ++ [{ contentHash := none, data }] }

def checkedLengthWithLimit (current additional limit : Nat) :
    Except Fault Nat :=
  if current + additional ≤ limit then
    .ok (current + additional)
  else
    .error (.error .tooLong)

def checkedLength (current additional : Nat) : Except Fault Nat :=
  checkedLengthWithLimit current additional maxLen

def liftRead (read : Store → Except Fault α) : Operation α := fun store =>
  match read store with
  | .ok value => .ok value store
  | .error fault => .error fault store

structure Utf16Units where
  stack : List JsString
  currentFlat : Option (JsString × Nat)
  remaining : Nat
deriving Repr

namespace Utf16Units

def push (string : JsString) (iterator : Utf16Units) :
    Except Fault Utf16Units :=
  if iterator.stack.length < traversalCapacity then
    .ok { iterator with stack := string :: iterator.stack }
  else
    .error (.panic "String rope exceeded its bounded iterator depth")

def pop (iterator : Utf16Units) : Option (JsString × Utf16Units) :=
  match iterator.stack with
  | [] => none
  | string :: stack => some (string, { iterator with stack })

variable (store : Store)

def new (string : JsString) : Except Fault Utf16Units :=
  push string
    { stack := [], currentFlat := none, remaining := store.len string }

def takeUnit (iterator : Utf16Units) :
    Except Fault (Option UInt16 × Utf16Units) :=
  match iterator.currentFlat with
  | none => .ok (none, iterator)
  | some (flat, index) => do
    let unit ← match store.data flat with
      | .latin1 units => pure ((units[index]?).map UInt8.toUInt16)
      | .utf16 units => pure units[index]?
      | .rope _ => .error (.panic "UTF-16 iterator current node must be flat")
    match unit with
    | some unit =>
      return (some unit,
        { iterator with
          currentFlat := some (flat, index + 1)
          remaining := iterator.remaining - 1 })
    | none => return (none, { iterator with currentFlat := none })

def enter (node : JsString) (iterator : Utf16Units) : Except Fault Utf16Units :=
  match store.data node with
  | .latin1 _ | .utf16 _ => .ok { iterator with currentFlat := some (node, 0) }
  | .rope rope =>
    match rope.state with
    | .tree left right => do
      let iterator ← iterator.push right
      iterator.push left
    | .linearized flat => iterator.push flat

def next (store : Store) :
    Nat → Utf16Units → Except Fault (Option UInt16 × Utf16Units)
  | 0, _ => .error .exhausted
  | steps + 1, iterator => do
    let (unit, iterator) ← iterator.takeUnit store
    if unit.isSome then
      return (unit, iterator)
    match iterator.pop with
    | none => return (none, iterator)
    | some (node, iterator) => do
      let iterator ← iterator.enter store node
      next store steps iterator

/-- The current flat node as far as `nth` still has to skip it: the units left
to skip and the iterator without the node if it was skipped entirely. -/
def skipCurrent (count : Nat) (iterator : Utf16Units) : Nat × Utf16Units :=
  match iterator.currentFlat with
  | none => (count, iterator)
  | some (flat, index) =>
    let skip := min count (store.len flat - index)
    if count - skip = 0 then
      (0, { iterator with
        currentFlat := some (flat, index + skip)
        remaining := iterator.remaining - skip })
    else
      (count - skip, { iterator with
        currentFlat := none
        remaining := iterator.remaining - skip })

/-- `nth` skips whole nodes by their cached length. -/
def nth (store : Store) :
    Nat → Nat → Utf16Units → Except Fault (Option UInt16 × Utf16Units)
  | 0, _, _ => .error .exhausted
  | _ + 1, 0, iterator => iterator.next store traversalSteps
  | steps + 1, count + 1, iterator =>
    match iterator.skipCurrent store (count + 1) with
    | (0, iterator) => iterator.next store traversalSteps
    | (left + 1, iterator) =>
      match iterator.pop with
      | none => .ok (none, iterator)
      | some (node, iterator) =>
        if store.len node ≤ left + 1 then
          nth store steps (left + 1 - store.len node)
            { iterator with
              remaining := iterator.remaining - store.len node }
        else do
          let iterator ← iterator.enter store node
          nth store steps (left + 1) iterator

def collect (store : Store) : Nat → Utf16Units → Except Fault (List UInt16)
  | 0, _ => .error .exhausted
  | steps + 1, iterator => do
    let (unit, iterator) ← iterator.next store traversalSteps
    match unit with
    | none => return []
    | some unit => do
      let units ← collect store steps iterator
      return unit :: units

end Utf16Units

namespace Store

def utf16Units (store : Store) (string : JsString) :
    Except Fault (List UInt16) :=
  match store.data string with
  | .latin1 units => .ok (units.map UInt8.toUInt16)
  | .utf16 units => .ok units
  | .rope _ => do
    let iterator ← Utf16Units.new store string
    iterator.collect store traversalSteps

/-- Flat leaves in the order `for_each_flat_leaf` visits them. -/
def visitFlatLeaves (store : Store) :
    Nat → List JsString → Except Fault (List JsString)
  | 0, _ => .error .exhausted
  | _ + 1, [] => .ok []
  | steps + 1, node :: stack =>
    match store.data node with
    | .latin1 _ | .utf16 _ => do
      let visited ← visitFlatLeaves store steps stack
      return node :: visited
    | .rope rope =>
      match rope.state with
      | .tree left right =>
        if stack.length + 2 ≤ traversalCapacity then
          visitFlatLeaves store steps (left :: right :: stack)
        else
          .error (.panic
            "String rope exceeded its bounded flat-leaf traversal depth")
      | .linearized flat =>
        if stack.length < traversalCapacity then
          visitFlatLeaves store steps (flat :: stack)
        else
          .error (.panic
            "String rope exceeded its bounded flat-leaf traversal depth")

def forEachFlatLeaf (store : Store) (string : JsString) :
    Except Fault (List JsString) :=
  store.visitFlatLeaves traversalSteps [string]

/-- `code_unit_at` descends one child per level, so the cached depth bounds
its recursion. -/
def codeUnitAtWithin (store : Store) :
    Nat → JsString → Nat → Except Fault (Option UInt16)
  | 0, _, _ => .error .exhausted
  | levels + 1, string, index =>
    if store.len string ≤ index then
      .ok none
    else
      match store.data string with
      | .latin1 units => .ok ((units[index]?).map UInt8.toUInt16)
      | .utf16 units => .ok units[index]?
      | .rope rope =>
        match rope.state with
        | .linearized flat => codeUnitAtWithin store levels flat index
        | .tree left right =>
          if index < store.len left then
            codeUnitAtWithin store levels left index
          else
            codeUnitAtWithin store levels right (index - store.len left)

def codeUnitAt (store : Store) (string : JsString) (index : Nat) :
    Except Fault (Option UInt16) :=
  store.codeUnitAtWithin (store.depth string + 1) string index

end Store

def ropeChildren (rope : RopeRepr) : Operation (JsString × JsString) :=
  match rope.state with
  | .tree left right => pure (left, right)
  | .linearized flat => do
    let empty ← allocate (.latin1 [])
    return (flat, empty)

def flatConcat (left right : JsString) : Operation JsString := do
  let store ← get
  match store.data left, store.data right with
  | .latin1 leftUnits, .latin1 rightUnits =>
    allocate (.latin1 (leftUnits ++ rightUnits))
  | .latin1 leftUnits, .utf16 rightUnits =>
    allocate (.utf16 (leftUnits.map UInt8.toUInt16 ++ rightUnits))
  | .utf16 leftUnits, .latin1 rightUnits =>
    allocate (.utf16 (leftUnits ++ rightUnits.map UInt8.toUInt16))
  | .utf16 leftUnits, .utf16 rightUnits =>
    allocate (.utf16 (leftUnits ++ rightUnits))
  | _, _ => throw (.panic "flat String concatenation received a rope")

def newRopeUnbalanced (left right : JsString) : Operation JsString := do
  let store ← get
  let len ← liftRead fun _ => checkedLength (store.len left) (store.len right)
  let depth := max (store.depth left) (store.depth right)
  if depth < 255 then
    allocate (.rope
      { len
        isWide := store.isWide left || store.isWide right
        depth := depth + 1
        state := .tree left right })
  else
    throw (.panic "String rope depth invariant overflowed")

def prependBucket : Option JsString → Option JsString →
    Operation (Option JsString)
  | none, gathered => return gathered
  | some bucket, none => return some bucket
  | some bucket, some gathered => do
    let joined ← newRopeUnbalanced bucket gathered
    return some joined

/-- The scan of `rebalance` over the buckets smaller than a leaf. -/
def sweepBuckets (len : Nat) :
    Nat → Nat → List (Option JsString) → Option JsString →
      Operation (Nat × List (Option JsString) × Option JsString)
  | 0, _, _, _ => throw .exhausted
  | steps + 1, index, buckets, gathered =>
    match ropeBucketLengths[index + 1]? with
    | none => throw (.panic "index out of bounds")
    | some bound =>
      if bound ≤ len then
        match buckets[index]? with
        | none => throw (.panic "index out of bounds")
        | some bucket => do
          let gathered ← prependBucket bucket gathered
          sweepBuckets len steps (index + 1) (buckets.set index none)
            gathered
      else
        return (index, buckets, gathered)

def attachLeaf : Option JsString → JsString → Operation JsString
  | none, node => return node
  | some gathered, node => newRopeUnbalanced gathered node

/-- The loop of `rebalance` that moves a value up to an empty bucket. -/
def carryBuckets :
    Nat → Nat → List (Option JsString) → JsString →
      Operation (List (Option JsString))
  | 0, _, _, _ => throw .exhausted
  | steps + 1, index, buckets, value =>
    match buckets[index]? with
    | none => throw (.panic "index out of bounds")
    | some none => return buckets.set index (some value)
    | some (some bucket) => do
      let value ← newRopeUnbalanced bucket value
      carryBuckets steps (index + 1) (buckets.set index none) value

def insertLeaf (node : JsString) (buckets : List (Option JsString)) :
    Operation (List (Option JsString)) := do
  let store ← get
  let (index, buckets, gathered) ←
    sweepBuckets (store.len node) ropeBucketLengths.length 0 buckets none
  let value ← attachLeaf gathered node
  carryBuckets (ropeBucketLengths.length + 1) index buckets value

/-- The main loop of `rebalance` over its pending stack. -/
def fillBuckets :
    Nat → List JsString → List (Option JsString) →
      Operation (List (Option JsString))
  | 0, _, _ => throw .exhausted
  | _ + 1, [], buckets => return buckets
  | steps + 1, node :: pending, buckets => do
    let store ← get
    match store.data node with
    | .rope rope =>
      match rope.state with
      | .tree left right =>
        if pending.length + 2 ≤ rebalanceCapacity then
          fillBuckets steps (left :: right :: pending) buckets
        else
          throw (.panic "String rope exceeded its bounded rebalance depth")
      | .linearized flat =>
        if pending.length < rebalanceCapacity then
          fillBuckets steps (flat :: pending) buckets
        else
          throw (.panic "String rope exceeded its bounded rebalance depth")
    | .latin1 _ | .utf16 _ =>
      if store.isEmpty node then
        fillBuckets steps pending buckets
      else do
        let buckets ← insertLeaf node buckets
        fillBuckets steps pending buckets

/-- The final loop of `rebalance` over the occupied buckets. -/
def mergeBuckets :
    List (Option JsString) → Option JsString → Operation (Option JsString)
  | [], result => return result
  | bucket :: buckets, result => do
    let result ← prependBucket bucket result
    mergeBuckets buckets result

def rebalance (string : JsString) : Operation JsString := do
  let buckets ← fillBuckets traversalSteps [string]
    (List.replicate ropeBucketLengths.length none)
  let result ← mergeBuckets buckets none
  match result with
  | some result => return result
  | none => allocate (.latin1 [])

def newRope (left right : JsString) : Operation JsString := do
  let rope ← newRopeUnbalanced left right
  let store ← get
  if ropeMaxDepth < store.depth rope then
    rebalance rope
  else
    return rope

/-- Narrow the units of a rope whose width flag promises Latin-1 leaves. -/
def narrowUnits : List UInt16 → Except Fault (List UInt8)
  | [] => .ok []
  | unit :: units =>
    if unit ≤ 0xff then do
      let narrowed ← narrowUnits units
      return unit.toUInt8 :: narrowed
    else
      .error (.panic "a narrow String rope contained a wide code unit")

def flatten (isWide : Bool) (units : List UInt16) : Operation JsString :=
  if isWide then
    allocate (.utf16 units)
  else do
    let narrowed ← liftRead fun _ => narrowUnits units
    allocate (.latin1 narrowed)

def linearize (string : JsString) : Operation JsString := do
  let store ← get
  match store.data string with
  | .latin1 _ | .utf16 _ => return string
  | .rope rope =>
    match rope.state with
    | .linearized flat => return flat
    | .tree _ _ => do
      let units ← liftRead fun store => store.utf16Units string
      let flattened ← flatten rope.isWide units
      modify fun store => store.setData string
        (.rope { rope with state := .linearized flattened })
      return flattened

/-- The copy `sub_string` makes of a proper range of a flat string. -/
def copyRange (source : JsString) (start stop : Nat) : Operation JsString := do
  let store ← get
  match store.data source with
  | .latin1 units => allocate (.latin1 ((units.drop start).take (stop - start)))
  | .utf16 units =>
    let selected := (units.drop start).take (stop - start)
    if selected.all (· ≤ 0xff) then
      allocate (.latin1 (selected.map UInt16.toUInt8))
    else
      allocate (.utf16 selected)
  | .rope _ => throw (.panic "linearized String remained a rope")

def subString (string : JsString) (start stop : Nat) : Operation JsString := do
  let source ← linearize string
  let store ← get
  if stop < start then
    throw (.panic "String subrange start exceeded end")
  else if store.len source < stop then
    throw (.panic "String subrange exceeded source length")
  else if start = 0 ∧ stop = store.len source then
    return source
  else
    copyRange source start stop

variable (self other : JsString)

/-- The branch of `try_concat` for a short flat right operand. -/
def appendShort : Operation JsString := do
  let store ← get
  match store.data self with
  | .latin1 _ | .utf16 _ =>
    if store.len self ≤ ropeShort2Len then
      flatConcat self other
    else
      newRope self other
  | .rope rope => do
    let (left, right) ← ropeChildren rope
    let store ← get
    if store.isFlat right && store.len right ≤ ropeShortLen then do
      let tail ← flatConcat right other
      newRope left tail
    else
      newRope self other

/-- The branch of `try_concat` for a flat left operand and a rope. -/
def prependFlat : Operation JsString := do
  let store ← get
  match store.data other with
  | .rope rope => do
    let (left, right) ← ropeChildren rope
    let store ← get
    if store.isFlat left && store.len left ≤ ropeShortLen then do
      let head ← flatConcat self left
      newRope head right
    else
      newRope self other
  | .latin1 _ | .utf16 _ => newRope self other

def tryConcat : Operation JsString := do
  let store ← get
  let _ ← liftRead fun _ => checkedLength (store.len self) (store.len other)
  if store.isFlat other then
    if store.isEmpty other then
      return self
    else if store.isEmpty self && store.isFlat self then
      return other
    else if store.len other ≤ ropeShortLen then
      appendShort self other
    else
      newRope self other
  else if store.isFlat self then
    if store.isEmpty self then
      return other
    else
      prependFlat self other
  else
    newRope self other

/-- What the standard library answers during one in-place append: whether the
handle is the only reference to its representation, and whether the buffer
could be grown. -/
structure AppendAnswers where
  exclusive : Bool
  reserved : Bool
deriving Repr

/-- Extend a flat buffer in place if the widths of the operands allow it. -/
def extendBuffer (self : JsString) (data : StringData) (reserved : Bool) :
    Operation Bool := do
  if reserved then do
    modify fun store => store.setData self data
    return true
  else
    throw (.error .outOfMemory)

def appendExclusive (reserved : Bool) : Operation Bool := do
  let store ← get
  modify fun store => store.setContentHash self none
  match store.data self, store.data other with
  | .latin1 left, .latin1 right =>
    extendBuffer self (.latin1 (left ++ right)) reserved
  | .utf16 left, .utf16 right =>
    extendBuffer self (.utf16 (left ++ right)) reserved
  | .utf16 left, .latin1 right =>
    extendBuffer self (.utf16 (left ++ right.map UInt8.toUInt16)) reserved
  | _, _ => return false

variable (answers : AppendAnswers) (self other : JsString)

def tryConcatInPlace : Operation Bool := do
  let store ← get
  let _ ← liftRead fun _ => checkedLength (store.len self) (store.len other)
  if ropeShort2Len < store.len self || ropeShortLen < store.len other then
    return false
  else if answers.exclusive then
    appendExclusive self other answers.reserved
  else
    return false

def concatOwned : Operation JsString := do
  let store ← get
  let _ ← liftRead fun _ => checkedLength (store.len self) (store.len other)
  if store.isEmpty other && store.isFlat other then
    return self
  else if store.isEmpty self && store.isFlat self then
    return other
  else do
    let appended ← tryConcatInPlace answers self other
    if appended then
      return self
    else
      tryConcat self other

end QuickJsOxide.Strings
