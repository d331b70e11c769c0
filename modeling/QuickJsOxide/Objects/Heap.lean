import QuickJsOxide.Library.Counting
import QuickJsOxide.Objects.Shape

namespace QuickJsOxide.Objects

open Library

/-! Objects with their shapes and property slots, and the operations on their
layouts. -/

abbrev ShapeId := Handle

inductive PropertySlot where
  | data (value : RawValue)
  | varRef (cell : Nat)
  | accessor (getter setter : Option ObjectId)
  | autoInit (id : Nat)
deriving Repr, DecidableEq

def slotMatchesStorage : PropertySlot → PropertyStorageKind → Bool
  | .data _, .data | .varRef _, .data | .autoInit _, .data => true
  | .accessor _ _, .accessor => true
  | _, _ => false

/-- A private name is never the value of a property. -/
def isPrivateData : PropertySlot → Bool
  | .data (.privateName _) => true
  | _ => false

inductive ObjectKind where
  | ordinary | moduleNamespace | iterator | array | arguments | arrayIterator
  | forInIterator | primitive | date | regExp | regExpStringIterator | map
  | mapIterator | set | setIterator | weakMap | weakSet | weakRef
  | finalizationRegistry | globalObject | error | stringIterator
  | iteratorHelper | iteratorWrap | asyncFromSyncIterator | iteratorConcat
  | proxy | arrayBuffer | sharedArrayBuffer | dataView | typedArray
  | nativeFunction | boundFunction | bytecodeFunction | generator
  | asyncGenerator | asyncFunctionState | promise
deriving Repr, DecidableEq

/-- What the payloads say about indexed properties; the payloads of the other
classes are not looked at here. -/
inductive ObjectPayload where
  | ordinary
  | rawJson
  | array (dense : Option (List RawValue))
  | stringWrapper (length : Nat)
  | other
deriving Repr, DecidableEq

def payloadMatches : ObjectKind → ObjectPayload → Bool
  | .ordinary, .ordinary | .ordinary, .rawJson => true
  | .moduleNamespace, .ordinary | .iterator, .ordinary => true
  | .array, .array _ => true
  | .primitive, .stringWrapper _ | .primitive, .other => true
  | .ordinary, _ | .moduleNamespace, _ | .iterator, _ | .array, _ |
      .primitive, _ => false
  | _, .other => true
  | _, _ => false

structure ObjectData where
  shape : ShapeId
  usedAsPrototype : Bool
  slots : List PropertySlot
  kind : ObjectKind
  payload : ObjectPayload
deriving Repr

namespace ObjectData

def supportsDictionaryLayout (object : ObjectData) : Bool :=
  match object.kind, object.payload with
  | .ordinary, .ordinary | .array, .array none => true
  | _, _ => false

end ObjectData

structure Heap where
  shapes : Arena (Counted Shape)
  objects : Arena ObjectData
  propertyLayoutEpoch : Nat

abbrev Operation := EStateM HeapError Heap

def require (condition : Prop) [Decidable condition] (error : HeapError) :
    Operation Unit :=
  if condition then return () else throw error

namespace Heap

def object (id : ObjectId) : Operation ObjectData := fun heap =>
  match heap.objects.get? id with
  | some object => .ok object heap
  | none => .error (.stale id) heap

def shapeNode (id : ShapeId) : Operation (Counted Shape) := fun heap =>
  match heap.shapes.get? id with
  | some node => .ok node heap
  | none => .error (.stale id) heap

def shape (id : ShapeId) : Operation Shape := do
  let node ← shapeNode id
  return node.value

def setObject (id : ObjectId) (object : ObjectData) : Operation Unit :=
  modify fun heap => { heap with objects := heap.objects.replace id object }

def setShape (id : ShapeId) (node : Counted Shape) : Operation Unit :=
  modify fun heap => { heap with shapes := heap.shapes.replace id node }

/-- Mutable access to a shape starts a new revision of its layout. -/
def shapeMut (id : ShapeId) (change : Shape → Except HeapError Shape) :
    Operation Unit := do
  let node ← shapeNode id
  match change node.value.invalidateLayout with
  | .ok shape => setShape id ⟨node.strong, shape⟩
  | .error error => throw error

/-- A layout change of an object that is a prototype starts a new epoch. -/
def invalidated (heap : Heap) (id : ObjectId) : Heap :=
  match heap.objects.get? id with
  | some object =>
    if object.usedAsPrototype then
      { heap with
        propertyLayoutEpoch :=
          min (heap.propertyLayoutEpoch + 1) Shape.maxRevision }
    else heap
  | none => heap

def invalidatePropertyLayout (id : ObjectId) : Operation Unit :=
  modify fun heap => heap.invalidated id

def retainShape (id : ShapeId) : Operation Unit := do
  let node ← shapeNode id
  require (node.strong + 1 ≤ immortalCount)
    (.overflow "retaining a heap reference")
  setShape id ⟨node.strong + 1, node.value⟩

/-- The identities of the shapes that were finalized. -/
def releaseShape (id : ShapeId) : Operation (List ShapeId) := do
  let node ← shapeNode id
  if node.strong = immortalCount then return []
  else if node.strong = 0 then throw (.underflow id)
  else if node.strong = 1 then do
    modify fun heap =>
      { heap with shapes := heap.shapes.reclaim slotLimit id }
    return [id]
  else do
    setShape id ⟨node.strong - 1, node.value⟩
    return []

def markPrototype : Option ObjectId → Operation Unit
  | none => return ()
  | some prototype => do
    let object ← object prototype
    setObject prototype { object with usedAsPrototype := true }

def allocateShape (shape : Shape) : Operation ShapeId := do
  markPrototype shape.prototype
  let heap ← get
  match heap.shapes.allocate slotLimit ⟨1, shape⟩ with
  | some (id, shapes) => do
    set { heap with shapes }
    return id
  | none => throw (.overflow "allocating a heap slot")

def validatePropertyLayout (shape : Shape) (slots : List PropertySlot) :
    Except HeapError Unit := do
  ensure (shape.entries.length = slots.length)
    (.invariant "object slot count does not match its shape")
  ensure (∀ pair ∈ shape.entries.zip slots,
      slotMatchesStorage pair.2 pair.1.flags.storage)
    (.invariant "object property storage does not match its shape flags")
  ensure (∀ slot ∈ slots, isPrivateData slot = false)
    (.invariant "private-name identity escaped into an object value slot")

def validateObjectLayout (shape : Shape) (object : ObjectData) :
    Except HeapError Unit := do
  ensure (shape.isDictionary → object.supportsDictionaryLayout)
    (.invariant "invalid dictionary object layout")
  ensure (payloadMatches object.kind object.payload)
    (.invariant "object kind does not match its class payload")
  validatePropertyLayout shape object.slots
  ensure (object.kind = .proxy → shape.prototype = none)
    (.invariant
      "Proxy has invalid null-prototype layout or cached target capabilities")

def liftExcept (result : Except HeapError α) : Operation α :=
  match result with
  | .ok value => return value
  | .error error => throw error

def allocateObject (kind : ObjectKind) (payload : ObjectPayload)
    (shapeId : ShapeId) (slots : List PropertySlot) : Operation ObjectId := do
  let shape ← shape shapeId
  let object : ObjectData := ⟨shapeId, false, slots, kind, payload⟩
  liftExcept (validateObjectLayout shape object)
  retainShape shapeId
  let heap ← get
  match heap.objects.allocate slotLimit object with
  | some (id, objects) => do
    set { heap with objects }
    return id
  | none => throw (.overflow "allocating a heap slot")

def rawValueIsImmediate : RawValue → Bool
  | .undefined | .null | .bool _ | .int _ | .float _ | .shortBigInt _ => true
  | _ => false

def validateReplacementSlot (shape : Shape) (index : Nat)
    (replacement : PropertySlot) : Except HeapError Unit :=
  match shape.entries[index]? with
  | none =>
    .error (.invariant "property slot index is outside the object shape")
  | some entry => do
    ensure (slotMatchesStorage replacement entry.flags.storage)
      (.invariant
        "replacement property storage does not match its shape flags")
    ensure (isPrivateData replacement = false)
      (.invariant "private-name identity escaped into an object value slot")

variable (id : ObjectId)

def replaceRetainedObjectSlot (index : Nat) (replacement : PropertySlot) :
    Operation Unit := do
  let object ← object id
  require (index < object.slots.length)
    (.invariant "validated property slot disappeared before replacement")
  setObject id { object with slots := object.slots.set index replacement }

/-- Exchanging one scalar for another needs no validation. -/
def bothImmediate (object : ObjectData) (index : Nat) :
    PropertySlot → Bool
  | .data new =>
    rawValueIsImmediate new &&
      match object.slots[index]? with
      | some (.data old) => rawValueIsImmediate old
      | _ => false
  | _ => false

def replaceObjectSlot (index : Nat) (replacement : PropertySlot) :
    Operation Unit := do
  let object ← object id
  if bothImmediate object index replacement then
    setObject id { object with slots := object.slots.set index replacement }
  else do
    let shape ← shape object.shape
    liftExcept (validateReplacementSlot shape index replacement)
    replaceRetainedObjectSlot id index replacement

def appendEntry (entry : ShapeEntry) (shape : Shape) :
    Except HeapError Shape :=
  if absent : shape.find entry.atom = none then
    .ok (shape.appendUniqueProperty entry absent)
  else
    .error (.invariant "in-place property append duplicated a shape atom")

def pushSlot (slot : PropertySlot) : Operation Unit := do
  let object ← object id
  setObject id { object with slots := object.slots ++ [slot] }

variable (shapeId : ShapeId)

def appendUniqueObjectPropertyAtIndex (entry : ShapeEntry)
    (replacement : PropertySlot) (index slotCount : Nat) : Operation Unit := do
  require (index = slotCount)
    (.invariant
      "in-place property append found mismatched shape and slot lengths")
  require (slotMatchesStorage replacement entry.flags.storage)
    (.invariant "appended property storage does not match its shape flags")
  require (isPrivateData replacement = false)
    (.invariant
      "private-name identity escaped into an appended object value slot")
  invalidatePropertyLayout id
  shapeMut shapeId (appendEntry entry)
  pushSlot id replacement

def appendError : ShapeError → HeapError
  | .nullAtom => .invariant "in-place property append used a null atom"
  | .duplicateAtom _ =>
    .invariant "in-place property append duplicated a shape atom"
  | .missingAtom _ =>
    .invariant
      "in-place property append reported an impossible missing atom"
  | .propertyIndexOverflow =>
    .overflow "appending an in-place shape property"

def appendUniqueObjectProperty (entry : ShapeEntry)
    (replacement : PropertySlot) : Operation Unit := do
  let object ← object id
  let node ← shapeNode object.shape
  require (node.strong = 1)
    (.invariant "in-place property append reached a shared shape")
  let index ← liftExcept
    ((node.value.uniqueAppendIndex entry.atom).mapError appendError)
  appendUniqueObjectPropertyAtIndex id object.shape entry replacement index
    object.slots.length

/-- The caller has just looked the atom up in vain. -/
def appendSelectedMissingObjectProperty (selectedCount : Nat)
    (entry : ShapeEntry) (replacement : PropertySlot) : Operation Unit := do
  let object ← object id
  let node ← shapeNode shapeId
  require (object.shape = shapeId ∧ object.slots.length = selectedCount ∧
      node.value.entries.length = selectedCount)
    (.invariant "selected missing append changed shape or slot count")
  require (node.strong = 1)
    (.invariant "in-place property append reached a shared shape")
  require (entry.atom ≠ 0)
    (.invariant "in-place property append used a null atom")
  require (selectedCount < Shape.indexLimit)
    (.overflow "appending an in-place shape property")
  appendUniqueObjectPropertyAtIndex id shapeId entry replacement selectedCount
    selectedCount

def replaceObjectLayout (slots : List PropertySlot) :
    Operation (List ShapeId) := do
  let replacement ← shape shapeId
  liftExcept (validatePropertyLayout replacement slots)
  let before ← object id
  require (before.kind = .proxy → replacement.prototype = none)
    (.invariant
      "Proxy has invalid null-prototype layout or cached target capabilities")
  retainShape shapeId
  invalidatePropertyLayout id
  let object ← object id
  setObject id { object with shape := shapeId, slots }
  releaseShape object.shape

/-- The shape extends the layout by one default property per element. -/
def extendsDense (previous replacement : Shape) (slotCount denseCount : Nat) :
    Prop :=
  replacement.prototype = previous.prototype ∧
    replacement.entries.length = slotCount + denseCount ∧
    replacement.entries.take slotCount = previous.entries ∧
    ∀ entry ∈ replacement.entries.drop slotCount,
      entry.flags = .data true true true

instance (previous replacement : Shape) (slotCount denseCount : Nat) :
    Decidable (extendsDense previous replacement slotCount denseCount) :=
  inferInstanceAs (Decidable (_ ∧ _))

def materializeArrayDenseShape : Operation (List ShapeId) := do
  let object ← object id
  match object.payload with
  | .array (some dense) => do
    let previous ← shape object.shape
    let replacement ← shape shapeId
    require (extendsDense previous replacement object.slots.length
        dense.length)
      (.invariant "materialized Array shape does not extend its dense layout")
    retainShape shapeId
    invalidatePropertyLayout id
    setObject id
      { object with
        shape := shapeId
        slots := object.slots ++ dense.map PropertySlot.data
        payload := .array none }
    releaseShape object.shape
  | _ =>
    throw (.invariant
      "dense materialization reached a slow Array or wrong object class")

def exclusiveDictionaryShape (object : ObjectData) : Operation Shape := do
  require object.supportsDictionaryLayout
    (.invariant "dictionary mutation requires an ordinary object or slow Array")
  let node ← shapeNode object.shape
  require (node.strong = 1 ∧ node.value.entries.length = object.slots.length)
    (.invariant "dictionary mutation requires an exclusive parallel layout")
  return node.value

def enableObjectDictionary : Operation Unit := do
  let object ← object id
  let _ ← exclusiveDictionaryShape object
  invalidatePropertyLayout id
  shapeMut object.shape fun shape => .ok shape.enableDictionary

def removeEntry (atom : AtomIdx) (shape : Shape) : Except HeapError Shape :=
  match found : shape.find atom with
  | some index => .ok (shape.removeDictionaryProperty atom index found)
  | none =>
    .error (.invariant "dictionary deletion requires an existing property")

def configurableSlot (shape : Shape) (atom : AtomIdx) :
    Except HeapError Nat :=
  match shape.find atom with
  | none =>
    .error (.invariant "dictionary deletion requires an existing property")
  | some index =>
    match shape.entries[index]? with
    | some entry =>
      if shape.isDictionary ∧ entry.flags.configurable then .ok index
      else
        .error (.invariant
          "dictionary deletion requires configurable dictionary storage")
    | none => .error (.invariant "shape lookup index was out of bounds")

def deleteDictionaryProperty (atom : AtomIdx) : Operation Unit := do
  let before ← object id
  let shape ← exclusiveDictionaryShape before
  let index ← liftExcept (configurableSlot shape atom)
  invalidatePropertyLayout id
  shapeMut before.shape (removeEntry atom)
  let object ← object id
  setObject id { object with slots := swapRemove object.slots index }

def replaceDictionaryProperty (index : Nat) (flags : PropertyFlags)
    (replacement : PropertySlot) : Operation Unit := do
  let object ← object id
  let shape ← exclusiveDictionaryShape object
  require (shape.isDictionary ∧ index < shape.entries.length)
    (.invariant "dictionary replacement requires an existing dictionary slot")
  require (slotMatchesStorage replacement flags.storage ∧
      isPrivateData replacement = false)
    (.invariant "invalid dictionary replacement storage")
  invalidatePropertyLayout id
  shapeMut object.shape fun shape =>
    .ok (shape.replaceDictionaryFlags index flags)
  replaceRetainedObjectSlot id index replacement

def fillEmptyArrayDense (values : List RawValue) : Operation Unit := do
  let object ← object id
  match object.payload with
  | .array (some dense) => do
    require (dense = []) (.invariant "dense fill requires empty payload")
    setObject id { object with payload := .array (some values) }
    invalidatePropertyLayout id
  | _ => throw (.invariant "dense fill requires fast Array")

def denseLimit : Nat := 2 ^ 32 - 1

def appendArrayDenseValue (value : RawValue) : Operation Unit := do
  require (isMapStorableValue value)
    (.invariant "fast Array contains an internal value sentinel")
  let object ← object id
  match object.payload with
  | .array (some dense) => do
    require (dense.length < denseLimit)
      (.overflow "growing fast Array count")
    setObject id
      { object with payload := .array (some (dense ++ [value])) }
  | _ =>
    throw (.invariant
      "dense append reached a slow Array or an object with the wrong class")

/-- The collector takes an object away; its shape loses an owner. -/
def reclaimObject : Operation (List ShapeId) := do
  let object ← object id
  modify fun heap =>
    { heap with objects := heap.objects.reclaim slotLimit id }
  releaseShape object.shape

end Heap

end QuickJsOxide.Objects
