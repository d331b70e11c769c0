import QuickJsOxide.Objects.Heap

namespace QuickJsOxide.Objects

open Library

/-! Shapes of equal layout are shared through a cache of fingerprints. -/

inductive RuntimeError where
  | heap (error : HeapError)
  | shape (error : ShapeError)
  | invariant (message : String)
deriving Repr, DecidableEq

structure RuntimeState where
  heap : Heap
  shapeCache : UInt64 → List ShapeId
  shapeHashes : ShapeId → Option UInt64
  shapeTransitions : ShapeId → List (ShapeEntry × ShapeId)
  shapeTransitionParents : ShapeId → List (ShapeId × ShapeEntry)

abbrev RuntimeOperation := EStateM RuntimeError RuntimeState

def liftHeap (operation : Operation α) : RuntimeOperation α := fun state =>
  match operation state.heap with
  | .ok value heap => .ok value { state with heap }
  | .error error heap => .error (.heap error) { state with heap }

def liftShape (result : Except ShapeError α) : RuntimeOperation α :=
  match result with
  | .ok value => return value
  | .error error => throw (.shape error)

namespace RuntimeState

def empty : RuntimeState where
  heap := ⟨.empty, .empty, 0⟩
  shapeCache := fun _ => []
  shapeHashes := fun _ => none
  shapeTransitions := fun _ => []
  shapeTransitionParents := fun _ => []

variable (state : RuntimeState)

def shapeMatches (accepts : Shape → Bool) (id : ShapeId) : Bool :=
  match state.heap.shapes.get? id with
  | some node => accepts node.value
  | none => false

def cachedShapeMatching (hash : UInt64) (accepts : Shape → Bool) :
    Option ShapeId :=
  (state.shapeCache hash).find? (state.shapeMatches accepts)

def insertShapeCache (shape : ShapeId) (hash : UInt64) : RuntimeState :=
  { state with
    shapeCache :=
      Function.update state.shapeCache hash (state.shapeCache hash ++ [shape])
    shapeHashes := Function.update state.shapeHashes shape (some hash) }

def removeShapeCache (shape : ShapeId) : Option UInt64 × RuntimeState :=
  match state.shapeHashes shape with
  | none => (none, state)
  | some hash =>
    (some hash, { state with
      shapeCache := Function.update state.shapeCache hash
        ((state.shapeCache hash).filter fun other => other ≠ shape)
      shapeHashes := Function.update state.shapeHashes shape none })

def hasLayout (prototype : Option ObjectId) (entries : List ShapeEntry)
    (shape : Shape) : Bool :=
  shape.prototype = prototype && shape.entries = entries

variable (parent : ShapeId) (entry : ShapeEntry)

def transition? : Option ShapeId :=
  (state.shapeTransitions parent).lookup entry

def canonicalSuccessor : Option ShapeId :=
  match (state.transition? parent entry).filter fun target =>
      (state.heap.shapes.get? target).isSome with
  | some target => some target
  | none =>
    match state.heap.shapes.get? parent with
    | none => none
    | some node =>
      state.cachedShapeMatching
        (extendFingerprintHash node.value.fingerprintHash entry)
        (hasLayout node.value.prototype (node.value.entries ++ [entry]))

def recordTransition (target : ShapeId) : RuntimeState :=
  { state with
    shapeTransitions := Function.update state.shapeTransitions parent
      ((entry, target) ::
        (state.shapeTransitions parent).filter fun edge => edge.1 ≠ entry)
    shapeTransitionParents := Function.update state.shapeTransitionParents
      target (state.shapeTransitionParents target ++ [(parent, entry)]) }

def unlinkTargets (shape : ShapeId) : RuntimeState :=
  { state with
    shapeTransitions := Function.update state.shapeTransitions shape []
    shapeTransitionParents :=
      (state.shapeTransitions shape).foldl
        (fun parents edge => Function.update parents edge.2
          ((parents edge.2).filter fun pair => pair ≠ (shape, edge.1)))
        state.shapeTransitionParents }

def unlinkParents (shape : ShapeId) : RuntimeState :=
  { state with
    shapeTransitionParents :=
      Function.update state.shapeTransitionParents shape []
    shapeTransitions :=
      (state.shapeTransitionParents shape).foldl
        (fun transitions pair => Function.update transitions pair.1
          ((transitions pair.1).filter fun edge => edge.1 ≠ pair.2))
        state.shapeTransitions }

def unlinkShapeTransitions (shape : ShapeId) : RuntimeState :=
  (state.unlinkTargets shape).unlinkParents shape

def unlinkFinalizedShapes (shapes : List ShapeId) : RuntimeState :=
  shapes.foldl
    (fun state shape =>
      ((state.unlinkShapeTransitions shape).removeShapeCache shape).2)
    state

end RuntimeState

namespace Runtime

open RuntimeState

def applyCleanup (finalized : List ShapeId) : RuntimeOperation Unit :=
  modify fun state => state.unlinkFinalizedShapes finalized

variable (object : ObjectId) (prototype : Option ObjectId)
  (entries : List ShapeEntry)

def createShape : RuntimeOperation ShapeId := do
  let shape ← liftShape (Shape.new prototype entries)
  let id ← liftHeap (Heap.allocateShape shape)
  modify fun state =>
    state.insertShapeCache id (computeFingerprintHash prototype entries)
  return id

def getOrCreateShape : RuntimeOperation ShapeId := do
  let state ← get
  match state.cachedShapeMatching (computeFingerprintHash prototype entries)
      (hasLayout prototype entries) with
  | some shape => do
    liftHeap (Heap.retainShape shape)
    return shape
  | none => createShape prototype entries

def appendTransition (parent : ShapeId) (entry : ShapeEntry) :
    RuntimeOperation ShapeId := do
  let state ← get
  match state.canonicalSuccessor parent entry with
  | some target => do
    liftHeap (Heap.retainShape target)
    modify fun state => state.recordTransition parent entry target
    return target
  | none => do
    let source ← liftHeap (Heap.shape parent)
    let target ← getOrCreateShape source.prototype (source.entries ++ [entry])
    modify fun state => state.recordTransition parent entry target
    return target

def releaseShape (shape : ShapeId) : RuntimeOperation Unit := do
  let finalized ← liftHeap (Heap.releaseShape shape)
  applyCleanup finalized

/-- On failure the caller's reference is given up, as on success. -/
def rollBackShape (operation : Operation (List ShapeId)) (shape : ShapeId) :
    RuntimeOperation (List ShapeId) := fun state =>
  match liftHeap operation state with
  | .ok finalized after => .ok finalized after
  | .error error after =>
    match releaseShape shape after with
    | .ok _ last => .error error last
    | .error later last => .error later last

/-- The new owner is in place and the caller's reference is given up. -/
def finishLayout (layout : List ShapeId) (shape : ShapeId) :
    RuntimeOperation Unit := do
  let finalized ← liftHeap (Heap.releaseShape shape)
  applyCleanup layout
  applyCleanup finalized

def replaceLayoutWithOwnedShape (shape : ShapeId) (slots : List PropertySlot) :
    RuntimeOperation Unit := do
  let layout ←
    rollBackShape (Heap.replaceObjectLayout object shape slots) shape
  finishLayout layout shape

def walkOrder (order : DictionaryOrder) : Nat → Option Nat → List Nat
  | 0, _ | _, none => []
  | fuel + 1, some index =>
    index :: walkOrder order fuel
      (order.links[index]?.bind fun link => link.following)

def orderedIndices (shape : Shape) : List Nat :=
  match shape.dictionaryOrder with
  | none => List.range shape.entries.length
  | some order => walkOrder order shape.entries.length order.first

def insertionOrder (shape : Shape) (entries : List ShapeEntry) : List Nat :=
  let known := ((orderedIndices shape).filterMap fun index =>
    shape.entries[index]?.bind fun entry =>
      position entries entry.atom).eraseDups
  known ++ (List.range entries.length).filter fun index => index ∉ known

def requireRuntime (condition : Prop) [Decidable condition]
    (error : RuntimeError) : RuntimeOperation Unit :=
  if condition then return () else throw error

def replaceDictionaryLayout (slots : List PropertySlot) :
    RuntimeOperation Unit := do
  requireRuntime (entries.length = slots.length)
    (.invariant "dictionary replacement has mismatched entries and slots")
  let data ← liftHeap (Heap.object object)
  let current ← liftHeap (Heap.shape data.shape)
  let order := insertionOrder current entries
  let shape ← liftShape
    (Shape.new prototype (order.filterMap fun index => entries[index]?))
  let id ← liftHeap (Heap.allocateShape shape.enableDictionary)
  replaceLayoutWithOwnedShape object id
    (order.filterMap fun index => slots[index]?)

def detachDictionaryLayout (data : ObjectData) (shape : Shape) :
    RuntimeOperation Unit := do
  let id ← liftHeap (Heap.allocateShape shape.enableDictionary)
  replaceLayoutWithOwnedShape object id data.slots

def ensureDictionaryLayout : RuntimeOperation Unit := do
  let data ← liftHeap (Heap.object object)
  let node ← liftHeap (Heap.shapeNode data.shape)
  if node.strong = 1 then do
    liftHeap (Heap.enableObjectDictionary object)
    applyCleanup [data.shape]
  else detachDictionaryLayout object data node.value

def replacementShape (previous : ShapeId) (source : Shape)
    (prototype : Option ObjectId) (entries : List ShapeEntry) :
    RuntimeOperation ShapeId :=
  match entries.getLast? with
  | some entry =>
    if entries.length = source.entries.length + 1 ∧
        prototype = source.prototype ∧
        entries.take source.entries.length = source.entries then
      appendTransition previous entry
    else do
      modify fun state => state.unlinkShapeTransitions previous
      getOrCreateShape prototype entries
  | none => do
    modify fun state => state.unlinkShapeTransitions previous
    getOrCreateShape prototype entries

def replaceLayout (slots : List PropertySlot) : RuntimeOperation Unit := do
  let data ← liftHeap (Heap.object object)
  let source ← liftHeap (Heap.shape data.shape)
  if source.isDictionary then
    replaceDictionaryLayout object prototype entries slots
  else do
    let shape ← replacementShape data.shape source prototype entries
    replaceLayoutWithOwnedShape object shape slots

def materializeArrayLayout : RuntimeOperation Unit := do
  let shape ← getOrCreateShape prototype entries
  let layout ←
    rollBackShape (Heap.materializeArrayDenseShape object shape) shape
  finishLayout layout shape
  ensureDictionaryLayout object

/-- What follows an append in place: the shape is found under the hash of its
new layout, or again under the old one. -/
def reinsert (shape : ShapeId) (previous : Option UInt64)
    (rehash : UInt64 → UInt64) (state : RuntimeState) : RuntimeState :=
  match previous with
  | some hash => state.insertShapeCache shape (rehash hash)
  | none => state

def appendUniqueLayout (shape : ShapeId) (selectedCount : Nat)
    (entry : ShapeEntry) (slot : PropertySlot) :
    RuntimeOperation Unit := fun state =>
  let unlinked := state.unlinkShapeTransitions shape
  let (previous, removed) := unlinked.removeShapeCache shape
  match liftHeap (Heap.appendSelectedMissingObjectProperty object shape
      selectedCount entry slot) removed with
  | .ok _ after =>
    .ok () (reinsert shape previous (fun hash =>
      extendFingerprintHash hash entry) after)
  | .error error after =>
    .error error (reinsert shape previous (fun hash => hash) after)

def AppendsInPlace (state : RuntimeState) (shape : ShapeId)
    (node : Counted Shape) (entry : ShapeEntry) : Prop :=
  (node.value.isDictionary ∨ 1 ≤ node.value.entries.length) ∧
    node.strong = 1 ∧
    (node.value.isDictionary ∨ state.canonicalSuccessor shape entry = none)

instance (state : RuntimeState) (shape : ShapeId) (node : Counted Shape)
    (entry : ShapeEntry) : Decidable (AppendsInPlace state shape node entry) :=
  inferInstanceAs (Decidable (_ ∧ _))

def storeMissing (data : ObjectData) (node : Counted Shape) (entry : ShapeEntry)
    (slot : PropertySlot) : RuntimeOperation Unit := do
  let state ← get
  if AppendsInPlace state data.shape node entry then do
    requireRuntime (node.strong = 1)
      (.invariant "unique layout append reached a shared shape")
    appendUniqueLayout object data.shape node.value.entries.length entry slot
  else if node.value.isDictionary then do
    modify fun state => state.unlinkShapeTransitions data.shape
    replaceLayout object node.value.prototype (node.value.entries ++ [entry])
      (data.slots ++ [slot])
  else do
    let target ← appendTransition data.shape entry
    replaceLayoutWithOwnedShape object target (data.slots ++ [slot])

def storeExisting (data : ObjectData) (node : Counted Shape) (index : Nat)
    (known flags : PropertyFlags) (slot : PropertySlot) :
    RuntimeOperation Unit :=
  if known = flags then
    liftHeap (Heap.replaceObjectSlot object index slot)
  else if node.value.isDictionary ∧ node.strong = 1 then
    liftHeap (Heap.replaceDictionaryProperty object index flags slot)
  else do
    modify fun state => state.unlinkShapeTransitions data.shape
    replaceLayout object node.value.prototype
      (Shape.replaceFlags node.value.entries index flags)
      (data.slots.set index slot)

variable (atom : AtomIdx) (flags : PropertyFlags) (slot : PropertySlot)

def storeSelectedPropertySlot (existing : Option (Nat × PropertyFlags)) :
    RuntimeOperation Unit := do
  let data ← liftHeap (Heap.object object)
  let node ← liftHeap (Heap.shapeNode data.shape)
  match existing with
  | some (index, known) =>
    storeExisting object data node index known flags slot
  | none => storeMissing object data node ⟨atom, flags⟩ slot

def storePropertySlot : RuntimeOperation Unit := do
  let data ← liftHeap (Heap.object object)
  let shape ← liftHeap (Heap.shape data.shape)
  let existing := (shape.find atom).bind fun index =>
    shape.entries[index]?.map fun entry => (index, entry.flags)
  storeSelectedPropertySlot object atom flags slot existing

end Runtime

end QuickJsOxide.Objects
