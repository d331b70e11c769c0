import QuickJsOxide.Atoms.Spelling
import QuickJsOxide.Objects.Heap

namespace QuickJsOxide.Objects

open Library Atoms

/-! Caches of property locations at sites with a fixed key. -/

abbrev ContextId := Handle

structure Location where
  domain : Nat
  realm : ContextId
  shape : ShapeId
  revision : Nat
  prototypeEpoch : Nat
  depth : Nat
  slot : Nat
  numericKey : Bool
deriving Repr

inductive CacheState where
  | cold
  | monomorphic (location : Location)
  | polymorphic (first second : Location)
  | megamorphic (left : Nat)
deriving Repr

def ordinaryReceiver (object : ObjectData) (numeric : Bool) : Bool :=
  match object.kind with
  | .proxy | .moduleNamespace => false
  | .array | .arguments | .primitive | .typedArray => !numeric
  | _ => true

def ascend (heap : Heap) : Nat → ObjectId → Option ObjectId
  | 0, holder => some holder
  | depth + 1, holder => do
    let data ← heap.objects.get? holder
    let node ← heap.shapes.get? data.shape
    let prototype ← node.value.prototype
    ascend heap depth prototype

def dataSlot (slots : List PropertySlot) (slot : Nat) : Option RawValue :=
  match slots[slot]? with
  | some (.data value) => some value
  | _ => none

/-- A hit reads the slot as it is now. The receiver is alive, so that the
first lookup never fails. -/
def readLocation (location : Location) (heap : Heap) (domain : Nat)
    (realm : ContextId) (receiver : ObjectId) : Option RawValue := do
  guard (location.domain = domain ∧ location.realm = realm)
  let object ← heap.objects.get? receiver
  guard (ordinaryReceiver object location.numericKey)
  guard (object.shape = location.shape)
  let node ← heap.shapes.get? object.shape
  guard (node.value.layoutRevision = location.revision)
  guard (location.depth ≠ 0 →
    heap.propertyLayoutEpoch = location.prototypeEpoch)
  let holder ← ascend heap location.depth receiver
  let data ← heap.objects.get? holder
  dataSlot data.slots location.slot

def depthLimit : Nat := 2 ^ 32

/-- The depth and slot at which the atom is found; `room` bounds the depths
that are left. -/
def search (heap : Heap) (atom : AtomIdx) (numeric : Bool) :
    Nat → ObjectId → Nat → Option (Nat × Nat)
  | 0, _, _ => none
  | room + 1, holder, depth => do
    let data ← heap.objects.get? holder
    guard (ordinaryReceiver data numeric)
    let node ← heap.shapes.get? data.shape
    match node.value.find atom with
    | some slot => do
      guard (dataSlot data.slots slot).isSome
      return (depth, slot)
    | none => do
      let prototype ← node.value.prototype
      search heap atom numeric room prototype (depth + 1)

def spellingOfNaN : Units := [78, 97, 78]

def spellingOfInfinity : Units := [73, 110, 102, 105, 110, 105, 116, 121]

/-- A superset of the canonical numeric strings. -/
def looksNumeric (text : Units) : Bool :=
  (match text.head? with
    | some first =>
      first == 43 || first == 45 || first == 46 || isDigit first
    | none => false) ||
  text == spellingOfNaN || text == spellingOfInfinity

def spelling : AtomContent → Units
  | .integer value => decimalUnits value
  | .string text => text
  | .symbol description => description.getD []
  | .privateName description => description.getD []

def isNumericKey (content : AtomContent) : Bool :=
  content.arrayIndex.isSome ||
    (content.propertyKeyKind = .string && looksNumeric (spelling content))

def locate (heap : Heap) (atoms : AtomIdx → Option AtomContent)
    (domain : Nat) (realm : ContextId) (receiver : ObjectId)
    (atom : AtomIdx) : Option Location := do
  let initial ← heap.objects.get? receiver
  let initialShape ← heap.shapes.get? initial.shape
  let revision := initialShape.value.layoutRevision
  let epoch := heap.propertyLayoutEpoch
  guard (revision ≠ Shape.maxRevision ∧ epoch ≠ Shape.maxRevision)
  let content ← atoms atom
  let numeric := isNumericKey content
  let (depth, slot) ← search heap atom numeric depthLimit receiver 0
  return ⟨domain, realm, initial.shape, revision, epoch, depth, slot, numeric⟩

namespace CacheState

def megamorphicReads : Nat := 1024

variable (state : CacheState) (heap : Heap) (domain : Nat) (realm : ContextId)

def read (receiver : ObjectId) : Option RawValue × CacheState :=
  match state with
  | cold => (none, cold)
  | monomorphic location =>
    (readLocation location heap domain realm receiver, state)
  | polymorphic first second =>
    match readLocation first heap domain realm receiver with
    | some value => (some value, state)
    | none =>
      match readLocation second heap domain realm receiver with
      | some value => (some value, polymorphic second first)
      | none => (none, state)
  | megamorphic left =>
    (none, if left ≤ 1 then cold else megamorphic (left - 1))

def sameKey (old new : Location) : Bool :=
  old.domain = new.domain && old.realm = new.realm && old.shape = new.shape

def remember (state : CacheState) (location : Location) : CacheState :=
  match state with
  | cold => monomorphic location
  | monomorphic old =>
    if sameKey old location then monomorphic location
    else polymorphic location old
  | polymorphic first second =>
    if sameKey first location then polymorphic location second
    else if sameKey second location then polymorphic location first
    else megamorphic megamorphicReads
  | megamorphic left => megamorphic left

def miss (state : CacheState) (heap : Heap)
    (atoms : AtomIdx → Option AtomContent) (domain : Nat)
    (realm : ContextId) (receiver : Option ObjectId) (atom : AtomIdx) :
    CacheState :=
  match state with
  | megamorphic left => megamorphic left
  | _ =>
    match receiver.bind fun id => locate heap atoms domain realm id atom with
    | none => megamorphic megamorphicReads
    | some location => state.remember location

def current : CacheState → Option Location
  | monomorphic location => some location
  | polymorphic first _ => some first
  | _ => none

/-- Where a location may be written: the receiver's own writable property,
but never the first slot of an Array, which is its length. -/
def writableSlot (location : Location) (heap : Heap) (receiver : ObjectId) :
    Option Nat := do
  guard (location.depth = 0)
  let object ← heap.objects.get? receiver
  guard (¬ (object.kind = .array ∧ location.slot = 0))
  let node ← heap.shapes.get? location.shape
  let entry ← node.value.entries[location.slot]?
  guard entry.flags.writable
  return location.slot

def slot (receiver : ObjectId) : Option Nat × CacheState :=
  match state.read heap domain realm receiver with
  | (none, after) => (none, after)
  | (some _, after) =>
    (after.current.bind fun location =>
      writableSlot location heap receiver, after)

end CacheState

end QuickJsOxide.Objects
