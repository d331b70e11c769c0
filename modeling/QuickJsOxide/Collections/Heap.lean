import QuickJsOxide.Collections.Records

namespace QuickJsOxide.Collections

open Library MonadExcept

/-! The heap: leaves counted by their owners, and Maps and Sets that own the
keys and values of their records. -/

inductive CollectionClass where
  | map
  | set
deriving Repr, DecidableEq

structure Collection where
  kind : CollectionClass
  records : CollectionRecords

structure Heap where
  leaves : Leaves
  objects : Arena Collection

abbrev Operation := EStateM Failure Heap

namespace Heap

def allocateLeaf (value : LeafValue) : Operation LeafId := fun heap =>
  match heap.leaves.allocate slotLimit ⟨1, value⟩ with
  | some (id, leaves) => .ok id { heap with leaves }
  | none => .error (.error (.overflow "allocating a leaf arena slot")) heap

def allocateString (units : List UInt16) : Operation LeafId :=
  allocateLeaf (.string units)

def allocateBigInt (value : Int) : Operation LeafId :=
  allocateLeaf (.bigInt value)

def liveLeaf (id : LeafId) : Operation Leaf := fun heap =>
  match heap.leaves.get? id with
  | some leaf => .ok leaf heap
  | none => .error (.error (.stale id)) heap

def setStrong (id : LeafId) (leaf : Leaf) (strong : Nat) : Operation Unit :=
  modify fun heap =>
    { heap with leaves := heap.leaves.replace id ⟨strong, leaf.value⟩ }

def preflightEdgeRetain (edge : LeafId) (additional : Nat) :
    Operation Unit := do
  let leaf ← liveLeaf edge
  if leaf.strong + additional ≤ immortalCount then return ()
  else throw (.error (.overflow "retaining outgoing heap edges"))

def retainRaw (id : LeafId) (additional : Nat) : Operation Unit := do
  let leaf ← liveLeaf id
  if leaf.strong + additional ≤ immortalCount then
    setStrong id leaf (leaf.strong + additional)
  else throw (.error (.overflow "retaining a heap reference"))

/-- A saturating retain of a handle that is known to be live. -/
def retainRawFast (id : LeafId) : Operation Unit := do
  let leaf ← liveLeaf id
  setStrong id leaf (min (leaf.strong + 1) immortalCount)

/-- A record has at most the two edges of its key and value. -/
def retainEdgesTransactionally : List LeafId → Operation Unit
  | [] => return ()
  | [edge] => do
    preflightEdgeRetain edge 1
    retainRaw edge 1
  | first :: second :: _ => do
    if first = second then
      preflightEdgeRetain first 2
      retainRaw first 1
      retainRaw second 1
    else
      preflightEdgeRetain first 1
      preflightEdgeRetain second 1
      retainRaw first 1
      retainRaw second 1

def releaseRaw (id : LeafId) : Operation Unit := do
  let leaf ← liveLeaf id
  if leaf.strong = immortalCount then return ()
  else if leaf.strong = 0 then throw (.error (.underflow id))
  else if leaf.strong = 1 then
    modify fun heap =>
      { heap with leaves := heap.leaves.reclaim slotLimit id }
  else setStrong id leaf (leaf.strong - 1)

def releaseEdges : List LeafId → Operation Unit
  | [] => return ()
  | edge :: rest => do
    releaseRaw edge
    releaseEdges rest

def uniqueStringMut (heap : Heap) (id : LeafId) :
    Option (List UInt16) :=
  match heap.leaves.get? id with
  | some ⟨1, .string units⟩ => some units
  | _ => none

/-- The append of `local_add`: the leaf keeps its identity when it has one
owner and the buffer could grow. -/
def appendInPlace (id : LeafId) (suffix : List UInt16) (grows : Bool) :
    Operation Bool := fun heap =>
  match heap.uniqueStringMut id, grows with
  | some units, true =>
    .ok true
      { heap with
        leaves := heap.leaves.replace id ⟨1, .string (units ++ suffix)⟩ }
  | _, _ => .ok false heap

def edges : CollectionClass → MapRecord → List LeafId
  | .map, record =>
    (rawValueEdge record.key).toList ++ (rawValueEdge record.value).toList
  | .set, record => (rawValueEdge record.key).toList

def className : CollectionClass → String
  | .map => "Map"
  | .set => "Set"

variable (seed : UInt64) (kind : CollectionClass)

def wrongClass (action : String) : Failure :=
  .error (.invariant (className kind ++ " " ++ action ++
    " reached an object with the wrong class"))

def sentinel (kind : CollectionClass) (subject : String) : Failure :=
  .error (.invariant (className kind ++ " " ++ subject ++
    " contains an internal value sentinel"))

def recordsOf (id : Handle) (action : String) :
    Operation CollectionRecords := fun heap =>
  match heap.objects.get? id with
  | none => .error (.error (.stale id)) heap
  | some collection =>
    if collection.kind = kind then .ok collection.records heap
    else .error (wrongClass kind action) heap

def storeRecords (id : Handle) (records : CollectionRecords) : Operation Unit :=
  modify fun heap =>
    { heap with objects := heap.objects.replace id ⟨kind, records⟩ }

def newCollection (keyHasher : KeyHasher) : Operation Handle := fun heap =>
  match heap.objects.allocate slotLimit ⟨kind, .new keyHasher⟩ with
  | some (id, objects) => .ok id { heap with objects }
  | none => .error (.error (.overflow "allocating a heap slot")) heap

variable (id : Handle)

/-- The collector finalizes a collection: its records give up their edges. -/
def dropCollection : Operation Unit := fun heap =>
  match heap.objects.get? id with
  | none => .error (.error (.stale id)) heap
  | some collection =>
    (do
      let (removed, _) ← ofExcept collection.records.takeAll
      releaseEdges (removed.flatMap (edges collection.kind)) : Operation Unit)
      { heap with objects := heap.objects.reclaim slotLimit id }

/-- `map_find_entry` and `set_find_record`. -/
def findEntry (key : RawValue) : Operation (Option (Nat × MapRecord)) := do
  if isMapStorableValue key then
    let records ← recordsOf kind id "lookup"
    let heap ← get
    let (found, records) := records.findEntry seed heap.leaves key
    storeRecords kind id records
    ofExcept found
  else throw (sentinel kind "lookup")

/-- The hash is computed, and remembered, before the edges are retained. -/
def precomputeInsertHash (key : RawValue) : Operation UInt64 := do
  let records ← recordsOf kind id "insertion"
  ofExcept records.preflightInsert
  let heap ← get
  let (hash, index) := records.keyIndex.hash seed heap.leaves key
  storeRecords kind id { records with keyIndex := index }
  return hash

/-- `map_insert_record` and `set_insert_record`; the value in a Set is
`undefined`. -/
def insertRecord (record : MapRecord) : Operation Unit := do
  if isMapStorableValue record.key && isMapStorableValue record.value then
    let hash ← precomputeInsertHash seed kind id record.key
    retainEdgesTransactionally (edges kind record)
    let records ← recordsOf kind id "insertion"
    let (_, records) ← ofExcept (records.insertHashed record hash)
    storeRecords kind id records
  else throw (sentinel kind "record")

def mapReplaceRecordValue (index : Nat) (value : RawValue) :
    Operation Unit := do
  if isMapStorableValue value then
    let records ← recordsOf .map id "value replacement"
    if (← ofExcept (records.get index)).isSome then
      retainEdgesTransactionally (rawValueEdge value).toList
      match ← ofExcept (records.replaceValue index value) with
      | (some previous, records) => do
        storeRecords .map id records
        releaseEdges (rawValueEdge previous).toList
      | (none, _) => throw (.panic "validated live Map record")
    else
      throw (.error
        (.invariant "Map value replacement requires a live record index"))
  else throw (sentinel .map "record")

def detachRecord (records : CollectionRecords) (index : Nat) :
    Operation Unit := do
  match ← ofExcept (records.remove index) with
  | (some record, records) => do
    storeRecords kind id records
    releaseEdges (edges kind record)
  | (none, _) =>
    throw (.error (.invariant
      (className kind ++ " deletion requires a live record index")))

def mapDeleteRecord (index : Nat) : Operation Unit := do
  let records ← recordsOf .map id "deletion"
  detachRecord .map id records index

/-- A Set also checks that the record has no value. -/
def setDeleteRecord (index : Nat) : Operation Unit := do
  let records ← recordsOf .set id "deletion"
  match ← ofExcept (records.get index) with
  | none =>
    throw (.error (.invariant "Set deletion requires a live record index"))
  | some existing =>
    if existing.value = .undefined then detachRecord .set id records index
    else throw (.error (.invariant "Set record value slot is not undefined"))

/-- `map_clear` and `set_clear`. -/
def clearRecords : Operation Unit := do
  let records ← recordsOf kind id "clear"
  let (removed, records) ← ofExcept records.takeAll
  storeRecords kind id records
  releaseEdges (removed.flatMap (edges kind))

/-- Both zeros are stored as the integer zero. -/
def normalizeKey : RawValue → RawValue
  | .float bits => if Double.isZero bits then .int 0 else .float bits
  | key => key

variable (key : RawValue)

def find : Operation (Option (Nat × MapRecord)) :=
  findEntry seed kind id (normalizeKey key)

def setMapRecord (key value : RawValue) : Operation Unit := do
  let existing ← findEntry seed .map id (normalizeKey key)
  match existing with
  | some (index, _) => mapReplaceRecordValue id index value
  | none => insertRecord seed .map id ⟨normalizeKey key, value⟩

def insertSetRecord : Operation Bool := do
  let existing ← findEntry seed .set id (normalizeKey key)
  match existing with
  | some _ => return false
  | none => do
    insertRecord seed .set id ⟨normalizeKey key, .undefined⟩
    return true

def deleteMapRecord : Operation Bool := do
  let existing ← findEntry seed .map id (normalizeKey key)
  match existing with
  | none => return false
  | some (index, _) => do
    mapDeleteRecord id index
    return true

def deleteSetRecord : Operation Bool := do
  let existing ← findEntry seed .set id (normalizeKey key)
  match existing with
  | none => return false
  | some (index, _) => do
    setDeleteRecord id index
    return true

end Heap

end QuickJsOxide.Collections
