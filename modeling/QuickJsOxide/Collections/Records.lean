import QuickJsOxide.Collections.Values
import QuickJsOxide.Library.BinarySearch
import QuickJsOxide.Library.Checks
import QuickJsOxide.Library.SwapRemove

namespace QuickJsOxide.Collections

open Library

/-! The records of a Map or Set and the index over their keys. -/

/-- A step that stops the program, or an error that is handed back. -/
inductive Failure where
  | panic (message : String)
  | error (error : HeapError)
deriving Repr, DecidableEq

/-- `RandomState`, as the answers of the hashers it builds. -/
abbrev KeyHasher := List HashWord → UInt64

structure CachedStringHash where
  id : LeafId
  hash : UInt64
deriving Repr

def stringHashCacheSize : Nat := 8

namespace StringHashCache

variable (entries : List CachedStringHash) (id : LeafId)

def find : Option UInt64 :=
  (entries.find? fun entry => entry.id == id).map CachedStringHash.hash

def remember (hash : UInt64) : List CachedStringHash :=
  (if entries.length = stringHashCacheSize then entries.tail else entries) ++
    [⟨id, hash⟩]

end StringHashCache

structure CollectionIndex where
  buckets : UInt64 → List Nat
  keyHasher : KeyHasher
  stringHashes : List CachedStringHash

namespace CollectionIndex

def new (keyHasher : KeyHasher) : CollectionIndex :=
  ⟨fun _ => [], keyHasher, []⟩

variable (seed : UInt64)

def hashUncached (index : CollectionIndex) (leaves : Leaves) :
    RawValue → UInt64
  | .string id => stringHash seed leaves id
  | key => index.keyHasher (hashWords leaves key)

def hash (index : CollectionIndex) (leaves : Leaves) :
    RawValue → UInt64 × CollectionIndex
  | .string id =>
    match StringHashCache.find index.stringHashes id with
    | some hash => (hash, index)
    | none =>
      let hash := index.hashUncached seed leaves (.string id)
      (hash,
        { index with
          stringHashes :=
            StringHashCache.remember index.stringHashes id hash })
  | key => (index.hashUncached seed leaves key, index)

variable (index : CollectionIndex) (hash : UInt64) (id : Nat)

def insertHashed : CollectionIndex :=
  { index with
    buckets :=
      Function.update index.buckets hash (index.buckets hash ++ [id]) }

def detach : CollectionIndex :=
  let bucket := index.buckets hash
  { index with
    buckets := Function.update index.buckets hash
      (swapRemove bucket (bucket.idxOf id)) }

def removeHashed : Except Failure CollectionIndex :=
  if index.buckets hash = [] then
    .error (.panic "live collection key has a hash bucket")
  else if id ∉ index.buckets hash then
    .error (.panic "live collection record is indexed")
  else .ok (index.detach hash id)

def clear (index : CollectionIndex) : CollectionIndex :=
  { index with buckets := fun _ => [], stringHashes := [] }

end CollectionIndex

structure MapRecord where
  key : RawValue
  value : RawValue
deriving Repr, DecidableEq

def MapRecord.vacant : MapRecord := ⟨.undefined, .undefined⟩

structure Slot where
  record : MapRecord
  hash : UInt64
deriving Repr

/-! The records as they are laid out: slots are named by
`u32` numbers, the largest of which marks a deleted record, and the live index
is searched by halving. -/

structure LiveEntry where
  id : Nat
  slot : UInt32
deriving Repr

def dead : UInt32 := UInt32.ofNat (2 ^ 32 - 1)

structure CollectionRecords where
  slots : List Slot
  live : List LiveEntry
  liveLen : Nat
  keyIndex : CollectionIndex
  nextId : Nat

def maxIdentity : Nat := 2 ^ 64 - 1

namespace CollectionRecords

def slotAt (slots : List Slot) (slot : UInt32) : Except Failure Slot :=
  match slots[slot.toNat]? with
  | none => .error (.panic "index out of bounds")
  | some found => .ok found

def slotNumber (length : Nat) : Except Failure UInt32 :=
  if length < 2 ^ 32 then .ok (UInt32.ofNat length)
  else .error (.panic "collection slots fit u32")

def new (keyHasher : KeyHasher) : CollectionRecords :=
  ⟨[], [], 0, .new keyHasher, 0⟩

variable (records : CollectionRecords)

def search (id : Nat) : Option Nat :=
  binarySearchByKey records.live LiveEntry.id id

def liveEntry (id : Nat) : Option LiveEntry := do
  let position ← records.search id
  let entry ← records.live[position]?
  if entry.slot ≠ dead then some entry else none

def get (id : Nat) : Except Failure (Option MapRecord) :=
  match records.liveEntry id with
  | none => .ok none
  | some entry => do
    let slot ← slotAt records.slots entry.slot
    return some slot.record

def replaceValue (id : Nat) (value : RawValue) :
    Except Failure (Option RawValue × CollectionRecords) :=
  match records.liveEntry id with
  | none => .ok (none, records)
  | some entry => do
    let slot ← slotAt records.slots entry.slot
    return (some slot.record.value,
      { records with
        slots := records.slots.set entry.slot.toNat
          ⟨⟨slot.record.key, value⟩, slot.hash⟩ })

def nextAtOrAfter (cursor : Nat) : Except Failure (Option (Nat × MapRecord)) :=
  let start := partitionPoint records.live fun entry => entry.id < cursor
  match (records.live.drop start).find? fun entry => entry.slot ≠ dead with
  | none => .ok none
  | some entry => do
    let slot ← slotAt records.slots entry.slot
    return some (entry.id, slot.record)

def preflightInsert : Except Failure Unit :=
  ensure (records.nextId < maxIdentity)
    (.error (.overflow "advancing collection record identity"))

def insertHashed (records : CollectionRecords) (record : MapRecord)
    (hash : UInt64) : Except Failure (Nat × CollectionRecords) := do
  ensure (records.nextId < maxIdentity)
    (Failure.panic "collection insertion was preflighted")
  let slot ← slotNumber records.slots.length
  return (records.nextId,
    { slots := records.slots ++ [⟨record, hash⟩]
      live := records.live ++ [⟨records.nextId, slot⟩]
      liveLen := records.liveLen + 1
      keyIndex := records.keyIndex.insertHashed hash records.nextId
      nextId := records.nextId + 1 })

/-- The loop of `compact`: every slot in use moves behind those moved before
it and leaves a vacant one. -/
def compactLoop : List LiveEntry → List Slot → List Slot →
    Except Failure (List LiveEntry × List Slot)
  | [], _, moved => .ok ([], moved)
  | entry :: rest, slots, moved =>
    if entry.slot = dead then do
      let (live, moved) ← compactLoop rest slots moved
      return (entry :: live, moved)
    else do
      let slot ← slotAt slots entry.slot
      let number ← slotNumber moved.length
      let (live, moved) ← compactLoop rest
        (slots.set entry.slot.toNat ⟨.vacant, 0⟩) (moved ++ [slot])
      return (⟨entry.id, number⟩ :: live, moved)

def compact : Except Failure CollectionRecords := do
  let (live, slots) ← compactLoop records.live records.slots []
  return { records with
    slots
    live := live.filter fun entry => entry.slot ≠ dead }

def vacate (position : Nat) (entry : LiveEntry) (slot : Slot)
    (keyIndex : CollectionIndex) : CollectionRecords where
  slots := records.slots.set entry.slot.toNat ⟨.vacant, slot.hash⟩
  live := records.live.set position ⟨entry.id, dead⟩
  liveLen := records.liveLen - 1
  keyIndex := keyIndex
  nextId := records.nextId

def removeEntry (position : Nat) (entry : LiveEntry) : Except Failure
    (Option MapRecord × CollectionRecords) := do
  let slot ← slotAt records.slots entry.slot
  let keyIndex ← records.keyIndex.removeHashed slot.hash entry.id
  let vacated := records.vacate position entry slot keyIndex
  let after ← if vacated.liveLen * 4 + 64 < vacated.slots.length
    then vacated.compact else .ok vacated
  return (some slot.record, after)

def remove (id : Nat) : Except Failure (Option MapRecord × CollectionRecords) :=
  match records.search id with
  | none => .ok (none, records)
  | some position =>
    match records.live[position]? with
    | none => .error (.panic "index out of bounds")
    | some entry =>
      if entry.slot = dead then .ok (none, records)
      else records.removeEntry position entry

def takeLoop : List LiveEntry → List Slot → Except Failure (List MapRecord)
  | [], _ => .ok []
  | entry :: rest, slots =>
    if entry.slot = dead then takeLoop rest slots
    else do
      let slot ← slotAt slots entry.slot
      let later ← takeLoop rest
        (slots.set entry.slot.toNat ⟨.vacant, slot.hash⟩)
      return slot.record :: later

def takeAll : Except Failure (List MapRecord × CollectionRecords) := do
  let taken ← takeLoop records.live records.slots
  return (taken,
    { records with
      slots := [], live := [], liveLen := 0
      keyIndex := records.keyIndex.clear })

/-- The search of one bucket in `find_entry`. -/
def findInBucket (records : CollectionRecords) (leaves : Leaves)
    (key : RawValue) : List Nat → Except Failure (Option (Nat × MapRecord))
  | [] => .ok none
  | id :: rest => do
    match ← records.get id with
    | none => .error (.panic "indexed record exists")
    | some record =>
      if sameValueZero leaves record.key key then
        return some (id, record)
      else records.findInBucket leaves key rest

def validateLive (slotCount nextId : Nat) :
    List LiveEntry → Option Nat → List Bool → Except Failure (List Bool)
  | [], _, occupied => .ok occupied
  | entry :: rest, previous, occupied => do
    ensure (entry.id < nextId ∧ ∀ last ∈ previous, last < entry.id)
      (Failure.error
        (.invariant "collection record IDs are not strictly ordered"))
    if entry.slot = dead then
      validateLive slotCount nextId rest (some entry.id) occupied
    else do
      ensure (entry.slot.toNat < slotCount ∧
          occupied[entry.slot.toNat]? = some false)
        (Failure.error
          (.invariant "collection record slots do not match live storage"))
      validateLive slotCount nextId rest (some entry.id)
        (occupied.set entry.slot.toNat true)

variable (seed : UInt64) (leaves : Leaves)

/-- The hash of the key is remembered before its bucket is searched. -/
def findEntry (key : RawValue) :
    Except Failure (Option (Nat × MapRecord)) × CollectionRecords :=
  let (hash, index) := records.keyIndex.hash seed leaves key
  (records.findInBucket leaves key (records.keyIndex.buckets hash),
    { records with keyIndex := index })

def validateBucket (records : CollectionRecords) (hash : UInt64) :
    List Nat → List Nat → Except Failure (List Nat)
  | [], seen => .ok seen
  | id :: rest, seen => do
    match ← records.get id with
    | none => .error (.error
        (.invariant "collection index points outside live records"))
    | some record => do
      ensure (id ∉ seen ∧
          records.keyIndex.hashUncached seed leaves record.key = hash)
        (Failure.error
          (.invariant "collection index does not match its records"))
      records.validateBucket hash rest (id :: seen)

def validateBuckets (records : CollectionRecords) :
    List UInt64 → List Nat → Except Failure (List Nat)
  | [], seen => .ok seen
  | hash :: rest, seen => do
    ensure (records.keyIndex.buckets hash ≠ [])
      (Failure.error (.invariant "collection index has an empty bucket"))
    let seen ← records.validateBucket seed leaves hash
      (records.keyIndex.buckets hash) seen
    records.validateBuckets rest seen

def validate (hashes : List UInt64) : Except Failure Unit := do
  let occupied ← validateLive records.slots.length records.nextId records.live
    none (List.replicate records.slots.length false)
  ensure (occupied.countP id = records.liveLen ∧
      records.live.length = records.slots.length)
    (Failure.error
      (.invariant "collection record IDs do not match live storage"))
  let seen ← records.validateBuckets seed leaves hashes []
  ensure (seen.length = records.liveLen)
    (Failure.error (.invariant "collection index is missing live records"))

end CollectionRecords

end QuickJsOxide.Collections
