import QuickJsOxide.Basics
import QuickJsOxide.Library.Checks
import QuickJsOxide.Library.SwapRemove

namespace QuickJsOxide.Objects

open Library List Function

/-! Shapes: the prototype and the ordered property keys of objects. -/

abbrev ObjectId := Handle

/-- The zero index is the null atom. -/
abbrev AtomIdx := Nat

inductive PropertyStorageKind where
  | data
  | accessor
deriving Repr, DecidableEq

structure PropertyFlags where
  writable : Bool
  enumerable : Bool
  configurable : Bool
  storage : PropertyStorageKind
deriving Repr, DecidableEq

def PropertyFlags.data (writable enumerable configurable : Bool) :
    PropertyFlags :=
  ⟨writable, enumerable, configurable, .data⟩

structure ShapeEntry where
  atom : AtomIdx
  flags : PropertyFlags
deriving Repr, DecidableEq

inductive ShapeError where
  | nullAtom
  | duplicateAtom (atom : AtomIdx)
  | missingAtom (atom : AtomIdx)
  | propertyIndexOverflow
deriving Repr, DecidableEq

def boolWord (value : Bool) : UInt64 := if value then 1 else 0

def storageWord : PropertyStorageKind → UInt64
  | .data => 0
  | .accessor => 1

def initialFingerprintHash : Option ObjectId → UInt64
  | none => FxHasher.writeU64 0 0
  | some id =>
    [1, UInt64.ofNat id.index, UInt64.ofNat id.generation].foldl
      FxHasher.writeU64 0

def extendFingerprintHash (hash : UInt64) (entry : ShapeEntry) : UInt64 :=
  [hash, UInt64.ofNat entry.atom, boolWord entry.flags.writable,
    boolWord entry.flags.enumerable, boolWord entry.flags.configurable,
    storageWord entry.flags.storage].foldl FxHasher.writeU64 0

def computeFingerprintHash (prototype : Option ObjectId)
    (entries : List ShapeEntry) : UInt64 :=
  entries.foldl extendFingerprintHash (initialFingerprintHash prototype)

structure Links where
  previous : Option Nat
  following : Option Nat
deriving Repr

structure DictionaryOrder where
  links : List Links
  first : Option Nat
  last : Option Nat
deriving Repr

namespace DictionaryOrder

def new (len : Nat) : DictionaryOrder where
  links := (range len).map fun index =>
    ⟨if index = 0 then none else some (index - 1),
      if index + 1 < len then some (index + 1) else none⟩
  first := if len = 0 then none else some 0
  last := if len = 0 then none else some (len - 1)

def setFollowing (links : List Links) (index : Nat) (following : Option Nat) :
    List Links :=
  links.modify index fun link => ⟨link.previous, following⟩

def setPrevious (links : List Links) (index : Nat) (previous : Option Nat) :
    List Links :=
  links.modify index fun link => ⟨previous, link.following⟩

variable (order : DictionaryOrder)

def append : DictionaryOrder :=
  let index := order.links.length
  let links := order.links ++ [⟨order.last, none⟩]
  match order.last with
  | some last =>
    ⟨setFollowing links last (some index), order.first, some index⟩
  | none => ⟨links, some index, some index⟩

def detach (removed : Links) : DictionaryOrder :=
  let order := match removed.previous with
    | some previous =>
      { order with
        links := setFollowing order.links previous removed.following }
    | none => { order with first := removed.following }
  match removed.following with
  | some following =>
    { order with
      links := setPrevious order.links following removed.previous }
  | none => { order with last := removed.previous }

def attach (index : Nat) (moved : Links) : DictionaryOrder :=
  let order := match moved.previous with
    | some previous =>
      { order with links := setFollowing order.links previous (some index) }
    | none => { order with first := some index }
  match moved.following with
  | some following =>
    { order with links := setPrevious order.links following (some index) }
  | none => { order with last := some index }

def swapRemove (order : DictionaryOrder) (index : Nat) : DictionaryOrder :=
  match order.links[index]? with
  | none => order
  | some removed =>
    let detached := order.detach removed
    let lastSlot := detached.links.length - 1
    let order := { detached with
      links := Library.swapRemove detached.links index }
    if index = lastSlot then order
    else
      match order.links[index]? with
      | none => order
      | some moved => order.attach index moved

end DictionaryOrder

def position (entries : List ShapeEntry) (atom : AtomIdx) : Option Nat :=
  entries.findIdx? fun entry => entry.atom == atom

theorem position_eq_idxOf? (entries : List ShapeEntry) (atom : AtomIdx) :
    position entries atom = (entries.map ShapeEntry.atom).idxOf? atom := by
  unfold position idxOf?
  rw [findIdx?_map]
  rfl

variable {entries : List ShapeEntry}

theorem position_eq_none_iff :
    position entries atom = none ↔ atom ∉ entries.map ShapeEntry.atom := by
  rw [position_eq_idxOf?, idxOf?_eq_none_iff]

theorem position_eq_some_iff (distinct : (entries.map ShapeEntry.atom).Nodup) :
    position entries atom = some index ↔
      (entries.map ShapeEntry.atom)[index]? = some atom := by
  rw [position_eq_idxOf?, idxOf?_eq_some_iff distinct]

variable {entry : ShapeEntry}

theorem position_concat (absent : position entries entry.atom = none)
    (atom : AtomIdx) :
    position (entries ++ [entry]) atom =
      if atom = entry.atom then some entries.length
      else position entries atom := by
  unfold position at *
  rw [findIdx?_append]
  by_cases same : atom = entry.atom
  · rw [if_pos same, same, absent]
    simp
  · have different : (entry.atom == atom) = false := by
      rw [beq_eq_false_iff_ne]
      exact Ne.symm same
    rw [if_neg same, findIdx?_singleton, different]
    simp

def linearLimit : Nat := 8

/-- The table from atoms to positions; it is used for long shapes only. -/
def tableOf (entries : List ShapeEntry) : AtomIdx → Option Nat :=
  if entries.length ≤ linearLimit then fun _ => none else position entries

def Shape.maxRevision : Nat := 2 ^ 64 - 1

/-- An atom occurs once, and the table follows the entries. -/
structure Shape where
  layoutRevision : Nat
  prototype : Option ObjectId
  entries : List ShapeEntry
  fingerprintHash : UInt64
  lookup : AtomIdx → Option Nat
  dictionaryOrder : Option DictionaryOrder
  distinct : (entries.map ShapeEntry.atom).Nodup
  indexed : lookup = tableOf entries
  bounded : layoutRevision ≤ Shape.maxRevision

namespace Shape

def indexLimit : Nat := 2 ^ 32

def checkEntry (ordered : List ShapeEntry) (entry : ShapeEntry) :
    Except ShapeError Unit :=
  if entry.atom = 0 then .error .nullAtom
  else if indexLimit ≤ ordered.length then .error .propertyIndexOverflow
  else if entry.atom ∈ ordered.map ShapeEntry.atom then
    .error (.duplicateAtom entry.atom)
  else .ok ()

def checkEntries : List ShapeEntry → List ShapeEntry → Except ShapeError Unit
  | _, [] => .ok ()
  | ordered, entry :: rest => do
    checkEntry ordered entry
    checkEntries (ordered ++ [entry]) rest

theorem checkEntry_eq_ok (admitted : checkEntry ordered entry = .ok ()) :
    entry.atom ∉ ordered.map ShapeEntry.atom := by
  unfold checkEntry at admitted
  split at admitted
  · cases admitted
  · split at admitted
    · cases admitted
    · split at admitted
      · cases admitted
      · assumption

theorem nodup_of_checkEntries (rest : List ShapeEntry) :
    ∀ ordered, (ordered.map ShapeEntry.atom).Nodup →
      checkEntries ordered rest = .ok () →
      ((ordered ++ rest).map ShapeEntry.atom).Nodup := by
  induction rest with
  | nil =>
    intro ordered distinct _
    rw [append_nil]
    exact distinct
  | cons _ _ ih =>
    intro ordered distinct admitted
    obtain ⟨_, first, later⟩ := bind_eq_ok.mp admitted
    have fresh := checkEntry_eq_ok first
    rw [← singleton_append, ← append_assoc]
    apply ih _ _ later
    rw [map_append, nodup_append]
    refine ⟨distinct, nodup_singleton _, ?_⟩
    intro atom member other last same
    rw [map_singleton, mem_singleton] at last
    exact fresh (last ▸ same ▸ member)

def new (prototype : Option ObjectId) (entries : List ShapeEntry) :
    Except ShapeError Shape :=
  match admitted : checkEntries [] entries with
  | .error error => .error error
  | .ok () => .ok {
      layoutRevision := 0
      prototype
      entries
      fingerprintHash := computeFingerprintHash prototype entries
      lookup := tableOf entries
      dictionaryOrder := none
      distinct := nodup_of_checkEntries entries [] nodup_nil admitted
      indexed := rfl
      bounded := Nat.zero_le _ }

variable {shape : Shape}

theorem new_eq_ok {prototype : Option ObjectId}
    (made : new prototype entries = .ok shape) :
    shape.layoutRevision = 0 ∧ shape.prototype = prototype ∧
      shape.entries = entries ∧
      shape.fingerprintHash = computeFingerprintHash prototype entries ∧
      shape.dictionaryOrder = none := by
  unfold new at made
  split at made
  · cases made
  · cases made
    exact ⟨rfl, rfl, rfl, rfl, rfl⟩

variable (shape : Shape)

/-- A saturated revision is never cached. -/
def invalidateLayout : Shape :=
  { shape with
    layoutRevision := min (shape.layoutRevision + 1) maxRevision
    bounded := Nat.min_le_right _ _ }

def isDictionary : Bool := shape.dictionaryOrder.isSome

def enableDictionary : Shape :=
  match shape.dictionaryOrder with
  | none =>
    { shape with dictionaryOrder := some (.new shape.entries.length) }
  | some _ => shape

def find (atom : AtomIdx) : Option Nat :=
  if shape.entries.length ≤ linearLimit then position shape.entries atom
  else shape.lookup atom

theorem find_eq_position (atom : AtomIdx) :
    shape.find atom = position shape.entries atom := by
  unfold find
  split
  · rfl
  · rename_i long
    rw [shape.indexed, tableOf, if_neg long]

def uniqueAppendIndex (atom : AtomIdx) : Except ShapeError Nat :=
  if atom = 0 then .error .nullAtom
  else if (shape.find atom).isSome then .error (.duplicateAtom atom)
  else if indexLimit ≤ shape.entries.length then .error .propertyIndexOverflow
  else .ok shape.entries.length

/-- The table is filled when the ninth entry arrives. -/
def extendTable (entry : ShapeEntry) : AtomIdx → Option Nat :=
  let entries := shape.entries ++ [entry]
  if entries.length = linearLimit + 1 then
    fun atom => (position entries atom).or (shape.lookup atom)
  else if linearLimit + 1 < entries.length then
    update shape.lookup entry.atom (some shape.entries.length)
  else shape.lookup

theorem extendTable_eq (absent : shape.find entry.atom = none) :
    shape.extendTable entry = tableOf (shape.entries ++ [entry]) := by
  rw [find_eq_position] at absent
  unfold extendTable
  simp only [length_append, length_singleton, shape.indexed]
  funext atom
  by_cases short : shape.entries.length < linearLimit
  · rw [if_neg (by omega), if_neg (by omega), tableOf, if_pos (by omega),
      tableOf, if_pos (by simp; omega)]
  · by_cases full : shape.entries.length = linearLimit
    · rw [if_pos (by omega), tableOf, if_pos (by omega), tableOf,
        if_neg (by simp; omega), Option.or_none]
    · rw [if_neg (by omega), if_pos (by omega), tableOf, if_neg (by omega),
        tableOf, if_neg (by simp; omega), position_concat absent]
      by_cases same : atom = entry.atom
      · rw [same, update_self, if_pos rfl]
      · rw [update_of_ne same, if_neg same]

theorem nodup_concat (absent : shape.find entry.atom = none) :
    ((shape.entries ++ [entry]).map ShapeEntry.atom).Nodup := by
  rw [find_eq_position, position_eq_none_iff] at absent
  rw [map_append, nodup_append]
  refine ⟨shape.distinct, nodup_singleton _, ?_⟩
  intro atom member other last same
  rw [map_singleton, mem_singleton] at last
  exact absent (last ▸ same ▸ member)

/-- The stored fingerprint stays as it is. -/
def appendUniqueProperty (entry : ShapeEntry)
    (absent : shape.find entry.atom = none) : Shape where
  layoutRevision := shape.layoutRevision
  prototype := shape.prototype
  entries := shape.entries ++ [entry]
  fingerprintHash := shape.fingerprintHash
  lookup := shape.extendTable entry
  dictionaryOrder := shape.dictionaryOrder.map DictionaryOrder.append
  distinct := shape.nodup_concat absent
  indexed := shape.extendTable_eq absent
  bounded := shape.bounded

def replaceFlags (entries : List ShapeEntry) (index : Nat)
    (flags : PropertyFlags) : List ShapeEntry :=
  entries.modify index fun entry => ⟨entry.atom, flags⟩

theorem atoms_replaceFlags (entries : List ShapeEntry) (index : Nat)
    (flags : PropertyFlags) :
    (replaceFlags entries index flags).map ShapeEntry.atom =
      entries.map ShapeEntry.atom := by
  unfold replaceFlags
  induction entries generalizing index with
  | nil => simp
  | cons _ _ ih =>
    cases index with
    | zero => rfl
    | succ => simp [ih]

theorem position_congr
    (same : others.map ShapeEntry.atom = entries.map ShapeEntry.atom) :
    position others = position entries := by
  funext atom
  rw [position_eq_idxOf?, position_eq_idxOf?, same]

theorem tableOf_congr
    (same : others.map ShapeEntry.atom = entries.map ShapeEntry.atom) :
    tableOf others = tableOf entries := by
  have length : others.length = entries.length := by
    have lengths := congrArg length same
    rw [length_map, length_map] at lengths
    exact lengths
  unfold tableOf
  rw [length, position_congr same]

def replaceDictionaryFlags (index : Nat) (flags : PropertyFlags) : Shape where
  layoutRevision := shape.layoutRevision
  prototype := shape.prototype
  entries := replaceFlags shape.entries index flags
  fingerprintHash := shape.fingerprintHash
  lookup := shape.lookup
  dictionaryOrder := shape.dictionaryOrder
  distinct := by
    rw [atoms_replaceFlags]
    exact shape.distinct
  indexed := by
    rw [tableOf_congr (atoms_replaceFlags _ _ _)]
    exact shape.indexed
  bounded := shape.bounded

def shrinkTable (atom : AtomIdx) (index : Nat) : AtomIdx → Option Nat :=
  let entries := swapRemove shape.entries index
  if entries.length ≤ linearLimit then fun _ => none
  else
    let lookup := update shape.lookup atom none
    match entries[index]? with
    | some moved => update lookup moved.atom (some index)
    | none => lookup

theorem shrinkTable_eq (found : shape.find atom = some index) :
    shape.shrinkTable atom index = tableOf
    (swapRemove shape.entries index) := by
  rw [find_eq_position, position_eq_some_iff shape.distinct] at found
  have within : index < shape.entries.length := by
    have inside := (List.getElem?_eq_some_iff.mp found).1
    rw [List.length_map] at inside
    exact inside
  unfold shrinkTable tableOf
  by_cases short : (swapRemove shape.entries index).length ≤ linearLimit
  · rw [if_pos short, if_pos short]
  · rw [if_neg short, if_neg short]
    have long : ¬ shape.entries.length ≤ linearLimit := by
      rw [length_swapRemove within] at short
      omega
    have table : shape.lookup = position shape.entries := by
      rw [shape.indexed, tableOf, if_neg long]
    funext other
    rw [position_eq_idxOf?, map_swapRemove,
      idxOf?_swapRemove shape.distinct found, table, ← position_eq_idxOf?,
      List.length_map, List.getElem?_map]
    have moved := getElem?_swapRemove within index
    rw [if_pos rfl] at moved
    by_cases last : index + 1 < shape.entries.length
    · -- the last entry has moved into the hole
      have inside : shape.entries.length - 1 < shape.entries.length := by omega
      rw [if_pos last, List.getElem?_eq_getElem inside] at moved
      rw [moved, List.getElem?_eq_getElem inside]
      dsimp only [Option.map_some]
      have apart : (shape.entries.get ⟨_, inside⟩).atom ≠ atom := by
        intro same
        have there : (shape.entries.map
            ShapeEntry.atom)[shape.entries.length - 1]? = some atom := by
          rw [List.getElem?_map, List.getElem?_eq_getElem inside]
          exact congrArg some same
        have collide := (List.getElem?_inj (by rw [List.length_map]; omega)
          shape.distinct).mp (found.trans there.symm)
        omega
      rw [List.get_eq_getElem] at apart
      by_cases isMoved : other = shape.entries[shape.entries.length - 1].atom
      · rw [isMoved, update_self, if_neg apart, if_pos rfl]
      · rw [update_of_ne isMoved]
        by_cases gone : other = atom
        · rw [gone, update_self, if_pos rfl]
        · rw [update_of_ne gone, if_neg gone, if_neg]
          intro same
          exact isMoved (Option.some.inj same).symm
    · -- the removed entry was the last one
      rw [if_neg last] at moved
      rw [moved]
      dsimp only
      by_cases gone : other = atom
      · rw [gone, update_self, if_pos rfl]
      · rw [update_of_ne gone, if_neg gone, if_neg]
        intro same
        have atEnd : shape.entries.length - 1 = index := by omega
        rw [atEnd] at same
        rw [List.getElem?_map] at found
        exact gone (Option.some.inj (same.symm.trans found))

theorem nodup_swapRemove_entries (found : shape.find atom = some index) :
    ((swapRemove shape.entries index).map ShapeEntry.atom).Nodup := by
  rw [find_eq_position, position_eq_some_iff shape.distinct] at found
  have within := (List.getElem?_eq_some_iff.mp found).1
  rw [map_swapRemove, (swapRemove_perm within).nodup_iff]
  exact shape.distinct.sublist (List.eraseIdx_sublist _ _)

/-- The entry of a found atom is swapped out, here and in the order. -/
def removeDictionaryProperty (atom : AtomIdx) (index : Nat)
    (found : shape.find atom = some index) : Shape where
  layoutRevision := shape.layoutRevision
  prototype := shape.prototype
  entries := swapRemove shape.entries index
  fingerprintHash := shape.fingerprintHash
  lookup := shape.shrinkTable atom index
  dictionaryOrder := shape.dictionaryOrder.map fun order =>
    order.swapRemove index
  distinct := shape.nodup_swapRemove_entries found
  indexed := shape.shrinkTable_eq found
  bounded := shape.bounded

end Shape

end QuickJsOxide.Objects
