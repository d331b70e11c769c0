import Mathlib.Data.UInt
import QuickJsOxide.Basics
import QuickJsOxide.Library.Counting

namespace QuickJsOxide.Collections

open Library

/-! Raw values, the arena of strings and heap integers they point to, and the
equality and hash of collection keys. -/

inductive LeafValue where
  | string (units : List UInt16)
  | bigInt (value : Int)
deriving Repr, DecidableEq

def LeafValue.string? : LeafValue → Option (List UInt16)
  | string units => some units
  | bigInt _ => none

def LeafValue.bigInt? : LeafValue → Option Int
  | string _ => none
  | bigInt value => some value

abbrev Leaf := Counted LeafValue

abbrev Leaves := Arena Leaf

namespace Leaves

variable (leaves : Leaves) (id : LeafId)

def value? : Option LeafValue :=
  (leaves.get? id).map Counted.value

def string? (leaves : Leaves) (id : LeafId) : Option (List UInt16) :=
  (leaves.value? id).bind LeafValue.string?

def bigInt? (leaves : Leaves) (id : LeafId) : Option Int :=
  (leaves.value? id).bind LeafValue.bigInt?

/-- Keys of live records and of callers always resolve; the source panics on
other identities. -/
def stringContent : List UInt16 :=
  (leaves.string? id).getD []

def bigIntContent : Int :=
  (leaves.bigInt? id).getD 0

end Leaves

def rawValueEdge : RawValue → Option LeafId
  | .string id | .bigInt id => some id
  | _ => none

def Resolves (leaves : Leaves) : RawValue → Prop
  | .string id => (leaves.string? id).isSome
  | .bigInt id => (leaves.bigInt? id).isSome
  | _ => True

instance (leaves : Leaves) : DecidablePred (Resolves leaves)
  | .string id => inferInstanceAs (Decidable ((leaves.string? id).isSome))
  | .bigInt id => inferInstanceAs (Decidable ((leaves.bigInt? id).isSome))
  | .undefined | .null | .bool _ | .int _ | .float _ | .shortBigInt _ |
      .symbol _ | .privateName _ | .object _ | .uninitialized | .exception =>
      .isTrue trivial

namespace Double

def ofInt (value : Int32) : UInt64 :=
  let magnitude := value.toInt.natAbs
  if magnitude = 0 then 0
  else
    let exponent := magnitude.log2
    UInt64.ofNat
      ((if value.toInt < 0 then 2 ^ 63 else 0) + (1023 + exponent) * 2 ^ 52 +
        (magnitude - 2 ^ exponent) * 2 ^ (52 - exponent))

def isZero (bits : UInt64) : Bool := bits.toNat % 2 ^ 63 = 0

def isNaN (bits : UInt64) : Bool := 0x7ff0000000000000 < bits.toNat % 2 ^ 63

def equal (left right : UInt64) : Bool :=
  !isNaN left && !isNaN right &&
    (left == right || isZero left && isZero right)

def nan : UInt64 := 0x7ff8000000000000

def canonicalBits (bits : UInt64) : UInt64 :=
  if isZero bits then 0 else if isNaN bits then nan else bits

def sameValueZero (left right : UInt64) : Bool :=
  equal left right || isNaN left && isNaN right

theorem isZero_eq_false_of_isNaN (notANumber : isNaN bits) :
    isZero bits = false := by
  simp only [isNaN, isZero, decide_eq_true_eq, decide_eq_false_iff_not] at *
  omega

theorem isZero_iff : isZero bits = true ↔ canonicalBits bits = 0 := by
  constructor
  · intro zero
    exact if_pos zero
  · intro canonical
    unfold canonicalBits at canonical
    split at canonical
    · assumption
    · split at canonical
      · cases canonical
      · subst canonical
        rfl

theorem isNaN_iff : isNaN bits = true ↔ canonicalBits bits = nan := by
  constructor
  · intro notANumber
    simp [canonicalBits, isZero_eq_false_of_isNaN notANumber, notANumber]
  · intro canonical
    unfold canonicalBits at canonical
    split at canonical
    · cases canonical
    · split at canonical
      · assumption
      · subst canonical
        rfl

theorem sameValueZero_iff : sameValueZero left right = true ↔
      canonicalBits left = canonicalBits right := by
  simp only [sameValueZero, equal, Bool.or_eq_true, Bool.and_eq_true,
    Bool.not_eq_true', beq_iff_eq]
  constructor
  · intro same
    rcases same with ⟨_, equal | zeros⟩ | nans
    · rw [equal]
    · rw [isZero_iff.mp zeros.1, isZero_iff.mp zeros.2]
    · rw [isNaN_iff.mp nans.1, isNaN_iff.mp nans.2]
  · intro same
    by_cases nans : isNaN left = true
    · exact .inr ⟨nans, isNaN_iff.mpr (same ▸ isNaN_iff.mp nans)⟩
    · have others : ¬ isNaN right = true := fun other =>
        nans (isNaN_iff.mpr (same ▸ isNaN_iff.mp other))
      refine .inl ⟨⟨by simpa using nans, by simpa using others⟩, ?_⟩
      by_cases zero : isZero left = true
      · exact .inr ⟨zero, isZero_iff.mpr (same ▸ isZero_iff.mp zero)⟩
      · have nonzero : ¬ isZero right = true := fun other =>
          zero (isZero_iff.mpr (same ▸ isZero_iff.mp other))
        left
        simpa [canonicalBits, nans, others, zero, nonzero] using same

end Double

def number : RawValue → Option UInt64
  | .int value => some (Double.ofInt value)
  | .float bits => some bits
  | _ => none

def sameValueZero (leaves : Leaves) (left right : RawValue) : Bool :=
  match number left, number right with
  | some left, some right => Double.sameValueZero left right
  | _, _ =>
    match left, right with
    | .undefined, .undefined | .null, .null => true
    | .bool left, .bool right => left == right
    | .string left, .string right =>
      left == right ||
        leaves.stringContent left == leaves.stringContent right
    | .shortBigInt left, .shortBigInt right => left == right
    | .shortBigInt value, .bigInt id | .bigInt id, .shortBigInt value =>
      leaves.bigIntContent id == value.toInt
    | .bigInt left, .bigInt right =>
      left == right ||
        leaves.bigIntContent left == leaves.bigIntContent right
    | .symbol left, .symbol right => left == right
    | .object left, .object right => left == right
    | _, _ => false

inductive HashWord where
  | u8 (value : Nat)
  | bool (value : Bool)
  | u16 (value : UInt16)
  | u64 (value : UInt64)
  | usize (value : Nat)
  | bigInt (value : Int)
  | atom (value : Nat)
  | object (id : Handle)
deriving Repr, DecidableEq

def hashWords (leaves : Leaves) : RawValue → List HashWord
  | .undefined => [.u8 0]
  | .null => [.u8 1]
  | .bool value => [.u8 2, .bool value]
  | .int value => [.u8 3, .u64 (Double.canonicalBits (Double.ofInt value))]
  | .float bits => [.u8 3, .u64 (Double.canonicalBits bits)]
  | .string id =>
    .u8 4 :: .usize (leaves.stringContent id).length ::
      (leaves.stringContent id).map .u16
  | .shortBigInt value => [.u8 5, .bigInt value.toInt]
  | .bigInt id => [.u8 5, .bigInt (leaves.bigIntContent id)]
  | .symbol atom => [.u8 6, .atom atom]
  | .object id => [.u8 7, .object id]
  -- unreachable in the source: sentinels are rejected before
  | .privateName _ | .uninitialized | .exception => []

def hashCodeUnits (seed : UInt64) (units : List UInt16) : UInt64 :=
  units.foldl FxHasher.writeU16 seed

def stringHash (seed : UInt64) (leaves : Leaves) (id : LeafId) : UInt64 :=
  hashCodeUnits seed (leaves.stringContent id)

/-! Equality of keys is equality of their contents, and a key writes its
content only. -/

inductive KeyContent where
  | undefined
  | null
  | bool (value : Bool)
  | number (bits : UInt64)
  | string (units : List UInt16)
  | bigInt (value : Int)
  | symbol (atom : Nat)
  | object (id : Handle)
deriving Repr, DecidableEq

def keyContent (leaves : Leaves) : RawValue → Option KeyContent
  | .undefined => some .undefined
  | .null => some .null
  | .bool value => some (.bool value)
  | .int value => some (.number (Double.canonicalBits (Double.ofInt value)))
  | .float bits => some (.number (Double.canonicalBits bits))
  | .string id => some (.string (leaves.stringContent id))
  | .shortBigInt value => some (.bigInt value.toInt)
  | .bigInt id => some (.bigInt (leaves.bigIntContent id))
  | .symbol atom => some (.symbol atom)
  | .object id => some (.object id)
  | .privateName _ | .uninitialized | .exception => none

def KeyContent.hashWords : KeyContent → List HashWord
  | undefined => [.u8 0]
  | null => [.u8 1]
  | bool value => [.u8 2, .bool value]
  | number bits => [.u8 3, .u64 bits]
  | string units => .u8 4 :: .usize units.length :: units.map .u16
  | bigInt value => [.u8 5, .bigInt value]
  | symbol atom => [.u8 6, .atom atom]
  | object id => [.u8 7, .object id]

theorem sameValueZero_iff : sameValueZero leaves left right = true ↔
      keyContent leaves left ≠ none ∧
        keyContent leaves left = keyContent leaves right := by
  cases left <;> cases right <;>
    simp [sameValueZero, number, keyContent, Double.sameValueZero_iff,
      Int64.toInt_inj]
  case bigInt.bigInt => exact congrArg leaves.bigIntContent
  case shortBigInt.bigInt => exact eq_comm
  case string.string => exact congrArg leaves.stringContent

theorem keyContent_congr
    (same : ∀ id ∈ rawValueEdge key, after.value? id = leaves.value? id) :
    keyContent after key = keyContent leaves key ∧
      (Resolves after key ↔ Resolves leaves key) := by
  cases key with
  | string id =>
    have equal := same id rfl
    simp only [keyContent, Resolves, Leaves.stringContent, Leaves.string?,
      equal, and_self]
  | bigInt id =>
    have equal := same id rfl
    simp only [keyContent, Resolves, Leaves.bigIntContent, Leaves.bigInt?,
      equal, and_self]
  | _ => exact ⟨rfl, Iff.rfl⟩

theorem keyContent_of_storable (leaves : Leaves)
    (storable : isMapStorableValue key) :
    ∃ content, keyContent leaves key = some content := by
  apply Option.isSome_iff_exists.mp
  cases key <;> first | rfl | cases storable

end QuickJsOxide.Collections
