import Mathlib.Data.UInt
import QuickJsOxide.Library.Arena

namespace QuickJsOxide

open Library

/-! Raw values, errors and the cheap hasher the parts of the engine share. -/

abbrev LeafId := Handle

inductive RawValue where
  | undefined
  | null
  | bool (value : Bool)
  | int (value : Int32)
  | float (bits : UInt64)
  | bigInt (id : LeafId)
  | shortBigInt (value : Int64)
  | string (id : LeafId)
  | symbol (atom : Nat)
  | privateName (atom : Nat)
  | object (id : Handle)
  | uninitialized
  | exception
deriving Repr, DecidableEq

def isMapStorableValue : RawValue → Bool
  | .privateName _ | .uninitialized | .exception => false
  | _ => true

inductive HeapError where
  | overflow (operation : String)
  | underflow (id : Handle)
  | stale (id : Handle)
  | invariant (message : String)
deriving Repr, DecidableEq

namespace FxHasher

def rotateLeft5 (hash : UInt64) : UInt64 := hash <<< 5 ||| hash >>> 59

def writeU64 (hash value : UInt64) : UInt64 :=
  (rotateLeft5 hash ^^^ value) * 0x517cc1b727220a95

def writeU16 (hash : UInt64) (value : UInt16) : UInt64 :=
  writeU64 hash value.toUInt64

end FxHasher

end QuickJsOxide
