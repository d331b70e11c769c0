import Mathlib.Data.UInt
import Mathlib.Data.List.Basic

namespace QuickJsOxide.Atoms

/-! Spellings of property keys that are numbers. -/

abbrev Units := List UInt16

def digitZero : UInt16 := 48

def digitNine : UInt16 := 57

def isDigit (unit : UInt16) : Bool := digitZero ≤ unit && unit ≤ digitNine

def maxU32 : Nat := 2 ^ 32 - 1

/-- The digits after the first, as long as the value is a `u32`. -/
def parseDigits : Nat → Units → Option Nat
  | value, [] => some value
  | value, unit :: rest =>
    if isDigit unit then
      let extended := value * 10 + (unit.toNat - digitZero.toNat)
      if extended ≤ maxU32 then parseDigits extended rest else none
    else none

def parseCanonicalU32 (text : Units) : Option Nat :=
  match text with
  | [] => none
  | first :: rest =>
    if 10 < text.length then none
    else if first = digitZero then
      if text.length = 1 then some 0 else none
    else if isDigit first then
      parseDigits (first.toNat - digitZero.toNat) rest
    else none

def decimalUnits (value : Nat) : Units :=
  (Nat.toDigits 10 value).map fun digit => digit.toNat.toUInt16

inductive AtomContent where
  | integer (value : Nat)
  | string (text : Units)
  | symbol (description : Option Units)
  | privateName (description : Option Units)
deriving Repr, DecidableEq

inductive PropertyKeyKind where
  | string
  | symbol
  | privateName
deriving Repr, DecidableEq

namespace AtomContent

def propertyKeyKind : AtomContent → PropertyKeyKind
  | integer _ | string _ => .string
  | symbol _ => .symbol
  | privateName _ => .privateName

def arrayIndex : AtomContent → Option Nat
  | integer value => some value
  | string text => (parseCanonicalU32 text).filter fun value => value != maxU32
  | _ => none

end AtomContent

end QuickJsOxide.Atoms
