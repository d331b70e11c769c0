import QuickJsOxide.Library.RopeBuckets
import QuickJsOxide.Strings.Store

namespace QuickJsOxide.Strings

open Library

/-! Strings as concatenation trees, without sharing: what the operations on the
store compute for the trees behind the handles. The leaves are kept abstract,
so that the same functions run on flat strings and on bare lengths. -/

structure LeafOps (α : Type u) where
  size : α → Nat
  empty : α
  append : α → α → α

namespace LeafOps

variable (ops : LeafOps α)

def limits : RopeLimits α where
  size := ops.size
  maxLength := maxLen
  maxDepth := 255

/-- `new_rope` on trees. -/
def newRope? (left right : Rope α) : Option (Rope α) := do
  let rope ← Rope.join? ops.limits left right
  if ropeMaxDepth < rope.depth then do
    let balanced ←
      Rope.rebalance? ops.limits ropeBucketLengths.tail rope.leaves
    return balanced.getD (.leaf ops.empty)
  else
    return rope

/-- `try_concat` when the right operand is flat, short and not empty. -/
def appendShort? (self : Rope α) (other : α) : Option (Rope α) :=
  match self with
  | .leaf flat =>
    if ops.size flat ≤ ropeShort2Len then
      some (.leaf (ops.append flat other))
    else
      ops.newRope? self (.leaf other)
  | .node left (.leaf right) =>
    if ops.size right ≤ ropeShortLen then
      ops.newRope? left (.leaf (ops.append right other))
    else
      ops.newRope? self (.leaf other)
  | .node _ _ => ops.newRope? self (.leaf other)
  | .collapsed _ flat =>
    ops.newRope? (.leaf flat) (.leaf (ops.append ops.empty other))

/-- `try_concat` when the left operand is flat and not empty and the right one
is a rope. -/
def prependFlat? (self : α) (other : Rope α) : Option (Rope α) :=
  match other with
  | .node (.leaf left) right =>
    if ops.size left ≤ ropeShortLen then
      ops.newRope? (.leaf (ops.append self left)) right
    else
      ops.newRope? (.leaf self) other
  | .collapsed _ flat =>
    if ops.size flat ≤ ropeShortLen then
      ops.newRope? (.leaf (ops.append self flat)) (.leaf ops.empty)
    else
      ops.newRope? (.leaf self) other
  | _ => ops.newRope? (.leaf self) other

/-- `try_concat` on trees whose total length is within the limit. -/
def concat? (self other : Rope α) : Option (Rope α) :=
  match other, self with
  | .leaf flat, self =>
    if ops.size flat = 0 then
      some self
    else if self.isLeaf ∧ self.length ops.size = 0 then
      some other
    else if ops.size flat ≤ ropeShortLen then
      ops.appendShort? self flat
    else
      ops.newRope? self other
  | other, .leaf flat =>
    if ops.size flat = 0 then
      some other
    else
      ops.prependFlat? flat other
  | other, self => ops.newRope? self other

end LeafOps

inductive Flat where
  | latin1 (units : List UInt8)
  | utf16 (units : List UInt16)
deriving Repr, DecidableEq

namespace Flat

def units : Flat → List UInt16
  | latin1 units => units.map UInt8.toUInt16
  | utf16 units => units

def isWide : Flat → Bool
  | latin1 _ => false
  | utf16 _ => true

def data : Flat → StringData
  | latin1 units => .latin1 units
  | utf16 units => .utf16 units

def append : Flat → Flat → Flat
  | latin1 left, latin1 right => latin1 (left ++ right)
  | left, right => utf16 (left.units ++ right.units)

def len (flat : Flat) : Nat := flat.units.length

def ops : LeafOps Flat where
  size := len
  empty := latin1 []
  append := append

@[simp] theorem ops_size : ops.size = len := rfl

@[simp] theorem ops_append : ops.append = append := rfl

@[simp] theorem units_empty : ops.empty.units = [] := rfl

@[simp] theorem len_empty : ops.empty.len = 0 := rfl

@[simp] theorem units_append (left right : Flat) :
    (left.append right).units = left.units ++ right.units := by
  cases left <;> cases right <;> simp [append, units]

@[simp] theorem len_append (left right : Flat) :
    (left.append right).len = left.len + right.len := by
  simp [len]

@[simp] theorem data_eq_data {left right : Flat} :
    left.data = right.data ↔ left = right := by
  cases left <;> cases right <;> simp [data]

theorem narrow {flat : Flat} (narrow : flat.isWide = false)
    (member : unit ∈ flat.units) : unit ≤ 0xff := by
  cases flat with
  | latin1 =>
    obtain ⟨byte, -, rfl⟩ := List.mem_map.mp member
    exact UInt16.le_iff_toNat_le.mpr (by
      simpa using Nat.le_of_lt_succ byte.toNat_lt)
  | utf16 => cases narrow

end Flat

abbrev StringTree := Rope Flat

namespace StringTree

def content (tree : StringTree) : List UInt16 :=
  tree.leaves.flatMap Flat.units

def len (tree : StringTree) : Nat :=
  Rope.length Flat.len tree

def isWide (tree : StringTree) : Bool :=
  tree.leaves.any Flat.isWide

@[simp] theorem content_leaf (flat : Flat) :
    content (.leaf flat) = flat.units := by
  simp [content]

variable (left right : StringTree)

@[simp] theorem content_node :
    content (.node left right) = content left ++ content right := by
  simp [content]

variable (height : Nat) (flat : Flat)

@[simp] theorem content_collapsed :
    content (.collapsed height flat) = flat.units := by
  simp [content]

@[simp] theorem isWide_leaf (flat : Flat) :
    isWide (.leaf flat) = flat.isWide := by
  simp [isWide]

@[simp] theorem isWide_node :
    isWide (.node left right) = (isWide left || isWide right) := by
  simp [isWide]

@[simp] theorem isWide_collapsed :
    isWide (.collapsed height flat) = flat.isWide := by
  simp [isWide]

theorem len_eq_content_length (tree : StringTree) :
    len tree = (content tree).length := by
  rw [content, List.length_flatMap]
  rfl

@[simp] theorem len_leaf (flat : Flat) : len (.leaf flat) = flat.len := by
  simp [len]

@[simp] theorem len_node : len (.node left right) = len left + len right := by
  simp [len]

@[simp] theorem len_collapsed : len (.collapsed height flat) = flat.len := by
  simp [len]

theorem narrow {tree : StringTree} (narrow : isWide tree = false)
    (member : unit ∈ content tree) : unit ≤ 0xff := by
  obtain ⟨flat, inside, hunit⟩ := List.mem_flatMap.mp member
  have thin : flat.isWide = false := by
    simpa using List.any_eq_false.mp narrow flat inside
  exact flat.narrow thin hunit

end StringTree

end QuickJsOxide.Strings
