import Mathlib.Data.List.Basic
import Mathlib.Order.MinMax
import Mathlib.Tactic

namespace QuickJsOxide.Library

/-! Concatenation trees over an arbitrary type of leaf values. -/

/-- A binary concatenation tree. A `collapsed` node stands for a tree that was
replaced by one value and still reports the height it had. -/
inductive Rope (α : Type u) where
  | leaf (value : α)
  | node (left right : Rope α)
  | collapsed (height : Nat) (value : α)
deriving Repr

namespace Rope

def depth : Rope α → Nat
  | leaf _ => 0
  | node left right => max left.depth right.depth + 1
  | collapsed height _ => height

def leaves : Rope α → List α
  | leaf value => [value]
  | node left right => left.leaves ++ right.leaves
  | collapsed _ value => [value]

def isLeaf : Rope α → Bool
  | leaf _ => true
  | _ => false

variable (size : α → Nat)

def length (rope : Rope α) : Nat :=
  (rope.leaves.map size).sum

variable (f : α → β)

def map (f : α → β) : Rope α → Rope β
  | leaf value => leaf (f value)
  | node left right => node (left.map f) (right.map f)
  | collapsed height value => collapsed height (f value)

def work : Rope α → Nat
  | leaf _ => 1
  | node left right => left.work + right.work + 1
  | collapsed _ _ => 2

def leftSpine : Rope α → Nat
  | leaf _ => 0
  | node left _ => left.leftSpine + 1
  | collapsed _ _ => 0

def leftTurns : Rope α → Nat
  | leaf _ => 0
  | node left right => max (left.leftTurns + 1) right.leftTurns
  | collapsed _ _ => 0

def WellHeighted : Rope α → Prop
  | leaf _ => True
  | node left right => left.WellHeighted ∧ right.WellHeighted
  | collapsed height _ => 1 ≤ height

@[simp] theorem depth_leaf (value : α) : (leaf value).depth = 0 := rfl

variable (left right : Rope α)

@[simp] theorem depth_node :
    (node left right).depth = max left.depth right.depth + 1 := rfl

variable (height : Nat) (value : α)

@[simp] theorem depth_collapsed : (collapsed height value).depth = height := rfl

@[simp] theorem leaves_leaf (value : α) : (leaf value).leaves = [value] := rfl

@[simp] theorem leaves_node :
    (node left right).leaves = left.leaves ++ right.leaves := rfl

@[simp] theorem leaves_collapsed :
    (collapsed height value).leaves = [value] := rfl

@[simp] theorem length_leaf (value : α) :
    (leaf value).length size = size value := by
  simp [length]

@[simp] theorem length_node :
    (node left right).length size = left.length size + right.length size := by
  simp [length]

@[simp] theorem length_collapsed :
    (collapsed height value).length size = size value := by
  simp [length]

@[simp] theorem map_leaf (value : α) :
    (leaf value).map f = leaf (f value) := rfl

@[simp] theorem map_node :
    (node left right).map f = node (left.map f) (right.map f) := rfl

variable (rope : Rope α)

@[simp] theorem depth_map : (rope.map f).depth = rope.depth := by
  induction rope with
  | leaf => rfl
  | node _ _ ihLeft ihRight => simp [ihLeft, ihRight]
  | collapsed => rfl

@[simp] theorem leftSpine_map : (rope.map f).leftSpine = rope.leftSpine := by
  induction rope with
  | leaf => rfl
  | node _ _ ihLeft => simp [leftSpine, ihLeft]
  | collapsed => rfl

@[simp] theorem leaves_map : (rope.map f).leaves = rope.leaves.map f := by
  induction rope with
  | leaf => rfl
  | node _ _ ihLeft ihRight => simp [ihLeft, ihRight]
  | collapsed => rfl

@[simp] theorem length_map (size : β → Nat) (rope : Rope α) :
    (rope.map f).length size = rope.length (size ∘ f) := by
  simp [length]

theorem leftSpine_le_leftTurns : rope.leftSpine ≤ rope.leftTurns := by
  induction rope with
  | leaf => exact le_rfl
  | node _ _ ihLeft =>
    exact (Nat.succ_le_succ ihLeft).trans (Nat.le_max_left ..)
  | collapsed => exact le_rfl

theorem leftTurns_le_depth : rope.leftTurns ≤ rope.depth := by
  induction rope with
  | leaf => exact le_rfl
  | node =>
    simp only [leftTurns, depth_node]
    omega
  | collapsed height => exact Nat.zero_le height

theorem work_lt_two_pow (heighted : rope.WellHeighted) :
    rope.work < 2 ^ (rope.depth + 1) := by
  induction rope with
  | leaf => simp [work]
  | node left right ihLeft ihRight =>
    have hleft : 2 ^ (left.depth + 1) ≤
        2 ^ (max left.depth right.depth + 1) :=
      Nat.pow_le_pow_right (by decide) (by omega)
    have hright : 2 ^ (right.depth + 1) ≤
        2 ^ (max left.depth right.depth + 1) :=
      Nat.pow_le_pow_right (by decide) (by omega)
    have hpow : 2 ^ ((node left right).depth + 1) =
        2 * 2 ^ (max left.depth right.depth + 1) := by
      rw [depth_node, Nat.pow_succ, Nat.mul_comm]
    have := ihLeft heighted.1
    have := ihRight heighted.2
    simp only [work]
    omega
  | collapsed height =>
    have hpow : 2 ^ 2 ≤ 2 ^ (height + 1) :=
      Nat.pow_le_pow_right (by decide) (Nat.succ_le_succ heighted)
    simp only [work, depth_collapsed]
    omega

end Rope

namespace Forest

/-- Leaves in the order in which a traversal with the top of the stack first
visits them. -/
def leaves (stack : List (Rope α)) : List α :=
  stack.flatMap Rope.leaves

def work (stack : List (Rope α)) : Nat :=
  (stack.map Rope.work).sum

/-- Every pending tree still fits when it is expanded in its place: the depth
of an entry plus the number of entries under it stays within `limit`. -/
def Fits (limit : Nat) : List (Rope α) → Prop
  | [] => True
  | top :: rest =>
    top.WellHeighted ∧ top.depth + rest.length ≤ limit ∧ Fits limit rest

@[simp] theorem leaves_nil : leaves ([] : List (Rope α)) = [] := rfl

@[simp] theorem leaves_cons (top : Rope α) (rest : List (Rope α)) :
    leaves (top :: rest) = top.leaves ++ leaves rest := by
  simp [leaves]

@[simp] theorem work_nil : work ([] : List (Rope α)) = 0 := rfl

@[simp] theorem work_cons (top : Rope α) (rest : List (Rope α)) :
    work (top :: rest) = top.work + work rest := by
  simp [work]

theorem Fits.singleton (rope : Rope α) (heighted : rope.WellHeighted)
    (bounded : rope.depth ≤ limit) : Fits limit [rope] :=
  ⟨heighted, by simpa using bounded, trivial⟩

/-- Expanding a node keeps the stack within its limit, and the two pushes it
makes find room. -/
theorem Fits.expand (fits : Fits limit (.node left right :: rest)) :
    rest.length + 2 ≤ limit + 1 ∧ Fits limit (left :: right :: rest) := by
  obtain ⟨⟨hleft, hright⟩, hdepth, hrest⟩ := fits
  simp only [Rope.depth_node] at hdepth
  have leftLe := Nat.le_max_left left.depth right.depth
  have rightLe := Nat.le_max_right left.depth right.depth
  refine ⟨by omega, hleft, ?_, hright, ?_, hrest⟩
  · simp only [List.length_cons]
    omega
  · omega

theorem Fits.settle (fits : Fits limit (.collapsed height value :: rest)) :
    rest.length + 1 ≤ limit ∧ Fits limit (.leaf value :: rest) := by
  obtain ⟨hheight, hdepth, hrest⟩ := fits
  simp only [Rope.WellHeighted, Rope.depth_collapsed] at hheight hdepth
  exact ⟨by omega, trivial, by simp only [Rope.depth_leaf]; omega, hrest⟩

theorem Fits.rest {rest : List (Rope α)} (fits : Fits limit (top :: rest)) :
    Fits limit rest :=
  fits.2.2

/-- Every pending tree can be traversed in its place: its left turns plus the
number of entries under it stay within `limit`. -/
def Pends (limit : Nat) : List (Rope α) → Prop
  | [] => True
  | top :: rest => top.leftTurns + rest.length ≤ limit ∧ Pends limit rest

theorem pends_singleton : Pends limit [rope] ↔ rope.leftTurns ≤ limit := by
  simp [Pends]

theorem pends_node : Pends limit (.node left right :: rest) ↔
      Pends limit (left :: right :: rest) := by
  simp only [Pends, Rope.leftTurns, List.length_cons]
  constructor
  · rintro ⟨fits, pends⟩
    exact ⟨by omega, by omega, pends⟩
  · rintro ⟨first, second, pends⟩
    exact ⟨by omega, pends⟩

theorem pends_collapsed : Pends limit (.collapsed height value :: rest) ↔
      Pends limit (.leaf value :: rest) :=
  Iff.rfl

theorem pends_leaf (room : rest.length ≤ limit) :
    Pends limit (.leaf value :: rest) ↔ Pends limit rest :=
  ⟨fun pends => pends.2, fun pends => ⟨(Nat.zero_add _).le.trans room, pends⟩⟩

theorem Pends.rest {rest : List (Rope α)} (pends : Pends limit (top :: rest)) :
    Pends limit rest :=
  pends.2

theorem Pends.length_le {rest : List (Rope α)}
    (pends : Pends limit (top :: rest)) : rest.length ≤ limit :=
  (Nat.le_add_left ..).trans pends.1

end Forest

end QuickJsOxide.Library
