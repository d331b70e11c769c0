import QuickJsOxide.Strings.RebalanceCost

namespace QuickJsOxide.Strings

open Library StringTree List

/-! What concatenation returns for trees of bounded depth and length. -/

namespace LeafOps

variable (ops : LeafOps α)

def rebalancedDepth : Nat := 2 * ropeBucketLengths.length

def solid (tree : Rope α) : List α :=
  tree.leaves.filter fun leaf => ops.size leaf ≠ 0

/-- What `newRope?` returns: the two trees side by side, or a balanced rope
with the same leaves. -/
structure NewRope (left right tree : Rope α) : Prop where
  heighted : tree.WellHeighted
  solid : ops.solid tree = ops.solid left ++ ops.solid right
  joined : max left.depth right.depth < ropeMaxDepth → tree = .node left right
  balanced : ropeMaxDepth ≤ max left.depth right.depth →
    tree.depth ≤ rebalancedDepth ∧ (0 < tree.depth →
      mergedCost tree.depth ≤ left.length ops.size + right.length ops.size)

theorem solid_rebalance? (sizeEmpty : ops.size ops.empty = 0)
    (exact : Rope.rebalance? ops.limits ropeBucketLengths.tail tree.leaves =
      some balanced) :
    ops.solid (balanced.getD (.leaf ops.empty)) = ops.solid tree := by
  have kept : Buckets.gatheredLeaves balanced = ops.solid tree :=
    Buckets.leaves_rebalance? exact
  cases balanced with
  | none =>
    rw [← kept]
    simp [solid, sizeEmpty]
  | some balanced =>
    have own : balanced.leaves = ops.solid tree := kept
    change ops.solid balanced = _
    rw [solid, own]
    simp [solid, filter_filter]

theorem newRope?_spec (sizeEmpty : ops.size ops.empty = 0)
    (hleft : left.WellHeighted) (hright : right.WellHeighted)
    (short : left.length ops.size + right.length ops.size ≤ maxLen)
    (shallow : max left.depth right.depth < 255) :
    ∃ tree, ops.newRope? left right = some tree ∧
      ops.NewRope left right tree := by
  have joined : Rope.join? ops.limits left right = some (.node left right) :=
    BucketPlan.join?_eq short shallow
  have hdepth : (Rope.node left right).depth =
      max left.depth right.depth + 1 := rfl
  simp only [newRope?, joined, Option.bind_eq_bind, Option.bind_some]
  by_cases deep : ropeMaxDepth < (Rope.node left right).depth
  · rw [if_pos deep]
    have lengths : ((Rope.node left right).leaves.map ops.limits.size).sum =
        left.length ops.size + right.length ops.size := by
      rw [← Rope.length_node]
      rfl
    obtain ⟨balanced, hbalance, hpaid⟩ := ops.plan.rebalance?_paid (maxLen + 1)
      (lengths.le.trans short)
    have kept : ops.solid (balanced.getD (.leaf ops.empty)) =
        ops.solid left ++ ops.solid right :=
      (ops.solid_rebalance? sizeEmpty hbalance).trans (filter_append ..)
    rw [lengths] at hpaid
    refine ⟨balanced.getD (.leaf ops.empty), ?_, ?_⟩
    · change (Rope.rebalance? _ ops.plan.following _).bind _ = _
      rw [hbalance]
      rfl
    · refine ⟨?_, kept, fun shallow => by omega, fun _ => ?_⟩
      · cases balanced with
        | none => exact trivial
        | some tree => exact (hpaid tree rfl).1
      · cases balanced with
        | none => exact ⟨Nat.zero_le _, fun positive => by cases positive⟩
        | some tree => exact ⟨(hpaid tree rfl).2.1, fun _ => (hpaid tree rfl).2.2⟩
  · rw [if_neg deep]
    exact ⟨.node left right, rfl, ⟨hleft, hright⟩, by simp [solid],
      fun _ => rfl, fun deep => by omega⟩

end LeafOps

structure Sound (tree : StringTree) : Prop where
  heighted : tree.WellHeighted
  short : tree.len ≤ maxLen
  shallow : tree.depth ≤ LeafOps.rebalancedDepth

theorem content_eq_solid (tree : StringTree) :
    tree.content = (Flat.ops.solid tree).flatMap Flat.units := by
  have dropEmpty : ∀ leaves : List Flat, leaves.flatMap Flat.units =
      (leaves.filter fun leaf => leaf.len ≠ 0).flatMap Flat.units := by
    intro leaves
    induction leaves with
    | nil => rfl
    | cons leaf _ ih =>
      by_cases empty : leaf.len = 0
      · have units : leaf.units = [] := length_eq_zero_iff.mp empty
        rw [filter_cons_of_neg (by simpa using empty), ← ih]
        simp [units]
      · rw [filter_cons_of_pos (by simpa using empty),
          flatMap_cons, flatMap_cons, ih]
  exact dropEmpty tree.leaves

theorem rebalance?_content {tree : StringTree} (short : tree.len ≤ maxLen) :
    ∃ balanced, Rope.rebalance? Flat.ops.limits ropeBucketLengths.tail
        tree.leaves = some balanced ∧
      content (balanced.getD (.leaf Flat.ops.empty)) = tree.content ∧
      (balanced.getD (.leaf Flat.ops.empty)).WellHeighted := by
  obtain ⟨balanced, hbalance, hpaid⟩ :=
    Flat.ops.plan.rebalance?_paid (maxLen + 1) short
  refine ⟨balanced, hbalance, ?_, ?_⟩
  · rw [content_eq_solid, Flat.ops.solid_rebalance? rfl hbalance,
      ← content_eq_solid]
  · cases balanced with
    | none => exact trivial
    | some balanced => exact (hpaid balanced rfl).1

def Crowded (left right : StringTree) : Prop :=
  max left.depth right.depth = ropeMaxDepth ∧
    LeafOps.rebalanceLimit ≤ left.len + right.len

structure Concatenates (left right tree : StringTree) : Prop where
  sound : Sound tree
  content : tree.content = left.content ++ right.content
  bounded : left.depth ≤ ropeMaxDepth → right.depth ≤ ropeMaxDepth →
    ¬ Crowded left right → tree.depth ≤ ropeMaxDepth

theorem newRope?_concatenates (left right : StringTree)
    (hleft : left.WellHeighted) (hright : right.WellHeighted)
    (leftShallow : left.depth ≤ LeafOps.rebalancedDepth)
    (rightShallow : right.depth ≤ LeafOps.rebalancedDepth)
    (short : left.len + right.len ≤ maxLen) :
    ∃ tree, Flat.ops.newRope? left right = some tree ∧
      Concatenates left right tree := by
  have wide : LeafOps.rebalancedDepth < 255 := by decide
  obtain ⟨tree, hnew, fresh⟩ := LeafOps.newRope?_spec Flat.ops rfl hleft
    hright short (by omega)
  have content : content tree = left.content ++ right.content := by
    rw [content_eq_solid, fresh.solid, flatMap_append, content_eq_solid,
      content_eq_solid]
  have len : len tree = left.len + right.len := by
    simp [len_eq_content_length, content]
  refine ⟨tree, hnew, ⟨fresh.heighted, len.le.trans short, ?_⟩, content, ?_⟩
  · rcases Nat.lt_or_ge (max left.depth right.depth) ropeMaxDepth with
      low | deep
    · rw [fresh.joined low, Rope.depth_node]
      exact le_trans (Nat.succ_le_of_lt low) (by decide)
    · exact (fresh.balanced deep).1
  · intro leftBound rightBound uncrowded
    rcases Nat.lt_or_ge (max left.depth right.depth) ropeMaxDepth with
      low | deep
    · rw [fresh.joined low, Rope.depth_node]
      exact Nat.succ_le_of_lt low
    · by_contra exceeds
      have paid := (fresh.balanced deep).2 (by omega)
      have priced := LeafOps.mergedCost_monotone
        (show ropeMaxDepth + 1 ≤ tree.depth by omega)
      rw [LeafOps.mergedCost_limit] at priced
      exact uncrowded ⟨by omega, priced.trans paid⟩

/-- Joining other pieces with the same text is concatenation as well, as long
as the pieces are not deeper than the operands. -/
theorem Concatenates.ofPieces (pieces : Concatenates first second tree)
    (content : first.content ++ second.content = left.content ++ right.content)
    (low : max first.depth second.depth < ropeMaxDepth ∨
      max first.depth second.depth + 1 ≤ max left.depth right.depth) :
    Concatenates left right tree where
  sound := pieces.sound
  content := pieces.content.trans content
  bounded := by
    intro leftBound rightBound _
    refine pieces.bounded (by omega) (by omega) fun crowded => ?_
    have := crowded.1
    omega

theorem Concatenates.left_of_empty (sound : Sound left) (empty : right.len = 0) :
    Concatenates left right left where
  sound := sound
  content := by
    rw [len_eq_content_length] at empty
    simp [length_eq_zero_iff.mp empty]
  bounded := fun bound _ _ => bound

theorem Concatenates.right_of_empty (sound : Sound right) (empty : left.len = 0) :
    Concatenates left right right where
  sound := sound
  content := by
    rw [len_eq_content_length] at empty
    simp [length_eq_zero_iff.mp empty]
  bounded := fun _ bound _ => bound

theorem Sound.newRope? (hleft : Sound left) (hright : Sound right)
    (short : left.len + right.len ≤ maxLen) :
    ∃ tree, Flat.ops.newRope? left right = some tree ∧
      Concatenates left right tree :=
  newRope?_concatenates _ _ hleft.heighted hright.heighted hleft.shallow
    hright.shallow short

theorem appendShort?_concatenates (hself : Sound self)
    (short : self.len + other.len ≤ maxLen) :
    ∃ tree, Flat.ops.appendShort? self other = some tree ∧
      Concatenates self (.leaf other) tree := by
  have hother : Sound (.leaf other) :=
    ⟨trivial, by rw [len_leaf]; omega, Nat.zero_le _⟩
  have ordinary := hself.newRope? hother (by rwa [len_leaf])
  cases self with
  | leaf =>
    simp only [LeafOps.appendShort?]
    split
    · refine ⟨_, rfl, ⟨trivial, ?_, Nat.zero_le _⟩, ?_, fun _ _ _ =>
        Nat.zero_le _⟩
      · simpa using short
      · simp
    · exact ordinary
  | node left right =>
    cases right with
    | leaf right =>
      simp only [LeafOps.appendShort?]
      split
      · simp only [len_node, len_leaf] at short
        have hdepth := hself.shallow
        simp only [Rope.depth_node, Rope.depth_leaf] at hdepth
        obtain ⟨tree, hnew, hjoin⟩ := newRope?_concatenates
          left (.leaf (right.append other)) hself.heighted.1 trivial
          (by omega) (Nat.zero_le _) (by simp; omega)
        exact ⟨tree, hnew, hjoin.ofPieces (by simp) (by simp)⟩
      · exact ordinary
    | node | collapsed => exact ordinary
  | collapsed _ flat =>
    simp only [LeafOps.appendShort?]
    rw [len_collapsed] at short
    obtain ⟨tree, hnew, hjoin⟩ := newRope?_concatenates
      (.leaf flat) (.leaf (Flat.ops.empty.append other)) trivial trivial
      (Nat.zero_le _) (Nat.zero_le _) (by simpa using short)
    exact ⟨tree, hnew, hjoin.ofPieces (by simp)
      (.inl (by simp [ropeMaxDepth]))⟩

theorem prependFlat?_concatenates (hother : Sound other)
    (short : self.len + other.len ≤ maxLen) :
    ∃ tree, Flat.ops.prependFlat? self other = some tree ∧
      Concatenates (.leaf self) other tree := by
  have hself : Sound (.leaf self) :=
    ⟨trivial, by rw [len_leaf]; omega, Nat.zero_le _⟩
  have ordinary := hself.newRope? hother (by rwa [len_leaf])
  cases other with
  | leaf => exact ordinary
  | node left right =>
    cases left with
    | leaf left =>
      simp only [LeafOps.prependFlat?]
      split
      · simp only [len_node, len_leaf] at short
        have hdepth := hother.shallow
        simp only [Rope.depth_node, Rope.depth_leaf] at hdepth
        obtain ⟨tree, hnew, hjoin⟩ := newRope?_concatenates
          (.leaf (self.append left)) right trivial hother.heighted.2
          (Nat.zero_le _) (by omega) (by simp; omega)
        exact ⟨tree, hnew, hjoin.ofPieces (by simp) (by simp)⟩
      · exact ordinary
    | node | collapsed => exact ordinary
  | collapsed _ flat =>
    simp only [LeafOps.prependFlat?]
    split
    · rw [len_collapsed] at short
      obtain ⟨tree, hnew, hjoin⟩ := newRope?_concatenates
        (.leaf (self.append flat)) (.leaf Flat.ops.empty) trivial trivial
        (Nat.zero_le _) (Nat.zero_le _) (by simpa using short)
      exact ⟨tree, hnew, hjoin.ofPieces (by simp)
        (.inl (by simp [ropeMaxDepth]))⟩
    · exact ordinary

theorem concat?_concatenates (hself : Sound self) (hother : Sound other)
    (short : self.len + other.len ≤ maxLen) :
    ∃ tree, Flat.ops.concat? self other = some tree ∧
      Concatenates self other tree := by
  have ordinary := hself.newRope? hother short
  have fromLeaf : ∀ flat, self = .leaf flat → ∃ tree,
      (if Flat.ops.size flat = 0 then some other
        else Flat.ops.prependFlat? flat other) = some tree ∧
      Concatenates self other tree := by
    rintro flat rfl
    split
    · rename_i empty
      exact ⟨other, rfl, .right_of_empty hother (by simpa using empty)⟩
    · exact prependFlat?_concatenates hother (by simpa using short)
  cases other with
  | leaf flat =>
    simp only [LeafOps.concat?]
    split
    · rename_i empty
      exact ⟨self, rfl, .left_of_empty hself (by simpa using empty)⟩
    · split
      · rename_i empty
        exact ⟨_, rfl, .right_of_empty hother empty.2⟩
      · split
        · exact appendShort?_concatenates hself (by simpa using short)
        · exact ordinary
  | node | collapsed _ flat =>
    cases self with
    | leaf flat => exact fromLeaf flat rfl
    | node | collapsed => exact ordinary

end QuickJsOxide.Strings
