import QuickJsOxide.Library.RopeCost
import QuickJsOxide.Strings.Trees

namespace QuickJsOxide.Strings

open Library

namespace LeafOps

variable (ops : LeafOps α)

/-! How deep a rebalanced rope can be. -/

def plan : BucketPlan ops.limits where
  capacity index := ropeBucketLengths.getD index 0
  following := ropeBucketLengths.tail
  first := rfl
  exact := by
    intro offset bound found
    rw [List.getElem?_tail] at found
    rw [Nat.add_comm, List.getD_eq_getElem?_getD, found]
    rfl
  doubling := by
    intro index
    rcases Nat.lt_or_ge index 43 with inside | outside
    · have checked : ∀ index < 43, ropeBucketLengths.getD (index + 1) 0 ≤
          2 * ropeBucketLengths.getD index 0 := by
        decide
      exact checked index inside
    · have missing : ropeBucketLengths[index + 1]? = none :=
        List.getElem?_eq_none (by simpa [ropeBucketLengths] using outside)
      rw [List.getD_eq_getElem?_getD, missing]
      exact Nat.zero_le _
  beyond := show maxLen < ropeBucketLengths.getD
    ropeBucketLengths.tail.length 0 by decide
  shallow := show 2 * ropeBucketLengths.tail.length + 2 < 255 by decide

/-- The length from which on `rebalance` can return a rope deeper than
`ropeMaxDepth`. -/
def rebalanceLimit : Nat := 7881223

def mergedCost (depth : Nat) : Nat :=
  (RopeCosts.forBucket (fun index => ropeBucketLengths.getD index 0)
    (maxLen + 1) ropeBucketLengths.length).gathered depth

theorem mergedCost_monotone : Monotone mergedCost :=
  (RopeCosts.monotone_forBucket _ _
    (plan { size := id, empty := 0, append := Nat.add }).doubling _).1

theorem mergedCost_limit : mergedCost (ropeMaxDepth + 1) = rebalanceLimit := by
  have table := RopeCosts.rows_agrees
    (fun index => ropeBucketLengths.getD index 0) (maxLen + 1)
    (ropeBucketLengths.tail ++ [0])
    (RopeCosts.tabulate_agrees (ropeMaxDepth + 2) (RopeCosts.forBucket
      (fun index => ropeBucketLengths.getD index 0) (maxLen + 1) 0))
    (by
      intro offset bound found
      rw [Nat.add_comm, ← Nat.add_assoc, Nat.add_zero]
      have checked : ∀ offset < 44,
          (ropeBucketLengths.tail ++ [0])[offset]? =
            some (ropeBucketLengths.getD (offset + 1) 0) := by
        decide
      have inside := List.getElem?_eq_some_iff.mp found
      rw [checked offset (by simpa [ropeBucketLengths] using inside.1)] at found
      simpa using found.symm)
  have entry := (table (ropeMaxDepth + 1) (by decide)).1
  refine entry.symm.trans ?_
  decide +kernel

end LeafOps

end QuickJsOxide.Strings
