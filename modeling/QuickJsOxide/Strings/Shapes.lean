import QuickJsOxide.Strings.Runs

namespace QuickJsOxide.Strings

open Library Rope

/-! Concatenation looks at the lengths of the leaves only, so the shape of a
rope can be computed from lengths. -/

structure LeafOps.Hom (source : LeafOps α) (target : LeafOps β) (f : α → β) :
    Prop where
  size : ∀ value, target.size (f value) = source.size value
  empty : f source.empty = target.empty
  append : ∀ left right,
    f (source.append left right) = target.append (f left) (f right)

namespace LeafOps.Hom

variable {source : LeafOps α} {target : LeafOps β}

section

variable (hom : source.Hom target f)

include hom

theorem limits : source.limits = target.limits.pull f := by
  have sizes : target.size ∘ f = source.size := funext hom.size
  simp [LeafOps.limits, RopeLimits.pull, sizes]

theorem newRope? (left right : Rope α) :
    target.newRope? (left.map f) (right.map f) =
      (source.newRope? left right).map (map f) := by
  simp only [LeafOps.newRope?, join?_map, ← hom.limits]
  cases join? source.limits left right with
  | none => rfl
  | some joined =>
    simp only [Option.map_some, Option.bind_eq_bind, Option.bind_some]
    by_cases deep : ropeMaxDepth < joined.depth
    · rw [if_pos (by rwa [depth_map]), if_pos deep, leaves_map,
        rebalance?_map, ← hom.limits]
      cases rebalance? source.limits ropeBucketLengths.tail
          joined.leaves with
      | none => rfl
      | some balanced =>
        cases balanced with
        | none => simp [hom.empty]
        | some => rfl
    · rw [if_neg (by rwa [depth_map]), if_neg deep]
      rfl

theorem appendShort? (self : Rope α) (other : α) :
    target.appendShort? (self.map f) (f other) =
      (source.appendShort? self other).map (map f) := by
  cases self with
  | leaf flat =>
    simp only [map_leaf, LeafOps.appendShort?, hom.size]
    split
    · simp [hom.append]
    · exact hom.newRope? (.leaf flat) (.leaf other)
  | node left right =>
    cases right with
    | leaf right =>
      simp only [map_node, map_leaf, LeafOps.appendShort?, hom.size]
      split
      · rw [← hom.append]
        exact hom.newRope? left (.leaf (source.append right other))
      · exact hom.newRope? (.node left (.leaf right)) (.leaf other)
    | node first second =>
      exact hom.newRope? (.node left (.node first second)) (.leaf other)
    | collapsed height flat =>
      exact hom.newRope? (.node left (.collapsed height flat)) (.leaf other)
  | collapsed _ flat =>
    have joined := hom.newRope? (.leaf flat)
      (.leaf (source.append source.empty other))
    simp only [map_leaf, hom.append, hom.empty] at joined
    exact joined

theorem prependFlat? (self : α) (other : Rope α) :
    target.prependFlat? (f self) (other.map f) =
      (source.prependFlat? self other).map (map f) := by
  cases other with
  | leaf flat => exact hom.newRope? (.leaf self) (.leaf flat)
  | node left right =>
    cases left with
    | leaf left =>
      simp only [map_node, map_leaf, LeafOps.prependFlat?, hom.size]
      split
      · rw [← hom.append]
        exact hom.newRope? (.leaf (source.append self left)) right
      · exact hom.newRope? (.leaf self) (.node (.leaf left) right)
    | node first second =>
      exact hom.newRope? (.leaf self) (.node (.node first second) right)
    | collapsed height flat =>
      exact hom.newRope? (.leaf self) (.node (.collapsed height flat) right)
  | collapsed height flat =>
    have joined := hom.newRope? (.leaf (source.append self flat))
      (.leaf source.empty)
    simp only [map_leaf, hom.append, hom.empty] at joined
    simp only [map, LeafOps.prependFlat?, hom.size]
    split
    · exact joined
    · exact hom.newRope? (.leaf self) (.collapsed height flat)

theorem concat? (self other : Rope α) :
    target.concat? (self.map f) (other.map f) =
      (source.concat? self other).map (map f) := by
  have lengths : (self.map f).length target.size = self.length source.size := by
    rw [length_map]
    exact congrArg (fun size => self.length size) (funext hom.size)
  have isLeaf : (self.map f).isLeaf = self.isLeaf := by
    cases self <;> rfl
  have ordinary := hom.newRope? self other
  cases other with
  | leaf flat =>
    simp only [map_leaf, LeafOps.concat?, hom.size, lengths, isLeaf]
    split
    · rfl
    · split
      · rfl
      · split
        · exact hom.appendShort? self flat
        · exact ordinary
  | node left right =>
    cases self with
    | leaf flat =>
      simp only [map_leaf, map_node, LeafOps.concat?, hom.size]
      split
      · rfl
      · exact hom.prependFlat? flat (.node left right)
    | node | collapsed => exact ordinary
  | collapsed height inner =>
    cases self with
    | leaf flat =>
      simp only [map, LeafOps.concat?, hom.size]
      split
      · rfl
      · exact hom.prependFlat? flat (.collapsed height inner)
    | node | collapsed => exact ordinary

end

end LeafOps.Hom

def lengthOps : LeafOps Nat where
  size := id
  empty := 0
  append := Nat.add

theorem flatLengths : Flat.ops.Hom lengthOps Flat.len where
  size := fun _ => rfl
  empty := rfl
  append := Flat.len_append

def Producible (shape : Rope Nat) : Prop :=
  ∃ world string tree, programs.Reachable (fun _ _ => True) world ∧
    string ∈ world.live ∧ Denotes world.store string tree ∧ Sound tree ∧
    tree.map Flat.len = shape

def zeros (length : Nat) : Flat := .latin1 (List.replicate length 0)

@[simp] theorem len_zeros (length : Nat) : (zeros length).len = length := by
  simp [zeros, Flat.len, Flat.units]

variable {length : Nat}

theorem Command.Allowed.flat_zeros (short : length ≤ maxLen) (world : World) :
    (Command.flat (zeros length)).Allowed world where
  operands := by simp [Command.operands]
  exclusive := by simp
  flat := by
    rintro flat ⟨⟩
    simpa using short
  range := by simp

variable {world : World}

theorem Command.Allowed.concat (selfLive : self ∈ world.live)
    (otherLive : other ∈ world.live) :
    (Command.tryConcat self other).Allowed world where
  operands := by
    intro string member
    simp only [Command.operands, List.mem_cons, List.not_mem_nil,
      or_false] at member
    rcases member with rfl | rfl
    · exact selfLive
    · exact otherLive
  exclusive := by simp
  flat := by simp
  range := by simp

theorem reachable_flat (length : Nat)
    (reached : programs.Reachable (fun _ _ => True) world)
    (short : length ≤ maxLen) :
    ∃ after handle, programs.Reachable (fun _ _ => True) after ∧
      handle ∈ after.live ∧ (∀ string ∈ world.live, string ∈ after.live) ∧
      world.store.Extends after.store ∧
      Denotes after.store handle (.leaf (zeros length)) := by
  obtain ⟨handle, store, hrun, grown, denotes⟩ :=
    (allocate_runs (zeros length) world.store).total trivial
  have stepped : world.step (.flat (zeros length)) =
      .ok ⟨store, [handle] ++ world.live⟩ := by
    rw [World.step_eq_of_run (allocate (zeros length).data) rfl, hrun]
    rfl
  exact ⟨_, handle, .step world _ _ reached trivial
    ⟨.flat_zeros short world, stepped⟩, by simp,
    fun string member => by simp [member], grown, denotes⟩

theorem producible_concat (reached : programs.Reachable (fun _ _ => True) world)
    (selfLive : self ∈ world.live) (otherLive : other ∈ world.live)
    (hself : Denotes world.store self selfTree)
    (hother : Denotes world.store other otherTree) (selfSound : Sound selfTree)
    (otherSound : Sound otherTree)
    (short : selfTree.len + otherTree.len ≤ maxLen)
    (shallow : selfTree.depth ≤ ropeMaxDepth ∧ otherTree.depth ≤ ropeMaxDepth)
    (exact : Flat.ops.concat? selfTree otherTree = some tree) :
    Producible (tree.map Flat.len) := by
  obtain ⟨string, store, hrun, grown, denotes⟩ :=
    (tryConcat_runs hself hother selfSound.heighted otherSound.heighted short
      exact).total shallow
  have stepped : world.step (.tryConcat self other) =
      .ok ⟨store, [string] ++ world.live⟩ := by
    rw [World.step_eq_of_run (tryConcat self other) rfl, hrun]
    rfl
  obtain ⟨_, hjoined, concatenates⟩ :=
    concat?_concatenates selfSound otherSound short
  cases exact.symm.trans hjoined
  exact ⟨_, string, tree, .step world _ _ reached trivial
    ⟨.concat selfLive otherLive, stepped⟩, by simp, denotes,
    concatenates.sound, rfl⟩

def extendShape? (shape : Rope Nat) (front : Bool) (length : Nat) :
    Option (Rope Nat) :=
  if shape.depth ≤ ropeMaxDepth ∧ shape.length id + length ≤ maxLen then
    if front then
      lengthOps.concat? (.leaf length) shape
    else
      lengthOps.concat? shape (.leaf length)
  else
    none

theorem producible_leaf (short : length ≤ maxLen) :
    Producible (.leaf length) := by
  obtain ⟨world, handle, reached, live, -, -, denotes⟩ :=
    reachable_flat length (.initial _ rfl) short
  exact ⟨world, handle, _, reached, live, denotes,
    ⟨trivial, by simpa using short, Nat.zero_le _⟩, by simp⟩

theorem Producible.extendShape? (producible : Producible shape)
    (exact : Strings.extendShape? shape front length = some ended) :
    Producible ended := by
  obtain ⟨world, string, tree, reached, live, hstring, sound, rfl⟩ := producible
  unfold Strings.extendShape? at exact
  split at exact
  · rename_i bounds
    have depth : tree.depth ≤ ropeMaxDepth := by
      simpa using bounds.1
    have short : tree.len + length ≤ maxLen := by
      have := bounds.2
      rw [length_map] at this
      exact this
    obtain ⟨_, _, reachedMiddle, handleLive, kept, grown, hhandle⟩ :=
      reachable_flat length reached (by omega)
    have leafSound : Sound (.leaf (zeros length)) :=
      ⟨trivial, by simp; omega, Nat.zero_le _⟩
    have labels : (leaf (zeros length)).map Flat.len = .leaf length := by
      simp
    rw [← labels] at exact
    cases front with
    | true =>
      rw [if_pos rfl, flatLengths.concat?] at exact
      obtain ⟨joined, hjoined, rfl⟩ := Option.map_eq_some_iff.mp exact
      exact producible_concat reachedMiddle handleLive (kept string live)
        hhandle (hstring.extend grown) leafSound sound (by simp; omega)
        ⟨Nat.zero_le _, depth⟩ hjoined
    | false =>
      rw [if_neg (by simp), flatLengths.concat?] at exact
      obtain ⟨_, hjoined, rfl⟩ := Option.map_eq_some_iff.mp exact
      exact producible_concat reachedMiddle (kept string live) handleLive
        (hstring.extend grown) hhandle sound leafSound (by simpa using short)
        ⟨depth, Nat.zero_le _⟩ hjoined
  · cases exact

def extendShapes? : Rope Nat → List (Bool × Nat) → Option (Rope Nat)
  | shape, [] => some shape
  | shape, (front, length) :: steps => do
    let extended ← extendShape? shape front length
    extendShapes? extended steps

theorem Producible.extendShapes? (producible : Producible shape)
    (exact : extendShapes? shape steps = some ended) :
    Producible ended := by
  induction steps generalizing shape with
  | nil =>
    cases exact
    exact producible
  | cons _ _ ih =>
    obtain ⟨_, hextend, hrest⟩ := Option.bind_eq_some_iff.mp exact
    exact ih (producible.extendShape? hextend) hrest

end QuickJsOxide.Strings
