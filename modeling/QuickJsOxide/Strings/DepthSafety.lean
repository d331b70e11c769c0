import QuickJsOxide.Strings.Shapes

namespace QuickJsOxide.Strings

open Library

/-! Rope depth over whole runs. `rebalance` is meant to bring a rope back under
the depth limit. It does so as long as the rope is short; a long rope can come
out deeper than the traversal stacks allow. -/

theorem reachable_sound (reached : programs.Reachable admits world) :
    world.Sound := by
  refine reached.invariant World.Sound ?_ ?_
  · rintro world rfl string ⟨⟩
  · rintro before command after sound - ⟨allowed, stepped⟩
    rcases World.step_effect sound allowed with
      ⟨final, hfinal, safe, -⟩ | ⟨-, message, failed⟩
    · rw [stepped] at hfinal
      cases hfinal
      exact safe
    · rw [stepped] at failed
      cases failed

theorem reachable_shallow (reached : programs.Reachable
      (fun world command => ¬ world.Crowded command) world) :
    world.Sound ∧ world.Shallow := by
  refine reached.invariant (fun world => world.Sound ∧ world.Shallow) ?_ ?_
  · rintro world rfl
    exact ⟨by simp [World.Sound], by simp [World.Shallow]⟩
  · rintro before command after ⟨sound, shallow⟩ uncrowded ⟨allowed, stepped⟩
    rcases World.step_effect sound allowed with
      ⟨final, hfinal, safe, keeps⟩ | ⟨-, message, failed⟩
    · rw [stepped] at hfinal
      cases hfinal
      exact ⟨safe, keeps shallow uncrowded⟩
    · rw [stepped] at failed
      cases failed

/-- In every run that never concatenates at least `rebalanceLimit` units onto a
rope at the depth limit, every string stays within the depth limit, the bounded
traversals of every string succeed, and no call panics. -/
theorem depth_bounded_of_uncrowded {world : World}
    (reached : programs.Reachable
      (fun world command => ¬ world.Crowded command) world) :
    (∀ string ∈ world.live, world.store.depth string ≤ ropeMaxDepth ∧
      (∃ units, world.store.utf16Units string = .ok units) ∧
      (∃ leaves, world.store.forEachFlatLeaf string = .ok leaves) ∧
      ∀ index, ∃ outcome, (do
        let iterator ← Utf16Units.new world.store string
        iterator.nth world.store traversalSteps index) = .ok outcome) ∧
    ∀ command, command.Allowed world →
      ∃ after, world.step command = .ok after := by
  obtain ⟨sound, shallow⟩ := reachable_shallow reached
  refine ⟨fun string member => ?_, fun command allowed => ?_⟩
  · have bounded := shallow string member
    obtain ⟨tree, denotes, hsound⟩ := sound string member
    have low : tree.depth ≤ 254 := hsound.shallow.trans (by decide)
    have depth : tree.depth ≤ ropeMaxDepth := denotes.depth ▸ bounded
    have turns : tree.leftTurns ≤ ropeMaxDepth :=
      tree.leftTurns_le_depth.trans depth
    obtain ⟨units, hunits, -⟩ := (denotes.utf16Units hsound.heighted
      hsound.short low).total turns
    obtain ⟨leaves, hleaves, -⟩ := (denotes.forEachFlatLeaf hsound.heighted
      low).total depth
    refine ⟨bounded, ⟨units, hunits⟩, ⟨leaves, hleaves⟩, fun index => ?_⟩
    obtain ⟨outcome, houtcome, -⟩ := (denotes.nthUnit hsound.heighted low
      index).total turns
    exact ⟨outcome, houtcome⟩
  · rcases World.step_effect sound allowed with
      ⟨after, stepped, -⟩ | ⟨deep, -⟩
    · exact ⟨after, stepped⟩
    · exact (deep shallow).elim

/-- A rope whose leaves hold one half each of a surrogate pair. -/
def splitPair : World where
  store := ⟨[⟨none, .utf16 [0x4e2d, 0xd83d]⟩,
    ⟨none, .utf16 (0xde00 :: List.replicate 512 98)⟩,
    ⟨none, .rope ⟨515, true, 1, .tree 0 1⟩⟩]⟩
  live := [2, 1, 0]

theorem splitPair_reachable : programs.Reachable
    (fun world command => ¬ world.Crowded command) splitPair := by
  have uncrowded : ∀ (world : World) (command : Command),
      (∀ string ∈ command.operands, world.store.depth string = 0) →
      ¬ world.Crowded command := by
    rintro world command low ⟨self, other, called, deep, -⟩
    have operands : command.operands = [self, other] := by
      rcases called with rfl | ⟨answers, rfl⟩ <;> rfl
    rw [low self (by simp [operands]), low other (by simp [operands])] at deep
    cases deep
  have created : ∀ (world : World) (flat : Flat), flat.len ≤ maxLen →
      programs.Reachable (fun world command => ¬ world.Crowded command) world →
      programs.Reachable (fun world command => ¬ world.Crowded command)
        ⟨⟨world.store.reprs ++ [⟨none, flat.data⟩]⟩,
          world.store.reprs.length :: world.live⟩ := by
    intro world flat short reached
    refine .step _ _ (.flat flat) reached
      (uncrowded _ _ (by simp [Command.operands])) ⟨?_, rfl⟩
    refine ⟨by simp [Command.operands], by simp, ?_, by simp⟩
    rintro _ ⟨⟩
    exact short
  have first := created ⟨⟨[]⟩, []⟩ (.utf16 [0x4e2d, 0xd83d]) (by decide)
    (.initial _ rfl)
  have second := created _ (.utf16 (0xde00 :: List.replicate 512 98))
    (by decide +kernel) first
  exact .step _ _ (.tryConcat 0 1) second (uncrowded _ _ (by decide))
    ⟨.concat (by simp) (by simp), by decide +kernel⟩

theorem depth_bounded_splitPair : splitPair.store.depth 2 = 1 ∧
    (∀ string ∈ splitPair.live,
      splitPair.store.depth string ≤ ropeMaxDepth) ∧
    ∀ command, command.Allowed splitPair →
      ∃ after, splitPair.step command = .ok after :=
  have bounded := depth_bounded_of_uncrowded splitPair_reachable
  ⟨rfl, fun string member => (bounded.1 string member).1, bounded.2⟩

/-! A run that breaks the limit. The leaf lengths make every insertion collect
all smaller buckets, so each bucket is two levels deeper than the one before. -/

/-- Lengths of the flat strings put in front (`true`) or behind (`false`). -/
def deepSteps : List (Bool × Nat) :=
  [(false, 2584), (false, 1), (true, 1597), (false, 4181), (true, 1), (false,
    1), (true, 987), (false, 6765), (true, 1), (false, 1), (true, 610),
    (false, 10946), (true, 1), (false, 1), (true, 377), (false, 17711), (true,
    1), (false, 1), (true, 233), (false, 28657), (true, 1), (false, 1), (true,
    144), (false, 46368), (true, 1), (false, 1), (true, 89), (false, 75025),
    (true, 1), (false, 1), (true, 55), (false, 121393), (true, 1), (false, 1),
    (true, 34), (false, 196418), (true, 1), (false, 1), (true, 21), (false,
    317811), (true, 1), (false, 1), (true, 13), (false, 514229), (true, 1),
    (false, 1), (true, 8), (false, 832040), (true, 1), (false, 1), (true, 5),
    (false, 1346269), (true, 1), (false, 1), (true, 3), (false, 2178309),
    (true, 1), (false, 2178309), (true, 1), (false, 1), (true, 1)]

theorem deepSteps_shape : ((extendShapes? (.leaf 1) deepSteps).map fun shape =>
      (shape.depth, shape.leftSpine, shape.length id)) =
      some (61, 61, LeafOps.rebalanceLimit) := by
  decide +kernel

theorem utf16Units_overflows (denotes : Denotes store string tree)
    (sound : Sound tree) (deep : ropeMaxDepth < tree.leftTurns) :
    store.utf16Units string = .error (.panic iteratorOverflow) := by
  rcases denotes.utf16Units sound.heighted sound.short
    (sound.shallow.trans (by decide)) with ⟨units, -, -, low⟩ | ⟨-, failed⟩
  · omega
  · exact failed

theorem exists_deep_rope :
    ∃ world string tree, programs.Reachable (fun _ _ => True) world ∧
      string ∈ world.live ∧ Denotes world.store string tree ∧ Sound tree ∧
      tree.depth = ropeMaxDepth + 1 ∧ ropeMaxDepth < tree.leftTurns ∧
      tree.len = LeafOps.rebalanceLimit := by
  obtain ⟨_, hshape, facts⟩ := Option.map_eq_some_iff.mp deepSteps_shape
  simp only [Prod.mk.injEq] at facts
  obtain ⟨depth, spine, length⟩ := facts
  obtain ⟨world, string, tree, reached, live, denotes, sound, rfl⟩ :=
    (producible_leaf (by decide)).extendShapes? hshape
  rw [Rope.depth_map] at depth
  rw [Rope.leftSpine_map] at spine
  rw [Rope.length_map] at length
  have turns := tree.leftSpine_le_leftTurns
  rw [spine] at turns
  exact ⟨world, string, tree, reached, live, denotes, sound, depth, turns,
    length⟩

/-- A program can build a rope that is deeper than the limit and whose text it
cannot read: the iterator of `utf16_units` panics. -/
theorem deep_rope_reachable :
    ∃ world string, programs.Reachable (fun _ _ => True) world ∧
      string ∈ world.live ∧ world.store.depth string = ropeMaxDepth + 1 ∧
      world.store.len string = LeafOps.rebalanceLimit ∧
      world.store.utf16Units string = .error (.panic iteratorOverflow) := by
  obtain ⟨world, string, tree, reached, live, denotes, sound, depth, turns,
    length⟩ := exists_deep_rope
  exact ⟨world, string, reached, live, denotes.depth.trans depth,
    denotes.len.trans length, utf16Units_overflows denotes sound turns⟩

end QuickJsOxide.Strings
