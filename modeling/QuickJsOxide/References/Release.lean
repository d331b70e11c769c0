import QuickJsOxide.References.Retention

namespace QuickJsOxide.References

open Library

/-! The releases that avoid the queue do what the full release and the drain
after it do. -/

variable {Data : Type} {id : RawId} {heap after : Heap Data}

/-- A full release and the drain after it end in the given heap, however the
payload of a node is finalized. -/
def ReleasesTo (id : RawId) (heap : Heap Data) (cleanup : HeapCleanup)
    (after : Heap Data) : Prop :=
  ∀ finishNode turns, 2 ≤ turns →
    releaseAndDrain finishNode turns id heap = some (.ok cleanup after)

theorem releasesTo_of_idle (idle : after.zeroQueue = [])
    (released : Succeeds (releaseRawNoDrain id) heap () after) :
    ReleasesTo id heap {} after := by
  intro finishNode turns enough
  unfold Succeeds at released
  simp [releaseAndDrain, released, drainZeroQueue, idle]

theorem releasesTo_of_queued
    (released : Succeeds (releaseRawNoDrain id) heap () (dead.queue id))
    (idle : dead.zeroQueue = []) (drained : ∀ finishNode,
      Succeeds (drainOne finishNode id {}) dead cleanup after)
    (done : after.zeroQueue = []) : ReleasesTo id heap cleanup after := by
  intro finishNode turns enough
  obtain ⟨_, rfl⟩ := Nat.exists_eq_add_of_le' enough
  have queued : (dead.queue id).zeroQueue = [id] := by
    simp [Heap.queue, idle]
  have popped : { dead.queue id with zeroQueue := [] } = dead := by
    rw [← idle]
    rfl
  have drained := drained finishNode
  unfold Succeeds at released drained
  simp [releaseAndDrain, released, drainZeroQueue, drainZeroQueueSlow,
    queued, popped, drained, done]

theorem left_of_shared {strong : UInt32} (shared : 1 < strong) :
    strong ≠ 0 ∧ strong - 1 ≠ 0 := by
  have more := UInt32.lt_iff_toNat_lt.mp shared
  constructor
  · rintro rfl
    contradiction
  · intro none
    rw [sub_eq_zero.mp none] at more
    contradiction

theorem succeeds_finishLeaf (kinds : value.kind = some id.kind) :
    Succeeds (finishLeaf id value {}) heap (leafCleanup id) heap := by
  obtain ⟨kind, index, generation⟩ := id
  cases value with
  | vacant | retired => contradiction
  | string | bigInt =>
    obtain rfl := Option.some.inj kinds
    rfl

theorem succeeds_reclaimLeafVacant (place : heap.leafSlots[index]? = some slot)
    (empty : slot.value = .vacant) : Succeeds (reclaimLeafVacant index) heap ()
      (heap.recycleLeaf index slot.generation) := by
  refine .bind succeeds_get ?_
  simp only [place, empty]
  rfl

section

variable {slot : LeafSlot Data} (leaf : id.isLeaf)
  (found : heap.validateLeafIdentity id = .ok slot)

include leaf found

theorem succeeds_releaseLeaf (counted : slot.strong ≠ 0)
    (rest : Succeeds (releaseLiveLeaf id slot.strong) heap () after) :
    Succeeds (releaseRawNoDrain id) heap () after := by
  have kinds := (validateIdentity_eq_ok.mp found).2.2
  have live : slot.isLive := by simp [LeafSlot.isLive, kinds, counted]
  unfold releaseRawNoDrain releaseLeafRawNoDrain
  rw [if_pos leaf]
  refine .bind (succeeds_attempt found) ?_
  rw [if_pos live]
  exact rest

variable (idle : heap.zeroQueue = [])

include idle

theorem releasesTo_immortal (immortal : slot.strong = immortalStrong) :
    ReleasesTo id heap {} heap := by
  refine releasesTo_of_idle idle (succeeds_releaseLeaf leaf found ?_ ?_)
  · rw [immortal]
    decide
  · rw [releaseLiveLeaf, if_pos immortal]
    exact succeeds_pure

theorem releasesTo_shared (mortal : slot.strong ≠ immortalStrong)
    (shared : 1 < slot.strong) : ReleasesTo id heap {}
      (heap.setLeafStrong id.index (slot.strong - 1)) := by
  obtain ⟨counted, left⟩ := left_of_shared shared
  refine releasesTo_of_idle idle (succeeds_releaseLeaf leaf found counted ?_)
  rw [releaseLiveLeaf, if_neg mortal, if_neg counted]
  refine .bind (succeeds_modify _) ?_
  rw [if_neg left]
  exact succeeds_pure

theorem releasesTo_retired (sole : slot.strong = 1) :
    ReleasesTo id heap (leafCleanup id)
      (((heap.setLeafStrong id.index 0).setLeafValue id.index
        .vacant).recycleLeaf id.index slot.generation) := by
  have released : Succeeds (releaseRawNoDrain id) heap ()
      ((heap.setLeafStrong id.index 0).queue id) := by
    refine succeeds_releaseLeaf leaf found (by rw [sole]; decide) ?_
    rw [sole]
    exact .bind (succeeds_modify _) (succeeds_modify _)
  refine releasesTo_of_queued released idle (fun finishNode => ?_) ?_
  · obtain ⟨place, generations, kinds⟩ := validateIdentity_eq_ok.mp found
    have again : (heap.setLeafStrong id.index 0).validateLeafIdentity id =
        .ok { slot with strong := 0 } := by
      refine validateIdentity_eq_ok.mpr ⟨?_, generations, kinds⟩
      simp [Heap.setLeafStrong, place]
    have emptied : ((heap.setLeafStrong id.index 0).setLeafValue id.index
        .vacant).leafSlots[id.index]? =
          some { slot with strong := 0, value := .vacant } := by
      simp [Heap.setLeafValue, Heap.setLeafStrong, place]
    unfold drainOne
    rw [if_pos leaf]
    refine .bind (succeeds_attempt again) (.bind (succeeds_modify _) ?_)
    refine .bind (succeeds_finishLeaf kinds) ?_
    exact .bind (succeeds_reclaimLeafVacant emptied rfl) succeeds_pure
  · unfold Heap.recycleLeaf
    split <;> exact idle

omit leaf idle in
theorem recycleLeaf_sole (sole : slot.strong = 1) :
    (heap.setLeafValue id.index .vacant).recycleLeaf id.index slot.generation =
      (((heap.setLeafStrong id.index 0).setLeafValue id.index
        .vacant).recycleLeaf id.index slot.generation).setLeafStrong
          id.index 1 := by
  have place := (validateIdentity_eq_ok.mp found).1
  unfold Heap.recycleLeaf Heap.setLeafStrong Heap.setLeafValue
  split
  all_goals
    simp only [Heap.mk.injEq, true_and, and_true]
    apply List.ext_getElem?
    intro index
    simp only [List.getElem?_modify]
    grind

end

section

variable {node : Node Data} {slot : ArenaSlot Data} (leaf : ¬id.isLeaf)
  (found : heap.validateSlotIdentity id = .ok slot)
  (live : slot.state = .live node) (idle : heap.zeroQueue = [])

include leaf found live idle

theorem releasesTo_immortal_node (immortal : node.strong = immortalStrong) :
    ReleasesTo id heap {} heap := by
  refine releasesTo_of_idle idle ?_
  unfold releaseRawNoDrain
  rw [if_neg leaf]
  refine .bind (succeeds_attempt found) ?_
  simp only [live, if_pos immortal]
  exact succeeds_pure

theorem releasesTo_shared_node (mortal : node.strong ≠ immortalStrong)
    (shared : 1 < node.strong) : ReleasesTo id heap {} (heap.setState id.index
      (.live { node with strong := node.strong - 1 })) := by
  obtain ⟨counted, left⟩ := left_of_shared shared
  refine releasesTo_of_idle idle ?_
  unfold releaseRawNoDrain
  rw [if_neg leaf]
  refine .bind (succeeds_attempt found) ?_
  simp only [live, if_neg mortal, if_neg counted, if_neg left]
  exact succeeds_modify _

end

theorem tryReleaseNonfinal_refines (id : RawId) (heap : Heap Data) :
    match tryReleaseNonfinal id heap with
    | (true, after) => ReleasesTo id heap {} after
    | (false, after) => after = heap := by
  unfold tryReleaseNonfinal tryReleaseLeafNonfinal
  split_ifs with busy leaf
  · rfl
  · have idle := not_not.mp busy
    cases found : heap.validateLeafIdentity id with
    | error => rfl
    | ok =>
      dsimp only
      split_ifs with live immortal shared
      · exact releasesTo_immortal leaf found idle immortal
      · exact releasesTo_shared leaf found idle immortal shared
      · rfl
      · rfl
  · have idle := not_not.mp busy
    cases found : heap.validateSlotIdentity id with
    | error => rfl
    | ok slot =>
      dsimp only
      cases live : slot.state with
      | live =>
        dsimp only
        split_ifs with immortal shared
        · exact releasesTo_immortal_node leaf found live idle immortal
        · exact releasesTo_shared_node leaf found live idle immortal shared
        · rfl
      | _ => rfl

theorem tryReleaseLeafReference_refines (id : RawId) (heap : Heap Data) :
    match tryReleaseLeafReference id heap with
    | .ok none after | .error _ after => after = heap
    | .ok (some false) after => ReleasesTo id heap {} after
    | .ok (some true) after => ∃ drained,
        ReleasesTo id heap (leafCleanup id) drained ∧
          after = drained.setLeafStrong id.index 1 := by
  unfold tryReleaseLeafReference
  split_ifs with quick
  · obtain ⟨leaf, idle⟩ := quick
    cases found : heap.validateLeafIdentity id with
    | error => rfl
    | ok slot =>
      obtain ⟨place, -, -⟩ := validateIdentity_eq_ok.mp found
      dsimp only
      split_ifs with none immortal shared
      · rfl
      · exact releasesTo_immortal leaf found idle immortal
      · exact releasesTo_shared leaf found idle immortal shared
      · have sole : slot.strong = 1 := by
          rw [UInt32.lt_iff_toNat_lt] at shared
          rw [← UInt32.toNat_inj] at none ⊢
          simp at none shared ⊢
          omega
        have retired : Succeeds
            (do retireValidatedLeaf id.index; return some true) heap _ _ :=
          .bind (by rw [Succeeds, retireValidatedLeaf, place]) succeeds_pure
        rw [retired]
        exact ⟨_, releasesTo_retired leaf found idle sole,
          recycleLeaf_sole found sole⟩
  · rfl

/-- A release that avoids the queue agrees with the full release and drain in
all but the count left in the slot of a leaf that was retired, and one that
declines leaves the heap as it was. -/
theorem release_refines (id : RawId) (heap : Heap Data) :
    (match tryReleaseNonfinal id heap with
      | (true, after) => ReleasesTo id heap {} after
      | (false, after) => after = heap) ∧
    match tryReleaseLeafReference id heap with
      | .ok none after | .error _ after => after = heap
      | .ok (some false) after => ReleasesTo id heap {} after
      | .ok (some true) after => ∃ drained,
          ReleasesTo id heap (leafCleanup id) drained ∧
            after = drained.setLeafStrong id.index 1 :=
  ⟨tryReleaseNonfinal_refines id heap, tryReleaseLeafReference_refines id heap⟩

/-- The queue leaves a count of zero behind where the direct path leaves the
count of the last owner. -/
theorem release_leaves_count :
    let heap : Heap Unit :=
      ⟨[], [], [⟨1, 1, .string ()⟩], [], [], none, none⟩
    let id : RawId := ⟨.string, 0, 1⟩
    tryReleaseLeafReference id heap = .ok (some true)
        ⟨[], [], [⟨2, 1, .vacant⟩], [0], [], none, none⟩ ∧
      releaseAndDrain (fun _ _ _ => throw id.stale) 2 id heap =
        some (.ok { finalizedStrings := 1 }
          ⟨[], [], [⟨2, 0, .vacant⟩], [0], [], none, none⟩) := by
  exact ⟨rfl, rfl⟩

end QuickJsOxide.References
