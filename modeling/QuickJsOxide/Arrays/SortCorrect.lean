import QuickJsOxide.Arrays.SortWriting

namespace QuickJsOxide.Arrays

open Library List

/-! Collecting the elements. -/

theorem truncate_lt (small : bits.toNat < (0x433fffffffffffff : UInt64).toNat) :
    truncate bits < 2 ^ 53 := by
  have bound : bits.toNat < 0x433fffffffffffff := small
  unfold truncate
  dsimp only
  split
  · exact Nat.two_pow_pos 53
  · have exponent : bits.toNat / 2 ^ 52 - 1023 ≤ 52 := by omega
    have fraction : 2 ^ 52 + bits.toNat % 2 ^ 52 < 2 ^ 53 := by omega
    rw [Nat.div_lt_iff_lt_mul (Nat.two_pow_pos 52)]
    calc (2 ^ 52 + bits.toNat % 2 ^ 52) * 2 ^ (bits.toNat / 2 ^ 52 - 1023)
        ≤ (2 ^ 52 + bits.toNat % 2 ^ 52) * 2 ^ 52 :=
          Nat.mul_le_mul_left _ (Nat.pow_le_pow_right Nat.two_pos exponent)
      _ < 2 ^ 53 * 2 ^ 52 :=
          Nat.mul_lt_mul_of_pos_right fraction (Nat.two_pow_pos 52)

theorem lengthFromNumber_lt (bits : UInt64) :
    lengthFromNumber bits < 2 ^ 53 := by
  unfold lengthFromNumber
  split_ifs with positive large
  · exact Nat.two_pow_pos 53
  · exact Nat.sub_lt (Nat.two_pow_pos 53) Nat.one_pos
  · exact truncate_lt (Nat.not_le.mp large)

def slotOf (index : Nat) : Option RawValue → List ArraySortSlot
  | none | some .undefined => []
  | some value => [⟨value, none, index⟩]

theorem slotOf_some (isDefined : value ≠ .undefined) (index : Nat) :
    slotOf index (some value) = [⟨value, none, index⟩] := by
  cases value with
  | undefined => exact absurd rfl isDefined
  | _ => rfl

def undefinedOf (element : Option RawValue) : Nat :=
  if element = some .undefined then 1 else 0

theorem undefinedOf_some (isDefined : value ≠ .undefined) :
    undefinedOf (some value) = 0 :=
  if_neg (by simpa)

def collectedSlots (elements : Nat → Option RawValue) :
    Nat → List ArraySortSlot
  | 0 => []
  | length + 1 =>
    collectedSlots elements length ++ slotOf length (elements length)

def countUndefined (elements : Nat → Option RawValue) : Nat → Nat
  | 0 => 0
  | length + 1 =>
    countUndefined elements length + undefinedOf (elements length)

variable {slot : ArraySortSlot}

theorem slotOf_spec (mem : slot ∈ slotOf index element) :
    slot.originalPosition = index ∧ slot.cachedString = none ∧
      element = some slot.value ∧ slot.value ≠ .undefined := by
  unfold slotOf at mem
  split at mem
  · cases mem
  · cases mem
  · obtain rfl := mem_singleton.mp mem
    exact ⟨rfl, rfl, rfl, by assumption⟩

theorem length_slotOf (index : Nat) (element : Option RawValue) :
    (slotOf index element).length + undefinedOf element ≤ 1 := by
  unfold slotOf undefinedOf
  split
  · simp
  · simp
  · simp_all

theorem length_collectedSlots (length : Nat) :
    (collectedSlots elements length).length +
      countUndefined elements length ≤ length := by
  induction length with
  | zero => exact Nat.le_refl 0
  | succ length =>
    have last := length_slotOf length (elements length)
    rw [collectedSlots, countUndefined, length_append]
    omega

theorem collectedSlots_spec {length : Nat}
    (mem : slot ∈ collectedSlots elements length) :
    slot.originalPosition < length ∧ slot.cachedString = none ∧
      elements slot.originalPosition = some slot.value := by
  induction length with
  | zero => cases mem
  | succ length ih =>
    rcases mem_append.mp mem with earlier | last
    · obtain ⟨below, uncached, present⟩ := ih earlier
      exact ⟨Nat.lt_succ_of_lt below, uncached, present⟩
    · obtain ⟨atLast, uncached, present, _⟩ := slotOf_spec last
      rw [atLast]
      exact ⟨Nat.lt_succ_self length, uncached, present⟩

theorem collectedSlots_increasing (length : Nat) :
    (collectedSlots elements length).Pairwise fun left right =>
      left.originalPosition < right.originalPosition := by
  induction length with
  | zero => exact Pairwise.nil
  | succ length ih =>
    rw [collectedSlots, pairwise_append]
    refine ⟨ih, ?_, ?_⟩
    · unfold slotOf
      split
      · exact Pairwise.nil
      · exact Pairwise.nil
      · exact pairwise_singleton _ _
    · intro left leftMem right rightMem
      rw [(slotOf_spec rightMem).1]
      exact (collectedSlots_spec leftMem).1

theorem reserve_eq_ok {slots : List ArraySortSlot} {length : Nat}
    (collected : slots = collectedSlots elements length)
    (small : length < 2 ^ 53) (capacity : Nat) :
    ∃ next, reserveArraySortSlotCapacity slots.length capacity = .ok next := by
  subst collected
  have bound := @length_collectedSlots elements length
  unfold reserveArraySortSlotCapacity
  split_ifs with room overflow
  · exact ⟨_, rfl⟩
  · exact ⟨_, rfl⟩
  · omega

section

variable {World : Type} {host : Host World} {view : ArrayView host}
  {object : ObjectRef} {comparator : Option CallableRef} {length : Nat}

/-- What sorting makes of the first elements: the defined ones in order, then
the undefined ones. -/
def sortedElements (order : RawValue → RawValue → Ordering)
    (elements : Nat → Option RawValue) (length : Nat) : List RawValue :=
  (stableSort order ArraySortSlot.value
      (collectedSlots elements length)).map ArraySortSlot.value ++
    replicate (countUndefined elements length) .undefined

variable {self : SortResumeState}

theorem sortNext_proceeds {copying : Bool} (plain : view.plain world object)
    (comparison : Comparison host
      (fun value => value ∈ (collectedSlots (view.elements world object)
        length).map ArraySortSlot.value) comparator order)
    (task : self.task = (copying, object, comparator, length,
      countUndefined (view.elements world object) length))
    (slots : self.slots = collectedSlots (view.elements world object) length)
    (machine : self.machine = .new self.slots.length) :
    Proceeds host world (sortNext host world self none) (fun answer =>
      answer.2 = .returned (.object object) ∧ WrittenTo view world object
        (sortedElements order (view.elements world object) length) length
        answer.1) := by
  generalize isElements : view.elements world object = elements at *
  let entries := self.slots.map ArraySortSlot.entry
  have isLength : entries.length = self.slots.length := length_map _
  have values : entries.map Prod.fst =
      (collectedSlots elements length).map ArraySortSlot.value := by
    rw [← slots]
    exact map_map
  have increasing : entries.Pairwise fun left right => left.2 < right.2 := by
    rw [pairwise_map, slots]
    exact collectedSlots_increasing length
  rw [← values] at comparison
  obtain ⟨_, sortedFinal, drives⟩ := exists_drives entries.length
    (fun index => (entries[index]?.map (entryRank order entries)).getD 0)
  have holding : Holding host order entries
      (fun index => (entries[index]?.map (entryRank order entries)).getD 0)
      self.slots := by
    refine ⟨.refl _, ?_, ?_⟩
    · intro index slot present
      simp [entries, getElem?_map, present]
    · intro slot mem text cached
      rw [slots] at mem
      rw [(collectedSlots_spec mem).2.1] at cached
      cases cached
  refine drives.proceeds comparison increasing self
    (machine.trans (congrArg SortMachine.new isLength.symm))
    (congrArg (·.2.2.1) task) holding ?_
  intro later sameTask holdingFinal atStart defined
  have laterTask := sameTask.trans task
  simp only [SortResumeState.task, Prod.mk.injEq] at laterTask
  have sorted := holdingFinal.sorted sortedFinal comparison.consistent
    increasing
  have result : sortedElements order elements length =
      writtenValues later.slots (countUndefined elements length) := by
    have mapped := map_mergeSort
      (r := fun left right : ArraySortSlot =>
        order left.value right.value != .gt)
      (s := fun left right : RawValue × Nat => order left.1 right.1 != .gt)
      (f := ArraySortSlot.entry) (l := self.slots) (fun _ _ _ _ => rfl)
    have same := congrArg (map Prod.fst) (mapped.trans sorted.symm)
    rw [map_map, map_map] at same
    rw [sortedElements, writtenValues, ← slots]
    exact congrArg (· ++ _) same
  rw [result]
  have writing : Writing later.slots object (countUndefined elements length)
      length later :=
    ⟨laterTask.2.1, laterTask.2.2.2.2, laterTask.2.2.2.1, defined,
      fun _ _ _ => rfl⟩
  refine writing.proceeds ?_ ?_ (atStart ▸ WrittenTo.begin plain)
    (show later.cursor + length = length by rw [atStart]; exact Nat.zero_add _)
  · rw [holdingFinal.length, isLength, slots]
    exact length_collectedSlots length
  · intro index slot present isIndex
    obtain ⟨original, mem, isEntry⟩ :=
      mem_map.mp (holdingFinal.entry_mem present)
    obtain ⟨sameValue, samePosition⟩ := Prod.mk.inj isEntry
    rw [slots] at mem
    rw [isElements, ← isIndex, ← samePosition, ← sameValue]
    exact (collectedSlots_spec mem).2.2

structure Collecting (elements : Nat → Option RawValue) (object : ObjectRef)
    (comparator : Option CallableRef) (length : Nat)
    (state : SortResumeState) : Prop where
  copying : state.copying = false
  object : state.object = object
  comparator : state.comparator = comparator
  length : state.length = length
  slots : state.slots = collectedSlots elements state.cursor
  undefinedCount : state.undefinedCount = countUndefined elements state.cursor

theorem Collecting.advance
    (collecting : Collecting elements object comparator length self)
    (logicalCapacity : Nat) (phase : SortPhase) {collected : List ArraySortSlot}
    {count : Nat} (isCollected : collected =
      self.slots ++ slotOf self.cursor (elements self.cursor))
    (isCount : count =
      self.undefinedCount + undefinedOf (elements self.cursor)) :
    Collecting elements object comparator length
      { self with
        logicalCapacity, phase, slots := collected, undefinedCount := count,
        cursor := self.cursor + 1 } :=
  { collecting with
    slots := by rw [isCollected, collecting.slots, collectedSlots]
    undefinedCount := by
      rw [isCount, collecting.undefinedCount, countUndefined] }

theorem collectValue_eq_ok (self : SortResumeState)
    (inPlace : self.copying = false) (value : RawValue) :
    collectValue self value = .ok { self with
        slots := self.slots ++ slotOf self.cursor (some value),
        undefinedCount := self.undefinedCount + undefinedOf (some value) } := by
  rw [collectValue, if_neg (Bool.eq_false_iff.mp inPlace)]
  rcases eq_or_ne value .undefined with rfl | isDefined
  · rw [if_pos rfl, slotOf, append_nil]
    rfl
  · rw [if_neg isDefined, slotOf_some isDefined, undefinedOf_some isDefined]
    rfl

theorem Collecting.finishes
    (collecting : Collecting (view.elements world object) object comparator
      length self) (plain : view.plain world object) (small : length < 2 ^ 53)
    (isRemaining : self.cursor + remaining = length)
    (sorted : ∀ later : SortResumeState,
      later.task = (false, object, comparator, length,
        countUndefined (view.elements world object) length) →
      later.slots = collectedSlots (view.elements world object) length →
      later.machine = .new later.slots.length →
      Proceeds host world (sortNext host world later none) good) :
    Finishes host (collectNext host world self) good := by
  induction remaining generalizing self with
  | zero =>
    obtain ⟨copying, rfl, rfl, rfl, slots, count⟩ := collecting
    have atEnd : self.cursor = self.length := isRemaining
    unfold collectNext
    rw [if_pos atEnd, if_neg (by simp [copying])]
    refine Proceeds.finishes (sorted _ ?_ (atEnd ▸ slots) rfl)
    simp only [SortResumeState.task, copying, count, atEnd]
  | succ _ ih =>
    have next := collecting.advance
    obtain ⟨copying, rfl, rfl, rfl, slots, count⟩ := collecting
    obtain ⟨capacity, reserved⟩ :=
      reserve_eq_ok slots (by omega) self.logicalCapacity
    unfold collectNext
    rw [if_neg (by omega), if_neg (by simp [copying])]
    refine .bind (returns_performed reserved) (.bind (Program.returns_pure _)
      (finishes_pure (finish_has (view.has plain self.cursor) ?_)))
    cases element : view.elements world self.object self.cursor with
    | none =>
      rw [element] at next
      exact ih (next capacity _ (append_nil _).symm rfl) (by dsimp only; omega)
    | some value =>
      rw [element] at next
      apply finishes_pure
      apply finish_read (by rw [view.get plain self.cursor, element])
      refine .bind (Program.returns_lift_of_eq (collectValue_eq_ok
        { self with logicalCapacity := capacity, phase := .collectRead }
        copying value)) ?_
      exact ih (next capacity _ rfl rfl) (by dsimp only; omega)

theorem collectCopied_eq_ok {values rest : List RawValue}
    (few : values.length < 2 ^ 53) (isRest : values.drop index = rest)
    (inside : index ≤ values.length)
    (slots : self.slots = collectedSlots (fun index => values[index]?) index)
    (count : self.undefinedCount =
      countUndefined (fun index => values[index]?) index) :
    ∃ capacity, collectCopied rest index self = .ok { self with
        slots := collectedSlots (fun index => values[index]?) values.length,
        undefinedCount :=
          countUndefined (fun index => values[index]?) values.length,
        logicalCapacity := capacity } := by
  induction rest generalizing index self with
  | nil =>
    have atEnd : index = values.length :=
      Nat.le_antisymm inside (drop_eq_nil_iff.mp isRest)
    subst atEnd
    refine ⟨self.logicalCapacity, ?_⟩
    rw [collectCopied, ← slots, ← count]
  | cons value rest ih =>
    have below : index < values.length := by
      by_contra beyond
      rw [drop_eq_nil_iff.mpr (Nat.not_lt.mp beyond)] at isRest
      cases isRest
    rw [drop_eq_getElem_cons below] at isRest
    obtain ⟨isValue, isTail⟩ := cons.inj isRest
    replace isValue := (getElem?_eq_getElem below).trans (congrArg some isValue)
    obtain ⟨_, reserved⟩ :=
      reserve_eq_ok slots (by omega) self.logicalCapacity
    rw [collectCopied, reserved]
    dsimp only
    rcases eq_or_ne value .undefined with rfl | isDefined
    · rw [if_pos rfl]
      apply ih isTail below
      · dsimp only
        rw [slots, collectedSlots, isValue]
        simp [slotOf]
      · dsimp only
        rw [count, countUndefined, isValue]
        rfl
    · rw [if_neg isDefined]
      apply ih isTail below
      · dsimp only
        rw [slots, collectedSlots, isValue, slotOf_some isDefined]
      · dsimp only
        rw [count, countUndefined, isValue, undefinedOf_some isDefined]
        rfl

structure Copying (elements : Nat → Option RawValue) (object : ObjectRef)
    (comparator : Option CallableRef) (length : Nat)
    (state : SortResumeState) : Prop where
  copying : state.copying = true
  object : state.object = object
  comparator : state.comparator = comparator
  isLength : state.length = length
  slots : state.slots = []
  undefinedCount : state.undefinedCount = 0
  size : state.values.length = length
  copied : ∀ index, index < state.cursor →
    state.values[index]? = some ((elements index).getD .undefined)
  rest : ∀ index, state.cursor ≤ index → index < length →
    state.values[index]? = some .undefined

def copiedElements (elements : Nat → Option RawValue) (length index : Nat) :
    Option RawValue :=
  if index < length then some ((elements index).getD .undefined) else none

theorem Copying.finishes
    (copied : Copying (view.elements world object) object comparator length
      self) (plain : view.plain world object) (small : length < 2 ^ 53)
    (isRemaining : self.cursor + remaining = length)
    (sorted : ∀ (after : World) (copy : ObjectRef) (later : SortResumeState),
      view.plain after copy → view.elements after copy =
        copiedElements (view.elements world object) length →
      (∀ other, other ≠ copy →
        view.elements after other = view.elements world other) →
      later.task = (true, copy, comparator, length,
        countUndefined (view.elements after copy) length) →
      later.slots = collectedSlots (view.elements after copy) length →
      later.machine = .new later.slots.length →
      Proceeds host after (sortNext host after later none) good) :
    Finishes host (collectNext host world self) good := by
  induction remaining generalizing self with
  | zero =>
    obtain ⟨copying, rfl, rfl, rfl, slots, count, size, copied, _⟩ := copied
    have atEnd : self.cursor = self.length := isRemaining
    have isCopy : (fun index => self.values[index]?) =
        copiedElements (view.elements world self.object) self.length := by
      funext index
      rw [copiedElements]
      split_ifs with below
      · exact copied index (by omega)
      · rw [getElem?_eq_none_iff]
        omega
    obtain ⟨capacity, collected⟩ := collectCopied_eq_ok
      (show self.values.length < 2 ^ 53 by omega) rfl (Nat.zero_le _)
      slots count
    obtain ⟨after, copy, allocated, plainCopy, elements⟩ :=
      view.newArray world self.values
    have copyElements : view.elements after copy =
        fun index => self.values[index]? := by
      rw [elements]
      funext index
      exact if_pos rfl
    unfold collectNext
    rw [if_pos atEnd, if_pos copying]
    refine .bind (Program.returns_lift_of_eq collected) (.bind
      (returns_performed allocated) (Proceeds.finishes (sorted after copy _
        plainCopy (copyElements.trans isCopy) ?_ ?_ ?_ rfl)))
    · intro other different
      rw [elements]
      funext index
      exact if_neg different
    · simp only [SortResumeState.task, copying, copyElements, size]
    · rw [copyElements, ← size]
  | succ _ ih =>
    obtain ⟨copying, rfl, rfl, rfl, slots, count, size, copied, rest⟩ := copied
    -- The element at the cursor is stored, or stays undefined.
    have next : ∀ (phase : SortPhase) (values : List RawValue),
        values.length = self.length →
        values[self.cursor]? = some
          ((view.elements world self.object self.cursor).getD .undefined) →
        (∀ index, index ≠ self.cursor →
          values[index]? = self.values[index]?) →
        Finishes host (collectNext host world
          { self with phase, values, cursor := self.cursor + 1 }) good := by
      intro phase values isSize atCursor others
      apply ih _ (by dsimp only; omega)
      refine ⟨copying, rfl, rfl, rfl, slots, count, isSize, ?_, ?_⟩
      · intro index below
        dsimp only at below ⊢
        rcases Nat.lt_or_ge index self.cursor with earlier | last
        · rw [others index (by omega)]
          exact copied index earlier
        · rw [show index = self.cursor by omega]
          exact atCursor
      · intro index above below
        dsimp only at above ⊢
        rw [others index (by omega)]
        exact rest index (by omega) below
    have atCursor := rest self.cursor (Nat.le_refl _) (by omega)
    unfold collectNext
    rw [if_neg (by omega), if_pos copying]
    refine .bind (Program.returns_pure _)
      (finishes_pure (finish_has (view.has plain self.cursor) ?_))
    cases element : view.elements world self.object self.cursor with
    | none =>
      apply next .collectHas self.values size _ (fun _ _ => rfl)
      rw [element]
      exact atCursor
    | some value =>
      apply finishes_pure
      apply finish_read (by rw [view.get plain self.cursor, element])
      have below : self.cursor < self.values.length := by omega
      refine .bind (Program.returns_lift_of_eq
        ((if_pos copying).trans (if_pos below))) ?_
      exact next .collectRead _ (by rw [length_set, size])
        (by rw [element, getElem?_set_self below])
        (fun index different => getElem?_set_ne (Ne.symm different))

theorem collectedSlots_copiedElements (elements : Nat → Option RawValue)
    (below : cursor ≤ length) :
    collectedSlots (copiedElements elements length) cursor =
      collectedSlots elements cursor := by
  induction cursor with
  | zero => rfl
  | succ cursor ih =>
    rw [collectedSlots, collectedSlots, ih (by omega), copiedElements,
      if_pos (by omega)]
    cases elements cursor with
    | none | some => rfl

def sortSource (copying : Bool) (elements : Nat → Option RawValue)
    (length : Nat) : Nat → Option RawValue :=
  if copying then copiedElements elements length else elements

structure ArraySorted (view : ArrayView host) (before : World)
    (object : ObjectRef) (copying : Bool)
    (order : RawValue → RawValue → Ordering) (after : World)
    (result : ObjectRef) : Prop where
  inPlace : copying = false → result = object
  sorted : ∀ index, index < view.length before object →
    view.elements after result index =
      (sortedElements order (sortSource copying (view.elements before object)
          (view.length before object))
        (view.length before object))[index]?
  beyond : ∀ index, view.length before object ≤ index →
    view.elements after result index =
      sortSource copying (view.elements before object)
        (view.length before object) index
  others : ∀ other, other ≠ result →
    view.elements after other = view.elements before other

theorem collectNext_sorts (copying : Bool) (plain : view.plain world object)
    (small : view.length world object < 2 ^ 53) (comparison : Comparison host
      (fun value => value ∈ (collectedSlots (view.elements world object)
        (view.length world object)).map ArraySortSlot.value)
      comparator order)
    (isSelf : self = { SortResumeState.initial copying object comparator with
      phase := .lengthNumber, length := view.length world object,
      values := if copying then
        replicate (view.length world object) .undefined else [] }) :
    Finishes host (collectNext host world self) (fun answer =>
      ∃ result, answer.2 = .returned (.object result) ∧
        ArraySorted view world object copying order answer.1 result) := by
  subst isSelf
  cases copying with
  | false =>
    refine Collecting.finishes ⟨rfl, rfl, rfl, rfl, rfl, rfl⟩ plain small
      (Nat.zero_add _) ?_
    intro later task slots machine
    refine (sortNext_proceeds plain comparison task slots machine).mono ?_
    intro answer written
    exact ⟨object, written.1, fun _ => rfl, written.2.done, written.2.rest,
      written.2.others⟩
  | true =>
    refine Copying.finishes (show Copying (view.elements world object) object
      comparator (view.length world object) _ from ⟨rfl, rfl, rfl, rfl, rfl, rfl,
        length_replicate, fun index below => absurd below (Nat.not_lt_zero index),
        fun _ _ below => getElem?_replicate_of_lt below⟩) plain small
      (Nat.zero_add _) ?_
    intro after copy later plainCopy elements others task slots machine
    rw [← collectedSlots_copiedElements _ (Nat.le_refl _), ← elements]
      at comparison
    refine (sortNext_proceeds plainCopy comparison task slots machine).mono ?_
    intro answer written
    obtain ⟨isCopy, written⟩ := written
    have done := written.done
    have rest := written.rest
    rw [elements] at done rest
    exact ⟨copy, isCopy, nofun, done, rest, fun other different =>
      (written.others other different).trans (others other different)⟩

def slotReply (order : RawValue → RawValue → Ordering)
    (slots : List ArraySortSlot) (left right : Nat) :
    Except Failure Ordering := do
  let left ← slotAt slots left
  let right ← slotAt slots right
  return (order left.value right.value).then
    (compare left.originalPosition right.originalPosition)

end

/-- The machine sorts every list of slots stably, and the sort leaves the
array in that order, with the undefined values and then the holes behind. -/
theorem callArrayPrototypeSort_stable {World : Type} {host : Host World}
    (view : ArrayView host) {world : World} {object : ObjectRef}
    {thisValue argument : RawValue} {comparator : Option CallableRef}
    {order : RawValue → RawValue → Ordering} (copying : Bool)
    (plain : view.plain world object)
    (accepted : nativeSortComparator host world argument =
      .ok (world, .value comparator))
    (isObject : host.toObject world thisValue = .ok (world, .value object))
    (fits : copying = true → view.length world object ≤ maxFastArrayLength)
    (comparison : Comparison host
      (fun value => value ∈ (collectedSlots (view.elements world object)
        (view.length world object)).map ArraySortSlot.value) comparator order) :
    (∀ slots : List ArraySortSlot,
      Consistent order (fun value => value ∈ slots.map ArraySortSlot.value) →
      (slots.Pairwise fun left right =>
        left.originalPosition < right.originalPosition) →
      (quickjsRqsortBy slots (slotReply order)).Returns
        (.ok (stableSort order ArraySortSlot.value slots))) ∧ ∃ after result,
      (callArrayPrototypeSort host world copying thisValue argument).Returns
        (.ok (after, .returned (.object result))) ∧
      ArraySorted view world object copying order after result := by
  constructor
  · intro slots consistent increasing
    apply quickjsRqsortBy_returns consistent increasing
    intro others left right leftSlot rightSlot atLeft atRight
    rw [slotReply, slotAt_eq_ok atLeft, slotAt_eq_ok atRight]
    rfl
  · obtain ⟨_, bits, read, numeric, isLength⟩ := view.getLength plain
    have small : view.length world object < 2 ^ 53 := by
      rw [← isLength]
      exact lengthFromNumber_lt bits
    have finishes : Finishes host (number host world
        { SortResumeState.initial copying object comparator with
          phase := .lengthNumber } (.value bits)) (fun answer =>
        ∃ result, answer.2 = .returned (.object result) ∧
          ArraySorted view world object copying order answer.1 result) := by
      have sorts := collectNext_sorts copying plain small comparison rfl
      cases copying with
      | false =>
        simp only [number, isLength]
        exact sorts
      | true =>
        have notLarge : ¬ view.length world object > maxFastArrayLength :=
          Nat.not_lt.mpr (fits rfl)
        simp only [number, isLength, SortResumeState.initial, if_true,
          if_neg notLarge]
        exact sorts
    have ends : Ends host world (.read object .length
        (.initial copying object comparator)) (fun answer =>
        ∃ result, answer.2 = .returned (.object result) ∧
          ArraySorted view world object copying order answer.1 result) :=
      finish_read read (finishes_pure (finish_number (numeric world) finishes))
    obtain ⟨⟨after, completion⟩, finished, result, isResult, sorted⟩ := ends
    obtain rfl : completion = .returned (.object result) := isResult
    refine ⟨after, result, ?_, sorted⟩
    have started : start host world copying thisValue argument =
        .ok (world, .read object .length
          (.initial copying object comparator)) := by
      rw [start, accepted]
      simp only [bind, Except.bind, isObject]
      rfl
    exact (returns_performed started).bind finished

abbrev PlainWorld := Nat × (ObjectRef → Nat → Option RawValue)

def numericKey : RawValue → Int
  | .int value => value.toInt
  | _ => 0

def numericOrder (left right : RawValue) : Ordering :=
  compare (numericKey left) (numericKey right)

def numericAnswer : Ordering → Int32
  | .lt => -1
  | .eq => 0
  | .gt => 1

theorem orderFromNumber_numericAnswer (ordering : Ordering) :
    orderFromNumber (Collections.Double.ofInt (numericAnswer ordering)) =
      ordering := by
  cases ordering <;> decide

def plainHost : Host PlainWorld where
  asCallable _ object := .ok (some object)
  toObject world value :=
    match value with
    | .object object => .ok (world, .value object)
    | _ => .error (.invariant "not an object")
  getProperty world object key :=
    match key with
    | .length => .ok (world, .returned (.int 3))
    | .index index =>
      .ok (world, .returned ((world.2 object index).getD .undefined))
  toNumber world value :=
    match value with
    | .int value => .ok (world, .value (Collections.Double.ofInt value))
    | _ => .ok (world, .value 0)
  toJsString world _ := .ok (world, .value [])
  hasProperty world object index :=
    .ok (world, .value (world.2 object index).isSome)
  call world _ left right :=
    .ok (world, .returned (.int (numericAnswer (numericOrder left right))))
  setProperty world object index value :=
    .ok ((world.1, fun other position =>
      if other = object ∧ position = index then some value
      else world.2 other position), .value .accepted)
  deleteProperty world object index :=
    .ok ((world.1, fun other position =>
      if other = object ∧ position = index then none
      else world.2 other position), .value true)
  newArrayFromValues world values :=
    .ok ((world.1 + 1, fun other position =>
      if other = ⟨world.1, 0⟩ then values[position]?
      else world.2 other position), ⟨world.1, 0⟩)
  newNativeError world _ _ := .ok (world, .null)
  stringCell _ id := .ok id.index
  bigIntRepr _ id := .ok (.heap id.index)

def plainView : ArrayView plainHost where
  elements world := world.2
  length _ _ := 3
  plain _ _ := True
  getLength := fun _ => ⟨_, _, rfl, fun _ => rfl, by decide⟩
  has := fun _ _ => rfl
  get := fun _ _ => rfl
  set := fun _ _ _ => ⟨_, rfl, trivial, rfl⟩
  delete := fun _ _ => ⟨_, rfl, trivial, rfl⟩
  newArray := fun _ _ => ⟨_, _, rfl, trivial, rfl⟩

def plainWorld : PlainWorld :=
  (1, fun object index =>
    if object = ⟨0, 0⟩ then
      [RawValue.int 2, .undefined, .int 1][index]?
    else none)

theorem comparison_numericOrder (callable : CallableRef)
    (isInt : ∀ {value}, present value → ∃ integer, value = .int integer) :
    Comparison plainHost present (some callable) numericOrder := by
  refine .callback ?_ ?_ ?_
  · have ints := Consistent.of_transCmp (compare : Int → Int → Ordering)
      (fun _ => True)
    exact ⟨fun _ _ => ints.swap trivial trivial,
      fun _ _ _ => ints.trans trivial trivial trivial⟩
  · intro left right _ _
    refine ⟨.int (numericAnswer (numericOrder left right)), ?_, fun _ => rfl⟩
    have answers : Answers plainHost _ _ :=
      .int (numericAnswer (numericOrder left right))
    rwa [orderFromNumber_numericAnswer] at answers
  · intro left right leftPresent rightPresent world
    obtain ⟨leftInt, rfl⟩ := isInt leftPresent
    obtain ⟨rightInt, rfl⟩ := isInt rightPresent
    refine ⟨leftInt == rightInt, rfl, ?_⟩
    intro same
    rw [eq_of_beq same, numericOrder]
    exact compare_eq_iff_eq.mpr rfl

theorem callArrayPrototypeSort_stable_plain : ∃ after result,
      (callArrayPrototypeSort plainHost plainWorld false (.object ⟨0, 0⟩)
        (.object ⟨7, 0⟩)).Returns (.ok (after, .returned (.object result))) ∧
      ArraySorted plainView plainWorld ⟨0, 0⟩ false numericOrder after
        result := by
  refine (callArrayPrototypeSort_stable plainView false trivial rfl rfl nofun
    (comparison_numericOrder ⟨7, 0⟩ ?_)).2
  intro value mem
  have values : (collectedSlots (plainView.elements plainWorld ⟨0, 0⟩)
      (plainView.length plainWorld ⟨0, 0⟩)).map ArraySortSlot.value =
      [.int 2, .int 1] := by decide
  rw [values] at mem
  simp only [mem_cons, not_mem_nil, or_false] at mem
  rcases mem with rfl | rfl
  · exact ⟨2, rfl⟩
  · exact ⟨1, rfl⟩

end QuickJsOxide.Arrays
