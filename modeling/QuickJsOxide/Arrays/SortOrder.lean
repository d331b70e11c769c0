import QuickJsOxide.Arrays.SortSteps

namespace QuickJsOxide.Arrays

open Library List

/-! The machine driven by the comparisons of values. -/

section

variable {World : Type} (host : Host World)

/-- The value converts to this number, whatever the world, and nothing else
happens. -/
def Numeric (value : RawValue) (bits : UInt64) : Prop :=
  ∀ world, host.toNumber world value = .ok (world, .value bits)

def Textual (value : RawValue) (text : JsString) : Prop :=
  ∀ world, host.toJsString world value = .ok (world, .value text)

inductive Answers : RawValue → Ordering → Prop
  | int (value : Int32) :
      Answers (.int value) (orderFromNumber (Collections.Double.ofInt value))
  | number {value : RawValue} {bits : UInt64}
      (notInt : ∀ integer, value ≠ .int integer)
      (numeric : Numeric host value bits) :
      Answers value (orderFromNumber bits)

/-- The order in which the sort sees the values that are present. A
comparator is pure and consistent and finds identical values equal; without
one the values are compared as strings. -/
inductive Comparison (present : RawValue → Prop) :
    Option CallableRef → (RawValue → RawValue → Ordering) → Prop
  | callback {callable : CallableRef} {order : RawValue → RawValue → Ordering}
      (consistent : Consistent order present)
      (pure : ∀ {left right}, present left → present right →
        ∃ result, Answers host result (order left right) ∧
          ∀ world, host.call world callable left right =
            .ok (world, .returned result))
      (identical : ∀ {left right}, present left → present right → ∀ world,
        ∃ same, sameRepresentation host world left right = .ok same ∧
          (same = true → order left right = .eq)) :
      Comparison present (some callable) order
  | strings {text : RawValue → JsString}
      (textual : ∀ {value}, present value → Textual host value (text value)) :
      Comparison present none
        (fun left right => compare (text left) (text right))

end

def ArraySortSlot.entry (slot : ArraySortSlot) : RawValue × Nat :=
  (slot.value, slot.originalPosition)

def entryRank (order : RawValue → RawValue → Ordering)
    (entries : List (RawValue × Nat)) : RawValue × Nat → Nat :=
  rank order Prod.fst Prod.snd entries

section

variable {World : Type} {host : Host World} {entries : List (RawValue × Nat)}

theorem Comparison.consistent
    (comparison : Comparison host present comparator order) :
    Consistent order present := by
  cases comparison with
  | callback consistent => exact consistent
  | strings =>
    have texts := Consistent.of_transCmp
      (compare : JsString → JsString → Ordering) (fun _ => True)
    exact ⟨fun _ _ => texts.swap trivial trivial,
      fun _ _ _ => texts.trans trivial trivial trivial⟩

/-- The slots hold the entries in the order of the items, and what they cache
are the strings of their values. -/
structure Holding (host : Host World)
    (order : RawValue → RawValue → Ordering)
    (entries : List (RawValue × Nat)) (items : Nat → Nat)
    (slots : List ArraySortSlot) : Prop where
  permuted : (slots.map ArraySortSlot.entry).Perm entries
  ranked : Shows (entryRank order entries ∘ ArraySortSlot.entry) items slots
  cached : ∀ slot ∈ slots, ∀ text, slot.cachedString = some text →
    Textual host slot.value text

namespace Holding

variable {slots : List ArraySortSlot}

section

variable (holding : Holding host order entries items slots)

include holding

theorem length : slots.length = entries.length := by
  simpa using holding.permuted.length_eq

variable {index : Nat}

theorem entry_mem (present : slots[index]? = some slot) :
    slot.entry ∈ entries :=
  holding.permuted.subset
    (mem_map_of_mem (mem_of_getElem? present))

theorem slot (below : index < entries.length) :
    ∃ slot, slots[index]? = some slot := by
  rw [← holding.length] at below
  exact ⟨slots[index], getElem?_eq_getElem below⟩

theorem cache {slot : ArraySortSlot} (present : slots[index]? = some slot)
    (textual : Textual host slot.value text) : Holding host order entries items
      (slots.set index { slot with cachedString := some text }) where
  permuted := by
    obtain ⟨_, rfl⟩ := List.getElem?_eq_some_iff.mp present
    have same : (slots.set index
        { slots[index] with cachedString := some text }).map
          ArraySortSlot.entry = slots.map ArraySortSlot.entry := by
      have self := List.set_getElem_self
        (show index < (slots.map ArraySortSlot.entry).length by simpa)
      simpa [List.map_set, ArraySortSlot.entry] using self
    rw [same]
    exact holding.permuted
  ranked := by
    intro other found isFound
    rcases getElem?_set_eq_some isFound with ⟨rfl, rfl⟩ | ⟨_, unchanged⟩
    · have ranked := holding.ranked present
      exact ranked
    · exact holding.ranked unchanged
  cached := by
    intro found mem foundText isText
    rcases List.mem_or_eq_of_mem_set mem with old | rfl
    · exact holding.cached found old foundText isText
    · cases isText
      exact textual

theorem swap (atLeft : slots[left]? = some leftSlot)
    (atRight : slots[right]? = some rightSlot) :
    Holding host order entries (items ∘ Equiv.swap left right)
      ((slots.set left rightSlot).set right leftSlot) where
  permuted := ((set_set_perm_of_getElem? atLeft atRight).map _).trans
    holding.permuted
  ranked := Shows.swap holding.ranked atLeft atRight
  cached := by
    intro found mem
    rcases mem_or_eq_of_mem_set mem with old | rfl
    · rcases mem_or_eq_of_mem_set old with older | rfl
      · exact holding.cached found older
      · exact holding.cached _ (mem_of_getElem? atRight)
    · exact holding.cached _ (mem_of_getElem? atLeft)

end

end Holding

def SortResumeState.task (self : SortResumeState) :
    Bool × ObjectRef × Option CallableRef × Nat × Nat :=
  (self.copying, self.object, self.comparator, self.length, self.undefinedCount)

variable {slots : List ArraySortSlot}

theorem slotAt_eq_ok (present : slots[index]? = some slot) :
    slotAt slots index = .ok slot := by
  simp only [slotAt, present]

variable {left right : ArraySortSlot} {self : SortResumeState}

theorem breakTie_eq_ok (atLeft : self.slots[self.left]? = some left)
    (atRight : self.slots[self.right]? = some right) (ordering : Ordering) :
    breakTie self ordering = .ok (ordering.then
      (compare left.originalPosition right.originalPosition)) := by
  rw [breakTie, slotAt_eq_ok atLeft, slotAt_eq_ok atRight]
  cases ordering <;> rfl

section

variable {world : World} {good : World × Completion → Prop}

def Resumable (host : Host World) (world : World)
    (order : RawValue → RawValue → Ordering)
    (entries : List (RawValue × Nat)) (items : Nat → Nat)
    (good : World × Completion → Prop) (self : SortResumeState) : Prop :=
  ∀ later : SortResumeState, later.task = self.task →
    later.machine = self.machine → Holding host order entries items later.slots →
    Proceeds host world
      (sortNext host world later
        (some (compare (items self.left) (items self.right)))) good

structure Compares (order : RawValue → RawValue → Ordering)
    (items : Nat → Nat) (slots : List ArraySortSlot)
    (leftIndex rightIndex : Nat) (left right : ArraySortSlot) : Prop where
  atLeft : slots[leftIndex]? = some left
  atRight : slots[rightIndex]? = some right
  agrees : compare (items leftIndex) (items rightIndex) =
    (order left.value right.value).then
      (compare left.originalPosition right.originalPosition)

theorem Compares.cache
    (compares : Compares order items slots leftIndex rightIndex left right)
    (present : slots[index]? = some slot) (text : JsString) :
    ∃ left' right' : ArraySortSlot, Compares order items
        (slots.set index { slot with cachedString := some text })
        leftIndex rightIndex left' right' ∧
      left'.value = left.value ∧ right'.value = right.value ∧
      (left.cachedString.isSome ∨ index = leftIndex →
        left'.cachedString.isSome) ∧
      (right.cachedString.isSome ∨ index = rightIndex →
        right'.cachedString.isSome) := by
  have below := (List.getElem?_eq_some_iff.mp present).1
  -- Either slot is the one that changed or is as it was.
  have cached : ∀ {other found}, slots[other]? = some found →
      ∃ found' : ArraySortSlot,
        (slots.set index { slot with cachedString := some text })[other]? =
          some found' ∧
        found'.value = found.value ∧
        found'.originalPosition = found.originalPosition ∧
        (found.cachedString.isSome ∨ index = other →
          found'.cachedString.isSome) := by
    intro other found isFound
    rcases Nat.decEq index other with apart | same
    · refine ⟨found, ?_, rfl, rfl, ?_⟩
      · rw [List.getElem?_set_ne apart]
        exact isFound
      · intro isCached
        exact isCached.resolve_right apart
    · subst same
      obtain rfl : slot = found := Option.some.inj (present.symm.trans isFound)
      exact ⟨_, List.getElem?_set_self below, rfl, rfl, fun _ => rfl⟩
  obtain ⟨left', atLeft, leftValue, leftPosition, leftCached⟩ :=
    cached compares.atLeft
  obtain ⟨right', atRight, rightValue, rightPosition, rightCached⟩ :=
    cached compares.atRight
  refine ⟨left', right', ⟨atLeft, atRight, ?_⟩, leftValue, rightValue,
    leftCached, rightCached⟩
  rw [leftValue, rightValue, leftPosition, rightPosition]
  exact compares.agrees

def StringsReady (host : Host World) (world : World) (ordering : Ordering)
    (good : World × Completion → Prop) (self : SortResumeState) : Prop :=
  compareStrings self = .ok (.inr ordering) ∨
    ∃ step, compareStrings self = .ok (.inl step) ∧
      Ends host world step good

theorem Textual.unique (world : World) (left : Textual host value first)
    (right : Textual host value second) : first = second := by
  have same := (left world).symm.trans (right world)
  simpa using same

theorem compareSlots_strings (isNone : self.comparator = none)
    (atLeft : self.slots[self.left]? = some left)
    (atRight : self.slots[self.right]? = some right) :
    compareSlots host world self = (compareStrings self).map (fun
      | .inl step => .inr step
      | .inr ordering => .inl (self, some (ordering.then
          (compare left.originalPosition right.originalPosition)))) := by
  rw [compareSlots, compareStrings, slotAt_eq_ok atLeft, slotAt_eq_ok atRight]
  simp only [bind, Except.bind, isNone, pure, Except.pure]
  cases isLeft : left.cachedString with
  | none => rfl
  | some leftText =>
    cases isRight : right.cachedString with
    | none => rfl
    | some rightText =>
      simp only [Except.map]
      cases compare leftText rightText <;> rfl

section

variable (self)
  (resumable : Resumable host world order entries items good self)
  (holding : Holding host order entries items self.slots)

include resumable holding

section

variable
  (compares : Compares order items self.slots self.left self.right left right)

include compares

theorem Resumable.compared : Proceeds host world
      (compared host world self (order left.value right.value)) good := by
  obtain ⟨step, returns, finished⟩ := resumable self rfl rfl holding
  refine ⟨step, ?_, finished⟩
  rw [compares.agrees] at returns
  rw [Arrays.compared, breakTie_eq_ok compares.atLeft compares.atRight]
  exact (Program.returns_lift _).bind returns

theorem finish_compareCall
    (answers : Answers host result (order left.value right.value))
    (called : host.call world callable left.value right.value =
      .ok (world, .returned result)) :
    Ends host world (.call callable left.value right.value
      { self with phase := .compareCall }) good := by
  apply finish_call called
  have proceeds phase := Resumable.compared { self with phase } resumable holding
    compares
  generalize order left.value right.value = ordering at answers proceeds
  cases answers with
  | int => exact (proceeds .compareCall).finishes
  | @number _ _ notInt numeric =>
    have requests : resume host world { self with phase := .compareCall }
        (.returned result) =
        pure (world, .number result { self with phase := .compareNumber }) := by
      cases result with
      | int value => exact absurd rfl (notInt value)
      | _ => rfl
    rw [requests]
    apply finishes_pure
    exact finish_number (numeric world) (proceeds .compareNumber).finishes

end

theorem StringsReady.finishes {index : Nat}
    (isIndex : self.phase = .leftString ∧ index = self.left ∨
      self.phase = .rightString ∧ index = self.right)
    (present : self.slots[index]? = some slot)
    (textual : Textual host slot.value text)
    (compares : Compares order items
      (self.slots.set index { slot with cachedString := some text })
      self.left self.right left right)
    (ready : StringsReady host world (order left.value right.value) good
      { self with
        slots := self.slots.set index
          { slot with cachedString := some text } }) :
    Finishes host (string host world self (.value text)) good := by
  have chosen : stringIndex self = .ok index := by
    rcases isIndex with ⟨phase, rfl⟩ | ⟨phase, rfl⟩ <;>
      rw [stringIndex, phase]
  refine .bind (Program.returns_lift_of_eq chosen)
    (.bind (Program.returns_lift_of_eq (slotAt_eq_ok present)) ?_)
  rcases ready with both | ⟨step, request, finished⟩
  · have proceeds := Resumable.compared
      { self with
        slots := self.slots.set index
          { slot with cachedString := some text } }
      resumable (holding.cache present textual) compares
    exact .bind (Program.returns_lift_of_eq both) proceeds.finishes
  · exact .bind (Program.returns_lift_of_eq request) (finishes_pure finished)

section

variable {left right : ArraySortSlot} {text : RawValue → JsString}

variable (compares :
    Compares order items self.slots self.left self.right left right)
  (isOrder : order left.value right.value =
    compare (text left.value) (text right.value))
  (leftTextual : Textual host left.value (text left.value))
  (rightTextual : Textual host right.value (text right.value))

include compares isOrder leftTextual rightTextual

omit resumable in
theorem StringsReady.ofCached (leftCached : left.cachedString.isSome)
    (rightCached : right.cachedString.isSome) :
    StringsReady host world (order left.value right.value) good self := by
  obtain ⟨leftText, isLeft⟩ := Option.isSome_iff_exists.mp leftCached
  obtain ⟨rightText, isRight⟩ := Option.isSome_iff_exists.mp rightCached
  have leftSame := (holding.cached left
    (mem_of_getElem? compares.atLeft) leftText isLeft).unique world
    leftTextual
  have rightSame := (holding.cached right
    (mem_of_getElem? compares.atRight) rightText isRight).unique world
    rightTextual
  left
  rw [isOrder, compareStrings, slotAt_eq_ok compares.atLeft,
    slotAt_eq_ok compares.atRight, ← leftSame, ← rightSame]
  simp only [bind, Except.bind, isLeft, isRight, pure, Except.pure]

theorem StringsReady.ofLeftCached (leftCached : left.cachedString.isSome) :
    StringsReady host world (order left.value right.value) good self := by
  cases isRight : right.cachedString with
  | some =>
    exact .ofCached self holding compares isOrder leftTextual rightTextual
      leftCached (by rw [isRight]; rfl)
  | none =>
    right
    obtain ⟨_, isLeft⟩ := Option.isSome_iff_exists.mp leftCached
    refine ⟨.string right.value { self with phase := .rightString }, ?_, ?_⟩
    · rw [compareStrings, slotAt_eq_ok compares.atLeft,
        slotAt_eq_ok compares.atRight]
      simp only [bind, Except.bind, isLeft, isRight, pure, Except.pure]
    · apply finish_string (rightTextual world)
      obtain ⟨_, _, compares', leftValue, rightValue, leftIs, rightIs⟩ :=
        compares.cache compares.atRight (text right.value)
      refine StringsReady.finishes { self with phase := .rightString }
        resumable holding (.inr ⟨rfl, rfl⟩) compares.atRight rightTextual
        compares' ?_
      have kept := holding.cache compares.atRight rightTextual
      simp only [← leftValue, ← rightValue] at isOrder leftTextual rightTextual
      exact .ofCached _ kept compares' isOrder leftTextual rightTextual
        (leftIs (.inl leftCached)) (rightIs (.inr rfl))

theorem StringsReady.ofResumable :
    StringsReady host world (order left.value right.value) good self := by
  cases isLeft : left.cachedString with
  | some =>
    exact .ofLeftCached self resumable holding compares isOrder leftTextual
      rightTextual (by rw [isLeft]; rfl)
  | none =>
    right
    refine ⟨.string left.value { self with phase := .leftString }, ?_, ?_⟩
    · rw [compareStrings, slotAt_eq_ok compares.atLeft,
        slotAt_eq_ok compares.atRight]
      simp only [bind, Except.bind, isLeft, pure, Except.pure]
    · apply finish_string (leftTextual world)
      obtain ⟨_, _, compares', leftValue, rightValue, leftIs, _⟩ :=
        compares.cache compares.atLeft (text left.value)
      refine StringsReady.finishes { self with phase := .leftString }
        resumable holding (.inl ⟨rfl, rfl⟩) compares.atLeft leftTextual
        compares' ?_
      have kept := holding.cache compares.atLeft leftTextual
      simp only [← leftValue, ← rightValue] at isOrder leftTextual rightTextual
      refine .ofLeftCached _ ?_ kept compares' isOrder leftTextual
        rightTextual (leftIs (.inr rfl))
      exact resumable

end

theorem Comparison.compares
    (comparison : Comparison host (fun value => value ∈ entries.map Prod.fst)
      self.comparator order)
    (increasing : entries.Pairwise fun left right => left.2 < right.2)
    (leftBelow : self.left < entries.length)
    (rightBelow : self.right < entries.length) :
    compareSlots host world self = .ok (.inl (self,
        some (compare (items self.left) (items self.right)))) ∨
      ∃ step, compareSlots host world self = .ok (.inr step) ∧
        Ends host world step good := by
  obtain ⟨left, atLeft⟩ := holding.slot leftBelow
  obtain ⟨right, atRight⟩ := holding.slot rightBelow
  have leftMem := holding.entry_mem atLeft
  have rightMem := holding.entry_mem atRight
  have leftPresent : left.value ∈ entries.map Prod.fst :=
    mem_map_of_mem leftMem
  have rightPresent : right.value ∈ entries.map Prod.fst :=
    mem_map_of_mem rightMem
  have compares : Compares order items self.slots self.left self.right left
      right := by
    refine ⟨atLeft, atRight, ?_⟩
    rw [holding.ranked atLeft, holding.ranked atRight]
    exact compare_rank comparison.consistent increasing leftMem rightMem
  rw [compares.agrees]
  generalize isComparator : self.comparator = comparator at comparison
  cases comparison with
  | @callback _ _ _ pureCall identical =>
    obtain ⟨same, isSame, equal⟩ := identical leftPresent rightPresent world
    cases same with
    | true =>
      left
      rw [compareSlots, slotAt_eq_ok atLeft, slotAt_eq_ok atRight]
      simp only [bind, Except.bind, isComparator, isSame, pure,
        Except.pure, equal rfl, Ordering.eq_then]
    | false =>
      right
      obtain ⟨_, answers, called⟩ :=
        pureCall leftPresent rightPresent
      refine ⟨_, ?_, finish_compareCall self resumable holding compares
        answers (called world)⟩
      rw [compareSlots, slotAt_eq_ok atLeft, slotAt_eq_ok atRight]
      simp only [bind, Except.bind, isComparator, isSame, pure, Except.pure]
  | @strings _ textual =>
    have ready := StringsReady.ofResumable self resumable holding compares rfl
      (textual leftPresent) (textual rightPresent)
    rw [compareSlots_strings isComparator atLeft atRight]
    rcases ready with both | ⟨step, request, finished⟩
    · left
      rw [both]
      rfl
    · right
      refine ⟨step, ?_, finished⟩
      rw [request]
      rfl

end

end

theorem Holding.sorted (holding : Holding host order entries final slots)
    (sorted : SortedOn final 0 entries.length)
    (consistent : Consistent order (fun value => value ∈ entries.map Prod.fst))
    (increasing : entries.Pairwise fun left right => left.2 < right.2) :
    slots.map ArraySortSlot.entry = stableSort order Prod.fst entries := by
  rw [← holding.length] at sorted
  have pairwise := Shows.pairwise holding.ranked sorted
  refine eq_stableSort consistent increasing holding.permuted ?_
  rw [pairwise_map]
  exact tieOrder_of_rank_le consistent increasing _
    (fun slot mem => holding.permuted.subset (mem_map_of_mem mem))
    pairwise

theorem Drives.proceeds
    (drives : Drives entries.length machine reply items final)
    (comparison : Comparison host (fun value => value ∈ entries.map Prod.fst)
      comparator order)
    (increasing : entries.Pairwise fun left right => left.2 < right.2)
    (self : SortResumeState) (isMachine : self.machine = machine)
    (isComparator : self.comparator = comparator)
    (holding : Holding host order entries items self.slots)
    (written : ∀ later : SortResumeState, later.task = self.task →
      Holding host order entries final later.slots → later.cursor = 0 →
      later.definedCount = later.slots.length →
      Proceeds host world (writeNext later) good) :
    Proceeds host world (sortNext host world self reply) good := by
  induction drives generalizing self with
  | @complete machine after _ _ advanced =>
    obtain ⟨step, returns, finished⟩ := written
      { self with
        machine := after, cursor := 0, definedCount := self.slots.length }
      rfl holding rfl rfl
    refine ⟨step, Program.Returns.break ?_, finished⟩
    rw [← isMachine] at advanced
    exact (advanced.mapError _).bind
      (returns.bind (Program.returns_pure _))
  | @swap machine after _ _ _ left right advanced leftBelow rightBelow _ ih =>
      obtain ⟨leftSlot, atLeft⟩ := holding.slot leftBelow
      obtain ⟨rightSlot, atRight⟩ := holding.slot rightBelow
      have swapped : (swapAt self.slots left right).mapError Failure.panic =
          .ok ((self.slots.set left rightSlot).set right leftSlot) := by
        simp only [swapAt, atLeft, atRight]
        rfl
      rw [← isMachine] at advanced
      exact .again ((advanced.mapError _).bind
        ((Program.returns_lift_of_eq swapped).bind (Program.returns_pure _)))
        (ih _ rfl isComparator (holding.swap atLeft atRight) written)
  | @compare machine after _ items _ left right advanced leftBelow rightBelow _
      ih =>
      rw [← isMachine] at advanced
      have resumable : Resumable host world order entries items good
          { self with machine := after, left, right } := by
        intro later task isAfter holding
        refine ih later isAfter ?_ holding ?_
        · exact (congrArg (·.2.2.1) task).trans isComparator
        · intro last lastTask
          exact written last (lastTask.trans task)
      have compared := Comparison.compares
        { self with machine := after, left, right }
        resumable holding (isComparator ▸ comparison) increasing leftBelow
        rightBelow
      rcases compared with answered | ⟨step, request, finished⟩
      · exact .again ((advanced.mapError _).bind
          (Program.returns_lift_of_eq answered)) (resumable _ rfl rfl holding)
      · refine ⟨step, Program.Returns.break ?_, finished⟩
        exact (advanced.mapError _).bind (Program.returns_lift_of_eq request)

end

end QuickJsOxide.Arrays
