import QuickJsOxide.Arrays.SortOrder

namespace QuickJsOxide.Arrays

open Library

/-! Plain arrays, and the sorted elements written back to one. -/

/-- Arrays whose elements are ordinary own properties: reading, writing and
deleting them does that and nothing else. -/
structure ArrayView {World : Type} (host : Host World) where
  elements : World → ObjectRef → Nat → Option RawValue
  length : World → ObjectRef → Nat
  plain : World → ObjectRef → Prop
  getLength : ∀ {world object}, plain world object →
    ∃ value bits, host.getProperty world object .length =
        .ok (world, .returned value) ∧
      Numeric host value bits ∧ lengthFromNumber bits = length world object
  has : ∀ {world object}, plain world object → ∀ index,
    host.hasProperty world object index =
      .ok (world, .value (elements world object index).isSome)
  get : ∀ {world object}, plain world object → ∀ index,
    host.getProperty world object (.index index) =
      .ok (world, .returned ((elements world object index).getD .undefined))
  set : ∀ {world object}, plain world object → ∀ index value,
    ∃ after, host.setProperty world object index value =
        .ok (after, .value .accepted) ∧
      plain after object ∧
      elements after = fun other position =>
        if other = object ∧ position = index then some value
        else elements world other position
  delete : ∀ {world object}, plain world object → ∀ index,
    ∃ after, host.deleteProperty world object index =
        .ok (after, .value true) ∧
      plain after object ∧
      elements after = fun other position =>
        if other = object ∧ position = index then none
        else elements world other position
  newArray : ∀ world values,
    ∃ after object, host.newArrayFromValues world values =
        .ok (after, object) ∧
      plain after object ∧
      elements after = fun other position =>
        if other = object then values[position]?
        else elements world other position

section

variable {World : Type} {host : Host World} (view : ArrayView host)

/-- The elements up to `cursor` are as they shall be, the others as they
were. -/
structure WrittenTo (before : World) (object : ObjectRef)
    (result : List RawValue) (cursor : Nat) (world : World) : Prop where
  plain : view.plain world object
  done : ∀ index, index < cursor →
    view.elements world object index = result[index]?
  rest : ∀ index, cursor ≤ index →
    view.elements world object index = view.elements before object index
  others : ∀ other, other ≠ object →
    view.elements world other = view.elements before other

variable {view} {object : ObjectRef}

theorem WrittenTo.begin (plain : view.plain before object) :
    WrittenTo view before object result 0 before where
  plain := plain
  done := fun index below => absurd below (Nat.not_lt_zero index)
  rest := fun _ _ => rfl
  others := fun _ _ => rfl

theorem WrittenTo.skip (written : WrittenTo view before object result cursor world)
    (inPlace : view.elements before object cursor = result[cursor]?) :
    WrittenTo view before object result (cursor + 1) world where
  plain := written.plain
  done := by
    intro index below
    rcases Nat.lt_or_ge index cursor with earlier | last
    · exact written.done index earlier
    · rw [show index = cursor by omega, written.rest cursor (Nat.le_refl _)]
      exact inPlace
  rest := fun index above => written.rest index (by omega)
  others := written.others

theorem WrittenTo.write
    (written : WrittenTo view before object result cursor world)
    (plain : view.plain after object)
    (changed : view.elements after = fun other position =>
      if other = object ∧ position = cursor then result[cursor]?
      else view.elements world other position) :
    WrittenTo view before object result (cursor + 1) after where
  plain := plain
  done := by
    intro index below
    rw [changed]
    rcases Nat.lt_or_ge index cursor with earlier | last
    · simp only [Nat.ne_of_lt earlier, and_false, if_false]
      exact written.done index earlier
    · obtain rfl : index = cursor := by omega
      simp only [and_self, if_true]
  rest := by
    intro index above
    rw [changed]
    simp only [show index ≠ cursor by omega, and_false, if_false]
    exact written.rest index (by omega)
  others := by
    intro other different
    rw [changed]
    simp only [different, false_and, if_false]
    exact written.others other different

theorem set_accepted (self : SortResumeState) (index : Nat)
    (proceeds : Proceeds host world (writeNext
      { self with slots, phase := .write, cursor := self.cursor + 1 }) good) :
    Finishes host (set host world { self with slots, phase := .write }
      index (.value .accepted)) good := by
  obtain ⟨next, returns, finished⟩ := proceeds.finishes
  refine ⟨next, ?_, finished⟩
  rw [set, if_neg (not_not.mpr rfl)]
  exact (Program.returns_lift_of_eq rfl).bind returns

theorem delete_accepted (self : SortResumeState)
    (proceeds : Proceeds host world (writeNext
      { self with slots, phase := .delete, cursor := self.cursor + 1 }) good) :
    Finishes host (boolean host world { self with slots, phase := .delete }
      (.value true)) good :=
  proceeds.finishes

structure Writing (slots : List ArraySortSlot) (object : ObjectRef)
    (undefinedCount length : Nat) (state : SortResumeState) : Prop where
  object : state.object = object
  undefinedCount : state.undefinedCount = undefinedCount
  length : state.length = length
  definedCount : state.definedCount = slots.length
  pending : ∀ index, state.cursor ≤ index → index < slots.length →
    state.slots[index]? = slots[index]?

def writtenValues (slots : List ArraySortSlot) (undefinedCount : Nat) :
    List RawValue :=
  slots.map ArraySortSlot.value ++ List.replicate undefinedCount .undefined

/-- The slots are written, skipping those already in place, then the
undefined values, and the rest is deleted. -/
theorem Writing.proceeds {undefinedCount length : Nat} {self : SortResumeState}
    (writing : Writing slots object undefinedCount length self)
    (fits : slots.length + undefinedCount ≤ length)
    (inPlace : ∀ {index slot}, slots[index]? = some slot →
      slot.originalPosition = index →
      view.elements before object index = some slot.value)
    (written : WrittenTo view before object
      (writtenValues slots undefinedCount) self.cursor world)
    (isRemaining : self.cursor + remaining = length) :
    Proceeds host world (writeNext self) (fun answer =>
      answer.2 = .returned (.object object) ∧
      WrittenTo view before object (writtenValues slots undefinedCount) length
        answer.1) := by
  induction remaining generalizing self world with
  | zero =>
    obtain ⟨rfl, rfl, rfl, isDefined, _⟩ := writing
    have atEnd : self.cursor = self.length := isRemaining
    refine ⟨_, Program.Returns.break ?_, ends_complete ⟨rfl, atEnd ▸ written⟩⟩
    apply Program.returns_lift_of_eq
    rw [writeBody, if_neg (by omega)]
    dsimp only
    rw [if_neg (by omega), if_neg (by omega)]
  | succ _ ih =>
    obtain ⟨rfl, rfl, rfl, isDefined, pending⟩ := writing
    rcases Nat.lt_or_ge self.cursor slots.length with inSlots | afterSlots
    · obtain ⟨slot, present⟩ : ∃ slot, slots[self.cursor]? = some slot :=
        ⟨_, List.getElem?_eq_getElem inSlots⟩
      have atCursor := (pending self.cursor (Nat.le_refl _) inSlots).trans present
      have target : (writtenValues slots self.undefinedCount)[self.cursor]? =
          some slot.value := by
        rw [writtenValues, List.getElem?_append_left (by simpa),
          List.getElem?_map, present]
        rfl
      -- The slots behind the cursor are not read again.
      have next : ∀ phase, Writing slots self.object self.undefinedCount
          self.length { self with
            slots := self.slots.set self.cursor
              { slot with cachedString := none, value := .undefined },
            phase, cursor := self.cursor + 1 } := by
        refine fun phase => ⟨rfl, rfl, rfl, isDefined, ?_⟩
        intro index above below
        rw [List.getElem?_set_ne (Nat.ne_of_lt above)]
        exact pending index (Nat.le_of_lt above) below
      rcases Nat.decEq slot.originalPosition self.cursor with moved | same
      · obtain ⟨_, performed, plain, changed⟩ :=
          view.set written.plain self.cursor slot.value
        rw [← target] at changed
        have proceeds := ih (next .write) (written.write plain changed)
          (by dsimp only; omega)
        refine ⟨_, Program.Returns.break ?_,
          finish_set performed (set_accepted self _ proceeds)⟩
        apply Program.returns_lift_of_eq
        rw [writeBody, if_pos (by omega), slotAt_eq_ok atCursor]
        simp only [bind, Except.bind, if_neg moved]
        rfl
      · refine .again ?_ (ih (next self.phase)
          (written.skip ((inPlace present same).trans target.symm))
          (by dsimp only; omega))
        apply Program.returns_lift_of_eq
        rw [writeBody, if_pos (by omega), slotAt_eq_ok atCursor]
        simp only [bind, Except.bind, if_pos same]
        rfl
    · -- The slots are cleared and only counted from here on.
      have next : ∀ phase, Writing slots self.object self.undefinedCount
          self.length
          { self with slots := [], phase, cursor := self.cursor + 1 } := by
        refine fun phase => ⟨rfl, rfl, rfl, isDefined, ?_⟩
        intro index above below
        dsimp only at above
        omega
      rcases Nat.lt_or_ge self.cursor (slots.length + self.undefinedCount) with
        inUndefined | hole
      · obtain ⟨_, performed, plain, changed⟩ :=
          view.set written.plain self.cursor .undefined
        have target : (writtenValues slots self.undefinedCount)[self.cursor]? =
            some .undefined := by
          rw [writtenValues, List.getElem?_append_right (by simpa),
            List.getElem?_replicate_of_lt (by simp; omega)]
        rw [← target] at changed
        have proceeds := ih (next .write) (written.write plain changed)
          (by dsimp only; omega)
        refine ⟨_, Program.Returns.break ?_,
          finish_set performed (set_accepted self _ proceeds)⟩
        apply Program.returns_lift_of_eq
        rw [writeBody, if_neg (by omega)]
        dsimp only
        rw [if_pos (by omega)]
      · obtain ⟨_, performed, plain, changed⟩ :=
          view.delete written.plain self.cursor
        have target : (writtenValues slots self.undefinedCount)[self.cursor]? =
            none := by
          rw [List.getElem?_eq_none_iff, writtenValues]
          simpa using hole
        rw [← target] at changed
        have proceeds := ih (next .delete) (written.write plain changed)
          (by dsimp only; omega)
        refine ⟨_, Program.Returns.break ?_,
          finish_delete performed (delete_accepted self proceeds)⟩
        apply Program.returns_lift_of_eq
        rw [writeBody, if_neg (by omega)]
        dsimp only
        rw [if_neg (by omega), if_pos (by omega)]

end

end QuickJsOxide.Arrays
