import Mathlib.Data.List.Nodup
import Mathlib.Data.List.Perm.Basic
import Mathlib.Data.List.GetD

namespace QuickJsOxide.Library

open List

/-! Arenas with generational handles: a slot that is reused gets a new
generation, so a handle never comes to name a second value. -/

structure Handle where
  index : Nat
  generation : Nat
deriving Repr, DecidableEq

namespace Arena

inductive Content (α : Type u) where
  | vacant
  | retired
  | live (value : α)
deriving Repr

def Content.value? : Content α → Option α
  | vacant | retired => none
  | live value => some value

structure Slot (α : Type u) where
  generation : Nat
  content : Content α
deriving Repr

end Arena

open Arena

structure Arena (α : Type u) where
  slots : List (Slot α)
  free : List Nat
  freeNodup : free.Nodup
  freeVacant : ∀ index ∈ free, ∃ generation,
    slots[index]? = some ⟨generation, .vacant⟩

namespace Arena

variable {α : Type u}

def empty : Arena α := ⟨[], [], .nil, by simp⟩

def valueIn (slots : List (Slot α)) (handle : Handle) : Option α :=
  (slots[handle.index]?).bind fun slot =>
    if slot.generation = handle.generation then slot.content.value? else none

def get? (arena : Arena α) (handle : Handle) : Option α :=
  valueIn arena.slots handle

/-- The handles a slot may already have been named by. -/
def Slot.Used (slot : Slot α) (generation : Nat) : Prop :=
  generation < slot.generation ∨
    generation = slot.generation ∧ slot.content ≠ .vacant

/-- The handles that are never handed out again. -/
def Issued (arena : Arena α) (handle : Handle) : Prop :=
  ∃ slot, arena.slots[handle.index]? = some slot ∧
    slot.Used handle.generation

variable {slots : List (Slot α)}

theorem valueIn_set (within : index < slots.length) (slot : Slot α)
    (handle : Handle) :
    valueIn (slots.set index slot) handle =
      if handle.index = index then
        if slot.generation = handle.generation then slot.content.value?
        else none
      else valueIn slots handle := by
  unfold valueIn
  by_cases same : handle.index = index
  · rw [if_pos same, same, getElem?_set_self within]
    rfl
  · rw [if_neg same, getElem?_set_ne (Ne.symm same)]

theorem lt_of_slot (found : slots[index]? = some slot) : index < slots.length :=
  (List.getElem?_eq_some_iff.mp found).1

variable {handle : Handle} {arena : Arena α} {value : α}

theorem get?_eq_some_iff : arena.get? handle = some value ↔
      arena.slots[handle.index]? = some ⟨handle.generation, .live value⟩ := by
  unfold get? valueIn
  constructor
  · intro found
    obtain ⟨⟨generation, content⟩, atIndex, rest⟩ :=
      Option.bind_eq_some_iff.mp found
    dsimp only at rest
    split at rest
    · rename_i same
      cases content with
      | vacant | retired => cases rest
      | live =>
        cases rest
        rw [atIndex, same]
    · cases rest
  · intro found
    rw [found]
    simp [Content.value?]

theorem issued_of_get? (live : arena.get? handle = some value) :
    arena.Issued handle :=
  ⟨_, get?_eq_some_iff.mp live, .inr ⟨rfl, by simp⟩⟩

theorem not_free_of_live (live : arena.get? handle = some value) :
    handle.index ∉ arena.free := by
  intro freed
  obtain ⟨_, vacant⟩ := arena.freeVacant _ freed
  rw [get?_eq_some_iff.mp live] at vacant
  cases vacant

theorem freeVacant_set (arena : Arena α) (occupied : index ∉ arena.free)
    (slot : Slot α) : ∀ other ∈ arena.free, ∃ generation,
      (arena.slots.set index slot)[other]? = some ⟨generation, .vacant⟩ := by
  intro other freed
  have distinct : index ≠ other := by
    intro same
    exact occupied (same ▸ freed)
  rw [getElem?_set_ne distinct]
  exact arena.freeVacant other freed

theorem not_free_of_isSome (live : (arena.get? handle).isSome) :
    handle.index ∉ arena.free := by
  obtain ⟨_, found⟩ := Option.isSome_iff_exists.mp live
  exact not_free_of_live found

def replace (arena : Arena α) (handle : Handle) (value : α) : Arena α :=
  if live : (arena.get? handle).isSome then
    { arena with
      slots := arena.slots.set handle.index ⟨handle.generation, .live value⟩
      freeVacant := arena.freeVacant_set (not_free_of_isSome live) _ }
  else arena

variable {held : α}

section

variable (live : arena.get? handle = some held)

include live

theorem replace_slots (value : α) : (arena.replace handle value).slots =
      arena.slots.set handle.index ⟨handle.generation, .live value⟩ := by
  unfold replace
  rw [dif_pos (by rw [live]; rfl)]

theorem get?_replace (value : α) (other : Handle) :
    (arena.replace handle value).get? other =
      if other = handle then some value else arena.get? other := by
  have found := get?_eq_some_iff.mp live
  unfold get?
  rw [replace_slots live, valueIn_set (lt_of_slot found)]
  by_cases same : other = handle
  · subst same
    simp [Content.value?]
  · rw [if_neg same]
    by_cases index : other.index = handle.index
    · have generation : handle.generation ≠ other.generation := by
        intro equal
        apply same
        cases other
        cases handle
        simp_all
      rw [if_pos index, if_neg generation]
      unfold valueIn
      rw [index, found]
      exact (if_neg generation).symm
    · rw [if_neg index]

theorem isSome_replace (value : α) (other : Handle) :
    ((arena.replace handle value).get? other).isSome =
      (arena.get? other).isSome := by
  rw [get?_replace live]
  split
  · rename_i same
    rw [same, live]
    rfl
  · rfl

theorem issued_replace (value : α) (other : Handle) :
    (arena.replace handle value).Issued other ↔ arena.Issued other := by
  have found := get?_eq_some_iff.mp live
  unfold Issued
  rw [replace_slots live]
  by_cases index : other.index = handle.index
  · rw [index, getElem?_set_self (lt_of_slot found), found]
    simp [Slot.Used]
  · rw [getElem?_set_ne (Ne.symm index)]

omit live in
/-- The slot gets the next generation and is free again, unless no generation
below the limit is left. -/
def reclaim (limit : Nat) (arena : Arena α) (handle : Handle) : Arena α :=
  if live : (arena.get? handle).isSome then
    if handle.generation + 1 < limit then
      { slots := arena.slots.set handle.index
          ⟨handle.generation + 1, .vacant⟩
        free := handle.index :: arena.free
        freeNodup := .cons (not_free_of_isSome live) arena.freeNodup
        freeVacant := by
          intro index freed
          cases freed with
          | head =>
            obtain ⟨value, found⟩ := Option.isSome_iff_exists.mp live
            rw [getElem?_set_self (lt_of_slot (get?_eq_some_iff.mp found))]
            exact ⟨_, rfl⟩
          | tail _ freed =>
            exact arena.freeVacant_set (not_free_of_isSome live) _ _ freed }
    else
      { arena with
        slots := arena.slots.set handle.index ⟨handle.generation, .retired⟩
        freeVacant := arena.freeVacant_set (not_free_of_isSome live) _ }
  else arena

theorem reclaim_slots (limit : Nat) :
    ∃ slot, (arena.reclaim limit handle).slots =
        arena.slots.set handle.index slot ∧ slot.content.value? = none ∧
      ∀ generation, slot.Used generation ↔ generation ≤ handle.generation := by
  have isLive : (arena.get? handle).isSome := by rw [live]; rfl
  unfold reclaim
  rw [dif_pos isLive]
  by_cases room : handle.generation + 1 < limit
  · rw [if_pos room]
    refine ⟨_, rfl, rfl, ?_⟩
    intro generation
    simp only [Slot.Used, ne_eq, not_true_eq_false, and_false, or_false]
    omega
  · rw [if_neg room]
    refine ⟨_, rfl, rfl, ?_⟩
    intro generation
    simp only [Slot.Used, ne_eq, reduceCtorEq, not_false_eq_true, and_true]
    omega

theorem get?_reclaim (limit : Nat) (other : Handle) :
    (arena.reclaim limit handle).get? other =
      if other = handle then none else arena.get? other := by
  have found := get?_eq_some_iff.mp live
  obtain ⟨_, slots, gone, _⟩ := reclaim_slots live limit
  unfold get?
  rw [slots, valueIn_set (lt_of_slot found), gone, ite_self]
  by_cases index : other.index = handle.index
  · rw [if_pos index]
    by_cases same : other = handle
    · rw [if_pos same]
    · rw [if_neg same]
      unfold valueIn
      rw [index, found]
      symm
      apply if_neg
      intro equal
      apply same
      cases other
      cases handle
      simp_all
  · have same : other ≠ handle := by
      intro equal
      exact index (equal ▸ rfl)
    rw [if_neg index, if_neg same]

theorem issued_reclaim (limit : Nat) (other : Handle) :
    (arena.reclaim limit handle).Issued other ↔ arena.Issued other := by
  have found := get?_eq_some_iff.mp live
  obtain ⟨_, slots, _, used⟩ := reclaim_slots live limit
  unfold Issued
  rw [slots]
  by_cases index : other.index = handle.index
  · rw [index, getElem?_set_self (lt_of_slot found), found]
    simp only [Option.some.injEq, exists_eq_left', used]
    simp only [Slot.Used, ne_eq, reduceCtorEq, not_false_eq_true, and_true]
    omega
  · rw [getElem?_set_ne (Ne.symm index)]

end

/-- The most recently freed slot, or a new one while fewer than the limit
exist. -/
def allocate (limit : Nat) (arena : Arena α) (value : α) :
    Option (Handle × Arena α) :=
  match free : arena.free with
  | index :: rest =>
    let generation :=
      (arena.slots.getD index ⟨1, .vacant⟩).generation
    some (⟨index, generation⟩,
      { slots := arena.slots.set index ⟨generation, .live value⟩
        free := rest
        freeNodup := by
          have distinct := arena.freeNodup
          rw [free] at distinct
          exact distinct.of_cons
        freeVacant := by
          intro other freed
          have distinct := arena.freeNodup
          rw [free] at distinct
          have apart : index ≠ other := by
            intro same
            exact (nodup_cons.mp distinct).1 (same ▸ freed)
          rw [getElem?_set_ne apart]
          apply arena.freeVacant
          rw [free]
          exact mem_cons_of_mem _ freed })
  | [] =>
    if arena.slots.length < limit then
      some (⟨arena.slots.length, 1⟩,
        { slots := arena.slots ++ [⟨1, .live value⟩]
          free := []
          freeNodup := .nil
          freeVacant := by simp })
    else none

section

variable {after : Arena α}
  (taken : arena.allocate limit value = some (handle, after))

include taken

theorem allocate_slots :
    (arena.slots[handle.index]? = some ⟨handle.generation, .vacant⟩ ∨
      arena.slots[handle.index]? = none ∧ handle.generation = 1) ∧
    ∀ index, after.slots[index]? =
      if index = handle.index then some ⟨handle.generation, .live value⟩
      else arena.slots[index]? := by
  unfold allocate at taken
  split at taken
  · rename_i index rest free
    cases taken
    obtain ⟨generation, vacant⟩ := arena.freeVacant index (by simp [free])
    have stored : arena.slots.getD index ⟨1, .vacant⟩ =
        ⟨generation, .vacant⟩ := by
      rw [getD_eq_getElem?_getD, vacant]
      rfl
    refine ⟨.inl ?_, ?_⟩
    · rw [stored]
      exact vacant
    · intro other
      by_cases same : other = index
      · subst same
        rw [if_pos rfl, getElem?_set_self (lt_of_slot vacant)]
      · rw [if_neg same, getElem?_set_ne (Ne.symm same)]
  · split at taken
    · cases taken
      refine ⟨.inr ⟨by simp, rfl⟩, ?_⟩
      intro other
      by_cases same : other = arena.slots.length
      · subst same
        simp
      · rw [if_neg same, getElem?_append]
        split
        · rfl
        · rw [getElem?_eq_none (by simp; omega), getElem?_eq_none (by omega)]
    · cases taken

theorem not_issued_of_allocate : ¬ arena.Issued handle := by
  intro issued
  obtain ⟨_, found, used⟩ := issued
  cases (allocate_slots taken).1 with
  | inl vacant =>
    rw [vacant] at found
    cases found
    simp [Slot.Used] at used
  | inr fresh =>
    rw [fresh.1] at found
    cases found

theorem get?_allocate (other : Handle) : after.get? other =
      if other = handle then some value else arena.get? other := by
  obtain ⟨before, slots⟩ := allocate_slots taken
  unfold get? valueIn
  rw [slots]
  by_cases index : other.index = handle.index
  · rw [if_pos index]
    by_cases same : other = handle
    · subst same
      simp [Content.value?]
    · have generation : handle.generation ≠ other.generation := by
        intro equal
        apply same
        cases other
        cases handle
        simp_all
      rw [if_neg same, index]
      cases before with
      | inl vacant => simp [vacant, Content.value?, generation]
      | inr fresh => simp [fresh.1, generation]
  · have same : other ≠ handle := by
      intro equal
      exact index (equal ▸ rfl)
    rw [if_neg index, if_neg same]

theorem issued_allocate (issued : arena.Issued other) : after.Issued other := by
  obtain ⟨before, slots⟩ := allocate_slots taken
  obtain ⟨slot, found, used⟩ := issued
  by_cases index : other.index = handle.index
  · rw [index] at found
    refine ⟨_, (slots _).trans (if_pos index), ?_⟩
    cases before with
    | inl vacant =>
      rw [vacant] at found
      cases found
      simp only [Slot.Used, ne_eq, not_true_eq_false, and_false,
        or_false] at used
      exact .inl used
    | inr fresh =>
      rw [fresh.1] at found
      cases found
  · exact ⟨slot, (slots _).trans ((if_neg index).trans found), used⟩

end

def values (arena : Arena α) : List α :=
  arena.slots.filterMap fun slot => slot.content.value?

theorem mem_values (found : arena.get? handle = some value) :
    value ∈ arena.values :=
  mem_filterMap.mpr ⟨_, mem_of_getElem? (get?_eq_some_iff.mp found), rfl⟩

theorem values_set (found : slots[index]? = some old) :
    ∃ rest, (slots.filterMap fun slot => slot.content.value?).Perm
        (old.content.value?.toList ++ rest) ∧
      ∀ new, ((slots.set index new).filterMap
          fun slot => slot.content.value?).Perm
        (new.content.value?.toList ++ rest) := by
  have within := lt_of_slot found
  have atIndex : slots[index] = old := (List.getElem?_eq_some_iff.mp found).2
  have toCons : ∀ (slot : Slot α) (rest : List (Slot α)),
      (slot :: rest).filterMap (fun slot => slot.content.value?) =
        slot.content.value?.toList ++
          rest.filterMap fun slot => slot.content.value? := by
    intro slot rest
    rw [List.filterMap_cons]
    cases slot.content.value? with
    | none | some => rfl
  refine ⟨(slots.eraseIdx index).filterMap fun slot => slot.content.value?,
    ?_, ?_⟩
  · have moved := (List.getElem_cons_eraseIdx_perm within).symm
    rw [atIndex] at moved
    rw [← toCons]
    exact moved.filterMap _
  · intro new
    rw [← toCons]
    exact (List.set_perm_cons_eraseIdx within new).filterMap _

theorem values_replace (live : arena.get? handle = some old) :
    ∃ rest, arena.values.Perm (old :: rest) ∧
      ∀ new, (arena.replace handle new).values.Perm (new :: rest) := by
  obtain ⟨rest, before, after⟩ := values_set (get?_eq_some_iff.mp live)
  refine ⟨rest, before, ?_⟩
  intro new
  unfold values
  rw [replace_slots live]
  exact after _

theorem values_reclaim (live : arena.get? handle = some old) (limit : Nat) :
    arena.values.Perm (old :: (arena.reclaim limit handle).values) := by
  obtain ⟨slot, slots, gone, _⟩ := reclaim_slots live limit
  obtain ⟨_, before, after⟩ := values_set (get?_eq_some_iff.mp live)
  have kept := after slot
  rw [gone] at kept
  apply before.trans
  unfold values
  rw [slots]
  exact (kept.symm).cons old

theorem values_allocate {arena after : Arena α}
    (taken : arena.allocate limit value = some (handle, after)) :
    after.values.Perm (value :: arena.values) := by
  unfold allocate at taken
  split at taken
  · rename_i index rest free
    cases taken
    obtain ⟨_, vacant⟩ := arena.freeVacant index (by simp [free])
    obtain ⟨_, before, after⟩ := values_set vacant
    exact (after _).trans (before.symm.cons value)
  · split at taken
    · cases taken
      unfold values
      rw [filterMap_append]
      exact perm_append_singleton _ _
    · cases taken

structure Follows (relation : Handle → α → α → Prop) (before after : Arena α) :
    Prop where
  issued : ∀ id, before.Issued id → after.Issued id
  value : ∀ id new, before.Issued id → after.get? id = some new →
    ∃ old, before.get? id = some old ∧ relation id old new

section

variable {relation : Handle → α → α → Prop}

section

variable (reflexive : ∀ id value, relation id value value)

include reflexive

theorem Follows.refl (arena : Arena α) : arena.Follows relation arena :=
  ⟨fun _ => id, fun id value _ live => ⟨value, live, reflexive id value⟩⟩

omit reflexive in
theorem Follows.trans
    (transitive : ∀ id first second third, relation id first second →
      relation id second third → relation id first third)
    {first second third : Arena α} (early : first.Follows relation second)
    (late : second.Follows relation third) : first.Follows relation third where
  issued id known := late.issued id (early.issued id known)
  value id new known live := by
    obtain ⟨middle, inside, later⟩ :=
      late.value id new (early.issued id known) live
    obtain ⟨old, before, sooner⟩ := early.value id middle known inside
    exact ⟨old, before, transitive _ _ _ _ sooner later⟩

omit reflexive in
theorem Follows.mono
    (implies : ∀ id old new, relation id old new → weaker id old new)
    {before after : Arena α} (follows : before.Follows relation after) :
    before.Follows weaker after where
  issued := follows.issued
  value id new known live := by
    obtain ⟨old, before, related⟩ := follows.value id new known live
    exact ⟨old, before, implies _ _ _ related⟩

variable {id : Handle}

theorem follows_allocate {arena after : Arena α}
    (taken : arena.allocate limit value = some (id, after)) :
    arena.Follows relation after where
  issued _ known := issued_allocate taken known
  value other found known live := by
    have different : other ≠ id := by
      intro same
      exact not_issued_of_allocate taken (same ▸ known)
    rw [get?_allocate taken, if_neg different] at live
    exact ⟨found, live, reflexive _ _⟩

theorem follows_replace (live : arena.get? id = some old)
    (related : relation id old new) :
    arena.Follows relation (arena.replace id new) where
  issued other known := (issued_replace live _ other).mpr known
  value other found _ there := by
    rw [get?_replace live] at there
    split at there
    · rename_i equal
      cases there
      subst equal
      exact ⟨old, live, related⟩
    · exact ⟨found, there, reflexive _ _⟩

theorem follows_reclaim (live : arena.get? id = some old) (limit : Nat) :
    arena.Follows relation (arena.reclaim limit id) where
  issued other known := (issued_reclaim live limit other).mpr known
  value other found _ there := by
    rw [get?_reclaim live] at there
    split at there
    · cases there
    · exact ⟨found, there, reflexive _ _⟩

end

end

end Arena

end QuickJsOxide.Library
