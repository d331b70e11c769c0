import QuickJsOxide.Collections.Records
import QuickJsOxide.Library.OrderedTable

namespace QuickJsOxide.Collections

open Library List Function

/-! Identities, slots and buckets of a collection stay in step. -/

theorem toNat_dead : dead.toNat = 2 ^ 32 - 1 := rfl

variable {length : Nat}

theorem toNat_ofNat (fits : length ≤ dead.toNat) :
    (UInt32.ofNat length).toNat = length := by
  rw [toNat_dead] at fits
  rw [UInt32.toNat_ofNat', Nat.mod_eq_of_lt (by omega)]

theorem ofNat_ne_dead (fits : length < dead.toNat) :
    UInt32.ofNat length ≠ dead := by
  intro same
  have numbers := congrArg UInt32.toNat same
  rw [toNat_ofNat (Nat.le_of_lt fits)] at numbers
  exact absurd numbers (Nat.ne_of_lt fits)

/-- The slot of an entry that is not deleted. -/
def LiveEntry.slotIn (slots : List Slot) (entry : LiveEntry) : Option Slot :=
  if entry.slot = dead then none else slots[entry.slot.toNat]?

/-- The identities that are not deleted, in order, with their slots. -/
def entriesIn (live : List LiveEntry) (slots : List Slot) :
    List (Nat × Slot) :=
  live.filterMap fun entry =>
    (entry.slotIn slots).map fun slot => (entry.id, slot)

/-- Live entries have slots of their own. -/
structure Laid (live : List LiveEntry) (slots : List Slot) : Prop where
  placed : ∀ entry ∈ live, entry.slot ≠ dead →
    entry.slot.toNat < slots.length
  apart : live.Pairwise fun left right =>
    left.slot = right.slot → left.slot = dead

variable {live front back : List LiveEntry} {slots : List Slot}
  {entry : LiveEntry} {slot : Slot} {id : Nat}

theorem entriesIn_append (front back : List LiveEntry) (slots : List Slot) :
    entriesIn (front ++ back) slots =
      entriesIn front slots ++ entriesIn back slots :=
  filterMap_append

theorem entriesIn_cons_of_dead (rest : List LiveEntry) (slots : List Slot)
    (gone : entry.slot = dead) :
    entriesIn (entry :: rest) slots = entriesIn rest slots := by
  rw [entriesIn, filterMap_cons, LiveEntry.slotIn, if_pos gone]
  rfl

theorem entriesIn_cons_of_live (rest : List LiveEntry)
    (used : entry.slot ≠ dead) (here : slots[entry.slot.toNat]? = some slot) :
    entriesIn (entry :: rest) slots =
      (entry.id, slot) :: entriesIn rest slots := by
  rw [entriesIn, filterMap_cons, LiveEntry.slotIn, if_neg used, here]
  rfl

theorem entriesIn_congr (same : ∀ entry ∈ live, entry.slot ≠ dead →
      slots[entry.slot.toNat]? = others[entry.slot.toNat]?) :
    entriesIn live slots = entriesIn live others := by
  apply filterMap_congr
  intro entry member
  unfold LiveEntry.slotIn
  split
  · rfl
  · rename_i used
    rw [same entry member used]

theorem entriesIn_set {number : UInt32} (new : Slot)
    (unused : ∀ entry ∈ live, entry.slot ≠ dead → entry.slot ≠ number) :
    entriesIn live (slots.set number.toNat new) = entriesIn live slots := by
  apply entriesIn_congr
  intro entry member used
  rw [getElem?_set_ne]
  intro same
  exact unused entry member used (UInt32.toNat_inj.mp same.symm)

theorem mem_entriesIn : (id, slot) ∈ entriesIn live slots ↔
      ∃ entry ∈ live, entry.id = id ∧ entry.slot ≠ dead ∧
        slots[entry.slot.toNat]? = some slot := by
  simp only [entriesIn, mem_filterMap, Option.map_eq_some_iff, Prod.mk.injEq,
    LiveEntry.slotIn, Option.ite_none_left_eq_some]
  constructor
  · rintro ⟨entry, member, _, ⟨used, here⟩, same, rfl⟩
    exact ⟨entry, member, same, used, here⟩
  · rintro ⟨entry, member, same, used, here⟩
    exact ⟨entry, member, slot, ⟨used, here⟩, same, rfl⟩

theorem ids_entriesIn_sublist (live : List LiveEntry) (slots : List Slot) :
    ((entriesIn live slots).map Prod.fst).Sublist (live.map LiveEntry.id) := by
  induction live with
  | nil => exact .slnil
  | cons entry rest ih =>
    rw [map_cons, entriesIn, filterMap_cons]
    cases entry.slotIn slots with
    | none => exact ih.cons _
    | some => exact ih.cons_cons _

namespace Laid

theorem tail (laid : Laid (entry :: live) slots) : Laid live slots :=
  ⟨fun other member => laid.placed other (mem_cons_of_mem _ member),
    (pairwise_cons.mp laid.apart).2⟩

theorem set (laid : Laid live slots) (position : Nat) (new : Slot) :
    Laid live (slots.set position new) := by
  refine ⟨?_, laid.apart⟩
  intro entry member used
  rw [length_set]
  exact laid.placed entry member used

theorem mark (laid : Laid (front ++ entry :: back) slots) :
    Laid (front ++ ⟨entry.id, dead⟩ :: back) slots := by
  refine ⟨?_, ?_⟩
  · intro other member used
    refine laid.placed other ?_ used
    rcases mem_append.mp member with early | late
    · exact mem_append_left _ early
    · rcases mem_cons.mp late with rfl | late
      · exact absurd rfl used
      · exact mem_append_right _ (mem_cons_of_mem _ late)
  · have apart := laid.apart
    simp only [pairwise_append, pairwise_cons, mem_cons] at apart ⊢
    refine ⟨apart.1, ⟨fun _ _ _ => trivial, apart.2.1.2⟩, ?_⟩
    intro other early later member same
    rcases member with rfl | late
    · exact same
    · exact apart.2.2 other early later (.inr late) same

theorem stored (laid : Laid live slots) (member : entry ∈ live)
    (used : entry.slot ≠ dead) :
    ∃ slot, slots[entry.slot.toNat]? = some slot :=
  ⟨_, getElem?_eq_getElem (laid.placed entry member used)⟩

theorem length_entriesIn (laid : Laid live slots) :
    (entriesIn live slots).length =
      live.countP fun entry => entry.slot ≠ dead := by
  induction live with
  | nil => rfl
  | cons entry rest ih =>
    rw [countP_cons]
    by_cases gone : entry.slot = dead
    · rw [entriesIn_cons_of_dead rest slots gone, ih laid.tail]
      simp [gone]
    · obtain ⟨_, here⟩ := laid.stored mem_cons_self gone
      rw [entriesIn_cons_of_live rest gone here, length_cons, ih laid.tail]
      simp [gone]

theorem unused_tail (laid : Laid (entry :: live) slots)
    (used : entry.slot ≠ dead) :
    ∀ other ∈ live, other.slot ≠ dead → other.slot ≠ entry.slot := by
  intro other member _ same
  exact used ((pairwise_cons.mp laid.apart).1 other member same.symm)

section

variable (laid : Laid (front ++ entry :: back) slots) (used : entry.slot ≠ dead)

include laid used

theorem unused : ∀ other ∈ front ++ back, other.slot ≠ dead →
      other.slot ≠ entry.slot := by
  have apart := pairwise_append.mp laid.apart
  intro other member live same
  rcases mem_append.mp member with early | late
  · exact live (apart.2.2 other early entry mem_cons_self same)
  · exact used ((pairwise_cons.mp apart.2.1).1 other late same.symm)

/-- Writing to the slot of an entry leaves the other entries alone. -/
theorem entriesIn_set_slot (new : Slot) :
    entriesIn front (slots.set entry.slot.toNat new) = entriesIn front slots ∧
      entriesIn back (slots.set entry.slot.toNat new) =
        entriesIn back slots := by
  have unused := laid.unused used
  exact ⟨entriesIn_set new fun other member =>
      unused other (mem_append_left _ member),
    entriesIn_set new fun other member =>
      unused other (mem_append_right _ member)⟩

end

end Laid

namespace CollectionRecords

theorem slotNumber_eq_ok (fits : length ≤ dead.toNat) :
    slotNumber length = .ok (UInt32.ofNat length) := by
  rw [toNat_dead] at fits
  exact if_pos (by omega)

theorem slotAt_eq_ok {number : UInt32}
    (here : slots[number.toNat]? = some slot) :
    slotAt slots number = .ok slot := by
  unfold slotAt
  rw [here]

def entries (records : CollectionRecords) : List (Nat × Slot) :=
  entriesIn records.live records.slots

def stored (records : CollectionRecords) : List MapRecord :=
  records.entries.map fun entry => entry.2.record

/-- Identities are issued in order, live entries have slots of their own, no
slot has the number that marks a deleted record and the buckets hold exactly
the live identities by hash. -/
structure WellFormed (records : CollectionRecords) : Prop where
  ordered : (records.live.map LiveEntry.id).Pairwise (· < ·)
  issued : ∀ entry ∈ records.live, entry.id < records.nextId
  laid : Laid records.live records.slots
  indexed : ∀ hash id, id ∈ records.keyIndex.buckets hash ↔
    ∃ slot, (id, slot) ∈ records.entries ∧ slot.hash = hash
  distinct : ∀ hash, (records.keyIndex.buckets hash).Nodup
  fits : records.slots.length ≤ dead.toNat
  aligned : records.live.length = records.slots.length
  counted : records.liveLen =
    records.live.countP fun entry => entry.slot ≠ dead
  clock : records.nextId ≤ maxIdentity

theorem wellFormed_empty {keyIndex : CollectionIndex} {nextId : Nat}
    (empty : ∀ hash, keyIndex.buckets hash = []) (clock : nextId ≤ maxIdentity) :
    WellFormed ⟨[], [], 0, keyIndex, nextId⟩ where
  ordered := .nil
  issued := by simp
  laid := ⟨by simp, .nil⟩
  indexed := by simp [empty, entries, entriesIn]
  distinct := by simp [empty]
  fits := Nat.zero_le _
  aligned := rfl
  counted := rfl
  clock := clock

theorem wellFormed_new (keyHasher : KeyHasher) : (new keyHasher).WellFormed :=
  wellFormed_empty (fun _ => rfl) (Nat.zero_le _)

/-- What an operation makes of the records: their entries and the clock, with
the same hasher and no hash remembered anew. -/
structure Becomes (records : CollectionRecords) (entries : List (Nat × Slot))
    (nextId : Nat) (after : CollectionRecords) : Prop where
  wellFormed : after.WellFormed
  entries : after.entries = entries
  clock : after.nextId = nextId
  keyHasher : after.keyIndex.keyHasher = records.keyIndex.keyHasher
  remembered : after.keyIndex.stringHashes.Sublist
    records.keyIndex.stringHashes

/-- Where an identity stands. -/
structure Located (records : CollectionRecords) (id : Nat)
    (front back : List LiveEntry) (entry : LiveEntry) (slot : Slot) :
    Prop where
  live : records.live = front ++ entry :: back
  same : entry.id = id
  used : entry.slot ≠ dead
  found : records.liveEntry id = some entry
  searched : records.search id = some front.length
  stored : records.slots[entry.slot.toNat]? = some slot

section

variable {records : CollectionRecords}
  (located : records.Located id front back entry slot)

include located

theorem Located.entries : records.entries = entriesIn front records.slots ++
      (id, slot) :: entriesIn back records.slots := by
  rw [CollectionRecords.entries, located.live, entriesIn_append,
    entriesIn_cons_of_live back located.used located.stored, located.same]

theorem Located.mem_entries : (id, slot) ∈ records.entries := by
  rw [located.entries]
  exact mem_append_right _ mem_cons_self

theorem Located.inBucket (wellFormed : records.WellFormed) :
    id ∈ records.keyIndex.buckets slot.hash :=
  (wellFormed.indexed _ _).mpr ⟨slot, located.mem_entries, rfl⟩

end

theorem exists_append_of_getElem? (here : live[position]? = some entry) :
    ∃ front back, live = front ++ entry :: back ∧ position = front.length := by
  obtain ⟨inside, rfl⟩ := List.getElem?_eq_some_iff.mp here
  refine ⟨live.take position, live.drop (position + 1), ?_, ?_⟩
  · rw [← drop_eq_getElem_cons, take_append_drop]
  · rw [length_take, Nat.min_eq_left (Nat.le_of_lt inside)]

namespace WellFormed

variable {records : CollectionRecords} (wellFormed : records.WellFormed)

include wellFormed

theorem ordered_entries :
    (records.entries.map Prod.fst).Pairwise (· < ·) :=
  wellFormed.ordered.sublist (ids_entriesIn_sublist _ _)

theorem issued_entries (member : (id, slot) ∈ records.entries) :
    id < records.nextId := by
  obtain ⟨entry, inside, rfl, _⟩ := mem_entriesIn.mp member
  exact wellFormed.issued entry inside

theorem slot_unique (here : (id, slot) ∈ records.entries)
    (there : (id, other) ∈ records.entries) : slot = other := by
  have distinct : (records.entries.map Prod.fst).Nodup :=
    wellFormed.ordered_entries.imp fun smaller => Nat.ne_of_lt smaller
  have same := inj_on_of_nodup_map distinct here there rfl
  exact congrArg Prod.snd same

theorem locate (id : Nat) :
    ((∀ slot, (id, slot) ∉ records.entries) ∧ records.liveEntry id = none ∧
      records.remove id = .ok (none, records)) ∨
    ∃ front back entry slot, records.Located id front back entry slot := by
  have search : ∀ position, records.search id = some position ↔
      ∃ entry, records.live[position]? = some entry ∧ entry.id = id :=
    fun position => binarySearchByKey_eq_some_iff wellFormed.ordered
  cases searched : records.search id with
  | none =>
    refine .inl ⟨?_, ?_, ?_⟩
    · intro slot member
      obtain ⟨entry, inside, same, _⟩ := mem_entriesIn.mp member
      obtain ⟨position, here⟩ := mem_iff_getElem?.mp inside
      have found := (search position).mpr ⟨entry, here, same⟩
      rw [searched] at found
      cases found
    · unfold liveEntry
      rw [searched]
      rfl
    · unfold remove
      rw [searched]
  | some position =>
    obtain ⟨entry, here, same⟩ := (search position).mp searched
    by_cases gone : entry.slot = dead
    · refine .inl ⟨?_, ?_, ?_⟩
      · intro slot member
        obtain ⟨other, inside, equal, used, _⟩ := mem_entriesIn.mp member
        have distinct : (records.live.map LiveEntry.id).Nodup :=
          wellFormed.ordered.imp fun smaller => Nat.ne_of_lt smaller
        have one := inj_on_of_nodup_map distinct inside
          (mem_of_getElem? here) (equal.trans same.symm)
        exact used (one ▸ gone)
      · simp [liveEntry, searched, here, gone]
      · unfold remove
        rw [searched]
        dsimp only
        rw [here]
        exact if_pos gone
    · obtain ⟨slot, stored⟩ :=
        wellFormed.laid.stored (mem_of_getElem? here) gone
      obtain ⟨front, back, live, rfl⟩ := exists_append_of_getElem? here
      refine .inr ⟨front, back, entry, slot, live, same, gone, ?_, searched,
        stored⟩
      simp [liveEntry, searched, here, gone]

theorem get (id : Nat) :
    ((∀ slot, (id, slot) ∉ records.entries) ∧ records.get id = .ok none) ∨
    ∃ slot, (id, slot) ∈ records.entries ∧
      records.get id = .ok (some slot.record) := by
  unfold CollectionRecords.get
  rcases wellFormed.locate id with
    ⟨absent, missing, _⟩ | ⟨front, back, entry, slot, located⟩
  · rw [missing]
    exact .inl ⟨absent, rfl⟩
  · refine .inr ⟨slot, located.mem_entries, ?_⟩
    rw [located.found]
    dsimp only
    rw [slotAt_eq_ok located.stored]
    rfl

theorem get_of_mem (member : (id, slot) ∈ records.entries) :
    records.get id = .ok (some slot.record) := by
  rcases wellFormed.get id with ⟨absent, _⟩ | ⟨other, there, found⟩
  · exact absurd member (absent slot)
  · rw [found, wellFormed.slot_unique member there]

theorem get_eq_some_iff : records.get id = .ok (some record) ↔
      ∃ slot, (id, slot) ∈ records.entries ∧ slot.record = record := by
  constructor
  · intro found
    rcases wellFormed.get id with ⟨_, missing⟩ | ⟨slot, member, there⟩
    · rw [missing] at found
      cases found
    · rw [there] at found
      cases found
      exact ⟨slot, member, rfl⟩
  · rintro ⟨slot, member, rfl⟩
    exact wellFormed.get_of_mem member

theorem nextId_not_mem (hash : UInt64) :
    records.nextId ∉ records.keyIndex.buckets hash := by
  intro member
  obtain ⟨slot, inside, _⟩ := (wellFormed.indexed _ _).mp member
  exact Nat.lt_irrefl _ (wellFormed.issued_entries inside)

theorem hash_unique (here : id ∈ records.keyIndex.buckets first)
    (there : id ∈ records.keyIndex.buckets second) : first = second := by
  obtain ⟨_, stored, rfl⟩ := (wellFormed.indexed _ id).mp here
  obtain ⟨_, storedToo, rfl⟩ := (wellFormed.indexed _ id).mp there
  rw [wellFormed.slot_unique stored storedToo]

theorem replaceValue (id : Nat) (value : RawValue) :
    ((∀ slot, (id, slot) ∉ records.entries) ∧
      records.replaceValue id value = .ok (none, records)) ∨
    ∃ before slot rest after,
      records.entries = before ++ (id, slot) :: rest ∧
      records.replaceValue id value = .ok (some slot.record.value, after) ∧
      records.Becomes
        (before ++ (id, ⟨⟨slot.record.key, value⟩, slot.hash⟩) :: rest)
        records.nextId after := by
  unfold CollectionRecords.replaceValue
  rcases wellFormed.locate id with
    ⟨absent, missing, _⟩ | ⟨front, back, entry, slot, located⟩
  · rw [missing]
    exact .inl ⟨absent, rfl⟩
  · right
    rw [located.found]
    dsimp only
    rw [slotAt_eq_ok located.stored]
    let new : Slot := ⟨⟨slot.record.key, value⟩, slot.hash⟩
    have stored : (records.slots.set entry.slot.toNat new)[
        entry.slot.toNat]? = some new :=
      getElem?_set_self (List.getElem?_eq_some_iff.mp located.stored).1
    have kept := (located.live ▸ wellFormed.laid).entriesIn_set_slot
      located.used new
    have changed : entriesIn records.live
          (records.slots.set entry.slot.toNat new) =
        entriesIn front records.slots ++
          (id, new) :: entriesIn back records.slots := by
      rw [located.live, entriesIn_append,
        entriesIn_cons_of_live back located.used stored, kept.1, kept.2,
        located.same]
    refine ⟨entriesIn front records.slots, slot, entriesIn back records.slots,
      { records with slots := records.slots.set entry.slot.toNat new },
      located.entries, rfl, ?_, changed, rfl, rfl, .refl _⟩
    refine { wellFormed with
      laid := wellFormed.laid.set _ _, indexed := ?_, fits := ?_, aligned := ?_ }
    · intro hash other
      rw [wellFormed.indexed, located.entries, CollectionRecords.entries,
        changed]
      simp only [mem_append, mem_cons, Prod.mk.injEq]
      constructor
      · rintro ⟨found, (early | ⟨rfl, rfl⟩ | late), hashed⟩
        · exact ⟨found, .inl early, hashed⟩
        · exact ⟨new, .inr (.inl ⟨rfl, rfl⟩), hashed⟩
        · exact ⟨found, .inr (.inr late), hashed⟩
      · rintro ⟨found, (early | ⟨rfl, rfl⟩ | late), hashed⟩
        · exact ⟨found, .inl early, hashed⟩
        · exact ⟨slot, .inr (.inl ⟨rfl, rfl⟩), hashed⟩
        · exact ⟨found, .inr (.inr late), hashed⟩
    · rw [length_set]
      exact wellFormed.fits
    · rw [length_set]
      exact wellFormed.aligned

theorem insertHashed (room : records.slots.length < dead.toNat)
    (clock : records.nextId < maxIdentity) (record : MapRecord)
    (hash : UInt64) : ∃ after, records.insertHashed record hash =
        .ok (records.nextId, after) ∧
      after.slots.length = records.slots.length + 1 ∧
      records.Becomes
        (records.entries ++ [(records.nextId, ⟨record, hash⟩)])
        (records.nextId + 1) after := by
  have fresh := ofNat_ne_dead room
  have number := toNat_ofNat (Nat.le_of_lt room)
  let last : LiveEntry :=
    ⟨records.nextId, UInt32.ofNat records.slots.length⟩
  let after : CollectionRecords :=
    { slots := records.slots ++ [⟨record, hash⟩]
      live := records.live ++ [last]
      liveLen := records.liveLen + 1
      keyIndex := records.keyIndex.insertHashed hash records.nextId
      nextId := records.nextId + 1 }
  have changed : after.entries =
      records.entries ++ [(records.nextId, ⟨record, hash⟩)] := by
    have here : after.slots[last.slot.toNat]? = some ⟨record, hash⟩ := by
      simp [after, last, number]
    have kept : entriesIn records.live after.slots = records.entries := by
      apply entriesIn_congr
      intro entry member used
      exact getElem?_append_left (wellFormed.laid.placed entry member used)
    rw [CollectionRecords.entries, entriesIn_append, kept,
      entriesIn_cons_of_live [] fresh here]
    rfl
  refine ⟨after, ?_, by simp [after], ?_, changed, rfl, rfl, .refl _⟩
  · unfold CollectionRecords.insertHashed
    rw [slotNumber_eq_ok (Nat.le_of_lt room)]
    simp only [ensure, if_pos clock]
    rfl
  · refine ⟨?_, ?_, ⟨?_, ?_⟩, ?_, ?_, ?_, ?_, ?_, clock⟩
    · rw [map_append, pairwise_append]
      refine ⟨wellFormed.ordered, pairwise_singleton _ _, ?_⟩
      intro id member new newest
      obtain ⟨entry, inside, rfl⟩ := mem_map.mp member
      rw [map_singleton, mem_singleton] at newest
      rw [newest]
      exact wellFormed.issued entry inside
    · intro entry member
      rcases mem_append.mp member with old | new
      · exact Nat.lt_succ_of_lt (wellFormed.issued entry old)
      · rw [mem_singleton.mp new]
        exact Nat.lt_succ_self _
    · intro entry member used
      rw [length_append, length_singleton]
      rcases mem_append.mp member with old | new
      · exact Nat.lt_succ_of_lt (wellFormed.laid.placed entry old used)
      · rw [mem_singleton.mp new, number]
        exact Nat.lt_succ_self _
    · rw [pairwise_append]
      refine ⟨wellFormed.laid.apart, pairwise_singleton _ _, ?_⟩
      intro entry old new newest same
      by_contra used
      have inside := wellFormed.laid.placed entry old used
      rw [same, mem_singleton.mp newest, number] at inside
      exact Nat.lt_irrefl _ inside
    · intro other id
      rw [changed]
      simp only [mem_append, mem_singleton, Prod.mk.injEq]
      have known := wellFormed.indexed other id
      have unknown := wellFormed.nextId_not_mem other
      simp only [after, CollectionIndex.insertHashed]
      by_cases same : other = hash
      · subst same
        rw [update_self, mem_append, mem_singleton, known]
        constructor
        · rintro (⟨slot, member, hashed⟩ | rfl)
          · exact ⟨slot, .inl member, hashed⟩
          · exact ⟨_, .inr ⟨rfl, rfl⟩, rfl⟩
        · rintro ⟨slot, (member | ⟨rfl, rfl⟩), hashed⟩
          · exact .inl ⟨slot, member, hashed⟩
          · exact .inr rfl
      · rw [update_of_ne same, known]
        constructor
        · rintro ⟨slot, member, hashed⟩
          exact ⟨slot, .inl member, hashed⟩
        · rintro ⟨slot, (member | ⟨rfl, rfl⟩), hashed⟩
          · exact ⟨slot, member, hashed⟩
          · exact absurd hashed.symm same
    · intro other
      simp only [after, CollectionIndex.insertHashed]
      by_cases same : other = hash
      · subst same
        rw [update_self, nodup_append]
        refine ⟨wellFormed.distinct other, nodup_singleton _, ?_⟩
        intro id member new newest equal
        rw [equal, mem_singleton.mp newest] at member
        exact wellFormed.nextId_not_mem _ member
      · rw [update_of_ne same]
        exact wellFormed.distinct other
    · simp only [after, length_append, length_singleton]
      exact room
    · simp only [after, length_append, length_singleton, wellFormed.aligned]
    · simp only [after, countP_append, wellFormed.counted]
      simp [last, fresh]

end WellFormed

def recorded (entry : Nat × Slot) : Nat × MapRecord :=
  (entry.1, entry.2.record)

/-- The records with their identities, in the order of insertion. -/
def listed (live : List LiveEntry) (slots : List Slot) :
    List (Nat × MapRecord) :=
  (entriesIn live slots).map recorded

theorem nextAtOrAfter_eq (slots : List Slot) (cursor : Nat)
    (live : List LiveEntry) (laid : Laid live slots) :
    (live.find? fun entry => !decide (entry.id < cursor) &&
        decide (entry.slot ≠ dead)).elim (.ok none) (fun entry => do
          let slot ← slotAt slots entry.slot
          return some (entry.id, slot.record)) =
      (.ok ((listed live slots).find? fun entry => cursor ≤ entry.1) :
        Except Failure (Option (Nat × MapRecord))) := by
  induction live with
  | nil => rfl
  | cons entry rest ih =>
    have later := ih laid.tail
    rw [listed, find?_cons]
    by_cases gone : entry.slot = dead
    · rw [entriesIn_cons_of_dead rest _ gone, ← listed]
      simpa [gone] using later
    · obtain ⟨slot, here⟩ := laid.stored mem_cons_self gone
      rw [entriesIn_cons_of_live rest gone here, map_cons, ← listed, recorded,
        find?_cons]
      by_cases early : entry.id < cursor
      · have missed : ¬ cursor ≤ entry.id := Nat.not_le.mpr early
        simpa [early, missed] using later
      · have reached : cursor ≤ entry.id := Nat.le_of_not_lt early
        simp [early, gone, reached, slotAt_eq_ok here]

namespace WellFormed

variable {records : CollectionRecords} (wellFormed : records.WellFormed)

include wellFormed

theorem nextAtOrAfter (cursor : Nat) :
    records.nextAtOrAfter cursor =
      .ok ((listed records.live records.slots).find?
        fun entry => cursor ≤ entry.1) := by
  unfold CollectionRecords.nextAtOrAfter
  dsimp only
  rw [find?_drop_partitionPoint (partitioned_lt wellFormed.ordered cursor),
    ← nextAtOrAfter_eq records.slots cursor records.live wellFormed.laid]
  generalize records.live.find? _ = found
  cases found with
  | none | some => rfl

/-- The search of a bucket of live identities. -/
theorem findInBucket (leaves : Leaves) (key : RawValue) (ids : List Nat)
    (known : ∀ id ∈ ids, ∃ slot, (id, slot) ∈ records.entries) :
    ∃ found, records.findInBucket leaves key ids = .ok found ∧
      (∀ id record, found = some (id, record) →
        ∃ slot, (id, slot) ∈ records.entries ∧ slot.record = record ∧
          sameValueZero leaves record.key key) ∧
      (found = none → ∀ id ∈ ids, ∀ slot, (id, slot) ∈ records.entries →
        ¬ sameValueZero leaves slot.record.key key) := by
  induction ids with
  | nil =>
    exact ⟨none, rfl, by rintro _ _ ⟨⟩, by rintro _ _ ⟨⟩⟩
  | cons id rest ih =>
    obtain ⟨slot, member⟩ := known id mem_cons_self
    obtain ⟨found, searched, right, missing⟩ := ih fun other inside =>
      known other (mem_cons_of_mem _ inside)
    rw [CollectionRecords.findInBucket, wellFormed.get_of_mem member]
    dsimp only [bind, Except.bind]
    split
    · rename_i equal
      refine ⟨_, rfl, ?_, by rintro ⟨⟩⟩
      rintro _ _ ⟨⟩
      exact ⟨slot, member, rfl, equal⟩
    · rename_i different
      refine ⟨found, searched, right, ?_⟩
      intro none other inside read there
      rcases mem_cons.mp inside with rfl | later
      · rw [wellFormed.slot_unique there member]
        exact different
      · exact missing none other later read there

end WellFormed

end CollectionRecords

end QuickJsOxide.Collections
