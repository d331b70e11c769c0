import QuickJsOxide.Collections.Indexing

namespace QuickJsOxide.Collections

open Library List Function

/-! Removal and compaction keep the layout. -/

variable {front back : List LiveEntry} {entry : LiveEntry} {slot : Slot}
  {id : Nat}

namespace CollectionRecords

/-- The live entries after a compaction: numbered in order. -/
def renumber : Nat → List (Nat × Slot) → List LiveEntry
  | _, [] => []
  | filled, (id, _) :: rest =>
    ⟨id, UInt32.ofNat filled⟩ :: renumber (filled + 1) rest

theorem ids_renumber (entries : List (Nat × Slot)) : ∀ filled,
      (renumber filled entries).map LiveEntry.id = entries.map Prod.fst := by
  induction entries with
  | nil =>
    intro filled
    rfl
  | cons entry rest ih =>
    intro filled
    exact congrArg (entry.1 :: ·) (ih (filled + 1))

theorem renumber_spec (entries : List (Nat × Slot)) : ∀ before : List Slot,
      before.length + entries.length ≤ dead.toNat →
      Laid (renumber before.length entries)
          (before ++ entries.map Prod.snd) ∧
        entriesIn (renumber before.length entries)
          (before ++ entries.map Prod.snd) = entries ∧
        ∀ entry ∈ renumber before.length entries,
          before.length ≤ entry.slot.toNat ∧ entry.slot ≠ dead := by
  induction entries with
  | nil =>
    intro before _
    exact ⟨⟨by simp [renumber], .nil⟩, rfl, by simp [renumber]⟩
  | cons entry rest ih =>
    intro before room
    obtain ⟨id, slot⟩ := entry
    rw [length_cons] at room
    have number : (UInt32.ofNat before.length).toNat = before.length :=
      toNat_ofNat (by omega)
    have fresh : UInt32.ofNat before.length ≠ dead :=
      ofNat_ne_dead (by omega)
    have here : (before ++ slot :: rest.map Prod.snd)[
        (UInt32.ofNat before.length).toNat]? = some slot := by
      simp [number]
    obtain ⟨laid, entries, beyond⟩ := ih (before ++ [slot])
      (by rw [length_append, length_singleton]; omega)
    rw [length_append, length_singleton] at laid entries beyond
    rw [append_assoc] at laid entries
    refine ⟨⟨?_, ?_⟩, ?_, ?_⟩
    · intro entry member used
      rcases mem_cons.mp member with rfl | later
      · exact (List.getElem?_eq_some_iff.mp here).1
      · exact laid.placed entry later used
    · refine pairwise_cons.mpr ⟨?_, laid.apart⟩
      intro other member same
      have above := (beyond other member).1
      rw [← same, number] at above
      omega
    · rw [renumber, map_cons, entriesIn_cons_of_live _ fresh here]
      exact congrArg ((id, slot) :: ·) entries
    · intro other member
      rcases mem_cons.mp member with rfl | later
      · exact ⟨number.ge, fresh⟩
      · obtain ⟨above, used⟩ := beyond other later
        exact ⟨by omega, used⟩

theorem compactLoop_eq (live : List LiveEntry) : ∀ (slots moved : List Slot),
      Laid live slots →
      moved.length + (entriesIn live slots).length ≤ dead.toNat →
      ∃ entries, compactLoop live slots moved =
          .ok (entries, moved ++ (entriesIn live slots).map Prod.snd) ∧
        entries.filter (fun entry => entry.slot ≠ dead) =
          renumber moved.length (entriesIn live slots) := by
  induction live with
  | nil =>
    intro slots moved _ _
    refine ⟨[], ?_, rfl⟩
    rw [entriesIn, filterMap_nil, map_nil, append_nil]
    rfl
  | cons entry rest ih =>
    intro slots moved laid room
    by_cases gone : entry.slot = dead
    · rw [entriesIn_cons_of_dead rest slots gone] at room ⊢
      obtain ⟨entries, looped, kept⟩ := ih slots moved laid.tail room
      refine ⟨entry :: entries, ?_, ?_⟩
      · rw [compactLoop, if_pos gone, looped]
        rfl
      · rw [filter_cons_of_neg (by simpa using gone), kept]
    · obtain ⟨slot, here⟩ := laid.stored mem_cons_self gone
      rw [entriesIn_cons_of_live rest gone here] at room ⊢
      rw [length_cons] at room
      have number : slotNumber moved.length =
          .ok (UInt32.ofNat moved.length) :=
        slotNumber_eq_ok (by omega)
      have fresh : UInt32.ofNat moved.length ≠ dead :=
        ofNat_ne_dead (by omega)
      have same : entriesIn rest
          (slots.set entry.slot.toNat ⟨.vacant, 0⟩) = entriesIn rest slots :=
        entriesIn_set _ (laid.unused_tail gone)
      obtain ⟨entries, looped, kept⟩ := ih
        (slots.set entry.slot.toNat ⟨.vacant, 0⟩) (moved ++ [slot])
        (laid.tail.set _ _)
        (by rw [same, length_append, length_singleton]; omega)
      rw [same, length_append, length_singleton] at kept
      rw [same, append_assoc] at looped
      refine ⟨⟨entry.id, UInt32.ofNat moved.length⟩ :: entries, ?_, ?_⟩
      · rw [compactLoop, if_neg gone, slotAt_eq_ok here, number]
        dsimp only [bind, Except.bind]
        rw [looped]
        rfl
      · rw [filter_cons_of_pos (by simpa using fresh), kept]
        rfl

namespace WellFormed

variable {records : CollectionRecords} (wellFormed : records.WellFormed)

include wellFormed

theorem length_entries : records.entries.length = records.liveLen :=
  wellFormed.laid.length_entriesIn.trans wellFormed.counted.symm

theorem compact : ∃ after, records.compact = .ok after ∧
      records.Becomes records.entries records.nextId after := by
  have few : records.entries.length ≤ dead.toNat := by
    apply Nat.le_trans _ wellFormed.fits
    rw [← wellFormed.aligned, CollectionRecords.entries,
      wellFormed.laid.length_entriesIn]
    exact countP_le_length
  have room : ([] : List Slot).length + records.entries.length ≤
      dead.toNat := by
    rw [length_nil, Nat.zero_add]
    exact few
  obtain ⟨live, looped, kept⟩ :=
    compactLoop_eq records.live records.slots [] wellFormed.laid room
  obtain ⟨laid, same, used⟩ := renumber_spec records.entries [] room
  have length : (renumber 0 records.entries).length =
      records.entries.length := by
    rw [← length_map LiveEntry.id, ids_renumber, length_map]
  rw [nil_append, length_nil] at laid same
  refine ⟨{ records with
    slots := records.entries.map Prod.snd
    live := renumber 0 records.entries }, ?_, ?_, same, rfl, rfl, .refl _⟩
  · unfold CollectionRecords.compact
    rw [looped]
    dsimp only [bind, Except.bind]
    rw [kept]
    rfl
  · refine ⟨?_, ?_, laid, ?_, wellFormed.distinct, ?_, ?_, ?_,
      wellFormed.clock⟩
    · rw [ids_renumber]
      exact wellFormed.ordered_entries
    · intro entry member
      have known := mem_map_of_mem (f := LiveEntry.id) member
      rw [ids_renumber] at known
      obtain ⟨⟨id, slot⟩, inside, same⟩ := mem_map.mp known
      exact same ▸ wellFormed.issued_entries inside
    · intro hash id
      have known := wellFormed.indexed hash id
      rw [← same] at known
      exact known
    · rw [length_map]
      exact few
    · rw [length, length_map]
    · rw [← wellFormed.length_entries, ← length]
      apply Eq.symm
      apply countP_eq_length.mpr
      intro entry member
      exact decide_eq_true (used entry member).2

end WellFormed

namespace Located

variable {records : CollectionRecords}
  (located : records.Located id front back entry slot)
  (wellFormed : records.WellFormed)

include located wellFormed

theorem mem_others {read : Slot} :
    (other, read) ∈ entriesIn front records.slots ++
        entriesIn back records.slots ↔
      (other, read) ∈ records.entries ∧ other ≠ id := by
  have ordered := wellFormed.ordered_entries
  rw [located.entries] at ordered
  rw [located.entries, perm_middle.mem_iff, mem_cons]
  constructor
  · intro member
    exact ⟨.inr member, OrderedTable.ne_of_split ordered _ member⟩
  · rintro ⟨same | member, different⟩
    · exact absurd (congrArg Prod.fst same) different
    · exact member

/-- The bucket of the removed record loses its id, and no other does. -/
theorem mem_detach (hash : UInt64) (other : Nat) :
    other ∈ (records.keyIndex.detach slot.hash id).buckets hash ↔
      ∃ read, (other, read) ∈ entriesIn front records.slots ++
        entriesIn back records.slots ∧ read.hash = hash := by
  simp only [located.mem_others wellFormed, CollectionIndex.detach]
  by_cases bucket : hash = slot.hash
  · rw [bucket, update_self, mem_swapRemove (wellFormed.distinct _)
      (located.inBucket wellFormed), wellFormed.indexed]
    constructor
    · rintro ⟨different, read, member, hashed⟩
      exact ⟨read, ⟨member, different⟩, hashed⟩
    · rintro ⟨read, ⟨member, different⟩, hashed⟩
      exact ⟨different, read, member, hashed⟩
  · rw [update_of_ne bucket, wellFormed.indexed]
    constructor
    · rintro ⟨read, member, hashed⟩
      refine ⟨read, ⟨member, ?_⟩, hashed⟩
      rintro rfl
      apply bucket
      rw [← hashed, wellFormed.slot_unique member located.mem_entries]
    · rintro ⟨read, ⟨member, _⟩, hashed⟩
      exact ⟨read, member, hashed⟩

theorem nodup_detach (hash : UInt64) :
    ((records.keyIndex.detach slot.hash id).buckets hash).Nodup := by
  simp only [CollectionIndex.detach]
  by_cases bucket : hash = slot.hash
  · rw [bucket, update_self]
    exact nodup_swapRemove (wellFormed.distinct _)
      (located.inBucket wellFormed)
  · rw [update_of_ne bucket]
    exact wellFormed.distinct hash

theorem vacate : records.Becomes
      (entriesIn front records.slots ++ entriesIn back records.slots)
      records.nextId (records.vacate front.length entry slot
        (records.keyIndex.detach slot.hash id)) := by
  have laid := located.live ▸ wellFormed.laid
  have kept := laid.entriesIn_set_slot located.used ⟨.vacant, slot.hash⟩
  have marked : records.live.set front.length ⟨entry.id, dead⟩ =
      front ++ ⟨entry.id, dead⟩ :: back := by
    rw [located.live, set_append_right _ _ (Nat.le_refl _), Nat.sub_self]
    rfl
  have ids : (front ++ ⟨entry.id, dead⟩ :: back).map LiveEntry.id =
      records.live.map LiveEntry.id := by
    rw [located.live, map_append, map_append]
    rfl
  have changed : entriesIn (front ++ ⟨entry.id, dead⟩ :: back)
        (records.slots.set entry.slot.toNat ⟨.vacant, slot.hash⟩) =
      entriesIn front records.slots ++ entriesIn back records.slots := by
    rw [entriesIn_append, entriesIn_cons_of_dead back _ rfl, kept.1, kept.2]
  refine ⟨?_, ?_, rfl, rfl, .refl _⟩
  · unfold CollectionRecords.vacate
    rw [marked]
    refine ⟨?_, ?_, laid.mark.set _ _, ?_, located.nodup_detach wellFormed, ?_,
      ?_, ?_, wellFormed.clock⟩
    · rw [ids]
      exact wellFormed.ordered
    · intro other member
      have known := mem_map_of_mem (f := LiveEntry.id) member
      rw [ids] at known
      obtain ⟨old, inside, same⟩ := mem_map.mp known
      exact same ▸ wellFormed.issued old inside
    · rw [CollectionRecords.entries, changed]
      exact located.mem_detach wellFormed
    · rw [length_set]
      exact wellFormed.fits
    · rw [length_set, ← wellFormed.aligned, located.live, length_append,
        length_append]
      rfl
    · have counted := wellFormed.counted
      rw [located.live] at counted
      simp only [countP_append, countP_cons] at counted ⊢
      simp [located.used] at counted ⊢
      omega
  · unfold CollectionRecords.vacate CollectionRecords.entries
    rw [marked, changed]

end Located

namespace WellFormed

variable {records : CollectionRecords} (wellFormed : records.WellFormed)

include wellFormed

theorem remove (id : Nat) :
    ((∀ slot, (id, slot) ∉ records.entries) ∧
      records.remove id = .ok (none, records)) ∨
    ∃ before slot rest after,
      records.entries = before ++ (id, slot) :: rest ∧
      records.remove id = .ok (some slot.record, after) ∧
      records.Becomes (before ++ rest) records.nextId after := by
  rcases wellFormed.locate id with
    ⟨absent, _, missing⟩ | ⟨front, back, entry, slot, located⟩
  · exact .inl ⟨absent, missing⟩
  right
  have vacated := located.vacate wellFormed
  have inBucket := located.inBucket wellFormed
  have detached : records.keyIndex.removeHashed slot.hash id =
      .ok (records.keyIndex.detach slot.hash id) := by
    unfold CollectionIndex.removeHashed
    rw [if_neg (ne_nil_of_mem inBucket), if_neg (not_not_intro inBucket)]
  have here : records.live[front.length]? = some entry := by
    rw [located.live]
    simp
  have removed : records.remove id =
      records.removeEntry front.length entry := by
    unfold CollectionRecords.remove
    rw [located.searched]
    dsimp only
    rw [here]
    exact if_neg located.used
  rw [removed, removeEntry, slotAt_eq_ok located.stored, located.same]
  dsimp only [bind, Except.bind]
  rw [detached]
  dsimp only
  generalize records.vacate front.length entry slot _ = vacant at vacated ⊢
  split
  · obtain ⟨after, compacted, same⟩ := vacated.wellFormed.compact
    refine ⟨_, slot, _, after, located.entries, ?_, same.wellFormed,
      same.entries.trans vacated.entries, same.clock.trans vacated.clock,
      same.keyHasher.trans vacated.keyHasher,
      same.remembered.trans vacated.remembered⟩
    rw [compacted]
    rfl
  · exact ⟨_, slot, _, vacant, located.entries, rfl, vacated⟩

omit wellFormed in
theorem takeLoop_eq (live : List LiveEntry) : ∀ slots : List Slot,
      Laid live slots → takeLoop live slots =
        .ok ((entriesIn live slots).map fun entry => entry.2.record) := by
  induction live with
  | nil =>
    intro slots _
    rfl
  | cons entry rest ih =>
    intro slots laid
    by_cases gone : entry.slot = dead
    · rw [takeLoop, if_pos gone, ih slots laid.tail,
        entriesIn_cons_of_dead rest slots gone]
    · obtain ⟨slot, here⟩ := laid.stored mem_cons_self gone
      rw [takeLoop, if_neg gone, slotAt_eq_ok here]
      dsimp only [bind, Except.bind]
      rw [ih _ (laid.tail.set _ _), entriesIn_set _ (laid.unused_tail gone),
        entriesIn_cons_of_live rest gone here]
      rfl

theorem takeAll : ∃ after, records.takeAll = .ok (records.stored, after) ∧
      records.Becomes [] records.nextId after := by
  refine ⟨{ records with
    slots := [], live := [], liveLen := 0
    keyIndex := records.keyIndex.clear }, ?_,
    wellFormed_empty (fun _ => rfl) wellFormed.clock, rfl, rfl, rfl,
    nil_sublist _⟩
  unfold CollectionRecords.takeAll
  rw [takeLoop_eq _ _ wellFormed.laid]
  rfl

end WellFormed

end CollectionRecords

end QuickJsOxide.Collections
