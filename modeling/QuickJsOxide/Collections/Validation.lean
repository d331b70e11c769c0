import QuickJsOxide.Collections.Soundness

namespace QuickJsOxide.Collections

open Library List

namespace CollectionRecords

/-! A well-formed layout whose hashes are right passes its own validation. -/

structure Enumerates (hashes : List UInt64)
    (buckets : UInt64 → List Nat) : Prop where
  distinct : hashes.Nodup
  complete : ∀ hash, hash ∈ hashes ↔ buckets hash ≠ []

theorem validateLive_eq {slots : List Slot} (slotCount nextId : Nat)
    (live : List LiveEntry) :
    ∀ (previous : Option Nat) (occupied : List Bool),
      (live.map LiveEntry.id).Pairwise (· < ·) →
      (∀ entry ∈ live, entry.id < nextId) →
      (∀ entry ∈ live, ∀ last ∈ previous, last < entry.id) →
      Laid live slots →
      (∀ entry ∈ live, entry.slot ≠ dead → entry.slot.toNat < slotCount ∧
          occupied[entry.slot.toNat]? = some false) →
      ∃ after, validateLive slotCount nextId live previous occupied =
          .ok after ∧ after.countP id = occupied.countP id +
          live.countP fun entry => entry.slot ≠ dead := by
  induction live with
  | nil =>
    intro previous occupied _ _ _ _ _
    exact ⟨occupied, rfl, rfl⟩
  | cons entry rest ih =>
    intro previous occupied ordered issued later laid vacant
    rw [map_cons, pairwise_cons] at ordered
    have head : entry.id < nextId ∧ ∀ last ∈ previous, last < entry.id :=
      ⟨issued entry mem_cons_self, later entry mem_cons_self⟩
    have restIssued := fun other member =>
      issued other (mem_cons_of_mem _ member)
    have restLater : ∀ other ∈ rest, ∀ last ∈ some entry.id,
        last < other.id := by
      intro other member last same
      cases same
      exact ordered.1 _ (mem_map_of_mem member)
    rw [countP_cons, validateLive]
    simp only [ensure, if_pos head]
    by_cases gone : entry.slot = dead
    · obtain ⟨after, checked, counted⟩ := ih (some entry.id) occupied
        ordered.2 restIssued restLater laid.tail
        (fun other member => vacant other (mem_cons_of_mem _ member))
      refine ⟨after, ?_, ?_⟩
      · rw [if_pos gone]
        exact checked
      · rw [counted]
        simp [gone]
    · have free := vacant entry mem_cons_self gone
      have restVacant : ∀ other ∈ rest, other.slot ≠ dead →
          other.slot.toNat < slotCount ∧
            (occupied.set entry.slot.toNat true)[other.slot.toNat]? =
              some false := by
        intro other member live
        have unused := vacant other (mem_cons_of_mem _ member) live
        refine ⟨unused.1, ?_⟩
        rw [getElem?_set_ne]
        · exact unused.2
        · intro same
          exact laid.unused_tail gone other member live
            (UInt32.toNat_inj.mp same.symm)
      obtain ⟨after, checked, counted⟩ := ih (some entry.id)
        (occupied.set entry.slot.toNat true) ordered.2 restIssued restLater
        laid.tail restVacant
      refine ⟨after, ?_, ?_⟩
      · rw [if_neg gone]
        simp only [if_pos free]
        exact checked
      · obtain ⟨inside, found⟩ := List.getElem?_eq_some_iff.mp free.2
        rw [counted, countP_set inside, found]
        simp [gone]
        omega

variable {records : CollectionRecords} (wellFormed : records.WellFormed)

include wellFormed

theorem validateBucket_eq {hash : UInt64} (ids : List Nat) : ∀ seen : List Nat,
      ids.Nodup → (∀ id ∈ ids, id ∉ seen) →
      (∀ id ∈ ids, ∃ slot, (id, slot) ∈ records.entries ∧
        records.keyIndex.hashUncached seed leaves slot.record.key = hash) →
      records.validateBucket seed leaves hash ids seen =
        .ok (ids.reverse ++ seen) := by
  induction ids with
  | nil =>
    intro seen _ _ _
    rfl
  | cons id _ ih =>
    intro seen distinct unseen stored
    rw [nodup_cons] at distinct
    obtain ⟨slot, found, hashed⟩ := stored id mem_cons_self
    rw [validateBucket, wellFormed.get_of_mem found]
    have fresh : id ∉ seen ∧
        records.keyIndex.hashUncached seed leaves slot.record.key = hash :=
      ⟨unseen id mem_cons_self, hashed⟩
    dsimp only [bind, Except.bind]
    rw [ensure, if_pos fresh]
    dsimp only
    rw [ih (id :: seen) distinct.2, reverse_cons, append_assoc]
    · rfl
    · intro other member known
      rcases mem_cons.mp known with same | known
      · exact distinct.1 (same ▸ member)
      · exact unseen other (mem_cons_of_mem _ member) known
    · intro other member
      exact stored other (mem_cons_of_mem _ member)

theorem validateBuckets_eq (hashed : records.Hashed seed leaves)
    (hashes : List UInt64) : ∀ seen : List Nat, hashes.Nodup →
      (∀ hash ∈ hashes, records.keyIndex.buckets hash ≠ []) →
      (∀ hash ∈ hashes, ∀ id ∈ records.keyIndex.buckets hash, id ∉ seen) →
      ∃ after, records.validateBuckets seed leaves hashes seen = .ok after ∧
        after.Perm (hashes.flatMap records.keyIndex.buckets ++ seen) := by
  induction hashes with
  | nil =>
    intro seen _ _ _
    exact ⟨seen, rfl, .refl _⟩
  | cons hash _ ih =>
    intro seen distinct nonempty unseen
    rw [nodup_cons] at distinct
    have bucket : records.validateBucket seed leaves hash
        (records.keyIndex.buckets hash) seen =
          .ok ((records.keyIndex.buckets hash).reverse ++ seen) := by
      apply validateBucket_eq wellFormed _ seen
        (wellFormed.distinct hash)
        (unseen hash mem_cons_self)
      intro id inside
      obtain ⟨slot, stored, rfl⟩ :=
        (wellFormed.indexed hash id).mp inside
      exact ⟨slot, stored, (hashed id slot stored).symm⟩
    obtain ⟨after, checked, permuted⟩ :=
      ih ((records.keyIndex.buckets hash).reverse ++ seen) distinct.2
        (fun other inside => nonempty other (mem_cons_of_mem _ inside))
        (by
          intro other inside id there known
          rcases mem_append.mp known with here | old
          · have same := wellFormed.hash_unique there
              (mem_reverse.mp here)
            exact distinct.1 (same ▸ inside)
          · exact unseen other (mem_cons_of_mem _ inside) id there old)
    refine ⟨after, ?_, ?_⟩
    · rw [validateBuckets]
      simp only [ensure, if_pos (nonempty hash mem_cons_self)]
      dsimp only [bind, Except.bind]
      rw [bucket]
      exact checked
    · apply permuted.trans
      rw [flatMap_cons, append_assoc]
      apply (perm_append_comm_assoc _ _ _).trans
      exact ((reverse_perm _).append_right _)

variable {hashes : List UInt64}

theorem perm_flatMap_buckets
    (enumerates : Enumerates hashes records.keyIndex.buckets) :
    (hashes.flatMap records.keyIndex.buckets).Perm
      (records.entries.map Prod.fst) := by
  have member := wellFormed.indexed
  apply (perm_ext_iff_of_nodup _ _).mpr
  · intro id
    rw [mem_flatMap, mem_map]
    constructor
    · intro inside
      obtain ⟨hash, _, there⟩ := inside
      obtain ⟨slot, stored, _⟩ := (member hash id).mp there
      exact ⟨(id, slot), stored, rfl⟩
    · intro inside
      obtain ⟨⟨other, slot⟩, stored, same⟩ := inside
      obtain rfl : other = id := same
      have here := (member slot.hash other).mpr ⟨slot, stored, rfl⟩
      exact ⟨slot.hash,
        (enumerates.complete slot.hash).mpr (ne_nil_of_mem here), here⟩
  · apply nodup_flatMap.mpr
    refine ⟨fun hash _ => wellFormed.distinct hash, ?_⟩
    apply enumerates.distinct.imp
    intro first second different id here there
    exact different (wellFormed.hash_unique here there)
  · exact wellFormed.ordered_entries.imp fun smaller => Nat.ne_of_lt smaller

theorem WellFormed.validate
    (hashed : records.Hashed seed leaves)
    (enumerates : Enumerates hashes records.keyIndex.buckets) :
    records.validate seed leaves hashes = .ok () := by
  obtain ⟨occupied, checked, counted⟩ := validateLive_eq
    records.slots.length records.nextId records.live none
    (replicate records.slots.length false) wellFormed.ordered
    wellFormed.issued
    (by
      intro _ _ last none
      cases none)
    wellFormed.laid
    (by
      intro entry member live
      have bound := wellFormed.laid.placed entry member live
      refine ⟨bound, ?_⟩
      rw [getElem?_replicate, if_pos bound])
  obtain ⟨seen, walked, permuted⟩ := validateBuckets_eq wellFormed hashed
    hashes [] enumerates.distinct
    (fun hash member => (enumerates.complete hash).mp member)
    (fun _ _ _ _ => not_mem_nil)
  have sizes : seen.length = records.liveLen := by
    rw [permuted.length_eq, append_nil,
      (perm_flatMap_buckets wellFormed enumerates).length_eq,
      length_map, wellFormed.length_entries]
  have filled : occupied.countP id = records.liveLen ∧
      records.live.length = records.slots.length := by
    refine ⟨?_, wellFormed.aligned⟩
    rw [counted, wellFormed.counted, countP_replicate]
    simp
  unfold CollectionRecords.validate
  rw [checked]
  dsimp only [bind, Except.bind]
  rw [ensure, if_pos filled]
  dsimp only
  rw [walked]
  exact if_pos sizes

end CollectionRecords

end QuickJsOxide.Collections
