import QuickJsOxide.Collections.Compaction
import QuickJsOxide.Collections.Heap

namespace QuickJsOxide.Collections

open Library Option CollectionIndex List

/-! What a sound heap looks like, and that keys are found in it. -/

variable {leaves : Leaves}

namespace CollectionIndex

def hashContent (seed : UInt64) (index : CollectionIndex) :
    KeyContent → UInt64
  | .string units => hashCodeUnits seed units
  | content => index.keyHasher content.hashWords

theorem hashUncached_eq (index : CollectionIndex)
    (known : keyContent leaves key = some content) :
    index.hashUncached seed leaves key = index.hashContent seed content := by
  cases key <;> cases known <;> rfl

/-- Remembered hashes are right for the identities that are still live. -/
def Remembers (seed : UInt64) (leaves : Leaves) (index : CollectionIndex) :
    Prop :=
  ∀ cached ∈ index.stringHashes, leaves.Issued cached.id ∧
    ∀ units, leaves.string? cached.id = some units →
      cached.hash = hashCodeUnits seed units

variable {id : LeafId} {hash : UInt64}

theorem mem_of_find (found : StringHashCache.find entries id = some hash) :
    ⟨id, hash⟩ ∈ entries := by
  obtain ⟨_, inside, same⟩ := map_eq_some_iff.mp found
  have identity := find?_some inside
  rw [beq_iff_eq] at identity
  rw [← identity, ← same]
  exact mem_of_find?_eq_some inside

theorem mem_remember
    (member : cached ∈ StringHashCache.remember entries id hash) :
    cached ∈ entries ∨ cached = ⟨id, hash⟩ := by
  unfold StringHashCache.remember at member
  rcases mem_append.mp member with old | new
  · left
    split at old
    · exact mem_of_mem_tail old
    · exact old
  · exact .inr (mem_singleton.mp new)

theorem issued_of_value? (known : leaves.value? id = some value) :
    leaves.Issued id := by
  obtain ⟨_, live, _⟩ := map_eq_some_iff.mp known
  exact Arena.issued_of_get? live

theorem issued_of_string?
    (known : leaves.string? id = some units) : leaves.Issued id := by
  obtain ⟨_, held, _⟩ := bind_eq_some_iff.mp known
  exact issued_of_value? held

theorem hash_spec {index : CollectionIndex}
    (remembers : index.Remembers seed leaves) (resolves : Resolves leaves key) :
    ∃ entries, index.hash seed leaves key =
        (index.hashUncached seed leaves key, { index with
          stringHashes := entries }) ∧
      Remembers seed leaves { index with stringHashes := entries } := by
  cases key with
  | string id =>
    obtain ⟨units, known⟩ := isSome_iff_exists.mp resolves
    have content : leaves.stringContent id = units := by
      unfold Leaves.stringContent
      rw [known]
      rfl
    have uncached : index.hashUncached seed leaves (.string id) =
        hashCodeUnits seed units := by
      rw [← content]
      rfl
    unfold hash
    dsimp only
    split
    · rename_i hash found
      have right := (remembers _ (mem_of_find found)).2 units known
      exact ⟨_, by rw [uncached, ← right], remembers⟩
    · refine ⟨_, rfl, ?_⟩
      intro cached member
      rcases mem_remember member with old | new
      · exact remembers cached old
      · subst new
        refine ⟨issued_of_string? known, ?_⟩
        intro other same
        rw [known] at same
        cases same
        exact uncached
  | _ => exact ⟨_, rfl, remembers⟩

end CollectionIndex

namespace CollectionRecords

def Hashed (seed : UInt64) (leaves : Leaves) (records : CollectionRecords) :
    Prop :=
  ∀ id slot, (id, slot) ∈ records.entries →
    slot.hash = records.keyIndex.hashUncached seed leaves slot.record.key

/-- Every record lies in the bucket of its key, no two keys are equal and the
remembered hashes are right. -/
structure Keyed (seed : UInt64) (leaves : Leaves)
    (records : CollectionRecords) : Prop where
  wellFormed : records.WellFormed
  remembers : records.keyIndex.Remembers seed leaves
  hashed : records.Hashed seed leaves
  resolved : ∀ id slot, (id, slot) ∈ records.entries →
    isMapStorableValue slot.record.key ∧ Resolves leaves slot.record.key
  unique : ∀ id other slot slot', (id, slot) ∈ records.entries →
    (other, slot') ∈ records.entries →
    sameValueZero leaves slot.record.key slot'.record.key → id = other

theorem keyed_new (keyHasher : KeyHasher) :
    Keyed seed leaves (new keyHasher) where
  wellFormed := wellFormed_new keyHasher
  remembers := by rintro _ ⟨⟩
  hashed := by rintro _ _ ⟨⟩
  resolved := by rintro _ _ ⟨⟩
  unique := by rintro _ _ _ _ ⟨⟩

variable {records : CollectionRecords}

variable {record : MapRecord} {id : Nat}

theorem WellFormed.find (wellFormed : records.WellFormed)
    (hashed : records.Hashed seed leaves) (key : RawValue) :
    ∃ found, records.findInBucket leaves key (records.keyIndex.buckets
        (records.keyIndex.hashUncached seed leaves key)) = .ok found ∧
      (∀ id record, found = some (id, record) →
        ∃ slot, (id, slot) ∈ records.entries ∧ slot.record = record ∧
          sameValueZero leaves record.key key) ∧
      (found = none → ∀ id slot, (id, slot) ∈ records.entries →
        ¬ sameValueZero leaves slot.record.key key) := by
  obtain ⟨found, searched, right, missing⟩ := wellFormed.findInBucket leaves key
    (records.keyIndex.buckets (records.keyIndex.hashUncached seed leaves key))
    (by
      intro id member
      obtain ⟨slot, stored, _⟩ := (wellFormed.indexed _ id).mp member
      exact ⟨slot, stored⟩)
  refine ⟨found, searched, right, ?_⟩
  intro none id slot member equal
  refine missing none id ?_ slot member equal
  -- an equal key has the same hash, so the record lies in this bucket
  obtain ⟨content, same⟩ := sameValueZero_iff.mp equal
  obtain ⟨_, known⟩ := ne_none_iff_exists'.mp content
  apply (wellFormed.indexed _ _).mpr
  refine ⟨slot, member, (hashed id slot member).trans ?_⟩
  rw [hashUncached_eq _ known, ← hashUncached_eq _ (same.symm.trans known)]

theorem hashUncached_of_keyHasher {index other : CollectionIndex}
    (same : other.keyHasher = index.keyHasher) (key : RawValue) :
    other.hashUncached seed leaves key =
      index.hashUncached seed leaves key := by
  cases key <;> first | rfl | exact congrFun same _

section

variable (keyed : records.Keyed seed leaves)

include keyed

theorem Keyed.findEntry (resolves : Resolves leaves key) :
    ∃ found entries, records.findEntry seed leaves key =
        (.ok found, { records with keyIndex :=
          { records.keyIndex with stringHashes := entries } }) ∧
      Remembers seed leaves
        { records.keyIndex with stringHashes := entries } ∧
      (∀ id record, found = some (id, record) →
        ∃ slot, (id, slot) ∈ records.entries ∧ slot.record = record ∧
          sameValueZero leaves record.key key) ∧
      (found = none → ∀ id slot, (id, slot) ∈ records.entries →
        ¬ sameValueZero leaves slot.record.key key) := by
  obtain ⟨entries, hash, remembers⟩ := hash_spec keyed.remembers resolves
  obtain ⟨found, searched, right, missing⟩ :=
    keyed.wellFormed.find keyed.hashed key
  refine ⟨found, entries, ?_, remembers, right, missing⟩
  unfold CollectionRecords.findEntry
  rw [hash]
  dsimp only
  rw [searched]

variable {entries : List (Nat × Slot)} {after : CollectionRecords}

theorem Keyed.insertHashed (becomes : records.Becomes (records.entries ++
      [(id, ⟨record, records.keyIndex.hashUncached seed leaves record.key⟩)])
      clock after)
    (storable : isMapStorableValue record.key)
    (resolves : Resolves leaves record.key)
    (absent : ∀ id slot, (id, slot) ∈ records.entries →
      ¬ sameValueZero leaves slot.record.key record.key) :
    after.Keyed seed leaves where
  wellFormed := becomes.wellFormed
  remembers cached member :=
    keyed.remembers cached (becomes.remembered.subset member)
  hashed := by
    intro other slot member
    rw [becomes.entries, mem_append, mem_singleton, Prod.mk.injEq] at member
    rw [hashUncached_of_keyHasher becomes.keyHasher]
    rcases member with old | ⟨_, rfl⟩
    · exact keyed.hashed other slot old
    · rfl
  resolved := by
    intro other slot member
    rw [becomes.entries, mem_append, mem_singleton, Prod.mk.injEq] at member
    rcases member with old | ⟨_, rfl⟩
    · exact keyed.resolved other slot old
    · exact ⟨storable, resolves⟩
  unique := by
    intro first second slot slot' here there equal
    rw [becomes.entries, mem_append, mem_singleton, Prod.mk.injEq] at here there
    rcases here with old | ⟨rfl, rfl⟩
    · rcases there with older | ⟨rfl, rfl⟩
      · exact keyed.unique first second slot slot' old older equal
      · exact absurd equal (absent first slot old)
    · rcases there with old | ⟨rfl, rfl⟩
      · rw [sameValueZero_iff] at equal
        exact absurd (sameValueZero_iff.mpr ⟨equal.2 ▸ equal.1, equal.2.symm⟩)
          (absent second slot' old)
      · rfl

theorem Keyed.of_becomes (becomes : records.Becomes entries clock after)
    (kept : ∀ id slot, (id, slot) ∈ entries →
      ∃ old, (id, old) ∈ records.entries ∧ old.hash = slot.hash ∧
        old.record.key = slot.record.key) : after.Keyed seed leaves where
  wellFormed := becomes.wellFormed
  remembers cached member :=
    keyed.remembers cached (becomes.remembered.subset member)
  hashed := by
    intro id slot member
    obtain ⟨old, there, hash, key⟩ := kept id slot (becomes.entries ▸ member)
    rw [hashUncached_of_keyHasher becomes.keyHasher, ← key, ← hash]
    exact keyed.hashed id old there
  resolved := by
    intro id slot member
    obtain ⟨old, there, _, key⟩ := kept id slot (becomes.entries ▸ member)
    rw [← key]
    exact keyed.resolved id old there
  unique := by
    intro id other slot slot' here there equal
    obtain ⟨old, stored, _, key⟩ := kept id slot (becomes.entries ▸ here)
    obtain ⟨old', stored', _, key'⟩ :=
      kept other slot' (becomes.entries ▸ there)
    rw [← key, ← key'] at equal
    exact keyed.unique id other old old' stored stored' equal

variable {slot : Slot} (split : records.entries = before ++ (id, slot) :: rest)

include split

theorem Keyed.replaceValue (becomes : records.Becomes
      (before ++ (id, ⟨⟨slot.record.key, value⟩, slot.hash⟩) :: rest) clock
      after) : after.Keyed seed leaves := by
  apply keyed.of_becomes becomes
  intro other stored member
  rw [split]
  simp only [mem_append, mem_cons, Prod.mk.injEq] at member ⊢
  rcases member with early | ⟨rfl, rfl⟩ | late
  · exact ⟨stored, .inl early, rfl, rfl⟩
  · exact ⟨slot, .inr (.inl ⟨rfl, rfl⟩), rfl, rfl⟩
  · exact ⟨stored, .inr (.inr late), rfl, rfl⟩

theorem Keyed.remove (becomes : records.Becomes (before ++ rest) clock after) :
    after.Keyed seed leaves := by
  apply keyed.of_becomes becomes
  intro other stored member
  refine ⟨stored, ?_, rfl, rfl⟩
  rw [split, perm_middle.mem_iff]
  exact mem_cons_of_mem _ member

end

theorem mem_of_split (split : records.entries = before ++ (id, slot) :: rest) :
    (id, slot) ∈ records.entries := by
  rw [split]
  exact mem_append_right _ mem_cons_self

theorem stored_split (split : records.entries = before ++ (id, slot) :: rest) :
    records.stored.Perm
      (slot.record :: (before ++ rest).map fun entry => entry.2.record) := by
  rw [stored, split]
  exact perm_middle.map _

end CollectionRecords

theorem Resolves.issued (resolves : Resolves leaves key)
    {id : LeafId} (edge : id ∈ rawValueEdge key) : leaves.Issued id := by
  have live : ∃ value, leaves.value? id = some value := by
    cases key <;> cases edge
    all_goals
      obtain ⟨_, known⟩ := isSome_iff_exists.mp resolves
      obtain ⟨value, held, _⟩ := bind_eq_some_iff.mp known
      exact ⟨value, held⟩
  obtain ⟨_, known⟩ := live
  exact issued_of_value? known

theorem value?_of_evolves {after : Leaves} (evolves : leaves.Evolves after)
    {id : LeafId} (issued : leaves.Issued id)
    (known : after.value? id = some value) : leaves.value? id = some value := by
  obtain ⟨leaf, live, same⟩ := map_eq_some_iff.mp known
  obtain ⟨old, there, equal⟩ := evolves.value id leaf issued live
  exact map_eq_some_iff.mpr ⟨old, there, equal.trans same⟩

theorem keyContent_of_evolves {after : Leaves} (evolves : leaves.Evolves after)
    (resolves : Resolves leaves key)
    (live : ∀ id ∈ rawValueEdge key, (after.get? id).isSome) :
    keyContent after key = keyContent leaves key ∧ Resolves after key := by
  have same : ∀ id ∈ rawValueEdge key, after.value? id = leaves.value? id := by
    intro id edge
    obtain ⟨leaf, there⟩ := isSome_iff_exists.mp (live id edge)
    have known : after.value? id = some leaf.value :=
      map_eq_some_iff.mpr ⟨leaf, there, rfl⟩
    rw [known, value?_of_evolves evolves (resolves.issued edge) known]
  obtain ⟨content, kept⟩ := keyContent_congr same
  exact ⟨content, kept.mpr resolves⟩

theorem CollectionRecords.Keyed.of_contents {records : CollectionRecords}
    (keyed : records.Keyed seed leaves) {after : Leaves}
    (remembers : records.keyIndex.Remembers seed after)
    (same : ∀ id slot, (id, slot) ∈ records.entries →
      keyContent after slot.record.key = keyContent leaves slot.record.key ∧
        Resolves after slot.record.key) : records.Keyed seed after where
  wellFormed := keyed.wellFormed
  remembers := remembers
  hashed := by
    intro id slot found
    obtain ⟨_, known⟩ :=
      keyContent_of_storable leaves (keyed.resolved id slot found).1
    rw [keyed.hashed id slot found, hashUncached_eq _ known,
      hashUncached_eq _ ((same id slot found).1.trans known)]
  resolved := by
    intro id slot found
    exact ⟨(keyed.resolved id slot found).1, (same id slot found).2⟩
  unique := by
    intro id other slot slot' found found' equal
    apply keyed.unique id other slot slot' found found'
    rw [sameValueZero_iff] at equal ⊢
    rw [(same id slot found).1, (same other slot' found').1] at equal
    exact equal

theorem CollectionIndex.Remembers.of_evolves {index : CollectionIndex}
    (remembers : index.Remembers seed leaves) {after : Leaves}
    (evolves : leaves.Evolves after) : index.Remembers seed after := by
  intro cached member
  obtain ⟨issued, right⟩ := remembers cached member
  refine ⟨evolves.issued _ issued, ?_⟩
  intro units known
  obtain ⟨value, held, text⟩ := bind_eq_some_iff.mp known
  apply right units
  exact bind_eq_some_iff.mpr
    ⟨value, value?_of_evolves evolves issued held, text⟩

def Collection.edges (collection : Collection) : List LeafId :=
  collection.records.stored.flatMap (Heap.edges collection.kind)

namespace Heap

def owned (heap : Heap) : List LeafId :=
  heap.objects.values.flatMap Collection.edges

/-- The edges of the records and of the list are counted, and every collection
is in order. -/
structure Sound (seed : UInt64) (heap : Heap) (held : List LeafId) :
    Prop where
  covered : heap.leaves.Cover (held ++ heap.owned)
  keyed : ∀ id collection, heap.objects.get? id = some collection →
    collection.records.Keyed seed heap.leaves

variable {heap : Heap}

variable {id : Handle}

theorem mem_edges_key
    (member : edge ∈ rawValueEdge record.key) : edge ∈ edges kind record := by
  have inside := mem_toList.mpr member
  cases kind with
  | map => exact mem_append_left _ inside
  | set => exact inside

theorem mem_owned (live : heap.objects.get? id = some collection)
    (found : (index, slot) ∈ collection.records.entries)
    (key : edge ∈ rawValueEdge slot.record.key) : edge ∈ heap.owned := by
  refine mem_flatMap.mpr ⟨collection, Arena.mem_values live, ?_⟩
  exact mem_flatMap.mpr
    ⟨slot.record, mem_map.mpr ⟨_, found, rfl⟩, mem_edges_key key⟩

variable (sound : heap.Sound seed held)

include sound

theorem Sound.mono (fits : fewer.Subperm held) : heap.Sound seed fewer :=
  ⟨sound.covered.mono (fits.append (Subperm.refl _)), sound.keyed⟩

theorem Sound.evolve {leaves : Leaves} (evolves : heap.leaves.Evolves leaves)
    (covered : leaves.Cover (others ++ heap.owned)) :
    Sound seed ⟨leaves, heap.objects⟩ others := by
  refine ⟨covered, ?_⟩
  intro id collection live
  have keyed := sound.keyed id collection live
  apply keyed.of_contents (keyed.remembers.of_evolves evolves)
  intro index slot found
  apply keyContent_of_evolves evolves (keyed.resolved index slot found).2
  intro edge key
  exact covered.isSome (mem_append_right _ (mem_owned live found key))

theorem Sound.store {before after : CollectionRecords}
    (live : heap.objects.get? id = some ⟨kind, before⟩)
    (keyed : after.Keyed seed heap.leaves)
    (moved : (others ++ Collection.edges ⟨kind, after⟩).Subperm
      (held ++ Collection.edges ⟨kind, before⟩)) :
    Sound seed ⟨heap.leaves, heap.objects.replace id ⟨kind, after⟩⟩ others := by
  refine ⟨?_, ?_⟩
  · obtain ⟨rest, old, new⟩ := Arena.values_replace live
    apply sound.covered.mono
    have oldEdges : heap.owned.Perm
        (Collection.edges ⟨kind, before⟩ ++ rest.flatMap Collection.edges) :=
      old.flatMap_right _
    have newEdges : (owned ⟨heap.leaves,
        heap.objects.replace id ⟨kind, after⟩⟩).Perm
        (Collection.edges ⟨kind, after⟩ ++ rest.flatMap Collection.edges) :=
      (new ⟨kind, after⟩).flatMap_right _
    apply (newEdges.append_left others).subperm.trans
    apply Subperm.trans _ (oldEdges.append_left held).symm.subperm
    rw [← append_assoc, ← append_assoc]
    exact moved.append (Subperm.refl _)
  · intro other collection found
    rw [Arena.get?_replace live] at found
    split at found
    · cases found
      exact keyed
    · exact sound.keyed other collection found

end Heap

end QuickJsOxide.Collections
