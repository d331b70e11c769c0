import QuickJsOxide.Collections.Soundness
import QuickJsOxide.Library.Triples

namespace QuickJsOxide.Collections

open Library List CollectionRecords Arena

/-! The operations of the heap keep it sound. -/

namespace Heap

variable {heap : Heap}

structure Recounts (seed : UInt64) (heap : Heap) (held : List LeafId)
    (after : Heap) : Prop where
  sound : after.Sound seed held
  objects : after.objects = heap.objects
  evolves : heap.leaves.Evolves after.leaves

abbrev StaysSound (heap : Heap) (seed : UInt64) (held : List LeafId)
    (operation : Operation α) : Prop :=
  Meets operation heap (fun _ after => after.Sound seed held)
    (fun after => after.Sound seed held)

section

variable (sound : heap.Sound seed held)

include sound

theorem Recounts.refl : heap.Recounts seed held heap :=
  ⟨sound, rfl, .refl _⟩

omit sound in
theorem Recounts.trans {middle after : Heap}
    (early : heap.Recounts seed between middle)
    (late : middle.Recounts seed others after) :
    heap.Recounts seed others after :=
  ⟨late.sound, late.objects.trans early.objects,
    early.evolves.trans late.evolves⟩

omit sound in
theorem Recounts.mono {after : Heap} (recounts : heap.Recounts seed held after)
    (fits : fewer.Subperm held) : heap.Recounts seed fewer after :=
  ⟨recounts.sound.mono fits, recounts.objects, recounts.evolves⟩

theorem Sound.recount {leaves : Leaves} (evolves : heap.leaves.Evolves leaves)
    (covered : leaves.Cover (others ++ heap.owned)) :
    heap.Recounts seed others ⟨leaves, heap.objects⟩ :=
  ⟨sound.evolve evolves covered, rfl, evolves⟩

theorem allocateLeaf_meets (value : LeafValue) : Meets (allocateLeaf value) heap
      (fun id after => heap.Recounts seed (id :: held) after)
      (· = heap) := by
  unfold Meets allocateLeaf
  cases taken : heap.leaves.allocate slotLimit ⟨1, value⟩ with
  | none => rfl
  | some =>
    exact sound.recount (evolves_allocate taken)
      (cover_allocate sound.covered taken)

omit sound in
theorem liveLeaf_meets (id : LeafId) : Meets (liveLeaf id) heap
      (fun leaf after => after = heap ∧ heap.leaves.get? id = some leaf)
      (fun after => after = heap ∧ heap.leaves.get? id = none) := by
  unfold Meets liveLeaf
  cases live : heap.leaves.get? id with
  | none | some => exact ⟨rfl, rfl⟩

omit sound in
theorem preflightEdgeRetain_meets (edge : LeafId) (additional : Nat) :
    Meets (preflightEdgeRetain edge additional) heap
      (fun _ after => after = heap) (· = heap) := by
  apply Meets.bind (liveLeaf_meets edge)
  · intro leaf after found
    obtain ⟨rfl, _⟩ := found
    split
    · exact .pure rfl
    · exact .throw rfl
  · intro after found
    exact found.1

theorem retainRaw_meets (id : LeafId) : Meets (retainRaw id 1) heap
      (fun _ after => heap.Recounts seed (id :: held) after)
      (· = heap) := by
  apply Meets.bind (liveLeaf_meets id)
  · intro leaf after found
    obtain ⟨rfl, live⟩ := found
    split
    · rename_i room
      apply Meets.changed
      apply sound.recount (evolves_replace live _)
      apply cover_retain sound.covered live (.inr rfl)
      intro immortal
      omega
    · exact .throw rfl
  · intro after found
    exact found.1

theorem retainRawFast_meets (id : LeafId) : Meets (retainRawFast id) heap
      (fun _ after => heap.Recounts seed (id :: held) after)
      (· = heap) := by
  apply Meets.bind (liveLeaf_meets id)
  · intro leaf after found
    obtain ⟨rfl, live⟩ := found
    apply Meets.changed
    apply sound.recount (evolves_replace live _)
    apply cover_retain sound.covered live
    · omega
    · omega
  · intro after found
    exact found.1

theorem retainRaw_twice_meets (first second : LeafId) :
    Meets (do retainRaw first 1; retainRaw second 1) heap
      (fun _ after => heap.Recounts seed (first :: second :: held) after)
      (fun after => heap.Recounts seed held after) := by
  refine .bind_same (retainRaw_meets sound first) ?_ (.refl sound)
  intro _ middle early
  apply Meets.weaken (retainRaw_meets early.sound second)
  · intro _ after late
    exact (early.trans late).mono (Perm.swap _ _ _).subperm
  · intro after same
    subst same
    exact early.mono (Sublist.subperm (sublist_cons_self _ _))

theorem retainEdgesTransactionally_meets {edges : List LeafId}
    (few : edges.length ≤ 2) : Meets (retainEdgesTransactionally edges) heap
      (fun _ after => heap.Recounts seed (edges ++ held) after)
      (fun after => heap.Recounts seed held after) := by
  have unchanged : ∀ after, after = heap → heap.Recounts seed held after := by
    intro after same
    subst same
    exact .refl sound
  match edges, few with
  | [], _ => exact .pure (.refl sound)
  | [edge], _ =>
    apply Meets.bind (preflightEdgeRetain_meets edge 1) _ unchanged
    intro _ after same
    subst same
    exact .weaken (retainRaw_meets sound edge) (fun _ _ => id) unchanged
  | [first, second], _ =>
    rw [retainEdgesTransactionally]
    split
    · apply Meets.bind (preflightEdgeRetain_meets first 2) _ unchanged
      intro _ after same
      subst same
      exact retainRaw_twice_meets sound first second
    · apply Meets.bind (preflightEdgeRetain_meets first 1) _ unchanged
      intro _ after same
      subst same
      apply Meets.bind (preflightEdgeRetain_meets second 1) _ unchanged
      intro _ after same
      subst same
      exact retainRaw_twice_meets sound first second

omit sound in
theorem releaseRaw_meets {id : LeafId} (sound : heap.Sound seed (id :: held)) :
    Meets (releaseRaw id) heap
      (fun _ after => heap.Recounts seed held after) (fun _ => False) := by
  obtain ⟨known, alive, counted⟩ := sound.covered id mem_cons_self
  have fewer := sound.mono (sublist_cons_self id held).subperm
  apply Meets.bind (liveLeaf_meets id)
  · intro leaf after found
    obtain ⟨rfl, live⟩ := found
    rw [live] at alive
    cases alive
    split
    · exact .pure (.refl fewer)
    · rename_i mortal
      have positive : 0 < known.strong := by
        have enough := counted.resolve_left mortal
        rw [cons_append, count_cons_self] at enough
        omega
      split
      · omega
      · split
        · rename_i sole
          apply Meets.changed
          exact sound.recount (evolves_reclaim live)
            (cover_reclaim sound.covered live sole)
        · apply Meets.changed
          exact sound.recount (evolves_replace live _)
            (cover_lower sound.covered live mortal)
  · intro after found
    rw [found.2] at alive
    cases alive

omit sound in
theorem releaseEdges_meets (edges : List LeafId) :
    ∀ heap : Heap, heap.Sound seed (edges ++ held) →
      Meets (releaseEdges edges) heap
        (fun _ after => heap.Recounts seed held after) (fun _ => False) := by
  induction edges with
  | nil =>
    intro heap sound
    exact .pure (.refl sound)
  | cons _ _ ih =>
    intro heap sound
    apply Meets.sequel (releaseRaw_meets sound)
    intro _ middle early
    apply Meets.weaken (ih middle early.sound)
    · intro _ after late
      exact early.trans late
    · intro _ impossible
      exact impossible

omit sound in
theorem releaseEdges_sound {edges : List LeafId}
    (sound : heap.Sound seed (edges ++ held)) :
    heap.StaysSound seed held (releaseEdges edges) := by
  apply Meets.weaken (releaseEdges_meets edges heap sound)
  · intro _ after recounts
    exact recounts.sound
  · intro _ impossible
    exact impossible.elim

omit sound in
theorem recordsOf_meets (kind : CollectionClass) (id : Handle)
    (action : String) : Meets (recordsOf kind id action) heap
      (fun records after => after = heap ∧
        heap.objects.get? id = some ⟨kind, records⟩)
      (· = heap) := by
  unfold Meets recordsOf
  cases live : heap.objects.get? id with
  | none => rfl
  | some collection =>
    obtain ⟨found, records⟩ := collection
    dsimp only
    by_cases same : found = kind
    · rw [if_pos same]
      subst same
      exact ⟨rfl, rfl⟩
    · rw [if_neg same]

omit sound in
def Absent (heap : Heap) (kind : CollectionClass) (id : Handle)
    (key : RawValue) : Prop :=
  ∀ records, heap.objects.get? id = some ⟨kind, records⟩ →
    ∀ index slot, (index, slot) ∈ records.entries →
      ¬ sameValueZero heap.leaves slot.record.key key

omit sound in
/-- A record that is added finds a slot number that is not the mark of a
deleted record. -/
def HasRoom (heap : Heap) (kind : CollectionClass) (id : Handle) : Prop :=
  ∀ records, heap.objects.get? id = some ⟨kind, records⟩ →
    records.slots.length < dead.toNat

omit sound in
/-- The same heap up to what one collection remembers. -/
structure Remembering (seed : UInt64) (heap : Heap) (held : List LeafId)
    (kind : CollectionClass) (id : Handle) (after : Heap) : Prop where
  sound : after.Sound seed held
  leaves : after.leaves = heap.leaves
  absent : ∀ key, heap.Absent kind id key → after.Absent kind id key
  room : heap.HasRoom kind id → after.HasRoom kind id

variable {id : Handle}

theorem remembering_of_hash (live : heap.objects.get? id = some ⟨kind, records⟩)
    (remembers : CollectionIndex.Remembers seed heap.leaves
      ⟨records.keyIndex.buckets, records.keyIndex.keyHasher, hashes⟩) :
    heap.Remembering seed held kind id
      ⟨heap.leaves, heap.objects.replace id ⟨kind, records.slots, records.live,
        records.liveLen,
        ⟨records.keyIndex.buckets, records.keyIndex.keyHasher, hashes⟩,
        records.nextId⟩⟩ := by
  have keyed := sound.keyed id _ live
  have wellFormed := keyed.wellFormed
  have found : ∀ new, (heap.objects.replace id new).get? id = some new :=
    fun new => (get?_replace live new id).trans (if_pos rfl)
  refine ⟨sound.store live ?_ (Subperm.refl _), rfl, ?_, ?_⟩
  · refine ⟨?_, remembers, ?_, keyed.resolved, keyed.unique⟩
    · exact { wellFormed with }
    · intro index slot member
      exact (keyed.hashed index slot member).trans
        (hashUncached_of_keyHasher rfl _).symm
  · intro key absent other known
    rw [found] at known
    cases known
    exact absent records live
  · intro room other known
    rw [found] at known
    cases known
    exact room records live

section

variable (kind : CollectionClass) (id : Handle)
  (resolves : Resolves heap.leaves key)

include resolves

theorem findEntry_meets : Meets (findEntry seed kind id key) heap
      (fun found after => heap.Remembering seed held kind id after ∧
        (found = none → heap.Absent kind id key)) (· = heap) := by
  unfold findEntry
  split
  · refine .observe (recordsOf_meets kind id _) ?_ rfl
    intro records live
    obtain ⟨found, _, searched, remembers, _, missing⟩ :=
      (sound.keyed id _ live).findEntry resolves
    apply Meets.get
    rw [searched]
    apply Meets.changed_bind
    refine .pure ⟨remembering_of_hash sound live remembers, ?_⟩
    intro none other known
    rw [live] at known
    cases known
    exact missing none
  · exact .throw rfl

theorem precomputeInsertHash_meets :
    Meets (precomputeInsertHash seed kind id key) heap
      (fun hash after => heap.Remembering seed held kind id after ∧
        ∃ records, after.objects.get? id = some ⟨kind, records⟩ ∧
          records.nextId < maxIdentity ∧
          hash = records.keyIndex.hashUncached seed heap.leaves key)
      (· = heap) := by
  refine .observe (recordsOf_meets kind id _) ?_ rfl
  intro records live
  by_cases clock : records.nextId < maxIdentity
  · apply Meets.ofExcept (if_pos clock)
    obtain ⟨_, hash, remembers⟩ :=
      CollectionIndex.hash_spec (sound.keyed id _ live).remembers resolves
    apply Meets.get
    rw [hash]
    apply Meets.changed_bind
    refine .pure ⟨remembering_of_hash sound live remembers, ?_⟩
    refine ⟨_, (get?_replace live _ _).trans (if_pos rfl), clock, ?_⟩
    exact (hashUncached_of_keyHasher rfl key).symm
  · exact .ofExcept_error (if_neg clock) rfl

end

omit sound in
theorem length_edges (kind : CollectionClass) (record : MapRecord) :
    (edges kind record).length ≤ 2 := by
  have atMost : ∀ value, (rawValueEdge value).toList.length ≤ 1 := by
    intro value
    cases rawValueEdge value with
    | none => exact Nat.zero_le _
    | some => exact Nat.le_refl _
  have key := atMost record.key
  have value := atMost record.value
  cases kind with
  | map =>
    unfold edges
    rw [length_append]
    omega
  | set => exact Nat.le_succ_of_le key

variable {record : MapRecord}

omit sound in
theorem Absent.of_recounts {after : Heap} (absent : heap.Absent kind id key)
    (sound : heap.Sound seed held) (recounts : heap.Recounts seed others after)
    (content : keyContent after.leaves key = keyContent heap.leaves key) :
    after.Absent kind id key := by
  intro records live index slot found equal
  have before := recounts.objects ▸ live
  have keyed := sound.keyed id _ before
  apply absent records before index slot found
  have kept := keyContent_of_evolves recounts.evolves
    (keyed.resolved index slot found).2 fun edge member =>
      recounts.sound.covered.isSome
        (mem_append_right _ (mem_owned live found member))
  rw [sameValueZero_iff] at equal ⊢
  rw [kept.1, content] at equal
  exact equal

omit sound in
theorem storeInserted_meets {hash : UInt64}
    (sound : heap.Sound seed (edges kind record ++ held))
    (live : heap.objects.get? id = some ⟨kind, records⟩)
    (room : records.slots.length < dead.toNat)
    (clock : records.nextId < maxIdentity)
    (storable : isMapStorableValue record.key)
    (resolves : Resolves heap.leaves record.key)
    (hashed : hash = records.keyIndex.hashUncached seed heap.leaves record.key)
    (absent : heap.Absent kind id record.key) :
    heap.StaysSound seed held (do
      let records ← recordsOf kind id "insertion"
      let (_, records) ← MonadExcept.ofExcept (records.insertHashed record hash)
      storeRecords kind id records) := by
  refine .observe (recordsOf_meets kind id _) ?_
    (sound.mono (sublist_append_right _ _).subperm)
  intro found known
  rw [live] at known
  cases known
  have keyed := sound.keyed id _ live
  obtain ⟨after, inserted, _, becomes⟩ :=
    keyed.wellFormed.insertHashed room clock record hash
  apply Meets.ofExcept inserted
  apply Meets.changed
  subst hashed
  apply sound.store live (keyed.insertHashed becomes storable resolves
    (absent records live))
  apply Perm.subperm
  unfold Collection.edges stored
  rw [becomes.entries, map_append, flatMap_append, map_singleton,
    flatMap_singleton]
  apply perm_iff_count.mpr
  intro edge
  simp only [count_append]
  omega

theorem insertRecord_meets (resolves : Resolves heap.leaves record.key)
    (absent : heap.Absent kind id record.key) (room : heap.HasRoom kind id) :
    heap.StaysSound seed held (insertRecord seed kind id record) := by
  unfold insertRecord
  split
  · rename_i checked
    have storable := (Bool.and_eq_true_iff.mp checked).1
    refine .bind_same
      (precomputeInsertHash_meets sound kind id resolves) ?_ sound
    intro hash middle found
    obtain ⟨remembering, records, live, clock, hashed⟩ := found
    have retained := retainEdgesTransactionally_meets remembering.sound
      (length_edges kind record)
    apply Meets.bind retained
    · intro _ after recounts
      have kept := keyContent_of_evolves recounts.evolves
        (remembering.leaves ▸ resolves) fun edge member =>
          recounts.sound.covered.isSome (mem_append_left _
            (mem_append_left _ (mem_edges_key member)))
      obtain ⟨_, known⟩ :=
        keyContent_of_storable middle.leaves storable
      apply storeInserted_meets recounts.sound (recounts.objects ▸ live)
        (remembering.room room records live) clock storable kept.2
      · rw [hashed, ← remembering.leaves,
          CollectionIndex.hashUncached_eq _ known,
          CollectionIndex.hashUncached_eq _ (kept.1.trans known)]
      · exact (remembering.absent _ absent).of_recounts remembering.sound
          recounts kept.1
    · intro after recounts
      exact recounts.sound
  · exact .throw sound

variable {records after : CollectionRecords} {slot : Slot}

omit sound in
theorem exchange_edges (held : List LeafId)
    (old : records.entries = early ++ (index, slot) :: late)
    (new : after.entries = early ++
      (index, ⟨⟨slot.record.key, value⟩, slot.hash⟩) :: late) :
    (((rawValueEdge slot.record.value).toList ++ held) ++
        Collection.edges ⟨.map, after⟩).Perm
      (((rawValueEdge value).toList ++ held) ++
        Collection.edges ⟨.map, records⟩) := by
  apply perm_iff_count.mpr
  intro edge
  have first := ((stored_split old).flatMap_right (edges .map)).count_eq edge
  have second := ((stored_split new).flatMap_right (edges .map)).count_eq edge
  unfold Collection.edges
  simp only [flatMap_cons, edges, count_append] at first second ⊢
  omega

theorem mapReplaceRecordValue_meets (id : Handle) (index : Nat)
    (value : RawValue) :
    heap.StaysSound seed held (mapReplaceRecordValue id index value) := by
  unfold mapReplaceRecordValue
  split
  · refine .observe (recordsOf_meets .map id _) ?_ sound
    intro records live
    have wellFormed := (sound.keyed id _ live).wellFormed
    rcases wellFormed.get index with ⟨_, none⟩ | ⟨slot, member, found⟩
    · apply Meets.ofExcept none
      exact .throw sound
    · apply Meets.ofExcept found
      have few : (rawValueEdge value).toList.length ≤ 2 := by
        cases rawValueEdge value with
        | none => exact Nat.zero_le _
        | some => exact Nat.le_succ 1
      apply Meets.bind (retainEdgesTransactionally_meets sound few)
      · intro _ middle recounts
        have there := recounts.objects.symm ▸ live
        have keyed := recounts.sound.keyed id _ there
        rcases wellFormed.replaceValue index value with
          ⟨absent, _⟩ | ⟨_, _, _, after, split, replaced, becomes⟩
        · exact absurd member (absent slot)
        · apply Meets.ofExcept replaced
          apply Meets.changed_bind
          exact releaseEdges_sound (recounts.sound.store there
            (keyed.replaceValue split becomes)
            (exchange_edges held split becomes.entries).subperm)
      · intro after recounts
        exact recounts.sound
  · exact .throw sound

omit sound in
theorem remove_edges (kind : CollectionClass) (held : List LeafId)
    (old : records.entries = early ++ (index, slot) :: late)
    (new : after.entries = early ++ late) :
    ((edges kind slot.record ++ held) ++ Collection.edges ⟨kind, after⟩).Perm
      (held ++ Collection.edges ⟨kind, records⟩) := by
  apply perm_iff_count.mpr
  intro edge
  have counted := ((stored_split old).flatMap_right (edges kind)).count_eq edge
  unfold Collection.edges
  rw [stored, stored, new] at *
  simp only [flatMap_cons, count_append] at counted ⊢
  omega

theorem detachRecord_meets (live : heap.objects.get? id = some ⟨kind, records⟩)
    (index : Nat) :
    heap.StaysSound seed held (detachRecord kind id records index) := by
  have keyed := sound.keyed id _ live
  rcases keyed.wellFormed.remove index with
    ⟨_, missing⟩ | ⟨_, slot, _, after, split, removed, becomes⟩
  · apply Meets.ofExcept missing
    exact .throw sound
  · apply Meets.ofExcept removed
    apply Meets.changed_bind
    exact releaseEdges_sound (sound.store live (keyed.remove split becomes)
      (remove_edges kind held split becomes.entries).subperm)

theorem mapDeleteRecord_meets (id : Handle) (index : Nat) :
    heap.StaysSound seed held (mapDeleteRecord id index) := by
  refine .observe (recordsOf_meets .map id _) ?_ sound
  intro records live
  exact detachRecord_meets sound live index

theorem setDeleteRecord_meets (id : Handle) (index : Nat) :
    heap.StaysSound seed held (setDeleteRecord id index) := by
  refine .observe (recordsOf_meets .set id _) ?_ sound
  intro records live
  rcases (sound.keyed id _ live).wellFormed.get index with
    ⟨_, none⟩ | ⟨slot, _, found⟩
  · apply Meets.ofExcept none
    exact .throw sound
  · apply Meets.ofExcept found
    dsimp only
    split
    · exact detachRecord_meets sound live index
    · exact .throw sound

theorem clearRecords_meets (kind : CollectionClass) (id : Handle) :
    heap.StaysSound seed held (clearRecords kind id) := by
  refine .observe (recordsOf_meets kind id _) ?_ sound
  intro records live
  have keyed := sound.keyed id _ live
  obtain ⟨after, taken, becomes⟩ := keyed.wellFormed.takeAll
  apply Meets.ofExcept taken
  apply Meets.changed_bind
  apply releaseEdges_sound
  apply sound.store live (keyed.of_becomes becomes (by rintro _ _ ⟨⟩))
  have none : Collection.edges ⟨kind, after⟩ = [] := by
    rw [Collection.edges, stored, becomes.entries]
    rfl
  rw [none, append_nil]
  exact perm_append_comm.subperm

theorem newCollection_meets (kind : CollectionClass) (keyHasher : KeyHasher) :
    heap.StaysSound seed held (newCollection kind keyHasher) := by
  unfold StaysSound Meets newCollection
  cases taken : heap.objects.allocate slotLimit ⟨kind, .new keyHasher⟩ with
  | none => exact sound
  | some =>
    refine ⟨?_, ?_⟩
    · apply sound.covered.perm
      exact ((values_allocate taken).flatMap_right _).append_left held
    · intro other collection found
      rw [get?_allocate taken] at found
      split at found
      · cases found
        exact keyed_new keyHasher
      · exact sound.keyed other collection found

theorem dropCollection_meets (id : Handle) :
    heap.StaysSound seed held (dropCollection id) := by
  cases live : heap.objects.get? id with
  | none =>
    unfold StaysSound Meets dropCollection
    rw [live]
    exact sound
  | some collection =>
    obtain ⟨_, taken, _⟩ :=
      (sound.keyed id collection live).wellFormed.takeAll
    have dropped : Sound seed
        ⟨heap.leaves, heap.objects.reclaim slotLimit id⟩
        (collection.edges ++ held) := by
      refine ⟨?_, ?_⟩
      · apply sound.covered.perm
        have owned := (values_reclaim live slotLimit).flatMap_right
          Collection.edges
        apply perm_iff_count.mpr
        intro edge
        have counted := owned.count_eq edge
        simp only [flatMap_cons, count_append] at counted ⊢
        unfold Heap.owned
        dsimp only
        omega
      · intro other found there
        rw [get?_reclaim live] at there
        split at there
        · cases there
        · exact sound.keyed other found there
    have released := releaseEdges_sound dropped
    unfold StaysSound Meets dropCollection
    rw [live]
    dsimp only
    rw [taken]
    exact released

end

end Heap

end QuickJsOxide.Collections
