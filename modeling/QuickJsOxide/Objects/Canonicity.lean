import QuickJsOxide.Objects.Interner
import QuickJsOxide.Objects.Transactions

namespace QuickJsOxide.Objects

open Library Function List

/-! Live ordinary shapes are cached under their fingerprints, one for each
layout. -/

def Heap.Ordinary (heap : Heap) (id : ShapeId) (shape : Shape) : Prop :=
  ∃ strong, heap.shapes.get? id = some ⟨strong, shape⟩ ∧
    shape.isDictionary = false

variable {scope : Heap.Scope} {shape : Shape} {id : ShapeId}

theorem Heap.Frame.ordinary_iff {heap after : Heap}
    (frame : heap.Frame scope after) (fixed : ¬ scope.changed id)
    (lasts : ¬ scope.passing id) :
    after.Ordinary id shape ↔ heap.Ordinary id shape := by
  have lasting := frame.lasting id lasts
  have step : ∀ {old new : Counted Shape}, heap.shapes.get? id = some old →
      after.shapes.get? id = some new → old.value = new.value ∨
        old.value.isDictionary ∧ new.value.isDictionary := by
    intro old new before live
    obtain ⟨_, again, step⟩ :=
      frame.shapes.value id _ (Arena.issued_of_get? before) live
    rw [before] at again
    cases again
    exact step.imp_right fun moved => moved.2.resolve_right fixed
  constructor
  · intro ordinary
    obtain ⟨strong, live, plain⟩ := ordinary
    rw [live] at lasting
    obtain ⟨⟨count, old⟩, before⟩ := Option.isSome_iff_exists.mp lasting.symm
    rcases step before live with same | dictionaries
    · cases same
      exact ⟨count, before, plain⟩
    · rw [dictionaries.2] at plain
      cases plain
  · intro ordinary
    obtain ⟨_, before, plain⟩ := ordinary
    rw [before] at lasting
    obtain ⟨⟨count, new⟩, live⟩ := Option.isSome_iff_exists.mp lasting
    rcases step before live with same | dictionaries
    · cases same
      exact ⟨count, live, plain⟩
    · rw [dictionaries.1] at plain
      cases plain

namespace RuntimeState

/-- The cache is right about all shapes but the odd ones, which are about to
be taken out or put in. -/
structure Canonical (odd : ShapeId → Prop) (held : List ShapeId)
    (state : RuntimeState) : Prop where
  heap : state.heap.Sound held
  fingerprint : ∀ id shape, ¬ odd id → state.heap.Ordinary id shape →
    shape.fingerprintHash =
      computeFingerprintHash shape.prototype shape.entries
  bucket : ∀ hash id, id ∈ state.shapeCache hash →
    odd id ∨ ∃ shape, state.heap.Ordinary id shape ∧
      shape.fingerprintHash = hash
  hashes : ∀ hash id, id ∈ state.shapeCache hash ↔
    state.shapeHashes id = some hash
  interned : ∀ id shape, ¬ odd id → state.heap.Ordinary id shape →
    id ∈ state.shapeCache shape.fingerprintHash
  unique : ∀ id other shape another, ¬ odd id → ¬ odd other →
    state.heap.Ordinary id shape → state.heap.Ordinary other another →
    shape.prototype = another.prototype → shape.entries = another.entries →
    id = other

variable {state : RuntimeState}

def Clean (held : List ShapeId) (state : RuntimeState) : Prop :=
  state.Canonical (fun _ => False) held

abbrev StaysClean (state : RuntimeState) (held : List ShapeId)
    (operation : RuntimeOperation α) : Prop :=
  Meets operation state (fun _ after => after.Clean held)
    (fun after => after.Clean held)

abbrev HandsClean (state : RuntimeState) (held : List ShapeId)
    (operation : RuntimeOperation ShapeId) : Prop :=
  Meets operation state (fun id after => after.Clean (id :: held))
    (fun after => after.Clean held)

namespace Canonical

section

variable (canonical : state.Canonical odd held)

include canonical

theorem congr {after : RuntimeState} (heap : after.heap = state.heap)
    (cache : after.shapeCache = state.shapeCache)
    (hashes : after.shapeHashes = state.shapeHashes) :
    after.Canonical odd held := by
  obtain ⟨sound, fingerprint, bucket, known, interned, unique⟩ := canonical
  rw [← heap] at sound fingerprint bucket interned unique
  rw [← cache] at bucket known interned
  rw [← hashes] at known
  exact ⟨sound, fingerprint, bucket, known, interned, unique⟩

theorem transfer {after : RuntimeState} {strange : ShapeId → Prop}
    (sound : after.heap.Sound others)
    (earlier : ∀ {id shape}, ¬ strange id → after.heap.Ordinary id shape →
      ¬ odd id ∧ state.heap.Ordinary id shape)
    (kept : ∀ {id shape hash}, ¬ strange id → after.heap.Ordinary id shape →
      id ∈ state.shapeCache hash → id ∈ after.shapeCache hash)
    (hashes : ∀ hash id, id ∈ after.shapeCache hash ↔
      after.shapeHashes id = some hash)
    (bucket : ∀ hash id, id ∈ after.shapeCache hash →
      strange id ∨ ∃ shape, after.heap.Ordinary id shape ∧
        shape.fingerprintHash = hash) : after.Canonical strange others where
  heap := sound
  fingerprint id shape settled ordinary := by
    obtain ⟨even, before⟩ := earlier settled ordinary
    exact canonical.fingerprint id shape even before
  bucket := bucket
  hashes := hashes
  interned id shape settled ordinary := by
    obtain ⟨even, before⟩ := earlier settled ordinary
    exact kept settled ordinary (canonical.interned id shape even before)
  unique id other shape another settled fixed ordinary present := by
    obtain ⟨even, before⟩ := earlier settled ordinary
    obtain ⟨level, there⟩ := earlier fixed present
    exact canonical.unique id other shape another even level before there

theorem steps {others : List ShapeId} {heap : Heap}
    (steps : state.heap.Steps scope others heap) :
    Canonical (fun id => odd id ∨ scope.changed id ∨ scope.passing id) others
      { state with heap } := by
  have same : ∀ id shape, ¬ (odd id ∨ scope.changed id ∨ scope.passing id) →
      (heap.Ordinary id shape ↔ state.heap.Ordinary id shape) := by
    intro id shape even
    rw [not_or, not_or] at even
    exact steps.frame.ordinary_iff even.2.1 even.2.2
  have even : ∀ {id},
      ¬ (odd id ∨ scope.changed id ∨ scope.passing id) → ¬ odd id :=
    fun none some => none (.inl some)
  refine canonical.transfer steps.sound (fun settled ordinary =>
    ⟨even settled, (same _ _ settled).mp ordinary⟩)
    (fun _ _ member => member) canonical.hashes ?_
  intro hash id member
  by_cases settled : odd id ∨ scope.changed id ∨ scope.passing id
  · exact .inl settled
  · right
    obtain ⟨shape, ordinary, hashed⟩ :=
      (canonical.bucket hash id member).resolve_left (even settled)
    exact ⟨shape, (same id shape settled).mpr ordinary, hashed⟩

theorem settle
    (settled : ∀ id, odd id → (∀ shape, ¬ state.heap.Ordinary id shape) ∧
      ∀ hash, id ∉ state.shapeCache hash) : state.Clean held := by
  refine canonical.transfer canonical.heap (fun _ ordinary =>
    ⟨fun some => (settled _ some).1 _ ordinary, ordinary⟩)
    (fun _ _ member => member) canonical.hashes ?_
  intro hash id member
  right
  apply (canonical.bucket hash id member).resolve_left
  intro some
  exact (settled id some).2 hash member

theorem mono (none : ∀ id, ¬ odd id) : state.Clean held :=
  canonical.settle fun id some => (none id some).elim

end

end Canonical

theorem Clean.unaffected (clean : state.Clean held) {heap : Heap}
    (steps : state.heap.Steps .none others heap) :
    Clean others { state with heap } := by
  apply (Canonical.steps clean steps).mono
  intro id some
  rcases some with none | none | none
  all_goals exact none

theorem removeShapeCache_heap (state : RuntimeState) (shape : ShapeId) :
    (state.removeShapeCache shape).2.heap = state.heap := by
  unfold removeShapeCache
  split
  all_goals rfl

section

variable
  (hashes : ∀ hash id, id ∈ state.shapeCache hash ↔ state.shapeHashes id = some hash)
  (shape : ShapeId) (hash : UInt64) (id : ShapeId)

include hashes

theorem mem_removeShapeCache : id ∈
    (state.removeShapeCache shape).2.shapeCache hash ↔
      id ∈ state.shapeCache hash ∧ id ≠ shape := by
  unfold removeShapeCache
  split
  · rename_i absent
    refine ⟨fun member => ⟨member, ?_⟩, fun member => member.1⟩
    intro same
    rw [same, hashes, absent] at member
    cases member
  · rename_i known present
    dsimp only
    by_cases same : hash = known
    · subst same
      rw [update_self, mem_filter, decide_eq_true_eq]
    · rw [update_of_ne same]
      refine ⟨fun member => ⟨member, ?_⟩, fun member => member.1⟩
      intro equal
      rw [equal, hashes, present] at member
      exact same (Option.some.inj member).symm

theorem hashes_removeShapeCache : id ∈
    (state.removeShapeCache shape).2.shapeCache hash ↔
      (state.removeShapeCache shape).2.shapeHashes id = some hash := by
  rw [mem_removeShapeCache hashes]
  unfold removeShapeCache
  split
  · rename_i absent
    rw [hashes]
    refine ⟨fun member => member.1, fun known => ⟨known, ?_⟩⟩
    intro same
    rw [same, absent] at known
    cases known
  · dsimp only
    by_cases same : id = shape
    · rw [same, update_self]
      simp
    · rw [update_of_ne same, hashes]
      exact ⟨fun member => member.1, fun known => ⟨known, same⟩⟩

end

theorem Canonical.removeShapeCache (canonical : state.Canonical odd held)
    (shape : ShapeId) (strange : ∀ layout, ¬ state.heap.Ordinary shape layout) :
    (state.removeShapeCache shape).2.Canonical
      (fun id => odd id ∧ id ≠ shape) held := by
  have heap := state.removeShapeCache_heap shape
  have cached := mem_removeShapeCache canonical.hashes shape
  have apart : ∀ {id layout}, state.heap.Ordinary id layout → id ≠ shape :=
    fun ordinary same => strange _ (same ▸ ordinary)
  refine canonical.transfer (heap ▸ canonical.heap) ?_ ?_
    (hashes_removeShapeCache canonical.hashes shape) ?_
  · rw [heap]
    intro id layout settled ordinary
    exact ⟨fun some => settled ⟨some, apart ordinary⟩, ordinary⟩
  · rw [heap]
    intro id layout hash _ ordinary member
    exact (cached hash id).mpr ⟨member, apart ordinary⟩
  · rw [heap]
    intro hash id member
    rw [cached] at member
    exact (canonical.bucket hash id member.1).imp_left
      fun some => ⟨some, member.2⟩

theorem unlinkFinalizedShapes_heap (gone : List ShapeId) :
    ∀ state : RuntimeState,
      (state.unlinkFinalizedShapes gone).heap = state.heap := by
  induction gone with
  | nil =>
    intro state
    rfl
  | cons shape _ ih =>
    intro state
    exact (ih _).trans (removeShapeCache_heap _ shape)

theorem Canonical.unlinkFinalizedShapes (gone : List ShapeId) :
    ∀ {state : RuntimeState} {odd : ShapeId → Prop}, state.Canonical odd held →
      (∀ id ∈ gone, ∀ shape, ¬ state.heap.Ordinary id shape) →
      (state.unlinkFinalizedShapes gone).Canonical
        (fun id => odd id ∧ id ∉ gone) held := by
  induction gone with
  | nil =>
    intro state odd canonical _
    have same : (fun id => odd id ∧ id ∉ ([] : List ShapeId)) = odd := by
      funext id
      simp
    rw [same]
    exact canonical
  | cons shape rest ih =>
    intro state odd canonical strange
    have unlinked : (state.unlinkShapeTransitions shape).Canonical odd held :=
      canonical.congr rfl rfl rfl
    have removed := unlinked.removeShapeCache shape
      (strange shape mem_cons_self)
    have finished := ih removed (by
      rw [removeShapeCache_heap]
      intro id member
      exact strange id (mem_cons_of_mem _ member))
    have same : (fun id => odd id ∧ id ∉ shape :: rest) =
        fun id => (odd id ∧ id ≠ shape) ∧ id ∉ rest := by
      funext id
      simp [and_assoc]
    rw [same]
    exact finished

end RuntimeState

namespace Runtime

open RuntimeState

variable {state : RuntimeState}

variable {state : RuntimeState}

theorem liftHeap_meets (meets : Meets operation state.heap returns fails) :
    Meets (liftHeap operation) state (fun value after =>
        ∃ heap, after = { state with heap } ∧ returns value heap)
      (fun after => ∃ heap, after = { state with heap } ∧ fails heap) := by
  unfold Meets at meets ⊢
  unfold liftHeap
  cases outcome : operation state.heap with
  | ok _ heap | error _ heap =>
    rw [outcome] at meets
    exact ⟨heap, rfl, meets⟩

theorem liftHeap_observes {known : α → Prop} (meets : Meets operation state.heap
      (fun value after => after = state.heap ∧ known value)
      (fun after => after = state.heap)) : Meets (liftHeap operation) state
      (fun value after => after = state ∧ known value)
      (· = state) := by
  apply Meets.weaken (liftHeap_meets meets)
  · intro value after found
    obtain ⟨heap, rfl, rfl, holds⟩ := found
    exact ⟨rfl, holds⟩
  · intro after found
    obtain ⟨_, rfl, rfl⟩ := found
    rfl

theorem liftShape_meets (result : Except ShapeError α) :
    Meets (liftShape result) state
      (fun value after => after = state ∧ result = .ok value)
      (· = state) := by
  unfold liftShape
  split
  · exact .pure ⟨rfl, rfl⟩
  · exact .throw rfl

theorem requireRuntime_meets (condition : Prop) [Decidable condition]
    (error : RuntimeError) : Meets (requireRuntime condition error) state
      (fun _ after => after = state ∧ condition)
      (· = state) := by
  unfold requireRuntime
  split
  · rename_i holds
    exact .pure ⟨rfl, holds⟩
  · exact .throw rfl

section

variable (clean : state.Clean held)

include clean

theorem liftHeap_clean (meets : Meets operation state.heap
      (fun _ after => state.heap.Steps .none others after)
      (fun after => state.heap.Steps .none fewer after)) :
    Meets (liftHeap operation) state
      (fun _ after => after.Clean others) (fun after => after.Clean fewer) := by
  apply Meets.weaken (liftHeap_meets meets)
  · intro value after found
    obtain ⟨heap, rfl, steps⟩ := found
    exact clean.unaffected steps
  · intro after found
    obtain ⟨_, rfl, steps⟩ := found
    exact clean.unaffected steps

theorem retainShape_clean (shape : ShapeId) :
    Meets (liftHeap (Heap.retainShape shape)) state
      (fun _ after => after.Clean (shape :: held))
      (fun after => after.Clean held) := by
  apply liftHeap_clean clean
  apply Meets.weaken (Heap.retainShape_meets clean.heap shape)
  · intro _ after retained
    exact retained.2
  · intro after same
    rw [same]
    exact .refl clean.heap

theorem insertShapeCache_clean {heap : Heap}
    (steps : state.heap.Steps (.exchanging [id]) (id :: held) heap)
    (fresh : ¬ state.heap.shapes.Issued id)
    (live : heap.shapes.get? id = some ⟨1, shape⟩)
    (plain : shape.isDictionary = false) (fingerprint : shape.fingerprintHash =
      computeFingerprintHash shape.prototype shape.entries)
    (absent : state.cachedShapeMatching shape.fingerprintHash
      (hasLayout shape.prototype shape.entries) = none) :
    (insertShapeCache { state with heap } id shape.fingerprintHash).Clean
      (id :: held) := by
  have stepped := clean.steps steps
  have ordinary : heap.Ordinary id shape := ⟨1, live, plain⟩
  have only : ∀ {other layout}, other = id → heap.Ordinary other layout →
      layout = shape := by
    intro other layout same present
    obtain ⟨strong, there, _⟩ := present
    rw [same, live] at there
    cases there
    rfl
  have even : ∀ {other}, other ≠ id → ¬ (False ∨ False ∨ other ∈ [id]) := by
    intro other different some
    rcases some with none | none | member
    · exact none
    · exact none
    · exact different (mem_singleton.mp member)
  have uncached : ∀ hash, id ∉ state.shapeCache hash := by
    intro hash member
    obtain ⟨layout, present, _⟩ :=
      (clean.bucket hash id member).resolve_left fun none => none
    obtain ⟨strong, there, _⟩ := present
    exact fresh (Arena.issued_of_get? there)
  -- a shape of the same layout would have been found
  have alone : ∀ {other layout}, other ≠ id → heap.Ordinary other layout →
      layout.prototype = shape.prototype → layout.entries = shape.entries →
      False := by
    intro other layout different present prototype entries
    have before : state.heap.Ordinary other layout := by
      apply (steps.frame.ordinary_iff (fun none => none) _).mp present
      intro member
      exact different (mem_singleton.mp member)
    have cached := clean.interned other layout (fun none => none) before
    have hashed := clean.fingerprint other layout (fun none => none) before
    rw [prototype, entries, ← fingerprint] at hashed
    rw [hashed] at cached
    have missed := find?_eq_none.mp absent other cached
    obtain ⟨_, there, _⟩ := before
    apply missed
    unfold shapeMatches hasLayout
    rw [there]
    simp [prototype, entries]
  have mem : ∀ hash other,
      other ∈ (insertShapeCache { state with heap } id
        shape.fingerprintHash).shapeCache hash ↔
      other ∈ state.shapeCache hash ∨
        other = id ∧ hash = shape.fingerprintHash := by
    intro hash other
    unfold insertShapeCache
    dsimp only
    by_cases same : hash = shape.fingerprintHash
    · rw [same, update_self, mem_append, mem_singleton]
      simp
    · rw [update_of_ne same]
      simp [same]
  refine ⟨steps.sound, ?_, ?_, ?_, ?_, ?_⟩
  · intro other layout _ present
    by_cases same : other = id
    · rw [only same present]
      exact fingerprint
    · exact stepped.fingerprint other layout (even same) present
  · intro hash other member
    right
    rcases (mem hash other).mp member with old | ⟨same, hashed⟩
    · have different : other ≠ id := fun same => uncached hash (same ▸ old)
      exact (stepped.bucket hash other old).resolve_left (even different)
    · rw [same]
      exact ⟨shape, ordinary, hashed.symm⟩
  · intro hash other
    rw [mem]
    unfold insertShapeCache
    dsimp only
    by_cases same : other = id
    · rw [same, update_self]
      simp [uncached, eq_comm]
    · rw [update_of_ne same, ← clean.hashes]
      simp [same]
  · intro other layout _ present
    rw [mem]
    by_cases same : other = id
    · exact .inr ⟨same, by rw [only same present]⟩
    · exact .inl (stepped.interned other layout (even same) present)
  · intro one other layout another _ _ present exists' prototype entries
    by_cases first : one = id
    · by_cases second : other = id
      · rw [first, second]
      · rw [only first present] at prototype entries
        exact (alone second exists' prototype.symm entries.symm).elim
    · by_cases second : other = id
      · rw [only second exists'] at prototype entries
        exact (alone first present prototype entries).elim
      · exact stepped.unique one other layout another (even first)
          (even second) present exists' prototype entries

variable (prototype : Option ObjectId) (entries : List ShapeEntry)

theorem createShape_clean
    (absent : state.cachedShapeMatching
      (computeFingerprintHash prototype entries) (hasLayout prototype entries) =
      none) :
    state.HandsClean held (createShape prototype entries) := by
  refine .observe (liftShape_meets _) ?_ clean
  intro shape made
  obtain ⟨_, rfl, rfl, fingerprint, plain⟩ := Shape.new_eq_ok made
  apply Meets.bind (liftHeap_meets (Heap.allocateShape_meets clean.heap shape))
  · intro id after allocated
    obtain ⟨heap, rfl, steps, fresh, live⟩ := allocated
    apply Meets.changed_bind
    apply Meets.pure
    rw [← fingerprint]
    apply insertShapeCache_clean clean steps fresh live _ fingerprint
    · rw [fingerprint]
      exact absent
    · unfold Shape.isDictionary
      rw [plain]
      rfl
  · intro after failed
    obtain ⟨_, rfl, steps⟩ := failed
    exact clean.unaffected steps

theorem getOrCreateShape_clean :
    state.HandsClean held (getOrCreateShape prototype entries) := by
  apply Meets.get
  split
  · rename_i shape found
    apply Meets.sequel (retainShape_clean clean shape)
    intro _ after retained
    exact .pure retained
  · rename_i absent
    exact createShape_clean clean prototype entries absent

end

end Runtime

end QuickJsOxide.Objects
