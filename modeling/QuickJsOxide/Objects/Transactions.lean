import QuickJsOxide.Objects.Layout

namespace QuickJsOxide.Objects

open Library Arena List

/-! The operations on layouts keep the heap sound and stay within a frame. -/

namespace Heap

def owners (heap : Heap) : List ShapeId :=
  heap.objects.values.map ObjectData.shape

/-- References to shapes, those of objects and those held elsewhere, are
counted; prototypes are alive and marked. -/
structure Sound (heap : Heap) (held : List ShapeId) : Prop where
  covered : heap.shapes.Cover (held ++ heap.owners)
  marked : ∀ id node prototype, heap.shapes.get? id = some node →
    node.value.prototype = some prototype →
    ∃ object, heap.objects.get? prototype = some object ∧
      object.usedAsPrototype
  bounded : heap.propertyLayoutEpoch ≤ Shape.maxRevision

variable {scope : Scope} {heap after : Heap}

namespace Sound

section

variable (sound : heap.Sound held)

include sound

theorem mono (fits : fewer.Subperm held) : heap.Sound fewer where
  covered := sound.covered.mono
    ((subperm_append_right heap.owners).mpr fits)
  marked := sound.marked
  bounded := sound.bounded

theorem shape_live {id : ObjectId} {object : ObjectData}
    (live : heap.objects.get? id = some object) :
    ∃ node, heap.shapes.get? object.shape = some node := by
  have owned : object.shape ∈ held ++ heap.owners :=
    mem_append_right _
      (mem_map_of_mem (mem_values live))
  obtain ⟨node, there, _⟩ := sound.covered _ owned
  exact ⟨node, there⟩

theorem withShapes {shapes : Arena (Counted Shape)}
    (covered : shapes.Cover (others ++ heap.owners))
    (prototypes : ∀ id node, shapes.get? id = some node →
      ∃ old, heap.shapes.get? id = some old ∧
        node.value.prototype = old.value.prototype) :
    Sound ⟨shapes, heap.objects, heap.propertyLayoutEpoch⟩ others where
  covered := covered
  marked id node prototype live linked := by
    obtain ⟨old, before, same⟩ := prototypes id node live
    exact sound.marked id old prototype before (same ▸ linked)
  bounded := sound.bounded

theorem replaceShape {id : ShapeId} (live : heap.shapes.get? id = some node)
    (same : new.value.prototype = node.value.prototype)
    (covered : (heap.shapes.replace id new).Cover (others ++ heap.owners)) :
    Sound ⟨heap.shapes.replace id new, heap.objects,
      heap.propertyLayoutEpoch⟩ others := by
  apply sound.withShapes covered
  intro other found there
  rw [get?_replace live] at there
  split at there
  · rename_i this
    subst this
    cases there
    exact ⟨node, live, same⟩
  · exact ⟨found, there, rfl⟩

variable {old new : ObjectData}

theorem marked_replace {id : ObjectId} (live : heap.objects.get? id = some old)
    (keeps : old.usedAsPrototype → new.usedAsPrototype) {shape : ShapeId}
    (there : heap.shapes.get? shape = some node)
    (linked : node.value.prototype = some prototype) :
    ∃ object, (heap.objects.replace id new).get? prototype = some object ∧
      object.usedAsPrototype := by
  obtain ⟨object, found, used⟩ := sound.marked _ node prototype there linked
  rw [get?_replace live]
  by_cases same : prototype = id
  · rw [if_pos same]
    subst same
    rw [live] at found
    cases found
    exact ⟨new, rfl, keeps used⟩
  · rw [if_neg same]
    exact ⟨object, found, used⟩

omit sound in
theorem exchange {id : ObjectId} (sound : heap.Sound (new.shape :: held))
    (live : heap.objects.get? id = some old)
    (keeps : old.usedAsPrototype → new.usedAsPrototype) :
    Sound ⟨heap.shapes, heap.objects.replace id new,
      heap.propertyLayoutEpoch⟩ (old.shape :: held) where
  covered := by
    obtain ⟨rest, before, after⟩ := values_replace live
    apply sound.covered.perm
    have owned := (before.map ObjectData.shape).symm
    have owns := (after new).map ObjectData.shape
    rw [map_cons] at owned owns
    calc (old.shape :: held ++ (heap.objects.replace id new).values.map
            ObjectData.shape).Perm
          (old.shape :: held ++ new.shape :: rest.map ObjectData.shape) :=
          owns.append_left _
      _ |>.Perm (old.shape :: new.shape :: (held ++ rest.map _)) :=
          perm_middle.cons _
      _ |>.Perm (new.shape :: old.shape :: (held ++ rest.map _)) :=
          Perm.swap _ _ _
      _ |>.Perm (new.shape :: (held ++ old.shape :: rest.map _)) :=
          perm_middle.symm.cons _
      _ |>.Perm (new.shape :: held ++ heap.owners) :=
          owned.append_left (new.shape :: held)
  marked _ _ _ there linked := sound.marked_replace live keeps there linked
  bounded := sound.bounded

theorem setObject {id : ObjectId} (live : heap.objects.get? id = some old)
    (keeps : old.usedAsPrototype → new.usedAsPrototype)
    (shape : new.shape = old.shape) :
    Sound ⟨heap.shapes, heap.objects.replace id new,
      heap.propertyLayoutEpoch⟩ held where
  covered := by
    obtain ⟨_, before, after⟩ := values_replace live
    apply sound.covered.perm
    apply Perm.append_left
    have owned := (before.map ObjectData.shape).symm
    rw [map_cons, ← shape] at owned
    exact ((after new).map ObjectData.shape).trans owned
  marked _ _ _ there linked := sound.marked_replace live keeps there linked
  bounded := sound.bounded

theorem sole {id other : ObjectId} {object another : ObjectData}
    (live : heap.objects.get? id = some object)
    (there : heap.shapes.get? object.shape = some node)
    (single : node.strong = 1) (different : other ≠ id)
    (found : heap.objects.get? other = some another) :
    another.shape ≠ object.shape := by
  have owned := (values_reclaim live slotLimit).map ObjectData.shape
  rw [map_cons] at owned
  have cover := sound.covered.perm
    ((perm_middle.symm).trans (owned.symm.append_left held))
  have unshared := cover.sole there single
  intro same
  apply unshared
  apply mem_append_right
  rw [← same]
  apply mem_map_of_mem
  apply mem_values
  rw [get?_reclaim live, if_neg different]
  exact found

theorem invalidated (id : ObjectId) : (heap.invalidated id).Sound held where
  covered := by
    unfold owners
    rw [invalidated_shapes, invalidated_objects]
    exact sound.covered
  marked := by
    rw [invalidated_shapes, invalidated_objects]
    exact sound.marked
  bounded := by
    unfold Heap.invalidated
    split
    · split
      · exact Nat.min_le_right _ _
      · exact sound.bounded
    · exact sound.bounded

end

end Sound

structure Steps (scope : Scope) (held : List ShapeId) (heap after : Heap) :
    Prop where
  sound : after.Sound held
  frame : heap.Frame scope after

abbrev Stays (heap : Heap) (scope : Scope) (held : List ShapeId)
    (operation : Operation α) : Prop :=
  Meets operation heap (fun _ after => heap.Steps scope held after)
    (fun after => heap.Steps scope held after)

abbrev Exchanges (heap : Heap) (held : List ShapeId)
    (operation : Operation (List ShapeId)) : Prop :=
  Meets operation heap
    (fun gone after => heap.Steps (.exchanging gone) held after)
    (fun after => heap.Steps .none held after)

namespace Steps

theorem refl (sound : heap.Sound held) : heap.Steps scope held heap :=
  ⟨sound, .refl _ _⟩

variable {middle : Heap}

theorem trans (early : heap.Steps scope between middle)
    (late : middle.Steps scope held after) : heap.Steps scope held after :=
  ⟨late.sound, early.frame.trans late.frame⟩

theorem mono (steps : heap.Steps scope held after) (fits : fewer.Subperm held) :
    heap.Steps scope fewer after :=
  ⟨steps.sound.mono fits, steps.frame⟩

theorem of_none (steps : heap.Steps .none held after) :
    heap.Steps scope held after :=
  ⟨steps.sound, steps.frame.of_none⟩

theorem moving (still : ∀ other, ¬ scope.moved other)
    (steps : heap.Steps scope held after) (id : ObjectId) :
    heap.Steps (scope.moving id) held after where
  sound := steps.sound
  frame := steps.frame.mono (fun other moved => (still other moved).elim)
    (fun _ allowed => allowed) fun _ allowed => allowed

theorem and_then {returned : α → Scope}
    (early : heap.Steps .none between middle) (late : Meets rest middle
      (fun value after => middle.Steps (returned value) held after)
      (fun after => middle.Steps scope held after)) : Meets rest middle
      (fun value after => heap.Steps (returned value) held after)
      (heap.Steps scope held) := by
  apply Meets.weaken late
  · intro value after steps
    exact early.of_none.trans steps
  · intro after steps
    exact early.of_none.trans steps

theorem of_invalidated {id : ObjectId} {object : ObjectData}
    (sound : heap.Sound held) (live : heap.objects.get? id = some object)
    (steps : (heap.invalidated id).Steps (scope.moving id) others after) :
    heap.Steps scope others after :=
  ⟨steps.sound, .of_invalidated sound.bounded live steps.frame⟩

theorem invalidate (sound : heap.Sound held) (id : ObjectId) :
    heap.Steps scope held (heap.invalidated id) := by
  cases live : heap.objects.get? id with
  | none =>
    unfold invalidated
    rw [live]
    exact refl sound
  | some => exact of_invalidated sound live (refl (sound.invalidated id))

end Steps

theorem object_meets (id : ObjectId) : Meets (object id) heap
      (fun object after => after = heap ∧ heap.objects.get? id = some object)
      (· = heap) := by
  unfold Meets object
  cases live : heap.objects.get? id with
  | none => exact rfl
  | some => exact ⟨rfl, rfl⟩

theorem shapeNode_meets (id : ShapeId) : Meets (shapeNode id) heap
      (fun node after => after = heap ∧ heap.shapes.get? id = some node)
      (· = heap) := by
  unfold Meets shapeNode
  cases live : heap.shapes.get? id with
  | none => exact rfl
  | some => exact ⟨rfl, rfl⟩

variable {node : Counted Shape}

theorem shapeNode_holds {id : ShapeId} (live : heap.shapes.get? id = some node) :
    Meets (shapeNode id) heap (fun found after => after = heap ∧ found = node)
      (fun _ => False) := by
  unfold Meets shapeNode
  rw [live]
  exact ⟨rfl, rfl⟩

theorem shape_meets (id : ShapeId) : Meets (shape id) heap
      (fun shape after => after = heap ∧
        ∃ node, heap.shapes.get? id = some node ∧ node.value = shape)
      (· = heap) := by
  apply Meets.observe (shapeNode_meets id)
  · intro node live
    exact .pure ⟨rfl, node, live, rfl⟩
  · rfl

theorem require_meets (condition : Prop) [Decidable condition]
    (error : HeapError) : Meets (require condition error) heap
      (fun _ after => after = heap ∧ condition)
      (· = heap) := by
  unfold require
  split
  · rename_i holds
    exact .pure ⟨rfl, holds⟩
  · exact .throw rfl

theorem liftExcept_meets (result : Except HeapError α) :
    Meets (liftExcept result) heap
      (fun value after => after = heap ∧ result = .ok value)
      (· = heap) := by
  unfold liftExcept
  split
  · exact .pure ⟨rfl, rfl⟩
  · exact .throw rfl

section

variable (sound : heap.Sound held)

include sound

theorem reads {known : α → Prop} (start : Meets first heap
      (fun value after => after = heap ∧ known value) (· = heap))
    (continuation : ∀ value, known value →
      Meets (rest value) heap returns (heap.Steps scope held ·)) :
    Meets (first >>= rest) heap returns (heap.Steps scope held ·) :=
  Meets.observe start continuation (.refl sound)

theorem requires [Decidable condition] (continuation : condition →
      Meets (rest ⟨⟩) heap returns (heap.Steps scope held ·)) :
    Meets (require condition error >>= rest) heap returns
      (heap.Steps scope held ·) :=
  reads sound (require_meets condition error) fun _ => continuation

end

theorem retainShape_meets (sound : heap.Sound held) (id : ShapeId) :
    Meets (retainShape id) heap (fun _ after => after.objects = heap.objects ∧
        heap.Steps .none (id :: held) after) (· = heap) := by
  refine .observe (shapeNode_meets id) ?_ rfl
  intro node live
  refine .observe (require_meets _ _) ?_ rfl
  intro _ room
  apply Meets.changed
  have evolves := evolves_replace live (node.strong + 1)
  refine ⟨rfl, ?_, ?_⟩
  · refine sound.replaceShape live rfl ?_
    apply cover_retain sound.covered live (.inr rfl)
    intro immortal
    omega
  · apply frame_evolves evolves
    intro other _
    exact isSome_replace live _ other

section

variable {id : ShapeId} (sound : heap.Sound (id :: held))

include sound

theorem releaseShape_lower (live : heap.shapes.get? id = some node)
    (mortal : node.strong ≠ immortalCount) :
    heap.Steps .none held ⟨heap.shapes.replace id
      ⟨node.strong - 1, node.value⟩, heap.objects,
      heap.propertyLayoutEpoch⟩ := by
  refine ⟨?_, ?_⟩
  · exact sound.replaceShape live rfl
      (cover_lower sound.covered live mortal)
  · apply frame_evolves (evolves_replace live _)
    intro other _
    exact isSome_replace live _ other

theorem releaseShape_reclaim (live : heap.shapes.get? id = some node)
    (last : node.strong = 1) :
    heap.Steps (.exchanging [id]) held ⟨heap.shapes.reclaim slotLimit id,
      heap.objects, heap.propertyLayoutEpoch⟩ := by
  refine ⟨?_, ?_⟩
  · apply sound.withShapes
      (cover_reclaim sound.covered live last)
    intro other found there
    rw [get?_reclaim live] at there
    split at there
    · cases there
    · exact ⟨found, there, rfl⟩
  · apply frame_evolves (evolves_reclaim live)
    intro other stays
    have different : other ≠ id := by
      intro same
      exact stays (mem_singleton.mpr same)
    rw [get?_reclaim live, if_neg different]

theorem releaseShape_meets : Meets (releaseShape id) heap
      (fun gone after => heap.Steps (.exchanging gone) held after)
      (fun _ => False) := by
  have kept : heap.Sound held :=
    sound.mono (sublist_cons_self _ _).subperm
  obtain ⟨node, live, counted⟩ := sound.covered id mem_cons_self
  apply Meets.sequel (shapeNode_holds live)
  intro found middle same
  obtain ⟨rfl, rfl⟩ := same
  split
  · exact .pure (.refl kept)
  · rename_i mortal
    split
    · rename_i unowned
      have owned := counted.resolve_left mortal
      rw [cons_append, count_cons_self, unowned] at owned
      exact absurd owned (Nat.not_succ_le_zero _)
    · split
      · rename_i last
        exact .changed_bind (Meets.pure
          (releaseShape_reclaim sound live last))
      · exact .changed_bind (Meets.pure
          (releaseShape_lower sound live mortal).of_none)

end

section

variable (sound : heap.Sound held)

include sound

theorem markPrototype_meets (prototype : Option ObjectId) :
    Meets (markPrototype prototype) heap
      (fun _ after => after.shapes = heap.shapes ∧ heap.Steps .none held after ∧
        ∀ id, prototype = some id →
          ∃ object, after.objects.get? id = some object ∧
            object.usedAsPrototype) (· = heap) := by
  cases prototype with
  | none => exact .pure ⟨rfl, .refl sound, fun _ absent => nomatch absent⟩
  | some id =>
    refine .observe (object_meets id) ?_ rfl
    intro object live
    refine .changed ⟨rfl, ⟨?_, ?_⟩, ?_⟩
    · exact sound.setObject live (fun _ => rfl) rfl
    · exact frame_setObject live ⟨rfl, fun _ => rfl⟩ fun _ => rfl
    · intro other same
      cases same
      refine ⟨{ object with usedAsPrototype := true }, ?_, rfl⟩
      exact (get?_replace live _ _).trans (if_pos rfl)

theorem allocateShape_steps {shape : Shape} {id : ShapeId}
    {shapes : Arena (Counted Shape)}
    (marked : ∀ prototype, shape.prototype = some prototype →
      ∃ object, heap.objects.get? prototype = some object ∧
        object.usedAsPrototype)
    (taken : heap.shapes.allocate slotLimit ⟨1, shape⟩ = some (id, shapes)) :
    heap.Steps (.exchanging [id]) (id :: held)
      ⟨shapes, heap.objects, heap.propertyLayoutEpoch⟩ := by
  refine ⟨⟨?_, ?_, sound.bounded⟩, ?_⟩
  · exact cover_allocate sound.covered taken
  · intro other node prototype there linked
    rw [get?_allocate taken] at there
    split at there
    · cases there
      exact marked prototype linked
    · exact sound.marked other node prototype there linked
  · apply frame_evolves (evolves_allocate taken)
    intro other stays
    have different : other ≠ id := by
      intro same
      exact stays (mem_singleton.mpr same)
    rw [get?_allocate taken, if_neg different]

theorem allocateShape_meets (shape : Shape) : Meets (allocateShape shape) heap
      (fun id after => heap.Steps (.exchanging [id]) (id :: held) after ∧
        ¬ heap.shapes.Issued id ∧ after.shapes.get? id = some ⟨1, shape⟩)
      (heap.Steps .none held) := by
  refine .bind_same (markPrototype_meets sound shape.prototype) ?_
    (.refl sound)
  intro _ middle marking
  obtain ⟨shapes, early, marked⟩ := marking
  apply Meets.get
  split
  · rename_i id arena taken
    apply Meets.set
    refine .pure ⟨?_, ?_, ?_⟩
    · exact early.of_none.trans
        (allocateShape_steps early.sound marked taken)
    · rw [← shapes]
      exact not_issued_of_allocate taken
    · exact (get?_allocate taken id).trans (if_pos rfl)
  · exact .throw early

variable {id : ObjectId} {object : ObjectData}

omit sound in
theorem allocateObject_steps {objects : Arena ObjectData}
    (sound : heap.Sound (object.shape :: held))
    (taken : heap.objects.allocate slotLimit object = some (id, objects)) :
    heap.Steps .none held ⟨heap.shapes, objects, heap.propertyLayoutEpoch⟩ := by
  refine ⟨⟨?_, ?_, sound.bounded⟩, frame_objects taken⟩
  · have owned := (values_allocate taken).map ObjectData.shape
    apply sound.covered.perm
    exact (owned.append_left held).trans perm_middle
  · intro other node prototype there linked
    obtain ⟨object, live, used⟩ := sound.marked other node prototype there
      linked
    have different : prototype ≠ id := by
      intro same
      exact not_issued_of_allocate taken
        (issued_of_get? (same ▸ live))
    refine ⟨object, ?_, used⟩
    exact (get?_allocate taken prototype).trans
      ((if_neg different).trans live)

theorem allocateObject_meets (kind : ObjectKind) (payload : ObjectPayload)
    (shapeId : ShapeId) (slots : List PropertySlot) :
    heap.Stays .none held (allocateObject kind payload shapeId slots) := by
  apply reads sound (shape_meets shapeId)
  intro shape _
  apply reads sound (liftExcept_meets _)
  intro _ _
  refine .bind_same (retainShape_meets sound shapeId) ?_ (.refl sound)
  intro _ middle retained
  apply Meets.get
  split
  · rename_i id objects taken
    apply Meets.set
    exact .pure (retained.2.trans
      (allocateObject_steps retained.2.sound taken))
  · exact .throw
      (retained.2.mono (sublist_cons_self _ _).subperm)

theorem setObject_steps (live : heap.objects.get? id = some old)
    (kind : new.kind = old.kind)
    (keeps : new.usedAsPrototype = old.usedAsPrototype)
    (shape : new.shape = old.shape) :
    heap.Steps scope held ⟨heap.shapes, heap.objects.replace id new,
      heap.propertyLayoutEpoch⟩ := by
  have marks := (Bool.eq_iff_iff.mp keeps).mpr
  exact ⟨sound.setObject live marks shape,
    frame_setObject live ⟨kind, marks⟩ fun _ => shape⟩

theorem replaceRetainedObjectSlot_meets (id : ObjectId) (index : Nat)
    (replacement : PropertySlot) :
    heap.Stays scope held (replaceRetainedObjectSlot id index replacement) := by
  apply reads sound (object_meets id)
  intro object live
  apply requires sound
  intro _
  exact .changed (setObject_steps sound live rfl rfl rfl)

theorem replaceObjectSlot_meets (id : ObjectId) (index : Nat)
    (replacement : PropertySlot) :
    heap.Stays .none held (replaceObjectSlot id index replacement) := by
  apply reads sound (object_meets id)
  intro object live
  split
  · exact .changed (setObject_steps sound live rfl rfl rfl)
  · apply reads sound (shape_meets _)
    intro shape _
    apply reads sound (liftExcept_meets _)
    intro _ _
    exact replaceRetainedObjectSlot_meets sound id index replacement

omit sound in
structure InPlace (scope : Scope) (id : ShapeId) (old new : Shape) : Prop where
  prototype : new.prototype = old.prototype
  revision : new.layoutRevision = old.layoutRevision
  allowed : old.isDictionary ∧ new.isDictionary ∨ scope.changed id

section

variable (live : heap.objects.get? id = some object)

include live

section

variable (there : heap.shapes.get? object.shape = some node)
  (single : node.strong = 1) (moved : scope.moved id)

include there single moved

theorem shapeMut_steps
    (keeps : InPlace scope object.shape node.value.invalidateLayout changed) :
    heap.Steps scope held ⟨heap.shapes.replace object.shape
      ⟨node.strong, changed⟩, heap.objects, heap.propertyLayoutEpoch⟩ := by
  have step : scope.ShapeStep object.shape node ⟨node.strong, changed⟩ :=
    .inr ⟨Shape.advances_of_invalidateLayout keeps.prototype keeps.revision,
      keeps.allowed⟩
  refine ⟨?_, ?_⟩
  · exact sound.replaceShape there keeps.prototype
      (sound.covered.withValue there changed)
  · apply frame_shapes
    · exact follows_replace (fun _ _ => .inl rfl) there step
    · intro other _
      exact isSome_replace there _ other
    · intro other another before after unmoved found shape shape'
      have different : other ≠ id := by
        intro same
        exact unmoved (same ▸ moved)
      have apart := sound.sole live there single different found
      rw [get?_replace there, if_neg apart, shape] at shape'
      cases shape'
      rfl

theorem shapeMut_meets
    (keeps : ∀ changed, change node.value.invalidateLayout = .ok changed →
      InPlace scope object.shape node.value.invalidateLayout changed) :
    heap.Stays scope held (shapeMut object.shape change) := by
  apply reads sound (shapeNode_meets _)
  intro found alive
  rw [there] at alive
  cases alive
  split
  · rename_i changed result
    exact .changed
      (shapeMut_steps sound live there single moved (keeps changed result))
  · exact .throw (.refl sound)

end

theorem invalidatePropertyLayout_meets {returned : α → Scope}
    (continuation : Meets (second ⟨⟩) (heap.invalidated id) (fun value after =>
        (heap.invalidated id).Steps ((returned value).moving id) others after)
      (fun after =>
        (heap.invalidated id).Steps (scope.moving id) others after)) :
    Meets (invalidatePropertyLayout id >>= second) heap
      (fun value after => heap.Steps (returned value) others after)
      (heap.Steps scope others) := by
  apply Meets.changed_bind
  apply Meets.weaken continuation
  · intro value after steps
    exact Steps.of_invalidated sound live steps
  · intro after steps
    exact Steps.of_invalidated sound live steps

theorem changeInPlace_meets (there : heap.shapes.get? object.shape = some node)
    (single : node.strong = 1)
    (keeps : ∀ changed, change node.value.invalidateLayout = .ok changed →
      InPlace scope object.shape node.value.invalidateLayout changed)
    (finishes : ∀ middle : Heap, middle.Sound held → Meets finish middle
        (fun _ after => middle.Steps (scope.moving id) held after)
        (fun after => middle.Steps (scope.moving id) held after)) :
    heap.Stays scope held (do
      invalidatePropertyLayout id
      shapeMut object.shape change
      finish) := by
  apply invalidatePropertyLayout_meets sound live
  rw [← heap.invalidated_objects id] at live
  rw [← heap.invalidated_shapes id] at there
  have changing : ∀ changed, change node.value.invalidateLayout = .ok changed →
      InPlace (scope.moving id) object.shape node.value.invalidateLayout
        changed := by
    intro changed made
    have kept := keeps changed made
    exact ⟨kept.prototype, kept.revision, kept.allowed⟩
  apply Meets.sequel
    (shapeMut_meets (sound.invalidated id) live there single rfl changing)
  intro _ middle early
  apply Meets.weaken (finishes middle early.sound)
  · intro _ after late
    exact early.trans late
  · intro after late
    exact early.trans late

end

omit sound in
theorem isDictionary_appendUniqueProperty (shape : Shape) (entry : ShapeEntry)
    (absent : shape.find entry.atom = none) :
    (shape.appendUniqueProperty entry absent).isDictionary =
      shape.isDictionary := by
  unfold Shape.isDictionary Shape.appendUniqueProperty
  exact Option.isSome_map

omit sound in
theorem isDictionary_removeDictionaryProperty (shape : Shape)
    (atom : AtomIdx) (index : Nat) (found : shape.find atom = some index) :
    (shape.removeDictionaryProperty atom index found).isDictionary =
      shape.isDictionary := by
  unfold Shape.isDictionary Shape.removeDictionaryProperty
  exact Option.isSome_map

omit sound in
theorem isDictionary_enableDictionary (shape : Shape) :
    shape.enableDictionary.isDictionary := by
  unfold Shape.enableDictionary
  split
  · rfl
  · rename_i order present
    unfold Shape.isDictionary
    rw [present]
    rfl

variable {shape changed : Shape}

omit sound in
theorem inPlace_appendEntry (allowed : shape.isDictionary ∨ scope.changed id)
    (made : appendEntry entry shape = .ok changed) :
    InPlace scope id shape changed := by
  unfold appendEntry at made
  split at made
  · rename_i absent
    cases made
    have same := isDictionary_appendUniqueProperty shape entry absent
    refine ⟨rfl, rfl, ?_⟩
    rw [same]
    exact allowed.imp_left fun dictionary => ⟨dictionary, dictionary⟩
  · cases made

omit sound in
theorem inPlace_enableDictionary (shape : Shape) (allowed : scope.changed id) :
    InPlace scope id shape shape.enableDictionary := by
  refine ⟨?_, ?_, .inr allowed⟩
  all_goals
    unfold Shape.enableDictionary
    split
    all_goals rfl

omit sound in
theorem inPlace_removeEntry (dictionary : shape.isDictionary)
    (made : removeEntry atom shape = .ok changed) :
    InPlace scope id shape changed := by
  unfold removeEntry at made
  split at made
  · rename_i index found
    cases made
    have still :=
      (isDictionary_removeDictionaryProperty shape atom index found).trans
        dictionary
    exact ⟨rfl, rfl, .inl ⟨dictionary, still⟩⟩
  · cases made

theorem pushSlot_meets (id : ObjectId) (slot : PropertySlot) :
    heap.Stays scope held (pushSlot id slot) := by
  apply reads sound (object_meets id)
  intro object live
  exact .changed (setObject_steps sound live rfl rfl rfl)

theorem appendUniqueObjectPropertyAtIndex_meets
    (live : heap.objects.get? id = some object)
    (there : heap.shapes.get? object.shape = some node)
    (single : node.strong = 1)
    (allowed : node.value.isDictionary ∨ scope.changed object.shape)
    (entry : ShapeEntry) (replacement : PropertySlot) (index slotCount : Nat) :
    heap.Stays scope held (appendUniqueObjectPropertyAtIndex id object.shape
      entry replacement index slotCount) := by
  apply requires sound
  intro _
  apply requires sound
  intro _
  apply requires sound
  intro _
  refine changeInPlace_meets sound live there single ?_ ?_
  · intro changed
    exact inPlace_appendEntry allowed
  · intro middle still
    exact pushSlot_meets still id replacement

section

variable (id : ObjectId) (entry : ShapeEntry) (replacement : PropertySlot)
  (allowed : ∀ object node, heap.objects.get? id = some object →
    heap.shapes.get? object.shape = some node →
    node.value.isDictionary ∨ scope.changed object.shape)
include allowed

theorem appendUniqueObjectProperty_meets :
    heap.Stays scope held (appendUniqueObjectProperty id entry replacement) :=
      by
  apply reads sound (object_meets id)
  intro object live
  apply reads sound (shapeNode_meets _)
  intro node there
  apply requires sound
  intro single
  apply reads sound (liftExcept_meets _)
  intro index _
  exact appendUniqueObjectPropertyAtIndex_meets sound live there single
    (allowed object node live there) _ _ _ _

theorem appendSelectedMissingObjectProperty_meets (shapeId : ShapeId)
    (selectedCount : Nat) :
    heap.Stays scope held (appendSelectedMissingObjectProperty id shapeId
      selectedCount entry replacement) := by
  apply reads sound (object_meets id)
  intro object live
  apply reads sound (shapeNode_meets _)
  intro node there
  apply requires sound
  intro unchanged
  obtain ⟨rfl, _, _⟩ := unchanged
  apply requires sound
  intro single
  apply requires sound
  intro _
  apply requires sound
  intro _
  exact appendUniqueObjectPropertyAtIndex_meets sound live there single
    (allowed object node live there) _ _ _ _

end

omit sound in
theorem moveObject_meets (sound : heap.Sound (new.shape :: held))
    (live : heap.objects.get? id = some old) (kind : new.kind = old.kind)
    (keeps : new.usedAsPrototype = old.usedAsPrototype) :
    Meets (do
        setObject id new
        releaseShape old.shape) heap
      (fun gone after =>
        heap.Steps ((Scope.exchanging gone).moving id) held after)
      (fun after => heap.Steps (Scope.none.moving id) held after) := by
  have marks := (Bool.eq_iff_iff.mp keeps).mpr
  have moved : ∀ scope : Scope, heap.Steps (scope.moving id)
      (old.shape :: held) ⟨heap.shapes, heap.objects.replace id new,
        heap.propertyLayoutEpoch⟩ := by
    intro scope
    refine ⟨sound.exchange live marks, frame_setObject live ⟨kind, marks⟩ ?_⟩
    intro unmoved
    exact absurd rfl unmoved
  apply Meets.changed_bind
  apply Meets.weaken (releaseShape_meets (moved .none).sound)
  · intro gone after steps
    exact (moved (.exchanging gone)).trans (steps.moving (fun _ => not_false) id)
  · intro _ absurdity
    exact absurdity.elim

variable (id : ObjectId)

theorem replaceObjectLayout_meets (shapeId : ShapeId)
    (slots : List PropertySlot) :
    heap.Exchanges held (replaceObjectLayout id shapeId slots) := by
  apply reads sound (shape_meets shapeId)
  intro replacement _
  apply reads sound (liftExcept_meets _)
  intro _ _
  apply reads sound (object_meets id)
  intro before live
  apply requires sound
  intro _
  refine .bind_same (retainShape_meets sound shapeId) ?_ (.refl sound)
  intro _ middle retained
  obtain ⟨objects, early⟩ := retained
  rw [← objects] at live
  apply early.and_then
  apply invalidatePropertyLayout_meets early.sound live
  have invalid := early.sound.invalidated id
  refine .observe (object_meets id) ?_ ?_
  · intro object there
    exact moveObject_meets invalid there rfl rfl
  · exact .refl (invalid.mono (sublist_cons_self _ _).subperm)

theorem materializeArrayDenseShape_meets (shapeId : ShapeId) :
    heap.Exchanges held (materializeArrayDenseShape id shapeId) := by
  apply reads sound (object_meets id)
  intro object live
  split
  · apply reads sound (shape_meets _)
    intro previous _
    apply reads sound (shape_meets _)
    intro replacement _
    apply requires sound
    intro _
    refine .bind_same (retainShape_meets sound shapeId) ?_ (.refl sound)
    intro _ middle retained
    obtain ⟨objects, early⟩ := retained
    rw [← objects] at live
    apply early.and_then
    apply invalidatePropertyLayout_meets early.sound live
    rw [← middle.invalidated_objects id] at live
    exact moveObject_meets (early.sound.invalidated id) live rfl rfl
  · exact .throw (.refl sound)

omit sound in
theorem exclusiveDictionaryShape_meets (object : ObjectData) :
    Meets (exclusiveDictionaryShape object) heap
      (fun shape after => after = heap ∧
        ∃ node, heap.shapes.get? object.shape = some node ∧
          node.strong = 1 ∧ node.value = shape)
      (· = heap) := by
  refine .observe (require_meets _ _) ?_ rfl
  intro _ _
  refine .observe (shapeNode_meets _) ?_ rfl
  intro node there
  refine .observe (require_meets _ _) ?_ rfl
  intro _ exclusive
  exact .pure ⟨rfl, node, there, exclusive.1, rfl⟩

theorem enableObjectDictionary_meets : Meets (enableObjectDictionary id) heap
      (fun _ after => ∃ object, heap.objects.get? id = some object ∧
        heap.Steps (.changing object.shape) held after ∧
        ∃ node, after.shapes.get? object.shape = some node ∧
          node.value.isDictionary) (heap.Steps .none held) := by
  apply reads sound (object_meets id)
  intro object live
  apply reads sound (exclusiveDictionaryShape_meets object)
  intro shape exclusive
  obtain ⟨_, there, single, _⟩ := exclusive
  apply Meets.changed_bind
  have invalid := sound.invalidated id
  have alive := live
  rw [← heap.invalidated_objects id] at alive
  rw [← heap.invalidated_shapes id] at there
  refine .observe (shapeNode_meets _) ?_ ?_
  · intro found again
    rw [there] at again
    cases again
    refine .changed ⟨object, live, ?_, ?_⟩
    · apply Steps.of_invalidated sound live
      exact shapeMut_steps invalid alive there single rfl
        (inPlace_enableDictionary _ rfl)
    · refine ⟨_, (get?_replace there _ _).trans (if_pos rfl), ?_⟩
      exact isDictionary_enableDictionary _
  · exact .invalidate sound id

omit sound in
theorem configurableSlot_dictionary
    (found : configurableSlot shape atom = .ok index) : shape.isDictionary := by
  unfold configurableSlot at found
  split at found
  · cases found
  · split at found
    · split at found
      · rename_i storage
        exact storage.1
      · cases found
    · cases found

theorem deleteDictionaryProperty_meets (atom : AtomIdx) :
    heap.Stays .none held (deleteDictionaryProperty id atom) := by
  apply reads sound (object_meets id)
  intro object live
  apply reads sound (exclusiveDictionaryShape_meets object)
  intro shape exclusive
  obtain ⟨_, there, single, rfl⟩ := exclusive
  apply reads sound (liftExcept_meets _)
  intro index found
  have dictionary := configurableSlot_dictionary found
  refine changeInPlace_meets sound live there single ?_ ?_
  · intro changed
    exact inPlace_removeEntry dictionary
  · intro middle still
    apply reads still (object_meets id)
    intro object live
    exact .changed (setObject_steps still live rfl rfl rfl)

theorem replaceDictionaryProperty_meets (index : Nat) (flags : PropertyFlags)
    (replacement : PropertySlot) :
    heap.Stays .none held (replaceDictionaryProperty id index flags replacement)
      := by
  apply reads sound (object_meets id)
  intro object live
  apply reads sound (exclusiveDictionaryShape_meets object)
  intro shape exclusive
  obtain ⟨_, there, single, rfl⟩ := exclusive
  apply requires sound
  intro within
  have dictionary := within.1
  apply requires sound
  intro _
  refine changeInPlace_meets sound live there single ?_ ?_
  · intro changed made
    cases made
    exact ⟨rfl, rfl, .inl ⟨dictionary, dictionary⟩⟩
  · intro middle still
    exact replaceRetainedObjectSlot_meets still id index replacement

theorem fillEmptyArrayDense_meets (values : List RawValue) :
    heap.Stays .none held (fillEmptyArrayDense id values) := by
  apply reads sound (object_meets id)
  intro object live
  split
  · apply requires sound
    intro _
    apply Meets.changed_bind
    apply Meets.changed
    have filled : heap.Steps .none held ⟨heap.shapes, heap.objects.replace id
        { object with payload := .array (some values) },
        heap.propertyLayoutEpoch⟩ :=
      setObject_steps sound live rfl rfl rfl
    exact filled.trans (.invalidate filled.sound id)
  · exact .throw (.refl sound)

theorem appendArrayDenseValue_meets (value : RawValue) :
    heap.Stays .none held (appendArrayDenseValue id value) := by
  apply requires sound
  intro _
  apply reads sound (object_meets id)
  intro object live
  split
  · apply requires sound
    intro _
    exact .changed (setObject_steps sound live rfl rfl rfl)
  · exact .throw (.refl sound)

omit sound in
def Unlinked (heap : Heap) (id : ObjectId) : Prop :=
  ∀ shape node, heap.shapes.get? shape = some node →
    node.value.prototype ≠ some id

theorem reclaimObject_meets (unlinked : heap.Unlinked id) :
    heap.Exchanges held (reclaimObject id) := by
  apply reads sound (object_meets id)
  intro object live
  have owned := (values_reclaim live slotLimit).map ObjectData.shape
  rw [map_cons] at owned
  have reclaimed : ∀ scope, heap.Steps scope (object.shape :: held)
      ⟨heap.shapes, heap.objects.reclaim slotLimit id,
        heap.propertyLayoutEpoch⟩ := by
    intro scope
    refine ⟨⟨?_, ?_, sound.bounded⟩, frame_reclaimObject live⟩
    · apply sound.covered.perm
      exact perm_middle.symm.trans (owned.symm.append_left held)
    · intro shape node prototype there linked
      obtain ⟨found, alive, used⟩ := sound.marked shape node prototype there
        linked
      have different : prototype ≠ id := by
        intro same
        exact unlinked shape node there (same ▸ linked)
      refine ⟨found, ?_, used⟩
      exact (get?_reclaim live slotLimit prototype).trans
        ((if_neg different).trans alive)
  apply Meets.changed_bind
  apply Meets.weaken (releaseShape_meets (reclaimed .none).sound)
  · intro gone after steps
    exact (reclaimed _).trans steps
  · intro _ absurdity
    exact absurdity.elim

end

def Dropped (gone : List ShapeId) (heap : Heap) : Prop :=
  ∀ id ∈ gone, heap.shapes.get? id = none

theorem releaseShape_drops (id : ShapeId) (heap : Heap) :
    Meets (releaseShape id) heap (fun gone after => after.Dropped gone)
      (fun _ => True) := by
  refine .observe (shapeNode_meets id) ?_ trivial
  intro node live
  split
  · exact .pure fun _ member => nomatch member
  · split
    · exact .throw trivial
    · split
      · refine .changed_bind (Meets.pure ?_)
        intro other member
        rw [mem_singleton.mp member]
        exact (get?_reclaim live slotLimit id).trans (if_pos rfl)
      · exact .changed_bind (Meets.pure fun _ member => nomatch member)

theorem replaceObjectLayout_drops (id : ObjectId) (shapeId : ShapeId)
    (slots : List PropertySlot) (heap : Heap) :
    Meets (replaceObjectLayout id shapeId slots) heap
      (fun gone after => after.Dropped gone) (fun _ => True) := by
  iterate 8
    apply Meets.last
    intro _ _
  exact releaseShape_drops _ _

theorem materializeArrayDenseShape_drops (id : ObjectId) (shapeId : ShapeId)
    (heap : Heap) : Meets (materializeArrayDenseShape id shapeId) heap
      (fun gone after => after.Dropped gone) (fun _ => True) := by
  apply Meets.last
  intro object middle
  split
  · iterate 6
      apply Meets.last
      intro _ _
    exact releaseShape_drops _ _
  · exact .throw trivial

theorem reclaimObject_drops (id : ObjectId) (heap : Heap) :
    Meets (reclaimObject id) heap (fun gone after => after.Dropped gone)
      (fun _ => True) := by
  iterate 2
    apply Meets.last
    intro _ _
  exact releaseShape_drops _ _

end Heap

end QuickJsOxide.Objects
