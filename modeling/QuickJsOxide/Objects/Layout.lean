import QuickJsOxide.Library.Triples
import QuickJsOxide.Objects.Heap

namespace QuickJsOxide.Objects

open Library Arena

/-! What the operations on layouts may change, and what they keep. -/

/-- A later state of a shape: entries change with the revision only. -/
structure Shape.Advances (old new : Shape) : Prop where
  prototype : new.prototype = old.prototype
  revision : old.layoutRevision ≤ new.layoutRevision
  entries : new.layoutRevision = old.layoutRevision →
    old.layoutRevision < Shape.maxRevision → new.entries = old.entries

theorem Shape.Advances.refl (shape : Shape) : shape.Advances shape :=
  ⟨rfl, Nat.le_refl _, fun _ _ => rfl⟩

theorem Shape.Advances.trans {first second third : Shape}
    (early : first.Advances second) (late : second.Advances third) :
    first.Advances third where
  prototype := late.prototype.trans early.prototype
  revision := early.revision.trans late.revision
  entries := by
    intro same below
    have sooner := early.revision
    have later := late.revision
    rw [late.entries (by omega) (by omega), early.entries (by omega) below]

theorem Shape.advances_of_invalidateLayout {shape changed : Shape}
    (prototype : changed.prototype = shape.prototype)
    (revision : changed.layoutRevision =
      shape.invalidateLayout.layoutRevision) : shape.Advances changed := by
  have bounded := shape.bounded
  have advanced : changed.layoutRevision =
      min (shape.layoutRevision + 1) Shape.maxRevision := revision
  refine ⟨prototype, by omega, ?_⟩
  intro same below
  omega

namespace Heap

/-- What an operation is allowed to do: the objects whose layout may change
within an epoch, the shapes that may change beside dictionaries, and the shapes
that may come or go. -/
structure Scope where
  moved : ObjectId → Prop
  changed : ShapeId → Prop
  passing : ShapeId → Prop

namespace Scope

def none : Scope := ⟨fun _ => False, fun _ => False, fun _ => False⟩

def any : Scope := ⟨fun _ => False, fun _ => True, fun _ => True⟩

def moving (scope : Scope) (id : ObjectId) : Scope :=
  ⟨fun other => other = id, scope.changed, scope.passing⟩

def changing (id : ShapeId) : Scope :=
  ⟨fun _ => False, fun other => other = id, fun _ => False⟩

def exchanging (ids : List ShapeId) : Scope :=
  ⟨fun _ => False, fun _ => False, fun other => other ∈ ids⟩

def ShapeStep (scope : Scope) (id : ShapeId) (old new : Counted Shape) :
    Prop :=
  old.value = new.value ∨
    old.value.Advances new.value ∧
      (old.value.isDictionary ∧ new.value.isDictionary ∨ scope.changed id)

variable {scope : Scope} {id : ShapeId}

theorem ShapeStep.advances (step : scope.ShapeStep id old new) :
    old.value.Advances new.value := by
  rcases step with same | ⟨advances, _⟩
  · rw [same]
    exact .refl _
  · exact advances

theorem ShapeStep.trans {first second third : Counted Shape}
    (early : scope.ShapeStep id first second)
    (late : scope.ShapeStep id second third) :
    scope.ShapeStep id first third := by
  have advances := early.advances.trans late.advances
  rcases early with equal | ⟨_, first⟩
  · unfold ShapeStep
    rw [equal]
    exact late
  · rcases late with same | ⟨_, second⟩
    · unfold ShapeStep
      rw [← same]
      exact .inr ⟨same ▸ advances, first⟩
    · refine .inr ⟨advances, ?_⟩
      rcases first with first | allowed
      · exact second.imp_left fun second => ⟨first.1, second.2⟩
      · exact .inr allowed

end Scope

def ObjectStep (_ : ObjectId) (old new : ObjectData) : Prop :=
  new.kind = old.kind ∧ (old.usedAsPrototype → new.usedAsPrototype)

def SameLayout (heap after : Heap) (old new : ObjectData) : Prop :=
  new.shape = old.shape ∧
    ∀ node node', heap.shapes.get? old.shape = some node →
      after.shapes.get? old.shape = some node' →
      node'.value.entries = node.value.entries

structure Frame (scope : Scope) (heap after : Heap) : Prop where
  shapes : heap.shapes.Follows scope.ShapeStep after.shapes
  objects : heap.objects.Follows ObjectStep after.objects
  lasting : ∀ id, ¬ scope.passing id →
    (after.shapes.get? id).isSome = (heap.shapes.get? id).isSome
  epoch : heap.propertyLayoutEpoch ≤ after.propertyLayoutEpoch
  settled : after.propertyLayoutEpoch = heap.propertyLayoutEpoch →
    heap.propertyLayoutEpoch < Shape.maxRevision →
    ∀ id old new, ¬ scope.moved id → heap.objects.get? id = some old →
      old.usedAsPrototype → after.objects.get? id = some new →
      SameLayout heap after old new

section

variable {scope : Scope} {heap after : Heap}

theorem frame_withObjects {objects : Arena ObjectData}
    (follows : heap.objects.Follows ObjectStep objects)
    (settled : ∀ id old new, ¬ scope.moved id →
      heap.objects.get? id = some old → objects.get? id = some new →
      new.shape = old.shape) :
    heap.Frame scope ⟨heap.shapes, objects, heap.propertyLayoutEpoch⟩ where
  shapes := .refl (fun _ _ => .inl rfl) _
  objects := follows
  lasting _ _ := rfl
  epoch := Nat.le_refl _
  settled := by
    intro _ _ id old new unmoved before _ later
    refine ⟨settled id old new unmoved before later, ?_⟩
    intro node node' live alive
    rw [live] at alive
    cases alive
    rfl

theorem Frame.refl (scope : Scope) (heap : Heap) : heap.Frame scope heap := by
  apply frame_withObjects (.refl (fun _ _ => ⟨rfl, fun marked => marked⟩) _)
  intro id old new _ before later
  rw [before] at later
  cases later
  rfl

variable {middle : Heap}

theorem SameLayout.trans
    (follows : middle.shapes.Follows scope.ShapeStep after.shapes)
    (known : ∀ node, heap.shapes.get? old.shape = some node →
      middle.shapes.Issued old.shape)
    (early : SameLayout heap middle old between)
    (late : SameLayout middle after between new) :
    SameLayout heap after old new := by
  refine ⟨late.1.trans early.1, ?_⟩
  intro node node' live alive
  obtain ⟨inside, there, _⟩ := follows.value _ _ (known node live) alive
  have second := late.2 inside node' (early.1 ▸ there) (early.1 ▸ alive)
  exact second.trans (early.2 node inside live there)

theorem Frame.trans (early : heap.Frame scope middle)
    (late : middle.Frame scope after) : heap.Frame scope after where
  shapes := by
    apply Follows.trans _ early.shapes late.shapes
    intro _ _ _ _
    exact Scope.ShapeStep.trans
  objects := by
    apply Follows.trans _ early.objects late.objects
    intro _ _ _ _ sooner later
    exact ⟨later.1.trans sooner.1, fun marked => later.2 (sooner.2 marked)⟩
  lasting id stays :=
    (late.lasting id stays).trans (early.lasting id stays)
  epoch := early.epoch.trans late.epoch
  settled := by
    intro same below id old new unmoved before marked later
    have sooner := early.epoch
    have after := late.epoch
    have known := issued_of_get? before
    obtain ⟨between, inside, _⟩ :=
      late.objects.value id new (early.objects.issued id known) later
    obtain ⟨_, before', keeps⟩ :=
      early.objects.value id between known inside
    rw [before] at before'
    cases before'
    have first := early.settled (by omega) below id old between unmoved before
      marked inside
    have second := late.settled (by omega) (by omega) id between new unmoved
      inside (keeps.2 marked) later
    apply SameLayout.trans late.shapes _ first second
    intro node live
    exact early.shapes.issued _ (issued_of_get? live)

theorem Frame.mono (moved : ∀ id, scope.moved id → wider.moved id)
    (changed : ∀ id, scope.changed id → wider.changed id)
    (passing : ∀ id, scope.passing id → wider.passing id)
    (frame : heap.Frame scope after) : heap.Frame wider after where
  shapes := by
    apply frame.shapes.mono
    intro id old new step
    apply step.imp_right
    intro other
    exact ⟨other.1, other.2.imp_right (changed id)⟩
  objects := frame.objects
  lasting id stays := frame.lasting id fun allowed => stays (passing id allowed)
  epoch := frame.epoch
  settled same below id old new unmoved :=
    frame.settled same below id old new fun allowed =>
      unmoved (moved id allowed)

theorem Frame.of_none (frame : heap.Frame .none after) :
    heap.Frame scope after :=
  frame.mono (fun _ => False.elim) (fun _ => False.elim) fun _ => False.elim

variable {shapes : Arena (Counted Shape)}

theorem frame_shapes (follows : heap.shapes.Follows scope.ShapeStep shapes)
    (lasting : ∀ id, ¬ scope.passing id →
      (shapes.get? id).isSome = (heap.shapes.get? id).isSome)
    (settled : ∀ id object node node', ¬ scope.moved id →
      heap.objects.get? id = some object →
      heap.shapes.get? object.shape = some node →
      shapes.get? object.shape = some node' →
      node'.value.entries = node.value.entries) :
    heap.Frame scope ⟨shapes, heap.objects, heap.propertyLayoutEpoch⟩ where
  shapes := follows
  objects := .refl (fun _ _ => ⟨rfl, fun marked => marked⟩) _
  lasting := lasting
  epoch := Nat.le_refl _
  settled := by
    intro _ _ id old new unmoved before _ later
    rw [before] at later
    cases later
    exact ⟨rfl, fun node node' => settled id old node node' unmoved before⟩

theorem frame_evolves (evolves : heap.shapes.Evolves shapes)
    (lasting : ∀ id, ¬ scope.passing id →
      (shapes.get? id).isSome = (heap.shapes.get? id).isSome) :
    heap.Frame scope ⟨shapes, heap.objects, heap.propertyLayoutEpoch⟩ := by
  apply frame_shapes _ lasting
  · intro id object node node' _ _ live alive
    obtain ⟨_, before, same⟩ :=
      evolves.value _ node' (issued_of_get? live) alive
    rw [live] at before
    cases before
    rw [same]
  · exact evolves.mono fun _ _ _ => .inl

variable {id : ObjectId}

theorem frame_setObject (live : heap.objects.get? id = some old)
    (step : ObjectStep id old new)
    (unmoved : ¬ scope.moved id → new.shape = old.shape) :
    heap.Frame scope ⟨heap.shapes, heap.objects.replace id new,
      heap.propertyLayoutEpoch⟩ := by
  apply frame_withObjects
    (follows_replace (fun _ _ => ⟨rfl, fun marked => marked⟩) live step)
  intro other before after fixed there later
  rw [get?_replace live] at later
  split at later
  · rename_i same
    subst same
    cases later
    rw [live] at there
    cases there
    exact unmoved fixed
  · rw [there] at later
    cases later
    rfl

variable {object : ObjectData}

theorem frame_objects {objects : Arena ObjectData}
    (taken : heap.objects.allocate slotLimit object = some (id, objects)) :
    heap.Frame scope ⟨heap.shapes, objects, heap.propertyLayoutEpoch⟩ := by
  apply frame_withObjects
    (follows_allocate (fun _ _ => ⟨rfl, fun marked => marked⟩) taken)
  intro other before after _ there later
  have different : other ≠ id := by
    intro same
    exact not_issued_of_allocate taken (issued_of_get? (same ▸ there))
  rw [get?_allocate taken, if_neg different, there] at later
  cases later
  rfl

theorem frame_reclaimObject (live : heap.objects.get? id = some object) :
    heap.Frame scope ⟨heap.shapes, heap.objects.reclaim slotLimit id,
      heap.propertyLayoutEpoch⟩ := by
  apply frame_withObjects
    (follows_reclaim (fun _ _ => ⟨rfl, fun marked => marked⟩) live _)
  intro other before after _ there later
  rw [get?_reclaim live] at later
  split at later
  · cases later
  · rw [there] at later
    cases later
    rfl

theorem invalidated_shapes (heap : Heap) (id : ObjectId) :
    (heap.invalidated id).shapes = heap.shapes := by
  unfold invalidated
  repeat' split
  all_goals rfl

theorem invalidated_objects (heap : Heap) (id : ObjectId) :
    (heap.invalidated id).objects = heap.objects := by
  unfold invalidated
  repeat' split
  all_goals rfl

theorem invalidated_epoch (live : heap.objects.get? id = some object) :
    (heap.invalidated id).propertyLayoutEpoch =
      if object.usedAsPrototype then
        min (heap.propertyLayoutEpoch + 1) Shape.maxRevision
      else heap.propertyLayoutEpoch := by
  unfold invalidated
  rw [live]
  dsimp only
  split
  all_goals rfl

theorem Frame.of_invalidated
    (bounded : heap.propertyLayoutEpoch ≤ Shape.maxRevision)
    (live : heap.objects.get? id = some object)
    (frame : (heap.invalidated id).Frame (scope.moving id) after) :
    heap.Frame scope after where
  shapes := heap.invalidated_shapes id ▸ frame.shapes
  objects := heap.invalidated_objects id ▸ frame.objects
  lasting := heap.invalidated_shapes id ▸ frame.lasting
  epoch := by
    have advanced := frame.epoch
    rw [invalidated_epoch live] at advanced
    split at advanced <;> omega
  settled := by
    intro same below other old new _ before marked later
    have advanced := frame.epoch
    have epoch := invalidated_epoch live
    have kept := frame.settled
    rw [invalidated_objects] at kept
    by_cases used : object.usedAsPrototype
    · rw [if_pos used] at epoch
      omega
    · have different : other ≠ id := by
        intro equal
        subst equal
        rw [live] at before
        cases before
        exact used marked
      rw [if_neg used] at epoch
      have layout := kept (by omega) (by omega) other old new different before
        marked later
      unfold SameLayout at layout
      rw [invalidated_shapes] at layout
      exact layout

end

end Heap

end QuickJsOxide.Objects
