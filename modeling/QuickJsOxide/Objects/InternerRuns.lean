import QuickJsOxide.Library.TransitionSystem
import QuickJsOxide.Objects.Canonicity

namespace QuickJsOxide.Objects

open Library Objects.Runtime Option

/-! Programs that build objects through the shape cache. -/

namespace Runtime

open RuntimeState

variable {state : RuntimeState}

theorem appendTransition_clean (clean : state.Clean held) (parent : ShapeId)
    (entry : ShapeEntry) :
    state.HandsClean held (appendTransition parent entry) := by
  apply Meets.get
  split
  · rename_i target found
    apply Meets.sequel (retainShape_clean clean target)
    intro _ after retained
    exact .changed_bind (Meets.pure (retained.congr rfl rfl rfl))
  · refine .observe (liftHeap_observes (Heap.shape_meets parent)) ?_ clean
    intro source _
    apply Meets.sequel (getOrCreateShape_clean clean _ _)
    intro target after created
    exact .changed_bind (Meets.pure (created.congr rfl rfl rfl))

variable {heap : Heap}

theorem not_ordinary_of_dropped (dropped : heap.Dropped gone) :
    ∀ id ∈ gone, ∀ shape, ¬ heap.Ordinary id shape := by
  intro id member shape ordinary
  obtain ⟨_, live, _⟩ := ordinary
  rw [dropped id member] at live
  cases live

theorem unlink_clean (clean : state.Clean held)
    (steps : state.heap.Steps (.exchanging gone) others heap)
    (dropped : heap.Dropped gone) :
    (unlinkFinalizedShapes { state with heap } gone).Clean others := by
  have stepped := Canonical.steps clean steps
  have unlinked := stepped.unlinkFinalizedShapes gone
    (not_ordinary_of_dropped dropped)
  apply unlinked.mono
  intro id some
  rcases some with ⟨none | none | member, absent⟩
  · exact none
  · exact none
  · exact absent member

variable {shape : ShapeId}

theorem releaseShape_clean (clean : state.Clean (shape :: held)) :
    Meets (releaseShape shape) state (fun _ after => after.Clean held)
      (fun _ => False) := by
  have released := Meets.both (Heap.releaseShape_meets clean.heap)
    (Heap.releaseShape_drops shape state.heap)
  apply Meets.bind (liftHeap_meets released)
  · intro gone after found
    obtain ⟨heap, rfl, steps, dropped⟩ := found
    exact .changed (unlink_clean clean steps dropped)
  · intro after failed
    obtain ⟨_, _, absurdity, _⟩ := failed
    exact absurdity

structure Pending (held gone : List ShapeId) (state : RuntimeState) : Prop where
  canonical : state.Canonical (fun id => id ∈ gone) held
  dropped : state.heap.Dropped gone

theorem rollBackShape_meets (clean : state.Clean (shape :: held))
    (steps : state.heap.Exchanges (shape :: held) operation)
    (drops : Meets operation state.heap
      (fun gone after => after.Dropped gone) (fun _ => True)) :
    Meets (rollBackShape operation shape) state
      (fun gone after => Pending (shape :: held) gone after)
      (fun after => after.Clean held) := by
  have lifted := liftHeap_meets (Meets.both steps drops)
  unfold Meets at lifted ⊢
  unfold rollBackShape
  cases outcome : liftHeap operation state with
  | ok gone =>
    rw [outcome] at lifted
    obtain ⟨heap, rfl, steps, dropped⟩ := lifted
    refine ⟨?_, dropped⟩
    have stepped := Canonical.steps clean steps
    have same : (fun id => False ∨ (Heap.Scope.exchanging gone).changed id ∨
        (Heap.Scope.exchanging gone).passing id) = fun id => id ∈ gone := by
      funext id
      simp [Heap.Scope.exchanging]
    rw [same] at stepped
    exact stepped
  | error error =>
    rw [outcome] at lifted
    obtain ⟨heap, rfl, steps, _⟩ := lifted
    have released := releaseShape_clean (Clean.unaffected clean steps)
    unfold Meets at released
    dsimp only at released ⊢
    cases given : releaseShape shape { state with heap } with
    | ok =>
      rw [given] at released
      exact released
    | error =>
      rw [given] at released
      exact released.elim

theorem finishLayout_clean (pending : Pending (shape :: held) layout state) :
    Meets (finishLayout layout shape) state
      (fun _ after => after.Clean held) (fun _ => False) := by
  have released := Meets.both (Heap.releaseShape_meets pending.canonical.heap)
    (Heap.releaseShape_drops shape state.heap)
  apply Meets.bind (liftHeap_meets released)
  · intro gone after found
    obtain ⟨heap, rfl, steps, dropped⟩ := found
    have stepped := pending.canonical.steps steps
    have still : heap.Dropped layout := by
      intro id member
      by_cases last : id ∈ gone
      · exact dropped id last
      · have lasting := steps.frame.lasting id last
        rw [pending.dropped id member] at lasting
        exact isSome_eq_false_iff.mp lasting |> isNone_iff_eq_none.mp
    have early := stepped.unlinkFinalizedShapes layout
      (not_ordinary_of_dropped still)
    have late := early.unlinkFinalizedShapes gone (by
      rw [unlinkFinalizedShapes_heap]
      exact not_ordinary_of_dropped dropped)
    apply Meets.changed_bind
    apply Meets.changed
    apply late.mono
    intro id some
    rcases some with ⟨⟨member | none | member, absent⟩, missing⟩
    · exact absent member
    · exact none
    · exact missing member
  · intro after failed
    obtain ⟨_, _, absurdity, _⟩ := failed
    exact absurdity

theorem replaceLayoutWithOwnedShape_clean (clean : state.Clean (shape :: held))
    (object : ObjectId) (slots : List PropertySlot) :
    state.StaysClean held (replaceLayoutWithOwnedShape object shape slots) := by
  apply Meets.sequel (rollBackShape_meets clean
    (Heap.replaceObjectLayout_meets clean.heap object shape slots)
    (Heap.replaceObjectLayout_drops object shape slots state.heap))
  intro layout after pending
  exact .surely (finishLayout_clean pending)

section

variable (clean : state.Clean held)

include clean

theorem allocateDictionary_clean (shape : Shape) :
    state.HandsClean held (liftHeap (Heap.allocateShape shape.enableDictionary)) := by
  apply Meets.weaken (liftHeap_meets
    (Heap.allocateShape_meets clean.heap shape.enableDictionary))
  · intro id after allocated
    obtain ⟨heap, rfl, steps, fresh, live⟩ := allocated
    apply (Canonical.steps clean steps).settle
    intro other some
    have same : other = id := by
      rcases some with none | none | member
      · exact none.elim
      · exact none.elim
      · exact List.mem_singleton.mp member
    subst same
    constructor
    · intro layout ordinary
      obtain ⟨strong, there, plain⟩ := ordinary
      change heap.shapes.get? other = _ at there
      rw [live] at there
      cases there
      rw [Heap.isDictionary_enableDictionary] at plain
      cases plain
    · intro hash member
      obtain ⟨_, present, _⟩ :=
        (clean.bucket hash other member).resolve_left fun none => none
      obtain ⟨_, there, _⟩ := present
      exact fresh (Arena.issued_of_get? there)
  · intro after failed
    obtain ⟨_, rfl, steps⟩ := failed
    exact clean.unaffected steps

theorem replaceDictionaryLayout_clean (object : ObjectId)
    (prototype : Option ObjectId) (entries : List ShapeEntry)
    (slots : List PropertySlot) :
    state.StaysClean held (replaceDictionaryLayout object prototype entries
      slots) := by
  refine .observe (requireRuntime_meets _ _) ?_ clean
  intro _ _
  refine .observe (liftHeap_observes (Heap.object_meets object)) ?_ clean
  intro data _
  refine .observe (liftHeap_observes (Heap.shape_meets _)) ?_ clean
  intro current _
  refine .observe (liftShape_meets _) ?_ clean
  intro shape _
  apply Meets.sequel (allocateDictionary_clean clean shape)
  intro id after allocated
  exact replaceLayoutWithOwnedShape_clean allocated object _

theorem detachDictionaryLayout_clean (object : ObjectId) (data : ObjectData)
    (shape : Shape) :
    state.StaysClean held (detachDictionaryLayout object data shape) := by
  apply Meets.sequel (allocateDictionary_clean clean shape)
  intro id after allocated
  exact replaceLayoutWithOwnedShape_clean allocated object _

theorem ensureDictionaryLayout_clean (object : ObjectId) :
    state.StaysClean held (ensureDictionaryLayout object) := by
  refine .observe (liftHeap_observes (Heap.object_meets object)) ?_ clean
  intro data there
  refine .observe (liftHeap_observes (Heap.shapeNode_meets _)) ?_ clean
  intro node _
  split
  · apply Meets.bind (liftHeap_meets
      (Heap.enableObjectDictionary_meets clean.heap object))
    · intro _ after enabled
      obtain ⟨heap, rfl, found, again, steps, converted, live, dictionary⟩ :=
        enabled
      rw [there] at again
      cases again
      apply Meets.changed
      have stepped := Canonical.steps clean steps
      have unlinked := stepped.unlinkFinalizedShapes [data.shape] (by
        intro id member shape ordinary
        obtain ⟨_, present, plain⟩ := ordinary
        change heap.shapes.get? id = _ at present
        rw [List.mem_singleton.mp member, live] at present
        cases present
        rw [dictionary] at plain
        cases plain)
      apply unlinked.mono
      intro id some
      rcases some with ⟨none | same | none, absent⟩
      · exact none
      · exact absent (List.mem_singleton.mpr same)
      · exact none
    · intro after failed
      obtain ⟨_, rfl, steps⟩ := failed
      exact clean.unaffected steps
  · exact detachDictionaryLayout_clean clean object data node.value

theorem replacementShape_clean (previous : ShapeId) (source : Shape)
    (prototype : Option ObjectId) (entries : List ShapeEntry) :
    state.HandsClean held (replacementShape previous source prototype entries) := by
  have unlinked : (state.unlinkShapeTransitions previous).Clean held :=
    clean.congr rfl rfl rfl
  unfold replacementShape
  split
  · split
    · exact appendTransition_clean clean previous _
    · exact .changed_bind (getOrCreateShape_clean unlinked _ _)
  · exact .changed_bind (getOrCreateShape_clean unlinked _ _)

theorem replaceLayout_clean (object : ObjectId) (prototype : Option ObjectId)
    (entries : List ShapeEntry) (slots : List PropertySlot) :
    state.StaysClean held (replaceLayout object prototype entries slots) := by
  refine .observe (liftHeap_observes (Heap.object_meets object)) ?_ clean
  intro data _
  refine .observe (liftHeap_observes (Heap.shape_meets _)) ?_ clean
  intro source _
  split
  · exact replaceDictionaryLayout_clean clean object prototype entries slots
  · apply Meets.sequel
      (replacementShape_clean clean data.shape source prototype entries)
    intro shape after made
    exact replaceLayoutWithOwnedShape_clean made object slots

theorem materializeArrayLayout_clean (object : ObjectId)
    (prototype : Option ObjectId) (entries : List ShapeEntry) :
    state.StaysClean held (materializeArrayLayout object prototype entries) :=
      by
  apply Meets.sequel (getOrCreateShape_clean clean prototype entries)
  intro shape after made
  apply Meets.sequel (rollBackShape_meets made
    (Heap.materializeArrayDenseShape_meets made.heap object shape)
    (Heap.materializeArrayDenseShape_drops object shape after.heap))
  intro layout middle pending
  apply Meets.sequel (Meets.surely (finishLayout_clean pending))
  intro _ last finished
  exact ensureDictionaryLayout_clean finished object

variable {node : Counted Shape} {data : ObjectData}

section

variable (live : state.heap.objects.get? object = some data)
  (there : state.heap.shapes.get? data.shape = some node)

include live there

theorem appendUniqueLayout_clean (dictionary : node.value.isDictionary)
    (selectedCount : Nat) (entry : ShapeEntry) (slot : PropertySlot) :
    state.StaysClean held (appendUniqueLayout object data.shape selectedCount
      entry slot) := by
  have strange : ∀ layout, ¬ state.heap.Ordinary data.shape layout := by
    intro layout ordinary
    obtain ⟨_, again, plain⟩ := ordinary
    rw [there] at again
    cases again
    rw [dictionary] at plain
    cases plain
  have unhashed : state.shapeHashes data.shape = none := by
    cases known : state.shapeHashes data.shape with
    | none => rfl
    | some hash =>
      obtain ⟨layout, ordinary, _⟩ := (clean.bucket hash data.shape
        ((clean.hashes _ _).mpr known)).resolve_left fun none => none
      exact (strange layout ordinary).elim
  have removed : (state.unlinkShapeTransitions data.shape).removeShapeCache
      data.shape = (none, state.unlinkShapeTransitions data.shape) := by
    unfold removeShapeCache
    rw [show (state.unlinkShapeTransitions data.shape).shapeHashes data.shape =
      none from unhashed]
  have unlinked : (state.unlinkShapeTransitions data.shape).Clean held :=
    clean.congr rfl rfl rfl
  have appended := liftHeap_clean unlinked
    (Heap.appendSelectedMissingObjectProperty_meets unlinked.heap object entry
      slot (by
        intro found shape again present
        rw [show (state.unlinkShapeTransitions data.shape).heap = state.heap
          from rfl] at again present
        rw [live] at again
        cases again
        rw [there] at present
        cases present
        exact .inl dictionary) data.shape selectedCount)
  unfold Meets at appended
  unfold StaysClean Meets appendUniqueLayout
  dsimp only
  rw [removed]
  dsimp only
  cases outcome : liftHeap (Heap.appendSelectedMissingObjectProperty object
      data.shape selectedCount entry slot)
      (state.unlinkShapeTransitions data.shape) with
  | ok | error =>
    rw [outcome] at appended
    exact appended

theorem storeMissing_clean (entry : ShapeEntry) (slot : PropertySlot)
    (allowed : AppendsInPlace state data.shape node entry → node.value.isDictionary) :
    state.StaysClean held (storeMissing object data node entry slot) := by
  apply Meets.get
  split
  · rename_i inPlace
    refine .observe (requireRuntime_meets _ _) ?_ clean
    intro _ _
    exact appendUniqueLayout_clean clean live there (allowed inPlace) _ _ _
  · split
    · apply Meets.changed_bind
      apply replaceLayout_clean
      exact clean.congr rfl rfl rfl
    · apply Meets.sequel (appendTransition_clean clean data.shape entry)
      intro target after made
      exact replaceLayoutWithOwnedShape_clean made object _

end

theorem storeExisting_clean (object : ObjectId) (data : ObjectData)
    (node : Counted Shape) (index : Nat) (known flags : PropertyFlags)
    (slot : PropertySlot) :
    state.StaysClean held (storeExisting object data node index known flags
      slot) := by
  unfold storeExisting
  split
  · exact liftHeap_clean clean
      (Heap.replaceObjectSlot_meets clean.heap object index slot)
  · split
    · exact liftHeap_clean clean
        (Heap.replaceDictionaryProperty_meets clean.heap object index flags slot)
    · apply Meets.changed_bind
      apply replaceLayout_clean
      exact clean.congr rfl rfl rfl

omit clean in
def growsOrdinary (state : RuntimeState) (object : ObjectId) (atom : AtomIdx)
    (flags : PropertyFlags) : Bool :=
  (state.heap.objects.get? object).any fun data =>
    (state.heap.shapes.get? data.shape).any fun node =>
      node.value.find atom = none && !node.value.isDictionary &&
        AppendsInPlace state data.shape node ⟨atom, flags⟩

theorem storePropertySlot_clean (object : ObjectId) (atom : AtomIdx)
    (flags : PropertyFlags) (slot : PropertySlot)
    (allowed : growsOrdinary state object atom flags = false) :
    state.StaysClean held (storePropertySlot object atom flags slot) := by
  refine .observe (liftHeap_observes (Heap.object_meets object)) ?_ clean
  intro data live
  refine .observe (liftHeap_observes (Heap.shape_meets _)) ?_ clean
  intro shape found
  obtain ⟨node, there, rfl⟩ := found
  refine .observe (liftHeap_observes (Heap.object_meets object)) ?_ clean
  intro same again
  rw [live] at again
  cases again
  refine .observe (liftHeap_observes (Heap.shapeNode_meets _)) ?_ clean
  intro found again
  rw [there] at again
  cases again
  split
  · exact storeExisting_clean clean object data node _ _ flags slot
  · rename_i missing
    apply storeMissing_clean clean live there
    intro inPlace
    by_contra plain
    unfold growsOrdinary at allowed
    rw [live, any_some, there, any_some] at allowed
    simp only [plain, inPlace, decide_true, Bool.and_true, Bool.not_false,
      decide_eq_false_iff_not] at allowed
    -- a position that was found has an entry
    obtain ⟨_, known⟩ := ne_none_iff_exists'.mp allowed
    rw [known, bind_some, map_eq_none_iff] at missing
    rw [Shape.find_eq_position, position_eq_some_iff node.value.distinct,
      List.getElem?_map, missing] at known
    cases known

end

end Runtime

/-- The state of the runtime and the references to shapes that are held
outside objects. -/
structure InternerWorld where
  state : RuntimeState
  held : List ShapeId

inductive InternerCommand where
  | getOrCreateShape (prototype : Option ObjectId) (entries : List ShapeEntry)
  | appendTransition (parent : ShapeId) (entry : ShapeEntry)
  | releaseShape (shape : ShapeId)
  | allocateObject (kind : ObjectKind) (payload : ObjectPayload)
      (shape : ShapeId) (slots : List PropertySlot)
  | reclaimObject (object : ObjectId)
  | storePropertySlot (object : ObjectId) (atom : AtomIdx)
      (flags : PropertyFlags) (slot : PropertySlot)
  | replaceLayout (object : ObjectId) (prototype : Option ObjectId)
      (entries : List ShapeEntry) (slots : List PropertySlot)
  | ensureDictionaryLayout (object : ObjectId)
  | deleteDictionaryProperty (object : ObjectId) (atom : AtomIdx)
  | materializeArrayLayout (object : ObjectId) (prototype : Option ObjectId)
      (entries : List ShapeEntry)

def Runtime.reclaimObject (object : ObjectId) : RuntimeOperation Unit := do
  let finalized ← liftHeap (Heap.reclaimObject object)
  applyCleanup finalized

def InternerCommand.run : InternerCommand → RuntimeOperation (List ShapeId)
  | getOrCreateShape prototype entries => do
    return [← Runtime.getOrCreateShape prototype entries]
  | appendTransition parent entry => do
    return [← Runtime.appendTransition parent entry]
  | releaseShape shape => do Runtime.releaseShape shape; return []
  | allocateObject kind payload shape slots => do
    let _ ← liftHeap (Heap.allocateObject kind payload shape slots)
    return []
  | reclaimObject object => do Runtime.reclaimObject object; return []
  | storePropertySlot object atom flags slot => do
    Runtime.storePropertySlot object atom flags slot
    return []
  | replaceLayout object prototype entries slots => do
    Runtime.replaceLayout object prototype entries slots
    return []
  | ensureDictionaryLayout object => do
    Runtime.ensureDictionaryLayout object
    return []
  | deleteDictionaryProperty object atom => do
    liftHeap (Heap.deleteDictionaryProperty object atom)
    return []
  | materializeArrayLayout object prototype entries => do
    Runtime.materializeArrayLayout object prototype entries
    return []

namespace InternerWorld

def empty : InternerWorld := ⟨.empty, []⟩

def kept (world : InternerWorld) : InternerCommand → List ShapeId
  | .releaseShape shape => world.held.erase shape
  | _ => world.held

def next (world : InternerWorld) (command : InternerCommand) :
    InternerWorld :=
  match command.run world.state with
  | .ok handed state => ⟨state, handed ++ world.kept command⟩
  | .error _ state => ⟨state, world.kept command⟩

def Enabled (world : InternerWorld) : InternerCommand → Prop
  | .releaseShape shape => shape ∈ world.held
  | .reclaimObject object => world.state.heap.Unlinked object
  | _ => True

def system : TransitionSystem InternerWorld InternerCommand where
  initial world := world = empty
  step before command after :=
    before.Enabled command ∧ after = before.next command

/-- No property is appended in place to a shape that is not a dictionary. -/
def Admits (world : InternerWorld) : InternerCommand → Prop
  | .storePropertySlot object atom flags _ =>
    growsOrdinary world.state object atom flags = false
  | _ => True

theorem clean_empty : RuntimeState.Clean [] RuntimeState.empty where
  heap := {
    covered := fun _ member => nomatch member
    marked := fun _ _ _ live => nomatch live
    bounded := Nat.zero_le _ }
  fingerprint := fun _ _ _ ordinary => nomatch ordinary.choose_spec.1
  bucket := fun _ _ member => nomatch member
  hashes := by
    intro hash id
    constructor
    · intro member
      cases member
    · intro known
      cases known
  interned := fun _ _ _ ordinary => nomatch ordinary.choose_spec.1
  unique := fun _ _ _ _ _ _ ordinary => nomatch ordinary.choose_spec.1

variable {world : InternerWorld}

variable {state : RuntimeState} {held : List ShapeId}

theorem discard_clean (meets : state.StaysClean held operation) :
    Meets (do let _ ← operation; return ([] : List ShapeId)) state
      (fun handed after => after.Clean (handed ++ held))
      (fun after => after.Clean held) := by
  apply Meets.sequel meets
  intro _ after clean
  exact .pure clean

theorem hand_clean (meets : state.HandsClean held operation) :
    Meets (do return [← operation]) state
      (fun handed after => after.Clean (handed ++ held))
      (fun after => after.Clean held) := by
  apply Meets.sequel meets
  intro _ after clean
  exact .pure clean

theorem reclaimObject_clean (clean : state.Clean held) (object : ObjectId)
    (unlinked : state.heap.Unlinked object) :
    state.StaysClean held (reclaimObject object) := by
  have reclaimed := Meets.both
    (Heap.reclaimObject_meets clean.heap object unlinked)
    (Heap.reclaimObject_drops object state.heap)
  apply Meets.bind (liftHeap_meets reclaimed)
  · intro gone after found
    obtain ⟨heap, rfl, steps, dropped⟩ := found
    exact .changed (unlink_clean clean steps dropped)
  · intro after failed
    obtain ⟨_, rfl, steps, _⟩ := failed
    exact clean.unaffected steps

section

variable (clean : world.state.Clean world.held) (command : InternerCommand)
  (enabled : world.Enabled command) (admitted : world.Admits command)

include clean enabled admitted

theorem run_clean : Meets command.run world.state
      (fun handed after => after.Clean (handed ++ world.kept command))
      (fun after => after.Clean (world.kept command)) := by
  cases command with
  | getOrCreateShape =>
    exact hand_clean (getOrCreateShape_clean clean _ _)
  | appendTransition =>
    exact hand_clean (appendTransition_clean clean _ _)
  | releaseShape shape =>
    have held : world.state.Clean (shape :: world.held.erase shape) := by
      refine ⟨clean.heap.mono (List.perm_cons_erase enabled).symm.subperm,
        clean.fingerprint, clean.bucket, clean.hashes, clean.interned,
        clean.unique⟩
    apply discard_clean
    exact .surely (releaseShape_clean held)
  | allocateObject kind payload shape slots =>
    exact discard_clean (liftHeap_clean clean
      (Heap.allocateObject_meets clean.heap kind payload shape slots))
  | reclaimObject object =>
    exact discard_clean (reclaimObject_clean clean object enabled)
  | storePropertySlot object atom flags slot =>
    exact discard_clean
      (storePropertySlot_clean clean object atom flags slot admitted)
  | replaceLayout object prototype entries slots =>
    exact discard_clean
      (replaceLayout_clean clean object prototype entries slots)
  | ensureDictionaryLayout object =>
    exact discard_clean (ensureDictionaryLayout_clean clean object)
  | deleteDictionaryProperty object atom =>
    exact discard_clean (liftHeap_clean clean
      (Heap.deleteDictionaryProperty_meets clean.heap object atom))
  | materializeArrayLayout object prototype entries =>
    exact discard_clean
      (materializeArrayLayout_clean clean object prototype entries)

theorem next_clean :
    (world.next command).state.Clean (world.next command).held := by
  have meets := run_clean clean command enabled admitted
  unfold Meets at meets
  unfold next
  split
  all_goals
    rename_i outcome
    rw [outcome] at meets
    exact meets

end

theorem clean_of_reachable (reached : system.Reachable Admits world) :
    world.state.Clean world.held := by
  apply reached.invariant fun world => world.state.Clean world.held
  · intro state start
    rw [start]
    exact clean_empty
  · intro before command after clean admitted taken
    rw [taken.2]
    exact next_clean clean command taken.1 admitted

end InternerWorld

/-- Fingerprints are right, shapes are cached under them, and no layout is
cached twice; so objects of one layout share their shape. -/
structure RuntimeState.Interned (state : RuntimeState) : Prop where
  fingerprint : ∀ id node, state.heap.shapes.get? id = some node →
    node.value.isDictionary = false →
    node.value.fingerprintHash =
      computeFingerprintHash node.value.prototype node.value.entries
  bucket : ∀ hash id, id ∈ state.shapeCache hash →
    ∃ node, state.heap.shapes.get? id = some node ∧
      node.value.fingerprintHash = hash
  canonical : ∀ hash other id another node node',
    id ∈ state.shapeCache hash → another ∈ state.shapeCache other →
    state.heap.shapes.get? id = some node →
    state.heap.shapes.get? another = some node' →
    node.value.prototype = node'.value.prototype →
    node.value.entries = node'.value.entries → id = another
  shared : ∀ first second data data' node node',
    state.heap.objects.get? first = some data →
    state.heap.objects.get? second = some data' →
    state.heap.shapes.get? data.shape = some node →
    state.heap.shapes.get? data'.shape = some node' →
    node.value.isDictionary = false → node'.value.isDictionary = false →
    node.value.prototype = node'.value.prototype →
    node.value.entries = node'.value.entries → data.shape = data'.shape

theorem RuntimeState.Clean.interned {state : RuntimeState}
    (clean : state.Clean held) : state.Interned where
  fingerprint id node live plain :=
    clean.fingerprint id node.value (fun none => none) ⟨_, live, plain⟩
  bucket hash id member := by
    obtain ⟨shape, ⟨strong, live, _⟩, hashed⟩ :=
      (clean.bucket hash id member).resolve_left fun none => none
    exact ⟨_, live, hashed⟩
  canonical hash other id another node node' member cached live there
      prototype entries := by
    obtain ⟨shape, ⟨strong, found, plain⟩, _⟩ :=
      (clean.bucket hash id member).resolve_left fun none => none
    obtain ⟨shape', ⟨strong', found', plain'⟩, _⟩ :=
      (clean.bucket other another cached).resolve_left fun none => none
    rw [live] at found
    cases found
    rw [there] at found'
    cases found'
    exact clean.unique id another _ _ (fun none => none) (fun none => none)
      ⟨_, live, plain⟩ ⟨_, there, plain'⟩ prototype entries
  shared first second data data' node node' _ _ live there plain plain'
      prototype entries :=
    clean.unique _ _ _ _ (fun none => none) (fun none => none)
      ⟨_, live, plain⟩ ⟨_, there, plain'⟩ prototype entries

/-- Runs that never append to an ordinary shape in place keep shapes
canonical. -/
theorem interned_of_admitted {world : InternerWorld}
    (reached : InternerWorld.system.Reachable InternerWorld.Admits world) :
    world.state.Interned :=
  (InternerWorld.clean_of_reachable reached).interned

namespace InternerWorld

def plainFlags : PropertyFlags := .data true true true

def twoObjects : List InternerCommand :=
  [.getOrCreateShape none [], .allocateObject .ordinary .ordinary ⟨0, 1⟩ [],
    .allocateObject .ordinary .ordinary ⟨0, 1⟩ []]

def store (object : ObjectId) (atom : AtomIdx) : InternerCommand :=
  .storePropertySlot object atom plainFlags (.data .undefined)

def oneKey : InternerWorld :=
  (twoObjects ++ [store ⟨0, 1⟩ 1, store ⟨1, 1⟩ 1]).foldl next empty

theorem reachable_oneKey : system.Reachable Admits oneKey := by
  apply TransitionSystem.Reachable.foldl _ (.initial _ rfl)
  iterate 3 refine ⟨trivial, ⟨trivial, rfl⟩, ?_⟩
  refine ⟨?_, ⟨trivial, rfl⟩, ?_, ⟨trivial, rfl⟩, trivial⟩
  all_goals
    show Runtime.growsOrdinary _ _ _ _ = false
    decide +kernel

def threeKeys : InternerWorld :=
  (twoObjects ++ [store ⟨0, 1⟩ 1, store ⟨0, 1⟩ 2, store ⟨0, 1⟩ 3,
    store ⟨1, 1⟩ 1, store ⟨1, 1⟩ 2, store ⟨1, 1⟩ 3]).foldl next empty

theorem reachable_threeKeys : system.Reachable (fun _ _ => True) threeKeys := by
  apply TransitionSystem.Reachable.foldl _ (.initial _ rfl)
  iterate 9 refine ⟨trivial, ⟨trivial, rfl⟩, ?_⟩
  trivial

end InternerWorld

theorem interned_oneKey :
    InternerWorld.system.Reachable InternerWorld.Admits InternerWorld.oneKey ∧
      InternerWorld.oneKey.state.Interned :=
  ⟨InternerWorld.reachable_oneKey,
    interned_of_admitted InternerWorld.reachable_oneKey⟩

/-- The second object does not find the shape of the first, whose fingerprint
is still the one of its first key. -/
theorem layout_interned_twice :
    InternerWorld.system.Reachable (fun _ _ => True) InternerWorld.threeKeys ∧
      ¬ InternerWorld.threeKeys.state.Interned := by
  refine ⟨InternerWorld.reachable_threeKeys, ?_⟩
  intro interned
  have facts : (InternerWorld.threeKeys.state.heap.shapes.get? ⟨1, 1⟩).bind
      (fun node => (InternerWorld.threeKeys.state.heap.shapes.get?
        ⟨2, 1⟩).map fun node' =>
          decide (node.value.prototype = node'.value.prototype ∧
            node.value.entries = node'.value.entries)) = some true := by
    decide +kernel
  have cached : ∃ hash, (⟨1, 1⟩ : ShapeId) ∈
        InternerWorld.threeKeys.state.shapeCache hash ∧
      (⟨2, 1⟩ : ShapeId) ∈ InternerWorld.threeKeys.state.shapeCache hash := by
    refine ⟨computeFingerprintHash none [⟨1, InternerWorld.plainFlags⟩,
      ⟨2, InternerWorld.plainFlags⟩, ⟨3, InternerWorld.plainFlags⟩], ?_⟩
    decide +kernel
  simp only [bind_eq_some_iff, map_eq_some_iff, decide_eq_true_eq] at facts
  obtain ⟨node, live, node', there, prototype, entries⟩ := facts
  obtain ⟨hash, first, second⟩ := cached
  have same := interned.canonical hash hash _ _ node node' first second live
    there prototype entries
  cases same

end QuickJsOxide.Objects
