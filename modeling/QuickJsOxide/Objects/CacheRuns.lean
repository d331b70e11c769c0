import QuickJsOxide.Objects.CacheSoundness

namespace QuickJsOxide.Objects

open Library Atoms

/-! Programs that change layouts and read through one cache. -/

inductive Mutation where
  | allocateObject (kind : ObjectKind) (payload : ObjectPayload)
      (shape : ShapeId) (slots : List PropertySlot)
  | appendUniqueObjectProperty (id : ObjectId) (entry : ShapeEntry)
      (slot : PropertySlot)
  | appendSelectedMissingObjectProperty (id : ObjectId) (shape : ShapeId)
      (selectedCount : Nat) (entry : ShapeEntry) (slot : PropertySlot)
  | replaceObjectSlot (id : ObjectId) (index : Nat) (slot : PropertySlot)
  | replaceObjectLayout (id : ObjectId) (shape : ShapeId)
      (slots : List PropertySlot)
  | materializeArrayDenseShape (id : ObjectId) (shape : ShapeId)
  | enableObjectDictionary (id : ObjectId)
  | deleteDictionaryProperty (id : ObjectId) (atom : AtomIdx)
  | replaceDictionaryProperty (id : ObjectId) (index : Nat)
      (flags : PropertyFlags) (slot : PropertySlot)
  | fillEmptyArrayDense (id : ObjectId) (values : List RawValue)
  | appendArrayDenseValue (id : ObjectId) (value : RawValue)

def Mutation.run : Mutation → Operation Unit
  | allocateObject kind payload shape slots => do
    let _ ← Heap.allocateObject kind payload shape slots
  | appendUniqueObjectProperty id entry slot =>
    Heap.appendUniqueObjectProperty id entry slot
  | appendSelectedMissingObjectProperty id shape selectedCount entry slot =>
    Heap.appendSelectedMissingObjectProperty id shape selectedCount entry slot
  | replaceObjectSlot id index slot => Heap.replaceObjectSlot id index slot
  | replaceObjectLayout id shape slots => do
    let _ ← Heap.replaceObjectLayout id shape slots
  | materializeArrayDenseShape id shape => do
    let _ ← Heap.materializeArrayDenseShape id shape
  | enableObjectDictionary id => Heap.enableObjectDictionary id
  | deleteDictionaryProperty id atom => Heap.deleteDictionaryProperty id atom
  | replaceDictionaryProperty id index flags slot =>
    Heap.replaceDictionaryProperty id index flags slot
  | fillEmptyArrayDense id values => Heap.fillEmptyArrayDense id values
  | appendArrayDenseValue id value => Heap.appendArrayDenseValue id value

/-- The fixed key and runtime of a cache; the key is alive. -/
structure Site where
  domain : Nat
  atom : AtomIdx
  atoms : AtomIdx → Option AtomContent
  content : AtomContent
  known : atoms atom = some content

/-- A heap, the references to shapes held outside objects, and the cache. -/
structure CacheWorld where
  heap : Heap
  held : List ShapeId
  cache : CacheState

inductive CacheCommand where
  | mutate (mutation : Mutation)
  | allocateShape (shape : Shape)
  | retainShape (id : ShapeId)
  | releaseShape (id : ShapeId)
  | reclaimObject (id : ObjectId)
  | read (realm : ContextId) (receiver : ObjectId)
  | slot (realm : ContextId) (receiver : ObjectId)
  | miss (realm : ContextId) (receiver : Option ObjectId)

def finalHeap (operation : Operation α) (heap : Heap) : Heap :=
  match operation heap with
  | .ok _ after => after
  | .error _ after => after

namespace CacheWorld

def empty : CacheWorld := ⟨⟨.empty, .empty, 0⟩, [], .cold⟩

/-- A reference is given up by its holder, and objects that are prototypes of
live shapes are not collected. -/
def Enabled (world : CacheWorld) : CacheCommand → Prop
  | .releaseShape id => id ∈ world.held
  | .reclaimObject id => world.heap.Unlinked id
  | _ => True

def next (site : Site) (world : CacheWorld) : CacheCommand → CacheWorld
  | .mutate mutation =>
    { world with heap := finalHeap mutation.run world.heap }
  | .allocateShape shape =>
    match Heap.allocateShape shape world.heap with
    | .ok id heap => ⟨heap, id :: world.held, world.cache⟩
    | .error _ heap => ⟨heap, world.held, world.cache⟩
  | .retainShape id =>
    match Heap.retainShape id world.heap with
    | .ok _ heap => ⟨heap, id :: world.held, world.cache⟩
    | .error _ heap => ⟨heap, world.held, world.cache⟩
  | .releaseShape id =>
    ⟨finalHeap (Heap.releaseShape id) world.heap, world.held.erase id,
      world.cache⟩
  | .reclaimObject id =>
    { world with heap := finalHeap (Heap.reclaimObject id) world.heap }
  | .read realm receiver =>
    { world with
      cache :=
        (world.cache.read world.heap site.domain realm receiver).2 }
  | .slot realm receiver =>
    { world with
      cache :=
        (world.cache.slot world.heap site.domain realm receiver).2 }
  | .miss realm receiver =>
    { world with
      cache := world.cache.miss world.heap site.atoms site.domain realm
        receiver site.atom }

def system (site : Site) : TransitionSystem CacheWorld CacheCommand where
  initial world := world = empty
  step before command after :=
    before.Enabled command ∧ after = before.next site command

end CacheWorld

section

variable {heap after : Heap}

variable {scope : Heap.Scope}

theorem Heap.Steps.any (steps : heap.Steps scope held after)
    (still : ∀ id, ¬ scope.moved id) : heap.Steps .any held after where
  sound := steps.sound
  frame := steps.frame.mono (fun id moved => (still id moved).elim)
    (fun _ _ => trivial) fun _ _ => trivial

/-- All outcomes of the operation stay within the widest frame. -/
def Moderate (held : List ShapeId) (heap : Heap) (operation : Operation α) :
    Prop :=
  Meets operation heap (fun _ after => heap.Steps .any held after)
    fun after => heap.Steps .any held after

theorem Moderate.final (moderate : Moderate held heap operation) :
    heap.Steps .any held (finalHeap operation heap) := by
  unfold Moderate Meets at moderate
  unfold finalHeap
  split
  all_goals
    rename_i outcome
    rw [outcome] at moderate
    exact moderate

theorem moderate_of_meets {returned : α → Heap.Scope}
    (meets : Meets operation heap
      (fun value after => heap.Steps (returned value) held after)
      (fun after => heap.Steps scope held after))
    (returns : ∀ value id, ¬ (returned value).moved id)
    (fails : ∀ id, ¬ scope.moved id) : Moderate held heap operation := by
  apply Meets.weaken meets
  · intro value after steps
    exact steps.any (returns value)
  · intro after steps
    exact steps.any fails

theorem moderate_of_none (meets : heap.Stays .none held operation) :
    Moderate held heap operation :=
  moderate_of_meets meets (fun _ _ => not_false) fun _ => not_false

theorem moderate_of_exchanging {operation : Operation (List ShapeId)}
    (meets : heap.Exchanges held operation) : Moderate held heap operation :=
  moderate_of_meets meets (fun _ _ => not_false) fun _ => not_false

theorem Moderate.discard (moderate : Moderate held heap operation) :
    Moderate held heap (do let _ ← operation) := by
  apply Meets.sequel moderate
  intro _ after steps
  exact .pure steps

theorem Mutation.run_moderate (mutation : Mutation)
    (sound : heap.Sound held) : Moderate held heap mutation.run := by
  cases mutation with
  | allocateObject kind payload shape slots =>
    apply Moderate.discard
    exact moderate_of_none
      (Heap.allocateObject_meets sound kind payload shape slots)
  | appendUniqueObjectProperty id entry slot =>
    apply Heap.appendUniqueObjectProperty_meets sound id entry slot
    intro _ _ _ _
    exact .inr trivial
  | appendSelectedMissingObjectProperty id _ _ entry slot =>
    apply Heap.appendSelectedMissingObjectProperty_meets sound id entry slot
    intro _ _ _ _
    exact .inr trivial
  | replaceObjectSlot id index slot =>
    exact moderate_of_none (Heap.replaceObjectSlot_meets sound id index slot)
  | replaceObjectLayout id shape slots =>
    apply Moderate.discard
    exact moderate_of_exchanging
      (Heap.replaceObjectLayout_meets sound id shape slots)
  | materializeArrayDenseShape id shape =>
    apply Moderate.discard
    exact moderate_of_exchanging
      (Heap.materializeArrayDenseShape_meets sound id shape)
  | enableObjectDictionary id =>
    apply Meets.weaken (Heap.enableObjectDictionary_meets sound id)
    · intro _ after enabled
      obtain ⟨_, _, steps, _⟩ := enabled
      exact steps.any fun _ => not_false
    · intro after steps
      exact steps.any fun _ => not_false
  | deleteDictionaryProperty id atom =>
    exact moderate_of_none
      (Heap.deleteDictionaryProperty_meets sound id atom)
  | replaceDictionaryProperty id index flags slot =>
    exact moderate_of_none
      (Heap.replaceDictionaryProperty_meets sound id index flags slot)
  | fillEmptyArrayDense id values =>
    exact moderate_of_none (Heap.fillEmptyArrayDense_meets sound id values)
  | appendArrayDenseValue id value =>
    exact moderate_of_none (Heap.appendArrayDenseValue_meets sound id value)

end

namespace CacheWorld

structure Sound (site : Site) (world : CacheWorld) : Prop where
  heap : world.heap.Sound world.held
  cache : world.cache.Valid site.content world.heap site.atom

variable {world : CacheWorld}

theorem sound_empty : Sound site empty where
  heap := {
    covered := fun _ member => nomatch member
    marked := fun _ _ _ live => nomatch live
    bounded := Nat.zero_le _ }
  cache := fun _ member => nomatch member

theorem Sound.steps (sound : world.Sound site) {heap : Heap}
    {held : List ShapeId} (steps : world.heap.Steps .any held heap) :
    Sound site ⟨heap, held, world.cache⟩ where
  heap := steps.sound
  cache location member := (sound.cache location member).frame steps.frame
    sound.heap (fun _ => not_false) steps.sound

theorem Sound.next (sound : world.Sound site) (command : CacheCommand)
    (enabled : world.Enabled command) : (world.next site command).Sound site := by
  cases command with
  | mutate mutation =>
    exact sound.steps (mutation.run_moderate sound.heap).final
  | allocateShape shape =>
    have meets := Heap.allocateShape_meets sound.heap shape
    unfold Meets at meets
    unfold CacheWorld.next
    dsimp only
    split
    · rename_i id after outcome
      rw [outcome] at meets
      exact sound.steps (meets.1.any fun _ => not_false)
    · rename_i error after outcome
      rw [outcome] at meets
      exact sound.steps (meets.any fun _ => not_false)
  | retainShape id =>
    have meets := Heap.retainShape_meets sound.heap id
    unfold Meets at meets
    unfold CacheWorld.next
    dsimp only
    split
    · rename_i outcome
      rw [outcome] at meets
      exact sound.steps (meets.2.any fun _ => not_false)
    · rename_i outcome
      rw [outcome] at meets
      rw [meets]
      exact sound
  | releaseShape id =>
    have held : world.heap.Sound (id :: world.held.erase id) :=
      sound.heap.mono (List.perm_cons_erase enabled).symm.subperm
    have released : Moderate (world.held.erase id) world.heap
        (Heap.releaseShape id) := by
      apply Meets.weaken (Heap.releaseShape_meets held)
      · intro gone after steps
        exact steps.any fun _ => not_false
      · intro _ absurdity
        exact absurdity.elim
    exact sound.steps released.final
  | reclaimObject id =>
    exact sound.steps (moderate_of_exchanging
      (Heap.reclaimObject_meets sound.heap id enabled)).final
  | read realm receiver =>
    exact ⟨sound.heap, sound.cache.read site.domain realm receiver⟩
  | slot realm receiver =>
    have kept := sound.cache.read site.domain realm receiver
    refine ⟨sound.heap, ?_⟩
    show (world.cache.slot world.heap site.domain realm receiver).2.Valid _ _ _
    unfold CacheState.slot
    split
    all_goals
      rename_i outcome
      rw [outcome] at kept
      exact kept
  | miss realm receiver =>
    exact ⟨sound.heap, sound.cache.miss sound.heap site.known site.domain
      realm receiver⟩

theorem sound_of_reachable
    (reached : (system site).Reachable (fun _ _ => True) world) :
    world.Sound site := by
  apply reached.invariant (Sound site)
  · intro state start
    rw [start]
    exact sound_empty
  · intro before command after sound _ taken
    rw [taken.2]
    exact sound.next command taken.1

end CacheWorld

section

variable {heap : Heap} {state : CacheState}

theorem CacheState.read_eq_some
    (hit : state.read heap domain realm receiver = (some value, after)) :
    ∃ location ∈ state.locations, after.current = some location ∧
      readLocation location heap domain realm receiver = some value := by
  cases state with
  | cold => cases hit
  | monomorphic location =>
    unfold CacheState.read at hit
    obtain ⟨found, same⟩ := Prod.mk.inj hit
    rw [← same]
    exact ⟨location, List.mem_singleton_self _, rfl, found⟩
  | polymorphic first second =>
    unfold CacheState.read at hit
    dsimp only at hit
    split at hit
    · rename_i found
      obtain ⟨value, same⟩ := Prod.mk.inj hit
      rw [← same]
      exact ⟨first, List.mem_cons_self, rfl, found.trans value⟩
    · split at hit
      · rename_i found
        obtain ⟨value, same⟩ := Prod.mk.inj hit
        rw [← same]
        exact ⟨second, List.mem_cons_of_mem _ (List.mem_singleton_self _),
          rfl, found.trans value⟩
      · cases hit
  | megamorphic => cases hit

def IsArrayLengthSlot (object : ObjectData) (slot : Nat) : Prop :=
  object.kind = .array ∧ slot = 0

/-- An own writable data property in a slot that is not an Array's length,
of an object that does not intercept the key. -/
def OwnWritable (numbers : NumberSpelling) (content : AtomContent)
    (heap : Heap) (atom : AtomIdx) (receiver : ObjectId) (slot : Nat) : Prop :=
  ∃ object node entry value, heap.objects.get? receiver = some object ∧
    ¬ Intercepts numbers content object ∧
    heap.shapes.get? object.shape = some node ∧
    position node.value.entries atom = some slot ∧
    node.value.entries[slot]? = some entry ∧ entry.flags.writable ∧
    object.slots[slot]? = some (.data value) ∧ ¬ IsArrayLengthSlot object slot

theorem CacheState.Valid.slot (numbers : NumberSpelling) {slot : Nat}
    (valid : state.Valid content heap atom)
    (hit : (state.slot heap domain realm receiver).1 = some slot) :
    OwnWritable numbers content heap atom receiver slot := by
  unfold CacheState.slot at hit
  split at hit
  · cases hit
  · rename_i value after outcome
    obtain ⟨location, member, current, read⟩ :=
      CacheState.read_eq_some outcome
    dsimp only at hit
    rw [current] at hit
    change CacheState.writableSlot location heap receiver = some slot at hit
    unfold CacheState.writableSlot at hit
    obtain ⟨own, hit⟩ := guard_bind_eq_some.mp hit
    obtain ⟨object, live, hit⟩ := bind_eq_some.mp hit
    obtain ⟨notLength, hit⟩ := guard_bind_eq_some.mp hit
    obtain ⟨node, shape, hit⟩ := bind_eq_some.mp hit
    obtain ⟨entry, present, hit⟩ := bind_eq_some.mp hit
    obtain ⟨writable, hit⟩ := guard_bind_eq_some.mp hit
    cases hit
    have located := valid location member
    obtain ⟨_, _, _, _, again, ordinary, same, layout, revision, epoch, above,
      alive, stored⟩ := readLocation_eq_some read
    rw [own] at above
    cases above
    rw [live] at again alive
    cases again
    cases alive
    rw [same, shape] at layout
    cases layout
    rw [located.numeric] at ordinary
    have leads := (located.leads node shape).2 revision epoch
    rw [own] at leads
    exact ⟨object, node, entry, value, live,
      not_intercepts_of_ordinaryReceiver numbers ordinary, same ▸ shape, leads,
      present, writable, stored, notLength⟩

end

/-- In every run of layout operations, reads and misses with one key, a hit
of the read cache is the value the ordinary lookup finds now, and a slot of the
write cache is the receiver's own writable data property. -/
theorem cache_hits_current (numbers : NumberSpelling) (site : Site)
    (world : CacheWorld)
    (reached : (CacheWorld.system site).Reachable (fun _ _ => True) world)
    (realm : ContextId) (receiver : ObjectId) :
    (∀ value, (world.cache.read world.heap site.domain realm receiver).1 =
        some value → ∃ holder slot data,
        Finds numbers site.content world.heap site.atom receiver holder slot ∧
        world.heap.objects.get? holder = some data ∧
        data.slots[slot]? = some (.data value)) ∧ ∀ slot,
      (world.cache.slot world.heap site.domain realm receiver).1 = some slot →
      OwnWritable numbers site.content world.heap site.atom receiver slot := by
  have sound := CacheWorld.sound_of_reachable reached
  refine ⟨?_, fun slot => sound.cache.slot numbers⟩
  intro value hit
  obtain ⟨location, member, _, read⟩ :=
    CacheState.read_eq_some (Prod.ext hit rfl)
  exact (sound.cache location member).read numbers read

def cachedSite : Site where
  domain := 0
  atom := 5
  atoms := fun _ => some (.string [120])
  content := .string [120]
  known := rfl

def cachedEntry : ShapeEntry := ⟨5, .data true true true⟩

def holderShape : Shape where
  layoutRevision := 0
  prototype := none
  entries := [cachedEntry]
  fingerprintHash := computeFingerprintHash none [cachedEntry]
  lookup := tableOf [cachedEntry]
  dictionaryOrder := none
  distinct := List.nodup_singleton _
  indexed := rfl
  bounded := Nat.zero_le _

def cachedHolder : ObjectId := ⟨0, 1⟩

def receiverShape : Shape where
  layoutRevision := 0
  prototype := some cachedHolder
  entries := []
  fingerprintHash := computeFingerprintHash (some cachedHolder) []
  lookup := tableOf []
  dictionaryOrder := none
  distinct := List.nodup_nil
  indexed := rfl
  bounded := Nat.zero_le _

def cachedReceiver : ObjectId := ⟨1, 1⟩

/-- The property is on the prototype of the receiver. -/
def cachedCommands : List CacheCommand :=
  [.allocateShape holderShape,
    .mutate (.allocateObject .ordinary .ordinary ⟨0, 1⟩ [.data (.int 7)]),
    .allocateShape receiverShape,
    .mutate (.allocateObject .ordinary .ordinary ⟨1, 1⟩ []),
    .miss ⟨0, 1⟩ (some cachedReceiver)]

def cachedWorld : CacheWorld :=
  cachedCommands.foldl (CacheWorld.next cachedSite) .empty

theorem reachable_cachedWorld :
    (CacheWorld.system cachedSite).Reachable (fun _ _ => True) cachedWorld := by
  apply TransitionSystem.Reachable.foldl cachedCommands (.initial _ rfl)
  exact ⟨trivial, ⟨trivial, rfl⟩, trivial, ⟨trivial, rfl⟩, trivial,
    ⟨trivial, rfl⟩, trivial, ⟨trivial, rfl⟩, trivial, ⟨trivial, rfl⟩, trivial⟩

/-- A text such as the key here is not a number. -/
def nanSpelling : NumberSpelling := ⟨fun _ => spellingOfNaN, fun _ => rfl⟩

theorem cache_hits_cachedWorld :
    (cachedWorld.cache.read cachedWorld.heap 0 ⟨0, 1⟩ cachedReceiver).1 =
      some (.int 7) ∧ ∃ holder slot data,
      Finds nanSpelling (.string [120]) cachedWorld.heap 5 cachedReceiver
        holder slot ∧ cachedWorld.heap.objects.get? holder = some data ∧
      data.slots[slot]? = some (.data (.int 7)) := by
  have hit : (cachedWorld.cache.read cachedWorld.heap 0 ⟨0, 1⟩
      cachedReceiver).1 = some (.int 7) := by decide +kernel
  exact ⟨hit, (cache_hits_current nanSpelling cachedSite cachedWorld
    reachable_cachedWorld ⟨0, 1⟩ cachedReceiver).1 _ hit⟩

end QuickJsOxide.Objects
