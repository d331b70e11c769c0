import QuickJsOxide.Collections.Transactions
import QuickJsOxide.Library.TransitionSystem

namespace QuickJsOxide.Collections

open Library List

/-! Programs that work with Maps, Sets and strings. -/

/-- A heap and the edges to leaves the program holds outside the records. -/
structure World where
  heap : Heap
  held : List LeafId

inductive Command where
  | allocateString (units : List UInt16)
  | allocateBigInt (value : Int)
  | retain (id : LeafId)
  | release (id : LeafId)
  | newCollection (kind : CollectionClass) (keyHasher : KeyHasher)
  | dropCollection (object : Handle)
  | find (kind : CollectionClass) (object : Handle) (key : RawValue)
  | setMapRecord (object : Handle) (key value : RawValue)
  | insertSetRecord (object : Handle) (key : RawValue)
  | deleteMapRecord (object : Handle) (key : RawValue)
  | deleteSetRecord (object : Handle) (key : RawValue)
  | clear (kind : CollectionClass) (object : Handle)
  | appendInPlace (id : LeafId) (suffix : List UInt16) (grows : Bool)

namespace Command

def run (seed : UInt64) : Command → Operation (List LeafId)
  | allocateString units => do return [← Heap.allocateString units]
  | allocateBigInt value => do return [← Heap.allocateBigInt value]
  | retain id => do Heap.retainRawFast id; return [id]
  | release id => do Heap.releaseRaw id; return []
  | newCollection kind keyHasher => do
    let _ ← Heap.newCollection kind keyHasher
    return []
  | dropCollection object => do Heap.dropCollection object; return []
  | find kind object key => do
    let _ ← Heap.find seed kind object key
    return []
  | setMapRecord object key value => do
    Heap.setMapRecord seed object key value
    return []
  | insertSetRecord object key => do
    let _ ← Heap.insertSetRecord seed object key
    return []
  | deleteMapRecord object key => do
    let _ ← Heap.deleteMapRecord seed object key
    return []
  | deleteSetRecord object key => do
    let _ ← Heap.deleteSetRecord seed object key
    return []
  | clear kind object => do Heap.clearRecords kind object; return []
  | appendInPlace id suffix grows => do
    let _ ← Heap.appendInPlace id suffix grows
    return []

def remaining (held : List LeafId) : Command → List LeafId
  | release id => held.erase id
  | _ => held

def operands : Command → List RawValue
  | find _ _ key | insertSetRecord _ key | deleteMapRecord _ key |
      deleteSetRecord _ key => [key]
  | setMapRecord _ key value => [key, value]
  | _ => []

def consumes : Command → List LeafId
  | release id | appendInPlace id _ _ => [id]
  | _ => []

def inserts : Command → Option (CollectionClass × Handle × RawValue)
  | setMapRecord object key _ => some (.map, object, key)
  | insertSetRecord object key => some (.set, object, key)
  | _ => none

end Command

/-- Commands the callers permit: operands are values the program owns, and a
new reference is made from a live one. -/
structure Command.Allowed (command : Command) (world : World) : Prop where
  owned : ∀ value ∈ command.operands, ∀ id ∈ rawValueEdge value,
    id ∈ world.held
  resolves : ∀ value ∈ command.operands, Resolves world.heap.leaves value
  consumed : ∀ id ∈ command.consumes, id ∈ world.held

instance (command : Command) (world : World) :
    Decidable (command.Allowed world) :=
  decidable_of_iff
    ((∀ value ∈ command.operands, ∀ id ∈ rawValueEdge value, id ∈ world.held) ∧
      (∀ value ∈ command.operands, Resolves world.heap.leaves value) ∧
      ∀ id ∈ command.consumes, id ∈ world.held)
    ⟨fun ⟨owned, resolves, consumed⟩ => ⟨owned, resolves, consumed⟩,
      fun ⟨owned, resolves, consumed⟩ => ⟨owned, resolves, consumed⟩⟩

namespace World

variable (seed : UInt64)

def step (world : World) (command : Command) : World :=
  match command.run seed world.heap with
  | .ok given heap => ⟨heap, given ++ command.remaining world.held⟩
  -- also after a panic, so that no state is left out
  | .error _ heap => ⟨heap, world.held⟩

def empty : World := ⟨⟨.empty, .empty⟩, []⟩

end World

def programs (seed : UInt64) : TransitionSystem World Command where
  initial world := world = .empty
  step before command after :=
    command.Allowed before ∧ before.step seed command = after

def World.Memoised (world : World) (id : LeafId) : Prop :=
  ∃ object collection, world.heap.objects.get? object = some collection ∧
    ∃ cached ∈ collection.records.keyIndex.stringHashes, cached.id = id

/-- The command changes the text of a string whose hash is remembered. -/
def World.Disturbs (world : World) (command : Command) : Prop :=
  ∃ id suffix, command = .appendInPlace id suffix true ∧ suffix ≠ [] ∧
    (world.heap.uniqueStringMut id).isSome ∧ world.Memoised id

/-- The command adds a key to a collection that has as many slots as there are
numbers for them. -/
def World.Crowds (world : World) (command : Command) : Prop :=
  ∃ kind object key, command.inserts = some (kind, object, key) ∧
    world.heap.Absent kind object (Heap.normalizeKey key) ∧
    ¬ world.heap.HasRoom kind object

def World.Undisturbed (world : World) (command : Command) : Prop :=
  ¬ world.Disturbs command ∧ ¬ world.Crowds command

namespace Heap

variable {heap : Heap}

theorem resolves_normalizeKey {leaves : Leaves} (resolves : Resolves leaves key) :
    Resolves leaves (normalizeKey key) := by
  cases key with
  | float =>
    simp only [normalizeKey]
    split
    · trivial
    · trivial
  | _ => exact resolves

theorem StaysSound.returning (stays : heap.StaysSound seed held operation) :
    heap.StaysSound seed held (do let _ ← operation; return value) := by
  apply Meets.sequel stays
  intro _ after sound
  exact .pure sound

section

variable (sound : heap.Sound seed held)

include sound

section

variable (object : Handle) (resolves : Resolves heap.leaves key)

include resolves

theorem find_meets (kind : CollectionClass) :
    heap.StaysSound seed held (find seed kind object key) := by
  apply Meets.weaken
    (findEntry_meets sound kind object (resolves_normalizeKey resolves))
  · intro found after remembering
    exact remembering.1.sound
  · intro after same
    rw [same]
    exact sound

theorem setMapRecord_meets (value : RawValue)
    (roomy : heap.Absent .map object (normalizeKey key) →
      heap.HasRoom .map object) :
    heap.StaysSound seed held (setMapRecord seed object key value) := by
  have normal := resolves_normalizeKey resolves
  refine .bind_same (findEntry_meets sound .map object normal) ?_ sound
  intro found middle remembering
  obtain ⟨remembering, missing⟩ := remembering
  cases found with
  | some entry =>
    exact mapReplaceRecordValue_meets remembering.sound object entry.1 value
  | none =>
    exact insertRecord_meets remembering.sound
      (remembering.leaves ▸ normal) (remembering.absent _ (missing rfl))
      (remembering.room (roomy (missing rfl)))

theorem insertSetRecord_meets
    (roomy : heap.Absent .set object (normalizeKey key) →
      heap.HasRoom .set object) :
    heap.StaysSound seed held (insertSetRecord seed object key) := by
  have normal := resolves_normalizeKey resolves
  refine .bind_same (findEntry_meets sound .set object normal) ?_ sound
  intro found middle remembering
  obtain ⟨remembering, missing⟩ := remembering
  cases found with
  | some => exact .pure remembering.sound
  | none =>
    exact StaysSound.returning (insertRecord_meets remembering.sound
      (remembering.leaves ▸ normal) (remembering.absent _ (missing rfl))
      (remembering.room (roomy (missing rfl))))

theorem deleteMapRecord_meets :
    heap.StaysSound seed held (deleteMapRecord seed object key) := by
  refine .bind_same (findEntry_meets sound .map object
    (resolves_normalizeKey resolves)) ?_ sound
  intro found middle remembering
  cases found with
  | none => exact .pure remembering.1.sound
  | some entry =>
    exact StaysSound.returning
      (mapDeleteRecord_meets remembering.1.sound object entry.1)

theorem deleteSetRecord_meets :
    heap.StaysSound seed held (deleteSetRecord seed object key) := by
  refine .bind_same (findEntry_meets sound .set object
    (resolves_normalizeKey resolves)) ?_ sound
  intro found middle remembering
  cases found with
  | none => exact .pure remembering.1.sound
  | some entry =>
    exact StaysSound.returning
      (setDeleteRecord_meets remembering.1.sound object entry.1)

end

variable {id : LeafId}

omit sound in
theorem uniqueStringMut_eq_some (unique : heap.uniqueStringMut id = some units)
    : heap.leaves.get? id = some ⟨1, .string units⟩ := by
  unfold uniqueStringMut at unique
  split at unique
  · rename_i live
    cases unique
    exact live
  · cases unique

theorem Sound.append (owned : id ∈ held)
    (unique : heap.uniqueStringMut id = some units)
    (forgotten : ∀ object collection,
      heap.objects.get? object = some collection →
      ∀ cached ∈ collection.records.keyIndex.stringHashes, cached.id ≠ id) :
    Sound seed ⟨heap.leaves.replace id ⟨1, .string (units ++ suffix)⟩,
      heap.objects⟩ held := by
  have live := uniqueStringMut_eq_some unique
  have elsewhere : ∀ other, other ≠ id →
      Leaves.value? (heap.leaves.replace id ⟨1, .string (units ++ suffix)⟩)
        other = heap.leaves.value? other := by
    intro other different
    unfold Leaves.value?
    rw [Arena.get?_replace live, if_neg different]
  have unowned : id ∉ heap.owned := by
    have front : (held ++ heap.owned).Perm
        (id :: (held.erase id ++ heap.owned)) :=
      (perm_cons_erase owned).append_right _
    have sole := (sound.covered.perm front.symm).sole live rfl
    intro member
    exact sole (mem_append_right _ member)
  refine ⟨sound.covered.withValue live _, ?_⟩
  intro object collection found
  have keyed := sound.keyed object collection found
  apply keyed.of_contents
  · intro cached member
    obtain ⟨issued, right⟩ := keyed.remembers cached member
    refine ⟨(Arena.issued_replace live _ _).mpr issued, ?_⟩
    intro text known
    apply right text
    unfold Leaves.string? at known ⊢
    rw [elsewhere _ (forgotten object collection found cached member)] at known
    exact known
  · intro index slot stored
    obtain ⟨content, kept⟩ := keyContent_congr fun edge member =>
      elsewhere edge fun equal => unowned
        (equal ▸ mem_owned found stored member)
    exact ⟨content, kept.mpr (keyed.resolved index slot stored).2⟩

theorem appendInPlace_meets (owned : id ∈ held)
    (undisturbed : ¬ World.Disturbs ⟨heap, held⟩
      (.appendInPlace id suffix grows)) :
    heap.StaysSound seed held (appendInPlace id suffix grows) := by
  unfold StaysSound Meets appendInPlace
  cases unique : heap.uniqueStringMut id with
  | none => exact sound
  | some =>
    cases grows with
    | false => exact sound
    | true =>
      dsimp only
      by_cases same : suffix = []
      · -- an empty suffix writes the text back
        subst same
        have live := uniqueStringMut_eq_some unique
        rw [append_nil]
        exact sound.evolve (Arena.evolves_replace live 1)
          (sound.covered.withValue live _)
      · apply sound.append owned unique
        intro object collection found cached member equal
        exact undisturbed ⟨id, suffix, rfl, same, by rw [unique]; rfl,
          object, collection, found, cached, member, equal⟩

end

theorem returnNothing
    (meets : Meets operation heap (fun _ after => after.Sound seed held)
      fails) :
    Meets (do let _ ← operation; return ([] : List LeafId)) heap
      (fun given after => after.Sound seed (given ++ held)) fails := by
  apply Meets.sequel meets
  intro _ after sound
  exact .pure sound

end Heap

namespace World

variable {seed : UInt64}

def Sound (seed : UInt64) (world : World) : Prop :=
  world.heap.Sound seed world.held

variable {command : Command}

theorem Undisturbed.room {world : World} (undisturbed : world.Undisturbed command)
    (inserts : command.inserts = some (kind, object, key))
    (absent : world.heap.Absent kind object (Heap.normalizeKey key)) :
    world.heap.HasRoom kind object := by
  by_contra full
  exact undisturbed.2 ⟨kind, object, key, inserts, absent, full⟩

section

variable (sound : world.Sound seed) (allowed : command.Allowed world)
  (undisturbed : world.Undisturbed command)

include sound allowed undisturbed

theorem run_meets : Meets (command.run seed) world.heap (fun given after =>
        after.Sound seed (given ++ command.remaining world.held))
      (fun after => after.Sound seed world.held) := by
  have unchanged : ∀ after, after = world.heap →
      after.Sound seed world.held := by
    intro after same
    subst same
    exact sound
  cases command with
  | allocateString | allocateBigInt =>
    apply Meets.bind (Heap.allocateLeaf_meets sound _) _ unchanged
    intro id after recounts
    exact .pure recounts.sound
  | retain id =>
    apply Meets.bind (Heap.retainRawFast_meets sound id) _ unchanged
    intro _ after recounts
    exact .pure recounts.sound
  | release id =>
    have owned := allowed.consumed id mem_cons_self
    have front : Heap.Sound seed world.heap
        (id :: world.held.erase id) :=
      sound.mono (perm_cons_erase owned).symm.subperm
    apply Meets.sequel (Meets.surely (Heap.releaseRaw_meets front))
    intro _ after recounts
    exact .pure recounts.sound
  | newCollection kind keyHasher =>
    exact Heap.returnNothing (Heap.newCollection_meets sound kind keyHasher)
  | dropCollection object =>
    exact Heap.returnNothing (Heap.dropCollection_meets sound object)
  | find kind object key =>
    exact Heap.returnNothing (Heap.find_meets sound object
      (allowed.resolves key mem_cons_self) kind)
  | setMapRecord object key value =>
    exact Heap.returnNothing (Heap.setMapRecord_meets sound object
      (allowed.resolves key mem_cons_self) value
      (undisturbed.room rfl))
  | insertSetRecord object key =>
    exact Heap.returnNothing (Heap.insertSetRecord_meets sound object
      (allowed.resolves key mem_cons_self) (undisturbed.room rfl))
  | deleteMapRecord object key =>
    exact Heap.returnNothing (Heap.deleteMapRecord_meets sound object
      (allowed.resolves key mem_cons_self))
  | deleteSetRecord object key =>
    exact Heap.returnNothing (Heap.deleteSetRecord_meets sound object
      (allowed.resolves key mem_cons_self))
  | clear kind object =>
    exact Heap.returnNothing (Heap.clearRecords_meets sound kind object)
  | appendInPlace id =>
    exact Heap.returnNothing (Heap.appendInPlace_meets sound
      (allowed.consumed id mem_cons_self) undisturbed.1)

theorem sound_step : (world.step seed command).Sound seed := by
  have meets := run_meets sound allowed undisturbed
  unfold Meets at meets
  unfold step
  split
  · rename_i result
    rw [result] at meets
    exact meets
  · rename_i result
    rw [result] at meets
    exact meets

end

theorem sound_empty : empty.Sound seed := by
  refine ⟨?_, ?_⟩
  · intro id member
    cases member
  · intro id collection found
    cases found

theorem sound_of_reachable
    (reached : (programs seed).Reachable Undisturbed world) :
    world.Sound seed := by
  apply reached.invariant
  · intro state start
    cases start
    exact sound_empty
  · intro before command after sound undisturbed taken
    obtain ⟨allowed, rfl⟩ := taken
    exact sound_step sound allowed undisturbed

structure Lookups (seed : UInt64) (leaves : Leaves)
    (records : CollectionRecords) : Prop where
  memo : ∀ id, (leaves.string? id).isSome →
    (records.keyIndex.hash seed leaves (.string id)).1 =
      records.keyIndex.hashUncached seed leaves (.string id)
  find : ∀ key, isMapStorableValue key → Resolves leaves key →
    ∃ found, (records.findEntry seed leaves key).1 = .ok found ∧
      (found.isSome ↔
        ∃ index record, records.get index = .ok (some record) ∧
          sameValueZero leaves record.key key)
  unique : ∀ index other record record',
    records.get index = .ok (some record) →
    records.get other = .ok (some record') →
    sameValueZero leaves record.key record'.key → index = other

end World

/-- As long as no string with a remembered hash is appended to in place and no
collection runs out of slot numbers, every collection remembers right hashes,
finds the keys it has and has no key twice. -/
theorem lookups_of_undisturbed {seed : UInt64} {world : World}
    (reached : (programs seed).Reachable World.Undisturbed world)
    {object : Handle} {collection : Collection}
    (live : world.heap.objects.get? object = some collection) :
    World.Lookups seed world.heap.leaves collection.records := by
  have keyed := (World.sound_of_reachable reached).keyed object collection live
  refine ⟨?_, ?_, ?_⟩
  · intro id known
    have resolves : Resolves world.heap.leaves (.string id) := known
    obtain ⟨_, hash, _⟩ :=
      CollectionIndex.hash_spec keyed.remembers resolves
    rw [hash]
  · intro key _ resolves
    obtain ⟨found, _, searched, _, right, missing⟩ := keyed.findEntry resolves
    refine ⟨found, congrArg Prod.fst searched, ?_⟩
    simp only [keyed.wellFormed.get_eq_some_iff]
    constructor
    · intro some
      obtain ⟨⟨index, record⟩, rfl⟩ := Option.isSome_iff_exists.mp some
      obtain ⟨slot, member, same, equal⟩ := right index record rfl
      exact ⟨index, record, ⟨slot, member, same⟩, equal⟩
    · rintro ⟨index, _, ⟨slot, member, rfl⟩, equal⟩
      rw [Option.isSome_iff_ne_none]
      intro none
      exact missing none index slot member equal
  · intro index other record record' found found' equal
    obtain ⟨slot, there, rfl⟩ := keyed.wellFormed.get_eq_some_iff.mp found
    obtain ⟨slot', there', rfl⟩ := keyed.wellFormed.get_eq_some_iff.mp found'
    exact keyed.unique index other slot slot' there there' equal

/-! A lookup remembers the hash of a string that then grows in place. -/

namespace World

def lookupCommands : List Command :=
  [.allocateString [97, 98], .newCollection .map (fun _ => 0),
    .setMapRecord ⟨0, 1⟩ (.string ⟨0, 1⟩) .undefined,
    .allocateString [97], .find .map ⟨0, 1⟩ (.string ⟨1, 1⟩)]

def lookedUp : World := lookupCommands.foldl (step 0) .empty

def grown : World :=
  lookedUp.step 0 (.appendInPlace ⟨1, 1⟩ [98] true)

def doubled : World :=
  grown.step 0 (.setMapRecord ⟨0, 1⟩ (.string ⟨1, 1⟩) .undefined)

theorem follows_lookupCommands : (programs 0).Follows Undisturbed
      (step 0) .empty lookupCommands := by
  refine ⟨?_, ⟨by decide +kernel, rfl⟩, ?_, ⟨by decide +kernel, rfl⟩, ?_,
    ⟨by decide +kernel, rfl⟩, ?_, ⟨by decide +kernel, rfl⟩, ?_,
    ⟨by decide +kernel, rfl⟩, trivial⟩
  all_goals refine ⟨by rintro ⟨_, _, ⟨⟩, _⟩, ?_⟩
  case refine_3 =>
    rintro ⟨_, _, _, ⟨⟩, _, full⟩
    apply full
    intro records live
    have few : (((lookupCommands.take 2).foldl (step 0)
        .empty).heap.objects.get? ⟨0, 1⟩).map
          (fun collection => collection.records.slots.length) = some 0 := by
      decide +kernel
    have same : some 0 = some records.slots.length :=
      few.symm.trans (congrArg (Option.map _) live)
    rw [← Option.some.inj same]
    decide
  all_goals rintro ⟨_, _, _, ⟨⟩, _⟩

theorem reachable_lookedUp :
    (programs 0).Reachable Undisturbed lookedUp :=
  TransitionSystem.Reachable.foldl lookupCommands (.initial _ rfl)
    follows_lookupCommands

theorem reachable_grown : (programs 0).Reachable (fun _ _ => True) grown :=
  .step lookedUp _ _ (reachable_lookedUp.weaken fun _ _ _ => trivial) trivial
    ⟨by decide +kernel, rfl⟩

theorem reachable_doubled : (programs 0).Reachable (fun _ _ => True) doubled :=
  .step grown _ _ reachable_grown trivial ⟨by decide +kernel, rfl⟩

end World

theorem lookups_lookedUp :
    ∃ collection, World.lookedUp.heap.objects.get? ⟨0, 1⟩ = some collection ∧
      World.Lookups 0 World.lookedUp.heap.leaves collection.records := by
  have found : (World.lookedUp.heap.objects.get? ⟨0, 1⟩).isSome := by
    decide +kernel
  obtain ⟨collection, live⟩ := Option.isSome_iff_exists.mp found
  exact ⟨collection, live,
    lookups_of_undisturbed World.reachable_lookedUp live⟩

/-- A remembered hash goes stale, the key `"ab"` is not found although a record
has it, and it is then stored a second time. -/
theorem remembered_hash_goes_stale :
    ((programs 0).Reachable (fun _ _ => True) World.grown ∧ ∃ collection,
        World.grown.heap.objects.get? ⟨0, 1⟩ = some collection ∧
        (collection.records.keyIndex.hash 0 World.grown.heap.leaves
            (.string ⟨1, 1⟩)).1 ≠
          collection.records.keyIndex.hashUncached 0 World.grown.heap.leaves
            (.string ⟨1, 1⟩) ∧
        (collection.records.findEntry 0 World.grown.heap.leaves
          (.string ⟨1, 1⟩)).1 = .ok none ∧
        ∃ record, collection.records.get 0 = .ok (some record) ∧
          sameValueZero World.grown.heap.leaves record.key (.string ⟨1, 1⟩)) ∧
    (programs 0).Reachable (fun _ _ => True) World.doubled ∧ ∃ collection,
        World.doubled.heap.objects.get? ⟨0, 1⟩ = some collection ∧
        ∃ record record', collection.records.get 0 = .ok (some record) ∧
          collection.records.get 1 = .ok (some record') ∧
          sameValueZero World.doubled.heap.leaves record.key record'.key := by
  refine ⟨⟨World.reachable_grown, ?_⟩, World.reachable_doubled, ?_⟩
  · have facts : (World.grown.heap.objects.get? ⟨0, 1⟩).map (fun collection =>
        decide ((collection.records.keyIndex.hash 0 World.grown.heap.leaves
              (.string ⟨1, 1⟩)).1 ≠
            collection.records.keyIndex.hashUncached 0 World.grown.heap.leaves
              (.string ⟨1, 1⟩) ∧
          (collection.records.findEntry 0 World.grown.heap.leaves
            (.string ⟨1, 1⟩)).1 = .ok none ∧
          collection.records.get 0 =
            .ok (some ⟨.string ⟨0, 1⟩, .undefined⟩))) = some true := by
      decide +kernel
    obtain ⟨collection, live, known⟩ := Option.map_eq_some_iff.mp facts
    obtain ⟨stale, missed, stored⟩ := of_decide_eq_true known
    exact ⟨collection, live, stale, missed, _, stored, by decide +kernel⟩
  · have facts : (World.doubled.heap.objects.get? ⟨0, 1⟩).map (fun collection =>
        decide (collection.records.get 0 =
            .ok (some ⟨.string ⟨0, 1⟩, .undefined⟩) ∧
          collection.records.get 1 =
            .ok (some ⟨.string ⟨1, 1⟩, .undefined⟩))) = some true := by
      decide +kernel
    obtain ⟨collection, live, known⟩ := Option.map_eq_some_iff.mp facts
    obtain ⟨first, second⟩ := of_decide_eq_true known
    exact ⟨collection, live, _, _, first, second, by decide +kernel⟩

end QuickJsOxide.Collections
