import QuickJsOxide.Library.TransitionSystem
import QuickJsOxide.Objects.InlineCache
import QuickJsOxide.Objects.Transactions

namespace QuickJsOxide.Objects

open Library Atoms List

/-! A cached location is where the ordinary lookup ends. -/

/-- The conversion of a spelling to a number and back, as the engine's number
parser and formatter do it: what comes back looks like a number. -/
structure NumberSpelling where
  respell : Units → Units
  numeric : ∀ text, looksNumeric (respell text)

def spellingOfMinusZero : Units := [45, 48]

def NumberSpelling.canonicalNumericIndex (numbers : NumberSpelling) :
    AtomContent → Prop
  | .integer _ => True
  | .string text => text = spellingOfMinusZero ∨ text = numbers.respell text
  | _ => False

/-- Exotic objects answer for some keys before their shape is looked at. -/
def Intercepts (numbers : NumberSpelling) (content : AtomContent)
    (object : ObjectData) : Prop :=
  match object.kind, object.payload with
  | .proxy, _ | .moduleNamespace, _ => True
  | .typedArray, _ => numbers.canonicalNumericIndex content
  | .primitive, .stringWrapper length =>
    ∃ index, content.arrayIndex = some index ∧ index < length
  | .array, .array (some dense) =>
    ∃ index, content.arrayIndex = some index ∧ index < dense.length
  | _, _ => False

/-- The lookup along the prototype chain finds the atom in a slot of the
holder: no object up to it intercepts, and none before it has the atom. -/
inductive Finds (numbers : NumberSpelling) (content : AtomContent)
    (heap : Heap) (atom : AtomIdx) : ObjectId → ObjectId → Nat → Prop where
  | here {id : ObjectId} {object : ObjectData} {node : Counted Shape}
      {slot : Nat} (live : heap.objects.get? id = some object)
      (ordinary : ¬ Intercepts numbers content object)
      (shape : heap.shapes.get? object.shape = some node)
      (found : position node.value.entries atom = some slot) :
      Finds numbers content heap atom id id slot
  | above {id prototype holder : ObjectId} {object : ObjectData}
      {node : Counted Shape} {slot : Nat}
      (live : heap.objects.get? id = some object)
      (ordinary : ¬ Intercepts numbers content object)
      (shape : heap.shapes.get? object.shape = some node)
      (absent : position node.value.entries atom = none)
      (linked : node.value.prototype = some prototype)
      (rest : Finds numbers content heap atom prototype holder slot) :
      Finds numbers content heap atom id holder slot

variable {content : AtomContent}

theorem isNumericKey_of_canonicalNumericIndex {numbers : NumberSpelling}
    (canonical : numbers.canonicalNumericIndex content) :
    isNumericKey content := by
  unfold isNumericKey
  rw [Bool.or_eq_true]
  cases content with
  | integer => exact .inl rfl
  | string text =>
    right
    rw [Bool.and_eq_true]
    refine ⟨decide_eq_true rfl, ?_⟩
    rcases canonical with minusZero | same
    · rw [show spelling (.string text) = text from rfl, minusZero]
      decide
    · rw [show spelling (.string text) = text from rfl, same]
      exact numbers.numeric text
  | symbol | privateName => exact canonical.elim

theorem isNumericKey_of_arrayIndex (found : content.arrayIndex = some index) :
    isNumericKey content := by
  unfold isNumericKey
  rw [found]
  rfl

variable (numbers : NumberSpelling)

theorem not_intercepts_of_ordinaryReceiver
    (ordinary : ordinaryReceiver object (isNumericKey content)) :
    ¬ Intercepts numbers content object := by
  intro intercepts
  unfold ordinaryReceiver at ordinary
  unfold Intercepts at intercepts
  split at intercepts
  case h_1 kind | h_2 kind =>
    rw [kind] at ordinary
    cases ordinary
  case h_3 kind =>
    rw [kind, isNumericKey_of_canonicalNumericIndex intercepts] at ordinary
    cases ordinary
  case h_4 kind _ | h_5 kind _ =>
    obtain ⟨_, found, _⟩ := intercepts
    rw [kind, isNumericKey_of_arrayIndex found] at ordinary
    cases ordinary
  case h_6 => exact intercepts

def Leads (heap : Heap) (atom : AtomIdx) (numeric : Bool) (slot : Nat) :
    Nat → Shape → Prop
  | 0, shape => position shape.entries atom = some slot
  | depth + 1, shape =>
    position shape.entries atom = none ∧
      ∃ prototype object node, shape.prototype = some prototype ∧
        heap.objects.get? prototype = some object ∧
        ordinaryReceiver object numeric ∧
        heap.shapes.get? object.shape = some node ∧
        Leads heap atom numeric slot depth node.value

/-- While the revision and, above the receiver, the epoch last, the location
is where the atom is found. -/
structure Location.Valid (content : AtomContent) (heap : Heap)
    (atom : AtomIdx) (location : Location) : Prop where
  numeric : location.numericKey = isNumericKey content
  issued : heap.shapes.Issued location.shape
  revision : location.revision < Shape.maxRevision
  epoch : location.prototypeEpoch < Shape.maxRevision
  past : location.prototypeEpoch ≤ heap.propertyLayoutEpoch
  leads : ∀ node, heap.shapes.get? location.shape = some node →
    location.revision ≤ node.value.layoutRevision ∧
      (node.value.layoutRevision = location.revision → (location.depth ≠ 0 →
          heap.propertyLayoutEpoch = location.prototypeEpoch) →
        Leads heap atom (isNumericKey content) location.slot location.depth
          node.value)

def CacheState.locations : CacheState → List Location
  | .cold | .megamorphic _ => []
  | .monomorphic location => [location]
  | .polymorphic first second => [first, second]

def CacheState.Valid (content : AtomContent) (heap : Heap) (atom : AtomIdx)
    (state : CacheState) : Prop :=
  ∀ location ∈ state.locations, location.Valid content heap atom

section

variable {heap : Heap} {location : Location} {domain : Nat} {realm : ContextId}

theorem dataSlot_eq_some :
    dataSlot slots slot = some value ↔ slots[slot]? = some (.data value) := by
  unfold dataSlot
  constructor
  · intro found
    split at found
    · rename_i stored there
      cases found
      exact there
    · cases found
  · intro found
    rw [found]

theorem readLocation_eq_some
    (hit : readLocation location heap domain realm receiver = some value) :
    ∃ object node holder data, heap.objects.get? receiver = some object ∧
      ordinaryReceiver object location.numericKey ∧
      object.shape = location.shape ∧
      heap.shapes.get? object.shape = some node ∧
      node.value.layoutRevision = location.revision ∧ (location.depth ≠ 0 →
        heap.propertyLayoutEpoch = location.prototypeEpoch) ∧
      ascend heap location.depth receiver = some holder ∧
      heap.objects.get? holder = some data ∧
      data.slots[location.slot]? = some (.data value) := by
  unfold readLocation at hit
  obtain ⟨_, hit⟩ := guard_bind_eq_some.mp hit
  obtain ⟨object, live, hit⟩ := bind_eq_some.mp hit
  obtain ⟨ordinary, hit⟩ := guard_bind_eq_some.mp hit
  obtain ⟨same, hit⟩ := guard_bind_eq_some.mp hit
  obtain ⟨node, shape, hit⟩ := bind_eq_some.mp hit
  obtain ⟨revision, hit⟩ := guard_bind_eq_some.mp hit
  obtain ⟨epoch, hit⟩ := guard_bind_eq_some.mp hit
  obtain ⟨holder, above, hit⟩ := bind_eq_some.mp hit
  obtain ⟨data, there, hit⟩ := bind_eq_some.mp hit
  exact ⟨object, node, holder, data, live, ordinary, same, shape, revision,
    epoch, above, there, dataSlot_eq_some.mp hit⟩

theorem finds_of_leads (depth : Nat) :
    ∀ {id holder : ObjectId} {object : ObjectData} {node : Counted Shape},
      heap.objects.get? id = some object →
      ordinaryReceiver object (isNumericKey content) →
      heap.shapes.get? object.shape = some node →
      Leads heap atom (isNumericKey content) slot depth node.value →
      ascend heap depth id = some holder →
      Finds numbers content heap atom id holder slot := by
  induction depth with
  | zero =>
    intro id holder object node live ordinary shape leads above
    cases above
    exact .here live (not_intercepts_of_ordinaryReceiver numbers ordinary)
      shape leads
  | succ _ ih =>
    intro id holder object node live ordinary shape leads above
    obtain ⟨absent, prototype, next, upper, linked, there, plain, layout,
      rest⟩ := leads
    unfold ascend at above
    obtain ⟨_, again, above⟩ := bind_eq_some.mp above
    rw [live] at again
    cases again
    obtain ⟨_, again, above⟩ := bind_eq_some.mp above
    rw [shape] at again
    cases again
    obtain ⟨_, again, above⟩ := bind_eq_some.mp above
    rw [linked] at again
    cases again
    exact .above live (not_intercepts_of_ordinaryReceiver numbers ordinary)
      shape absent linked (ih there plain layout rest above)

theorem Location.Valid.read (valid : location.Valid content heap atom)
    (hit : readLocation location heap domain realm receiver = some value) :
    ∃ holder slot data, Finds numbers content heap atom receiver holder slot ∧
      heap.objects.get? holder = some data ∧
      data.slots[slot]? = some (.data value) := by
  obtain ⟨_, node, holder, data, live, ordinary, same, shape, revision, epoch,
    above, there, stored⟩ := readLocation_eq_some hit
  rw [valid.numeric] at ordinary
  have leads := (valid.leads node (same ▸ shape)).2 revision epoch
  exact ⟨holder, location.slot, data,
    finds_of_leads numbers _ live ordinary shape leads above, there, stored⟩

end

section

variable {heap : Heap}

theorem search_leads (numeric : Bool) (room : Nat) :
    ∀ {holder : ObjectId} {start depth slot : Nat},
      search heap atom numeric room holder start = some (depth, slot) →
      ∃ steps object node, depth = start + steps ∧
        heap.objects.get? holder = some object ∧
        ordinaryReceiver object numeric ∧
        heap.shapes.get? object.shape = some node ∧
        Leads heap atom numeric slot steps node.value := by
  induction room with
  | zero =>
    intro holder start depth slot found
    cases found
  | succ room ih =>
    intro holder start depth slot found
    unfold search at found
    obtain ⟨object, live, found⟩ := bind_eq_some.mp found
    obtain ⟨ordinary, found⟩ := guard_bind_eq_some.mp found
    obtain ⟨node, shape, found⟩ := bind_eq_some.mp found
    split at found
    · rename_i here present
      obtain ⟨_, found⟩ := guard_bind_eq_some.mp found
      cases found
      rw [Shape.find_eq_position] at present
      exact ⟨0, object, node, rfl, live, ordinary, shape, present⟩
    · rename_i absent
      obtain ⟨prototype, linked, found⟩ := bind_eq_some.mp found
      obtain ⟨steps, next, upper, deeper, there, plain, layout, leads⟩ :=
        ih found
      rw [Shape.find_eq_position] at absent
      refine ⟨steps + 1, object, node, by omega, live, ordinary, shape,
        absent, ?_⟩
      exact ⟨prototype, next, upper, linked, there, plain, layout, leads⟩

theorem locate_valid (sound : heap.Sound held)
    (known : atoms atom = some content)
    (found : locate heap atoms domain realm receiver atom = some location) :
    location.Valid content heap atom := by
  unfold locate at found
  obtain ⟨_, live, found⟩ := bind_eq_some.mp found
  obtain ⟨node, shape, found⟩ := bind_eq_some.mp found
  obtain ⟨fresh, found⟩ := guard_bind_eq_some.mp found
  obtain ⟨_, same, found⟩ := bind_eq_some.mp found
  rw [known] at same
  cases same
  obtain ⟨⟨depth, slot⟩, searched, found⟩ := bind_eq_some.mp found
  cases found
  obtain ⟨_, _, _, rfl, again, _, there, leads⟩ :=
    search_leads _ _ searched
  rw [live] at again
  cases again
  rw [shape] at there
  cases there
  rw [Nat.zero_add]
  refine ⟨rfl, Arena.issued_of_get? shape, ?_, ?_, Nat.le_refl _, ?_⟩
  · exact Nat.lt_of_le_of_ne node.value.bounded fresh.1
  · exact Nat.lt_of_le_of_ne sound.bounded fresh.2
  · intro found alive
    rw [shape] at alive
    cases alive
    exact ⟨Nat.le_refl _, fun _ _ => leads⟩

variable {state : CacheState}

theorem CacheState.Valid.read (valid : state.Valid content heap atom)
    (domain : Nat) (realm : ContextId) (receiver : ObjectId) :
    (state.read heap domain realm receiver).2.Valid content heap atom := by
  cases state with
  | cold | monomorphic => exact valid
  | polymorphic first second =>
    unfold CacheState.read
    dsimp only
    split
    · exact valid
    · split
      · intro location member
        apply valid location
        exact (Perm.swap first second []).mem_iff.mp member
      · exact valid
  | megamorphic =>
    unfold CacheState.read
    dsimp only
    split
    · exact fun _ member => nomatch member
    · exact fun _ member => nomatch member

theorem CacheState.mem_remember
    (member : other ∈ (state.remember location).locations) :
    other = location ∨ other ∈ state.locations := by
  cases state with
  | cold => exact .inl (mem_singleton.mp member)
  | monomorphic =>
    unfold CacheState.remember at member
    dsimp only at member
    split at member
    · exact .inl (mem_singleton.mp member)
    · exact mem_cons.mp member
  | polymorphic =>
    unfold CacheState.remember at member
    dsimp only at member
    split at member
    · exact (mem_cons.mp member).imp_right (mem_cons_of_mem _)
    · split at member
      · refine (mem_cons.mp member).imp_right fun rest => ?_
        rw [mem_singleton.mp rest]
        exact mem_cons_self
      · cases member
  | megamorphic => exact .inr member

theorem CacheState.Valid.miss (valid : state.Valid content heap atom)
    (sound : heap.Sound held) (known : atoms atom = some content) (domain : Nat)
    (realm : ContextId) (receiver : Option ObjectId) :
    (state.miss heap atoms domain realm receiver atom).Valid content heap
      atom := by
  unfold CacheState.miss
  split
  · exact fun _ member => nomatch member
  · split
    · exact fun _ member => nomatch member
    · rename_i location found
      obtain ⟨_, _, located⟩ := Option.bind_eq_some_iff.mp found
      intro other member
      rcases CacheState.mem_remember member with same | old
      · rw [same]
        exact locate_valid sound known located
      · exact valid other old

end

section

variable {heap after : Heap}

theorem ordinaryReceiver_congr (same : new.kind = old.kind) (numeric : Bool) :
    ordinaryReceiver new numeric = ordinaryReceiver old numeric := by
  unfold ordinaryReceiver
  rw [same]

theorem Leads.frame (frame : heap.Frame scope after) (sound : heap.Sound held)
    (still : ∀ id, ¬ scope.moved id) (later : after.Sound others)
    (epoch : after.propertyLayoutEpoch = heap.propertyLayoutEpoch)
    (below : heap.propertyLayoutEpoch < Shape.maxRevision)
    (depth : Nat) : ∀ {id : ShapeId} {old new : Counted Shape},
      heap.shapes.get? id = some old → after.shapes.get? id = some new →
      new.value.prototype = old.value.prototype →
      new.value.entries = old.value.entries →
      Leads heap atom numeric slot depth old.value →
      Leads after atom numeric slot depth new.value := by
  induction depth with
  | zero =>
    intro id old new _ _ _ entries leads
    unfold Leads at leads ⊢
    rw [entries]
    exact leads
  | succ _ ih =>
    intro id old new before now link entries leads
    obtain ⟨absent, prototype, object, node, linked, live, ordinary, shape,
      rest⟩ := leads
    obtain ⟨marked, found, used⟩ :=
      sound.marked id old prototype before linked
    rw [live] at found
    cases found
    obtain ⟨object', live', _⟩ :=
      later.marked id new prototype now (link.trans linked)
    obtain ⟨same, layout⟩ := frame.settled epoch below prototype object
      object' (still prototype) live used live'
    obtain ⟨node', shape'⟩ := later.shape_live live'
    rw [same] at shape'
    obtain ⟨found, there, step⟩ := frame.shapes.value object.shape node'
      (Arena.issued_of_get? shape) shape'
    rw [shape] at there
    cases there
    obtain ⟨_, there, kind⟩ := frame.objects.value prototype object'
      (Arena.issued_of_get? live) live'
    rw [live] at there
    cases there
    refine ⟨entries ▸ absent, prototype, object', node', link.trans linked,
      live', ?_, same ▸ shape', ?_⟩
    · rw [ordinaryReceiver_congr kind.1]
      exact ordinary
    · exact ih shape shape' step.advances.prototype
        (layout node node' shape shape') rest

theorem Location.Valid.frame {location : Location}
    (valid : location.Valid content heap atom)
    (frame : heap.Frame scope after) (sound : heap.Sound held)
    (still : ∀ id, ¬ scope.moved id) (later : after.Sound others) :
    location.Valid content after atom where
  numeric := valid.numeric
  issued := frame.shapes.issued _ valid.issued
  revision := valid.revision
  epoch := valid.epoch
  past := valid.past.trans frame.epoch
  leads := by
    intro node now
    obtain ⟨old, before, step⟩ :=
      frame.shapes.value _ node valid.issued now
    obtain ⟨reached, leads⟩ := valid.leads old before
    have advanced := step.advances.revision
    refine ⟨reached.trans advanced, ?_⟩
    intro revision epoch
    have bound := valid.revision
    have same : old.value.layoutRevision = location.revision := by omega
    have entries := step.advances.entries (by omega) (by omega)
    by_cases own : location.depth = 0
    · have here := leads same fun above => absurd own above
      rw [own] at here ⊢
      unfold Leads at here ⊢
      rw [entries]
      exact here
    · have now' := epoch own
      have early := frame.epoch
      have past := valid.past
      have limit := valid.epoch
      exact Leads.frame frame sound still later (by omega) (by omega) _ before
        now step.advances.prototype entries (leads same fun _ => by omega)

end

end QuickJsOxide.Objects
