import Mathlib.Data.List.ReduceOption
import QuickJsOxide.Frames.SlotStore

namespace QuickJsOxide.Frames

open Library
open List hiding modify

/-! What the loops over consecutive slots do. Every loop works on one stretch of
the slot vector and leaves the slots in front of it and behind it alone. -/

def Machine.turn (machine : Machine) (slots : Slots)
    (created released : List FrameBinding) : Machine where
  store := { machine.store with slots }
  created := machine.created ++ created
  released := machine.released ++ released

namespace Machine

variable (machine : Machine) (slots more : Slots)
  (created released made gone : List FrameBinding)

@[simp] theorem turn_slots :
    (machine.turn slots created released).store.slots = slots := rfl

@[simp] theorem turn_turn :
    (machine.turn slots created released).turn more made gone =
      machine.turn more (created ++ made) (released ++ gone) := by
  simp [turn]

theorem turn_self : machine.turn machine.store.slots [] [] = machine := by
  simp [turn]

end Machine

def held (values : List JsValue) : Slots :=
  values.map fun value => some (.direct value)

@[simp] theorem held_nil : held [] = [] := rfl

@[simp] theorem held_cons (value : JsValue) (values : List JsValue) :
    held (value :: values) = some (.direct value) :: held values := rfl

@[simp] theorem held_append (front back : List JsValue) :
    held (front ++ back) = held front ++ held back := by
  simp [held]

theorem map_some_direct (values : List JsValue) :
    (values.map FrameBinding.direct).map some = held values := by
  simp [held]

@[simp] theorem length_held (values : List JsValue) :
    (held values).length = values.length := by
  simp [held]

@[simp] theorem reduceOption_held (values : List JsValue) :
    (held values).reduceOption = values.map .direct := by
  induction values with
  | nil => rfl
  | cons _ _ ih => simp [reduceOption_cons_of_some, ih]

theorem readSlot_at (split : slots = below ++ slot :: above)
    (position : index = below.length) : readSlot slots index = .ok slot := by
  subst split position
  simp [readSlot]

theorem succeeds_readSlot (split : machine.store.slots = below ++ slot :: above)
    (position : index = below.length) :
    Succeeds (attempt fun machine => readSlot machine.store.slots index :
      Storing _) machine slot machine := by
  simp [Succeeds, attempt, readSlot_at split position]

theorem succeeds_create (bindings : List FrameBinding) :
    Succeeds (create bindings) machine ()
      (machine.turn machine.store.slots bindings []) := by
  exact (succeeds_modify _).of_eq rfl (by simp [Machine.turn])

theorem succeeds_dupJsvalue (value : JsValue) :
    Succeeds (dupJsvalue value) machine value
      (machine.turn machine.store.slots [.direct value] []) :=
  (succeeds_create _).bind succeeds_pure

theorem succeeds_releaseBinding (binding : FrameBinding) :
    Succeeds (releaseBinding binding) machine ()
      (machine.turn machine.store.slots [] [binding]) := by
  exact (succeeds_modify _).of_eq rfl (by simp [Machine.turn])

theorem succeeds_releaseFrameStorageTolerant (storage : FrameStorage) :
    Succeeds (releaseFrameStorageTolerant storage) machine ()
      (machine.turn machine.store.slots []
        (storage.originalArguments.map .direct ++
          storage.operands.map .direct ++ storage.parameters ++
          storage.locals)) := by
  exact (succeeds_modify _).of_eq rfl (by simp [Machine.turn])

theorem succeeds_putSlot (slot : Option FrameBinding)
    (split : machine.store.slots = below ++ old :: above)
    (position : index = below.length) : Succeeds (putSlot index slot) machine ()
      (machine.turn (below ++ slot :: above) [] []) := by
  refine (succeeds_readSlot split position).bind ?_
  subst position
  exact (succeeds_modify _).of_eq rfl (by simp [split, Machine.turn])

theorem succeeds_takeSlot (split : machine.store.slots = below ++ slot :: above)
    (position : index = below.length) : Succeeds (takeSlot index) machine slot
      (machine.turn (below ++ none :: above) [] []) :=
  (succeeds_readSlot split position).bind
    ((succeeds_putSlot none split position).bind succeeds_pure)

/-- The operation rewrites the slots from `start` on, `old` into `new`, and
leaves those in front of them and behind them alone. -/
structure Rewrites (operation : Storing α) (start : Nat)
    (old new : Slots) (value : α)
    (created released : List FrameBinding) : Prop where
  length : new.length = old.length
  runs : ∀ (machine : Machine) (below above : Slots),
    machine.store.slots = below ++ old ++ above → start = below.length →
    Succeeds operation machine value
      (machine.turn (below ++ new ++ above) created released)

namespace Rewrites

theorem of_turn (runs : ∀ machine, Succeeds operation machine value
      (machine.turn machine.store.slots created released)) :
    Rewrites operation start [] [] value created released where
  length := rfl
  runs machine below above split _ := by
    rw [← split]
    exact runs machine

theorem pure : Rewrites (pure value) start [] [] value [] [] :=
  of_turn fun machine => by
    rw [machine.turn_self]
    exact succeeds_pure

theorem bind (first : Rewrites operation start old new value created released)
    (rest : Rewrites (second value) (start + old.length) more last result made
      gone) :
    Rewrites (operation >>= second) start (old ++ more) (new ++ last) result
      (created ++ made) (released ++ gone) where
  length := by simp only [length_append, first.length, rest.length]
  runs machine below above split position := by
    have begins := first.runs machine below (more ++ above) (by simp [split])
      position
    have ends := rest.runs (machine.turn (below ++ new ++ (more ++ above))
      created released) (below ++ new) above (by simp)
      (by simp [position, first.length])
    rw [Machine.turn_turn, append_assoc below new last] at ends
    exact begins.bind ends

theorem returning
    (runs : Rewrites operation start old new value created released)
    (returns : ∀ machine, Succeeds (second value) machine result machine) :
    Rewrites (operation >>= second) start old new result created released where
  length := runs.length
  runs machine below above split position :=
    (runs.runs machine below above split position).bind (returns _)

theorem step {machine after : Machine} (below above : Slots)
    (runs : Rewrites operation start old new value created released)
    (split : machine.store.slots = below ++ (old ++ above))
    (position : start = below.length) (rest : Succeeds (second value)
      (machine.turn (below ++ new ++ above) created released) result after) :
    Succeeds (operation >>= second) machine result after := by
  rw [← append_assoc] at split
  exact (runs.runs machine below above split position).bind rest

end Rewrites

theorem rewrites_putSlot (old slot : Option FrameBinding) :
    Rewrites (putSlot start slot) start [old] [slot] () [] [] where
  length := rfl
  runs machine below above split position := by
    rw [append_assoc] at split ⊢
    exact succeeds_putSlot slot split position

theorem rewrites_takeSlot (slot : Option FrameBinding) :
    Rewrites (takeSlot start) start [slot] [none] slot [] [] where
  length := rfl
  runs machine below above split position := by
    rw [append_assoc] at split ⊢
    exact succeeds_takeSlot split position

theorem rewrites_releaseSlots (slots : Slots) :
    ∀ start, Rewrites (releaseSlots start slots.length) start slots
      (replicate slots.length none) () [] slots.reduceOption := by
  induction slots with
  | nil => exact fun _ => .pure
  | cons slot _ ih =>
    intro start
    cases slot with
    | none =>
      exact (rewrites_takeSlot none).bind (.bind .pure (ih (start + 1)))
    | some binding =>
      exact (rewrites_takeSlot _).bind
        (.bind (.of_turn fun _ => succeeds_releaseBinding binding)
          (ih (start + 1)))

theorem rewrites_putBindings (bindings : List FrameBinding) :
    ∀ start old, old.length = bindings.length →
      Rewrites (putBindings start bindings) start old (bindings.map some) () []
        [] := by
  induction bindings with
  | nil =>
    intro start old length
    obtain rfl := length_eq_zero_iff.mp length
    exact .pure
  | cons _ _ ih =>
    intro start old length
    obtain ⟨slot, old, rfl⟩ := exists_cons_of_length_eq_add_one length
    exact (rewrites_putSlot slot _).bind
      (ih (start + 1) old (by simpa using length))

theorem rewrites_fillUndefined (count : Nat) : ∀ start old, old.length = count →
      Rewrites (fillUndefined start count) start old
        (held (replicate count .undefined)) ()
        (replicate count (.direct .undefined)) [] := by
  induction count with
  | zero =>
    intro start old length
    obtain rfl := length_eq_zero_iff.mp length
    exact .pure
  | succ _ ih =>
    intro start old length
    obtain ⟨slot, old, rfl⟩ := exists_cons_of_length_eq_add_one length
    exact .bind (.of_turn fun _ => succeeds_create _)
      ((rewrites_putSlot slot _).bind
        (ih (start + 1) old (by simpa using length)))

theorem rewrites_takeValues (values : List JsValue) :
    ∀ start, Rewrites (takeValues start values.length) start (held values)
      (replicate values.length none) (values, true) [] [] := by
  induction values with
  | nil => exact fun _ => .pure
  | cons _ _ ih =>
    intro start
    exact (rewrites_takeSlot _).bind
      ((ih (start + 1)).returning fun _ => succeeds_pure)

theorem rewrites_takeBindings (bindings : List FrameBinding) :
    ∀ start, Rewrites (takeBindings start bindings.length) start
      (bindings.map some) (replicate bindings.length none) bindings []
      [] := by
  induction bindings with
  | nil => exact fun _ => .pure
  | cons _ _ ih =>
    intro start
    exact (rewrites_takeSlot _).bind
      ((ih (start + 1)).returning fun _ => succeeds_pure)

theorem succeeds_moveSlots (above slots : Slots) :
    ∀ (machine : Machine) (below gap old : Slots) (source target : Nat),
      machine.store.slots = below ++ slots ++ gap ++ old ++ above →
      old.length = slots.length → source = below.length →
      target = below.length + slots.length + gap.length →
      Succeeds (moveSlots source target slots.length) machine ()
        (machine.turn (below ++ replicate slots.length none ++ gap ++
          slots ++ above) [] []) := by
  induction slots with
  | nil =>
    intro machine below gap old source target split length _ _
    obtain rfl := length_eq_zero_iff.mp length
    have same : below ++ [] ++ gap ++ [] ++ above = machine.store.slots :=
      split.symm
    simp only [length_nil, replicate_zero, same, Machine.turn_self]
    exact succeeds_pure
  | cons slot slots ih =>
    intro machine below gap old source target split length hsource htarget
    obtain ⟨last, old, rfl⟩ := exists_cons_of_length_eq_add_one length
    have first : machine.store.slots =
        below ++ slot :: (slots ++ gap ++ last :: old ++ above) := by
      simpa using split
    refine (succeeds_takeSlot first hsource).bind ?_
    have second : (machine.turn (below ++ none ::
        (slots ++ gap ++ last :: old ++ above)) [] []).store.slots =
        (below ++ none :: (slots ++ gap)) ++ last :: (old ++ above) := by
      simp
    refine (succeeds_putSlot slot second (by
      simp only [htarget, length_append, length_cons]
      omega)).bind ?_
    rw [Machine.turn_turn]
    have tail := ih (machine.turn
        (below ++ none :: (slots ++ gap) ++ slot :: (old ++ above)) [] [])
      (below ++ [none]) (gap ++ [slot]) old (source + 1) (target + 1)
      (by simp) (by simpa using length) (by simp [hsource])
      (by
        simp only [htarget, length_append, length_cons, length_nil]
        omega)
    simpa [replicate_succ] using tail

/-- A loop that puts one binding behind the other, from the end of `below` on,
until one is refused. -/
structure Stages (below : Slots)
    (bindings : List FrameBinding) (loop : Nat → Storing Unit)
    (rollback : Nat → Option (Storing Unit)) : Prop where
  done : loop bindings.length = pure ()
  next : ∀ (machine : Machine) (above : Slots)
    (index : Nat) (inside : index < bindings.length),
    machine.store.slots = below ++ above →
    loop index machine = (rollback index).getD (do
      create [bindings[index]]
      putSlot (below.length + index) (some bindings[index])
      loop (index + 1)) machine

namespace Stages

variable {bindings : List FrameBinding}
  (stages : Stages below bindings loop rollback)

include stages

theorem reach (machine : Machine) (count : Nat) : ∀ (old above : Slots),
      machine.store.slots = below ++ old ++ above → old.length = count →
      count ≤ bindings.length → (∀ index < count, rollback index = none) →
      loop 0 machine = loop count (machine.turn (below ++
        (bindings.take count).map some ++ above) (bindings.take count) []) := by
  induction count with
  | zero =>
    intro old above split length _ _
    obtain rfl := length_eq_zero_iff.mp length
    have same : below ++ [] ++ above = machine.store.slots := split.symm
    simp only [take_zero, map_nil, same, Machine.turn_self]
  | succ count ih =>
    intro old above split length inside granted
    obtain ⟨front, slot, rfl⟩ : ∃ front slot, old = front ++ [slot] := by
      rcases eq_nil_or_concat old with rfl | ⟨front, slot, rfl⟩
      · cases length
      · exact ⟨front, slot, concat_eq_append⟩
    rw [ih front (slot :: above) (by simp [split]) (by simpa using length)
      (by omega) fun index before => granted index (by omega)]
    have staged : (below ++ (bindings.take count).map some).length =
        below.length + count := by
      simp only [length_append, length_map, length_take]
      omega
    have placed := succeeds_putSlot (some bindings[count])
      (show ((machine.turn (below ++ (bindings.take count).map some ++
          slot :: above) (bindings.take count) []).turn (below ++
          (bindings.take count).map some ++ slot :: above)
          [bindings[count]] []).store.slots = _ from rfl) staged.symm
    rw [stages.next _ _ count inside (append_assoc ..),
      granted count (Nat.lt_succ_self _), Option.getD_none,
      (succeeds_create _).bind_eq, Machine.turn_slots, placed.bind_eq,
      take_succ_eq_append_getElem inside]
    simp only [Machine.turn_turn, map_append, map_cons, map_nil, append_assoc,
      cons_append, nil_append, append_nil]

theorem succeeds (above : Slots)
    (granted : ∀ index < bindings.length, rollback index = none)
    (split : machine.store.slots = below ++ old ++ above)
    (length : old.length = bindings.length) :
    Succeeds (loop 0) machine () (machine.turn
      (below ++ bindings.map some ++ above) bindings []) := by
  have reached := stages.reach machine _ _ above split length le_rfl granted
  rw [take_length, stages.done] at reached
  exact reached

theorem fails {machine after : Machine} (above : Slots)
    (inside : index < bindings.length)
    (granted : ∀ earlier < index, rollback earlier = none)
    (refused : rollback index = some undo)
    (split : machine.store.slots = below ++ old ++ above)
    (length : old.length = index)
    (fails : Fails undo (machine.turn (below ++ (bindings.take index).map some ++
      above) (bindings.take index) []) error after) :
    Fails (loop 0) machine error after := by
  have reached := stages.reach machine _ _ above split length inside.le granted
  rw [stages.next _ _ index inside (append_assoc ..), refused] at reached
  exact reached.trans fails

end Stages

theorem stages_copyStored (stored : storage.originalArguments = arguments)
    (below : Slots) :
    Stages below (arguments.map .direct) (fun index => copyArguments .granted
      storage none below.length index (arguments.length - index))
      fun _ => none where
  done := by simp [copyArguments]
  next machine above index inside split := by
    rw [length_map] at inside
    have left : arguments.length - index =
        arguments.length - (index + 1) + 1 := by
      omega
    simp [left, copyArguments, Retains.granted, stored, inside, dupJsvalue]

theorem rewrites_copyStored (start : Nat)
    (stored : storage.originalArguments = arguments)
    (length : old.length = arguments.length) :
    Rewrites (copyArguments .granted storage none start 0 arguments.length)
      start old (held arguments) () (arguments.map .direct) [] where
  length := by simp [length]
  runs machine below above split position := by
    rw [position, ← map_some_direct]
    exact (stages_copyStored stored below).succeeds _ (by simp) split
      (by simp [length])

def rollbackArguments (retains : Retains) (originalEnd index : Nat) :
    Option (Storing Unit) :=
  (retains (.argument index)).map fun message => do
    clearUnpublished originalEnd index
    refuse .empty message

section

variable {front below gap : Slots} {values : List JsValue} {machine : Machine}
  (split : front = below ++ held values ++ gap) (begins : start = below.length)

include split begins

theorem succeeds_readHeld (slots : machine.store.slots = front ++ above)
    (inside : index < values.length) :
    Succeeds (attempt fun machine => readSlot machine.store.slots
      (start + index) : Storing _) machine (some (.direct values[index]))
      machine := by
  refine succeeds_attempt ?_
  rw [readSlot, slots, split, begins, append_assoc, append_assoc,
    getElem?_append_right (by omega), getElem?_append_left (by simp; omega)]
  simp [held, inside]

variable (ends : originalEnd = front.length)

include ends

theorem stages_copyArguments (retains : Retains) :
    Stages front (values.map .direct) (fun index => copyArguments retains
      .empty (some start) originalEnd index (values.length - index))
      (rollbackArguments retains originalEnd) where
  done := by simp [copyArguments]
  next machine above index inside slots := by
    rw [length_map] at inside
    have left : values.length - index = values.length - (index + 1) + 1 := by
      omega
    have read := succeeds_readHeld split begins slots inside
    simp only [left, copyArguments, read.bind_eq, rollbackArguments]
    cases retains (.argument index) <;> simp [dupJsvalue, ends]

theorem stages_copyOrdinary :
    Stages front (values.map .direct) (fun index => copyOrdinary start
      originalEnd index (values.length - index)) fun _ => none where
  done := by simp [copyOrdinary]
  next machine above index inside slots := by
    rw [length_map] at inside
    have left : values.length - index = values.length - (index + 1) + 1 := by
      omega
    have read := succeeds_readHeld split begins slots inside
    simp only [left, copyOrdinary, read.bind_eq]
    simp [dupJsvalue, ends]

end

variable (initializer : Initializer)

def initialBinding (index : Nat) (definition : VariableDefinition) :
    FrameBinding :=
  if initializer.functionName = some (UInt16.ofNat index) then
    .direct (.object initializer.function)
  else if definition.isLexical then
    .uninitialized
  else
    .direct .undefined

def initialBindings (definitions : List VariableDefinition) :
    List FrameBinding :=
  definitions.mapIdx (initialBinding initializer)

@[simp] theorem length_initialBindings (definitions : List VariableDefinition) :
    (initialBindings initializer definitions).length = definitions.length :=
  length_mapIdx

theorem initialLocalBinding_eq (index : Nat) (definition : VariableDefinition) :
    initialLocalBinding definition.isLexical
      (initializer.functionName = some (UInt16.ofNat index))
      initializer.function = (do
        create [initialBinding initializer index definition]
        return initialBinding initializer index definition) := by
  unfold initialLocalBinding initialBinding
  split <;> simp_all [dupJsvalue]

theorem stages_initializeLocals (rollback : Nat → Option (Storing Unit))
    (definitions : List VariableDefinition) (below : Slots)
    (begins : start = below.length) :
    Stages below (initialBindings initializer definitions) (fun index =>
      initializeLocals initializer start rollback index
        (definitions.drop index)) rollback where
  done := by simp [initializeLocals]
  next machine above index inside split := by
    subst begins
    rw [length_initialBindings] at inside
    simp only [drop_eq_getElem_cons inside, initializeLocals,
      initialLocalBinding_eq, initialBindings, getElem_mapIdx, bind_assoc,
      pure_bind]
    cases rollback index <;> rfl

theorem rewrites_initializeLocals (start : Nat)
    (granted : ∀ index < definitions.length, rollback index = none)
    (length : old.length = definitions.length) :
    Rewrites (initializeLocals initializer start rollback 0 definitions) start
      old ((initialBindings initializer definitions).map some) ()
      (initialBindings initializer definitions) [] where
  length := by simp [length]
  runs machine below above split position := by
    exact (stages_initializeLocals initializer rollback definitions below
      position).succeeds _ (by simpa using granted) split (by simp [length])

end QuickJsOxide.Frames
