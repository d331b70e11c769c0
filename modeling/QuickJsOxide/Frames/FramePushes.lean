import QuickJsOxide.Frames.FrameStack

namespace QuickJsOxide.Frames

open Library List

/-! Entering and leaving frames, compared with frames as lists. -/

def vacant (count : Nat) : Slots :=
  replicate count none

@[simp] theorem length_vacant (count : Nat) : (vacant count).length = count := by
  simp [vacant]

theorem vacant_add (first second : Nat) :
    vacant (first + second) = vacant first ++ vacant second := by
  simp [vacant]

@[simp] theorem vacant_zero : vacant 0 = [] := rfl

@[simp] theorem reduceOption_vacant (count : Nat) :
    (vacant count).reduceOption = [] := by
  simp [vacant]

def Machine.published (machine : Machine) (windowEnd : Nat) : Machine :=
  { machine with store := { machine.store with
    activeEnd := windowEnd
    nextWindow := machine.store.nextWindow + 1
    windows := machine.store.windows ++ [machine.store.nextWindow] } }

/-- A frame is entered above the given slots. -/
abbrev Machine.entered (machine : Machine) (below : Slots)
    (frame : Frame) (spare : Nat) (created released : List FrameBinding) :
    Machine :=
  (machine.turn (below ++ frame.cells ++ vacant (spare - frame.size)) created
    released).published (below.length + frame.size)

abbrev Machine.windowOf (machine : Machine) (below : Slots)
    (frame : Frame) : FrameWindow :=
  frame.windowAt machine.store.owner machine.store.nextWindow below.length

def ownedFrame (storage : FrameStorage) (capacity : Nat)
    (room : storage.operands.length ≤ capacity) : Frame where
  actualCount := storage.originalArguments.length
  originals := storage.originalArguments
  parameters := storage.parameters
  locals := storage.locals
  operands := storage.operands
  capacity := capacity
  room := room

/-- The frame of a call with the given arguments. Parameters are the arguments
padded to the formal count; `originals` are the arguments or nothing. -/
def calledFrame (layout : FrameLayout) (initializer : Initializer)
    (originals arguments : List JsValue) : Frame where
  actualCount := arguments.length
  originals := originals
  parameters := (arguments ++ replicate
    (layout.argumentSlots arguments.length - arguments.length)
    JsValue.undefined).map .direct
  locals := initialBindings initializer layout.locals
  operands := []
  capacity := layout.operandCapacity
  room := Nat.zero_le _

section

variable (layout : FrameLayout) (initializer : Initializer)
  (originals arguments : List JsValue)

theorem cells_calledFrame :
    (calledFrame layout initializer originals arguments).cells =
      held originals ++ held arguments ++ held (replicate
        (layout.argumentSlots arguments.length - arguments.length)
        .undefined) ++ (initialBindings initializer layout.locals).map some ++
      vacant layout.operandCapacity := by
  simp only [Frame.cells_eq, Frame.fixed, Frame.free, calledFrame,
    map_some_direct, held_append, held_nil, append_nil, append_assoc,
    length_nil, Nat.sub_zero]
  rfl

theorem size_calledFrame :
    (calledFrame layout initializer originals arguments).size =
      arguments.length + (originals.length +
        (layout.argumentSlots arguments.length - arguments.length +
          (layout.locals.length + layout.operandCapacity))) := by
  simp only [Frame.size, calledFrame, length_map, length_append,
    length_replicate, length_initialBindings]
  omega

theorem end_calledFrame (base : Nat) :
    base + originals.length + layout.argumentSlots arguments.length +
        layout.locals.length + layout.operandCapacity =
      base + (calledFrame layout initializer originals arguments).size := by
  have fits : arguments.length ≤ layout.argumentSlots arguments.length :=
    Nat.le_max_left ..
  rw [size_calledFrame]
  omega

theorem windowAt_calledFrame (owner id base : Nat) :
    (calledFrame layout initializer originals arguments).windowAt owner id base =
      ⟨arguments.length, owner, id, base, base + originals.length,
        base + originals.length + layout.argumentSlots arguments.length,
        base + originals.length + layout.argumentSlots arguments.length +
          layout.locals.length,
        base + (calledFrame layout initializer originals arguments).size,
        0⟩ := by
  have fits : arguments.length ≤ layout.argumentSlots arguments.length :=
    Nat.le_max_left ..
  simp only [Frame.windowAt, calledFrame, length_map, length_append,
    length_replicate, length_initialBindings, Nat.add_sub_cancel' fits,
    length_nil]

end

def padding (layout : FrameLayout) (initializer : Initializer) (count : Nat) :
    List FrameBinding :=
  replicate (layout.argumentSlots count - count) (.direct .undefined) ++
    initialBindings initializer layout.locals

theorem growSlots_eq (below : Slots) (spare size : Nat) :
    growSlots (below.length + size) (below ++ vacant spare) =
      below ++ vacant size ++ vacant (spare - size) := by
  rw [growSlots, length_append, length_vacant, append_assoc, append_assoc]
  congr 1
  change vacant spare ++ vacant _ = _
  rw [← vacant_add, ← vacant_add]
  congr 1
  omega

variable {machine : Machine}

theorem succeeds_growSlots (size : Nat)
    (slots : machine.store.slots = below ++ vacant spare)
    (stop : windowEnd = below.length + size) :
    Succeeds (modify fun machine => { machine with store :=
      { machine.store with slots := growSlots windowEnd machine.store.slots } } :
      Storing PUnit) machine ⟨⟩
      (machine.turn (below ++ vacant size ++ vacant (spare - size)) [] []) := by
  refine (succeeds_modify _).trans ?_
  simp only [slots, stop, growSlots_eq, Machine.turn, append_nil]

theorem succeeds_publish
    (actualCount originalEnd parametersEnd localsEnd windowEnd depth : Nat) :
    Succeeds (publish actualCount originalEnd parametersEnd localsEnd windowEnd
      depth) machine ⟨actualCount, machine.store.owner,
        machine.store.nextWindow, machine.store.activeEnd, originalEnd,
        parametersEnd, localsEnd, windowEnd, depth⟩
      (machine.published windowEnd) := rfl

structure Admitted (store : SlotStore) (layout : FrameLayout)
    (storage : FrameStorage) (fresh : Option Initializer)
    (actualCount : Nat) : Prop where
  clean : fresh.isSome → storage.parameters = [] ∧ storage.locals = [] ∧
    storage.operands = []
  shaped : fresh = none →
    storage.parameters.length = layout.argumentSlots actualCount ∧
      storage.locals.length = layout.locals.length
  room : storage.operands.length ≤ layout.operandCapacity
  identity : store.nextWindow + 1 < 2 ^ 64

theorem admitted_of_frameRefusal
    (passes : frameRefusal store layout storage fresh actualCount reservation =
      none) : Admitted store layout storage fresh actualCount := by
  unfold frameRefusal at passes
  simp only at passes
  split at passes
  · cases passes
  · rename_i clean
    split at passes
    · cases passes
    · split at passes
      · cases passes
      · rename_i shaped
        split at passes
        · cases passes
        · rename_i identity
          refine ⟨fun isFresh => ?_, fun owned => ?_, ?_, by omega⟩
          · by_contra dirty
            exact clean ⟨isFresh, by tauto⟩
          · by_contra misshapen
            exact shaped (.inl ⟨owned, by tauto⟩)
          · by_contra overflow
            exact shaped (.inr (by omega))

section

variable {machine : Machine} {layout : FrameLayout} {below : Slots}

theorem fails_refuse (message : String) :
    Fails (refuse storage message : Storing α) machine (.internal message)
      (machine.turn machine.store.slots []
        (storage.originalArguments.map .direct ++
          storage.operands.map .direct ++ storage.parameters ++
          storage.locals)) :=
  (succeeds_releaseFrameStorageTolerant storage).fails fails_throw

theorem fails_pushFrameStorage
    (refused : frameRefusal machine.store layout storage fresh
      storage.originalArguments.length reservation = some message) :
    Fails (pushFrameStorage retains layout storage fresh none reservation) machine
      (.internal message) (machine.turn machine.store.slots []
        (storage.originalArguments.map .direct ++
          storage.operands.map .direct ++ storage.parameters ++
          storage.locals)) := by
  unfold pushFrameStorage
  refine succeeds_get.fails ?_
  simp only [refused]
  exact fails_refuse message

section

variable (slots : machine.store.slots = below ++ vacant spare)
  (active : machine.store.activeEnd = below.length)

include slots active

theorem succeeds_pushFrameStorage_owned
    (passes : frameRefusal machine.store layout storage none
      storage.originalArguments.length reservation = none) :
    ∃ room, let frame := ownedFrame storage layout.operandCapacity room
      Succeeds (pushFrameStorage retains layout storage none none reservation)
        machine (machine.windowOf below frame, none)
        (machine.entered below frame spare [] []) := by
  have admitted := admitted_of_frameRefusal passes
  obtain ⟨parameters, locals⟩ := admitted.shaped rfl
  refine ⟨admitted.room, ?_⟩
  intro frame
  unfold Machine.entered Machine.windowOf
  have size : frame.size = storage.originalArguments.length +
      (storage.parameters.length + (storage.locals.length +
        layout.operandCapacity)) := by
    simp only [Frame.size, frame, ownedFrame]
    omega
  have free : vacant layout.operandCapacity =
      vacant storage.operands.length ++ frame.free := by
    rw [show frame.free = vacant (layout.operandCapacity -
      storage.operands.length) from rfl, ← vacant_add,
      Nat.add_sub_cancel' admitted.room]
  unfold pushFrameStorage
  refine succeeds_get.bind ?_
  simp only [passes, active, ← parameters, ← locals]
  refine (succeeds_growSlots frame.size slots (by omega)).bind ?_
  generalize vacant (spare - frame.size) = rest
  rw [size, vacant_add, vacant_add, vacant_add, free]
  simp only [append_assoc]
  refine (rewrites_putBindings _ _ (vacant storage.originalArguments.length)
    (by simp)).step _ _ rfl rfl ?_
  refine (rewrites_putBindings _ _ (vacant storage.parameters.length)
    (by simp)).step _ _ rfl (by simp) ?_
  refine (rewrites_putBindings _ _ (vacant storage.locals.length)
    (by simp)).step _ _ rfl (by simp [Nat.add_assoc]) ?_
  refine (rewrites_putBindings _ _ (vacant storage.operands.length)
    (by simp)).step _ _ rfl (by simp [Nat.add_assoc]) ?_
  refine Succeeds.of_eq ((succeeds_publish ..).bind succeeds_pure) ?_ ?_
  · have stop : below.length + storage.originalArguments.length +
        storage.parameters.length + storage.locals.length +
        layout.operandCapacity = below.length + frame.size := by
      omega
    rw [stop]
    simp [Frame.windowAt, Machine.turn, active, frame, ownedFrame]
  · simp only [map_some_direct, Frame.cells_eq, Frame.fixed, frame, ownedFrame,
      Machine.turn_turn, append_assoc, append_nil, Nat.add_assoc]

theorem succeeds_pushFrameStorage_fresh
    (passes : frameRefusal machine.store layout storage (some initializer)
      storage.originalArguments.length reservation = none) :
    let frame := calledFrame layout initializer storage.originalArguments
      storage.originalArguments
    Succeeds (pushFrameStorage .granted layout storage (some initializer) none
      reservation) machine (machine.windowOf below frame, none)
      (machine.entered below frame spare
        (storage.originalArguments.map .direct ++ padding layout initializer
          storage.originalArguments.length) []) := by
  have admitted := admitted_of_frameRefusal passes
  obtain ⟨-, -, operands⟩ := admitted.clean rfl
  intro frame
  unfold Machine.entered Machine.windowOf
  rw [show frame = calledFrame layout initializer storage.originalArguments
    storage.originalArguments from rfl]
  generalize arguments : storage.originalArguments = values
  clear frame
  have fits : values.length ≤ layout.argumentSlots values.length :=
    Nat.le_max_left ..
  have size := size_calledFrame layout initializer values values
  unfold pushFrameStorage
  refine succeeds_get.bind ?_
  rw [arguments] at passes
  simp only [arguments, passes, active, Option.map_none]
  refine (succeeds_growSlots _ slots
    (end_calledFrame layout initializer ..)).bind ?_
  generalize vacant (spare - (calledFrame layout initializer values values).size)
    = rest
  rw [size, vacant_add, vacant_add, vacant_add, vacant_add]
  refine (rewrites_copyStored _ arguments (length_vacant _)).step
    (below ++ vacant values.length)
    (vacant (layout.argumentSlots values.length - values.length) ++
      (vacant layout.locals.length ++ (vacant layout.operandCapacity ++ rest)))
    (by simp) (by simp) ?_
  refine (rewrites_fillUndefined _ _ (vacant _) (by simp)).step _ _ rfl
    (by simp [Nat.add_assoc]) ?_
  refine (rewrites_initializeLocals _ _ (by simp [rollbackLocals, Retains.local,
    Retains.granted]) (length_vacant _)).step _ _ rfl (by simp; omega) ?_
  refine (rewrites_putBindings _ _ (vacant values.length) (by simp)).step below
    (held values ++ (held (replicate
      (layout.argumentSlots values.length - values.length) .undefined) ++
      ((initialBindings initializer layout.locals).map some ++
        (vacant layout.operandCapacity ++ rest)))) (by simp) rfl ?_
  refine succeeds_pure.bind ?_
  rw [operands]
  refine succeeds_pure.bind ?_
  rw [end_calledFrame layout initializer, ← size]
  refine Succeeds.of_eq ((succeeds_publish ..).bind succeeds_pure) ?_ ?_
  · rw [windowAt_calledFrame]
    simp [Machine.turn, active]
  · rw [cells_calledFrame, map_some_direct]
    simp [padding]

end

end

structure Outgoing (parent : Frame) (method : Bool)
    (kept head values : List JsValue) : Prop where
  operands : parent.operands = kept ++ head ++ values
  callee : head.length = 1 + methodSlots method

section

variable {parent : Frame} {kept head values : List JsValue}

namespace Outgoing

section

variable (outgoing : Outgoing parent method kept head values)

include outgoing

theorem depth : parent.operands.length =
      kept.length + (1 + methodSlots method) + values.length := by
  rw [outgoing.operands, length_append, length_append, outgoing.callee]

theorem room : kept.length ≤ parent.capacity := by
  have := parent.room
  have := outgoing.depth
  omega

omit outgoing in
theorem exists_of_le {count : Nat}
    (enough : count + 1 + methodSlots method ≤ parent.operands.length) :
    ∃ kept head values, Outgoing parent method kept head values ∧
      values.length = count := by
  let start := parent.operands.length - (count + 1 + methodSlots method)
  refine ⟨parent.operands.take start,
    (parent.operands.drop start).take (1 + methodSlots method),
    (parent.operands.drop start).drop (1 + methodSlots method), ⟨?_, ?_⟩, ?_⟩
  · rw [append_assoc, take_append_drop, take_append_drop]
  · rw [length_take, length_drop]
    omega
  · rw [length_drop, length_drop]
    omega

theorem cells (lower : Slots) :
    lower ++ parent.cells = (lower ++ parent.fixed ++ held kept ++
      held head) ++ held values ++ parent.free := by
  rw [Frame.cells_eq, outgoing.operands]
  simp

omit outgoing in
def caller (outgoing : Outgoing parent method kept head values) : Frame :=
  parent.withOperands kept outgoing.room

theorem length_caller (lower : Slots) :
    (lower ++ outgoing.caller.cells).length =
      (lower ++ parent.cells).length := by
  simp only [length_append, Frame.length_cells]
  rfl

theorem free_caller : outgoing.caller.free =
      vacant head.length ++ (vacant values.length ++ parent.free) := by
  have := parent.room
  have := outgoing.depth
  change vacant _ = vacant _ ++ (vacant _ ++ vacant _)
  rw [← vacant_add, ← vacant_add, outgoing.callee]
  congr 1
  change parent.capacity - kept.length = _
  omega

end

end Outgoing

variable {machine after : Machine}

theorem Outgoing.succeeds_consume
    (outgoing : Outgoing parent method kept head values)
    (behind : Slots) (slots : machine.store.slots =
      lower ++ parent.cells ++ vacant values.length ++ behind)
    (begins : start = (lower ++ parent.fixed ++ held kept ++ held head).length)
    (ends : base = (lower ++ parent.cells).length)
    (rest : Succeeds second (machine.turn
        (lower ++ outgoing.caller.cells ++ held values ++ behind) []
      (head.map .direct)) value after) :
    Succeeds (do
      moveSlots start base values.length
      releaseSlots (start - 1 - methodSlots method) (1 + methodSlots method)
      second) machine value after := by
  have moved := succeeds_moveSlots behind (held values) machine
    (lower ++ parent.fixed ++ held kept ++ held head) parent.free
    (vacant values.length) start base (by rw [slots, outgoing.cells]) (by simp)
    begins (by
      rw [ends, outgoing.cells]
      simp only [length_append])
  rw [length_held] at moved
  refine moved.bind ?_
  have released := rewrites_releaseSlots (held head)
    (start - 1 - methodSlots method)
  rw [length_held, outgoing.callee, reduceOption_held] at released
  refine released.step (lower ++ parent.fixed ++ held kept)
    (vacant values.length ++ parent.free ++ held values ++ behind)
    (by simp [vacant]) (by
      rw [begins]
      simp only [length_append, length_held, outgoing.callee]
      omega) ?_
  have vacated : outgoing.caller.cells = parent.fixed ++ held kept ++
      (vacant (1 + methodSlots method) ++
        (vacant values.length ++ parent.free)) := by
    rw [← outgoing.callee, ← outgoing.free_caller]
    rfl
  rw [vacated] at rest
  simpa [vacant] using rest

variable {layout : FrameLayout}

theorem Outgoing.stages_copyArguments
    (outgoing : Outgoing parent method kept head values)
    (lower : Slots) (retains : Retains) :
    Stages (lower ++ parent.cells ++ vacant values.length)
      (values.map .direct) (fun index => copyArguments retains .empty
        (some (lower ++ parent.fixed ++ held kept ++ held head).length)
        ((lower ++ parent.cells).length + values.length) index
        (values.length - index)) (rollbackArguments retains
        ((lower ++ parent.cells).length + values.length)) := by
  have split : lower ++ parent.cells ++ vacant values.length =
      (lower ++ parent.fixed ++ held kept ++ held head) ++ held values ++
        (parent.free ++ vacant values.length) := by
    rw [outgoing.cells, append_assoc]
  exact Frames.stages_copyArguments split rfl (by simp [Nat.add_assoc]) retains

theorem Outgoing.succeeds_transfer
    (outgoing : Outgoing parent method kept head values) (staged : List JsValue)
    (behind : Slots) (slots : machine.store.slots = lower ++ parent.cells ++
      vacant values.length ++ held staged ++ vacant
        (layout.argumentSlots values.length - values.length) ++
      vacant layout.locals.length ++ behind)
    (begins : start = (lower ++ parent.fixed ++ held kept ++ held head).length)
    (ends : base = (lower ++ parent.cells).length)
    (parameters : parametersEnd = base + staged.length +
      layout.argumentSlots values.length)
    (granted : ∀ index < layout.locals.length, rollback index = none)
    (rest : Succeeds second (machine.turn (lower ++ outgoing.caller.cells ++
        held values ++ held staged ++ held (replicate
          (layout.argumentSlots values.length - values.length) .undefined) ++
        (initialBindings initializer layout.locals).map some ++ behind)
      (padding layout initializer values.length) (head.map .direct)) value
      after) :
    Succeeds (do
      fillUndefined (base + staged.length + values.length)
        (layout.argumentSlots values.length - values.length)
      initializeLocals initializer parametersEnd rollback 0 layout.locals
      moveSlots start base values.length
      releaseSlots (start - 1 - methodSlots method) (1 + methodSlots method)
      second) machine value after := by
  have fits : values.length ≤ layout.argumentSlots values.length :=
    Nat.le_max_left ..
  subst ends parameters
  refine (rewrites_fillUndefined _ _ (vacant (layout.argumentSlots
      values.length - values.length)) (by simp)).step
    (lower ++ parent.cells ++ vacant values.length ++ held staged)
    (vacant layout.locals.length ++ behind) (by simp [slots])
    (by simp; omega) ?_
  refine (rewrites_initializeLocals _ _ granted (length_vacant _)).step _ _ rfl
    (by simp; omega) ?_
  refine outgoing.succeeds_consume (held staged ++ (held (replicate
      (layout.argumentSlots values.length - values.length) .undefined) ++
      ((initialBindings initializer layout.locals).map some ++ behind)))
    (by simp) begins rfl ?_
  simpa [padding] using rest

end

section

variable {machine : Machine} {layout : FrameLayout} {lower : Slots}
  {head values : List JsValue} {parent : Frame}

/-- No retain of a call with `count` arguments is refused. -/
structure Retains.Grants (retains : Retains) (layout : FrameLayout)
    (initializer : Initializer) (count : Nat) : Prop where
  arguments : ∀ index < count, retains (.argument index) = none
  locals : ∀ index < layout.locals.length,
    retains.local initializer index = none

theorem succeeds_pushFrameStorage_call (owner id : Nat)
    (outgoing : Outgoing parent method kept head values)
    (slots : machine.store.slots = lower ++ parent.cells ++ vacant spare)
    (active : machine.store.activeEnd = (lower ++ parent.cells).length)
    (passes : frameRefusal machine.store layout .empty (some initializer)
      values.length reservation = none)
    (grants : retains.Grants layout initializer values.length) :
    let frame := calledFrame layout initializer values values
    Succeeds (pushFrameStorage retains layout .empty (some initializer)
      (some (parent.windowAt owner id lower.length, values.length, method))
      reservation) machine
      (machine.windowOf (lower ++ outgoing.caller.cells) frame,
        some (outgoing.caller.windowAt owner id lower.length))
      (machine.entered (lower ++ outgoing.caller.cells) frame spare
        (values.map .direct ++ padding layout initializer values.length)
        (head.map .direct)) := by
  intro frame
  unfold Machine.entered Machine.windowOf
  have size : frame.size = _ := size_calledFrame ..
  have depth := outgoing.depth
  have start : (parent.windowAt owner id lower.length).localsEnd +
      (parent.windowAt owner id lower.length).depth - values.length =
      (lower ++ parent.fixed ++ held kept ++ held head).length := by
    simp only [Frame.windowAt, depth, length_append, length_held,
      Frame.length_fixed, outgoing.callee]
    omega
  unfold pushFrameStorage
  refine succeeds_get.bind ?_
  simp only [passes, Option.map_some, start, active]
  refine (succeeds_growSlots frame.size slots (end_calledFrame ..)).bind ?_
  generalize vacant (spare - frame.size) = rest
  rw [size, vacant_add, vacant_add, vacant_add, vacant_add]
  refine ((outgoing.stages_copyArguments lower retains).succeeds
    (vacant (layout.argumentSlots values.length - values.length) ++
      (vacant layout.locals.length ++ (vacant layout.operandCapacity ++ rest)))
    (by simpa [rollbackArguments] using grants.arguments)
    (show _ = _ ++ vacant values.length ++ _ by simp) (by simp)).bind ?_
  refine outgoing.succeeds_transfer values (vacant layout.operandCapacity ++ rest)
    (by simp [held, Function.comp_def]) rfl rfl rfl
    (by simpa [rollbackLocals] using grants.locals) ?_
  refine succeeds_pure.bind (succeeds_pure.bind ?_)
  have popped : parent.operands.length -
      (values.length + 1 + methodSlots method) = kept.length := by
    omega
  rw [← size, end_calledFrame layout initializer, outgoing.length_caller]
  refine Succeeds.of_eq ((succeeds_publish ..).bind succeeds_pure) ?_ ?_
  · rw [windowAt_calledFrame]
    simp only [Frame.windowAt, Machine.turn, active, popped]
    rfl
  · simp [frame, cells_calledFrame]

end

end QuickJsOxide.Frames
