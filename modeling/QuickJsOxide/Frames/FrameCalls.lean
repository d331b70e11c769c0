import QuickJsOxide.Frames.FramePushes

namespace QuickJsOxide.Frames

open Library

/-! Calls from a caller's operands, and the two ways to leave a frame. -/

section

variable {lower : Slots}

theorem peekAll_inside (borrows : Borrows access lower above parent)
    (remaining : Nat) : ∀ offset, offset + remaining ≤ parent.operands.length →
      peekAll access.machine.store access.window offset remaining = .ok () := by
  induction remaining with
  | zero =>
    intro offset _
    rfl
  | succ _ ih =>
    intro offset inside
    obtain ⟨_, _, _, operands, length⟩ :=
      exists_top (show offset < parent.operands.length by omega)
    rw [peekAll, ← length, peekCurrent_inside borrows operands, length]
    exact ih (offset + 1) (by omega)

structure Newest (access : Access) (lower : Slots)
    (spare : Nat) (parent : Frame) : Prop
    extends Borrows access lower (vacant spare) parent where
  current : checkCurrent access.machine.store access.window = .ok ()
  active : access.machine.store.activeEnd = (lower ++ parent.cells).length

theorem Outgoing.enough (outgoing : Outgoing parent method kept head values)
    (borrows : Borrows access lower above parent) :
    ¬ access.window.depth < values.length + 1 + methodSlots method := by
  rw [borrows.depth, outgoing.depth]
  omega

theorem refuses_onMachine (access : Access)
    (refuses : Refuses operation access.machine) :
    Refuses (onMachine operation) access := by
  obtain ⟨message, fails⟩ := refuses
  refine ⟨message, ?_⟩
  unfold Fails at fails ⊢
  simp [onMachine, fails]

theorem scanOutgoing_step (remaining : Nat) (keep : Bool)
    (split : slots = below ++ some (.direct value) :: rest)
    (position : index = below.length) :
    scanOutgoing slots start index (remaining + 1) keep =
      scanOutgoing slots start (index + 1) remaining
        (keep || (decide (start ≤ index) && !value.isScalar)) := by
  rw [scanOutgoing, readSlot_at split position]
  rfl

theorem scanOutgoing_head (remaining : Nat) (keep : Bool)
    (head : List JsValue) : ∀ (below : Slots) (index : Nat),
      slots = below ++ held head ++ rest → index = below.length →
      index + head.length ≤ start →
      scanOutgoing slots start index (head.length + remaining) keep =
        scanOutgoing slots start (index + head.length) remaining keep := by
  induction head with
  | nil =>
    intro below index _ _ _
    simp
  | cons value head ih =>
    intro below index split position under
    rw [List.length_cons] at under
    have here : slots = below ++ some (.direct value) ::
        (held head ++ rest) := by
      simp [split]
    have outside : decide (start ≤ index) = false := by
      simp only [decide_eq_false_iff_not]
      omega
    have next := ih (below ++ [some (.direct value)]) (index + 1)
      (by simp [split]) (by simp [position]) (by omega)
    rw [List.length_cons, show head.length + 1 + remaining =
        head.length + remaining + 1 by omega,
      scanOutgoing_step _ keep here position, outside,
      Bool.false_and, Bool.or_false, next]
    congr 1
    omega

theorem scanOutgoing_arguments (values : List JsValue) :
    ∀ (below : Slots) (index : Nat) (keep : Bool),
      slots = below ++ held values ++ rest → index = below.length →
      start ≤ index → scanOutgoing slots start index values.length keep =
        .ok (keep || values.any fun value => !value.isScalar) := by
  induction values with
  | nil =>
    intro below index keep _ _ _
    simp [scanOutgoing]
  | cons value values ih =>
    intro below index keep split position inside
    have here : slots = below ++ some (.direct value) ::
        (held values ++ rest) := by
      simp [split]
    rw [List.length_cons, scanOutgoing_step _ keep here position,
      decide_eq_true inside,
      ih (below ++ [some (.direct value)]) (index + 1) _ (by simp [split])
        (by simp [position]) (by omega)]
    simp [Bool.or_assoc]

def keepsOriginals (observesArguments : Bool) (values : List JsValue) : Bool :=
  observesArguments || values.any fun value => !value.isScalar

def keptOriginals (keep : Bool) (values : List JsValue) : List JsValue :=
  if keep then values else []

theorem length_keptOriginals (keep : Bool) (values : List JsValue) :
    (keptOriginals keep values).length =
      if keep = true then values.length else 0 := by
  unfold keptOriginals
  split <;> rfl

theorem held_keptOriginals_comm (keep : Bool) (values : List JsValue)
    (rest : Slots) : held values ++ (held (keptOriginals keep values) ++ rest) =
      held (keptOriginals keep values) ++ (held values ++ rest) := by
  cases keep with
  | false | true => rfl

section

variable (outgoing : Outgoing parent method kept head values)
  (borrows : Borrows access lower above parent)

include outgoing borrows

theorem Outgoing.start :
    access.window.localsEnd + access.window.depth - values.length =
      (lower ++ parent.fixed ++ held kept ++ held head).length := by
  rw [borrows.localsEnd, borrows.depth, outgoing.depth]
  simp only [List.length_append, length_held, outgoing.callee]
  omega

theorem Outgoing.scan (observesArguments : Bool) :
    scanOutgoing access.machine.store.slots
      (access.window.localsEnd + access.window.depth - values.length)
      (access.window.localsEnd + access.window.depth - values.length - 1 -
        methodSlots method) (values.length + 1 + methodSlots method)
      observesArguments = .ok (keepsOriginals observesArguments values) := by
  have front : (lower ++ parent.fixed ++ held kept ++ held head).length - 1 -
      methodSlots method = (lower ++ parent.fixed ++ held kept).length := by
    simp only [List.length_append, length_held, outgoing.callee]
    omega
  have stop : (lower ++ parent.fixed ++ held kept).length + head.length =
      (lower ++ parent.fixed ++ held kept ++ held head).length := by
    simp only [List.length_append, length_held]
  have consumed : values.length + 1 + methodSlots method =
      head.length + values.length := by
    rw [outgoing.callee]
    omega
  have slots := borrows.slots
  rw [outgoing.cells, List.append_assoc _ parent.free] at slots
  have under := slots
  rw [List.append_assoc _ (held values)] at under
  rw [outgoing.start borrows, front, consumed,
    scanOutgoing_head _ _ head _ _ under rfl stop.le, stop,
    scanOutgoing_arguments values _ _ _ slots rfl le_rfl]
  rfl

end

variable {machine : Machine}

theorem succeeds_keepOriginals (keep : Bool) (below gap above : Slots)
    (slots : machine.store.slots = below ++ held values ++ gap ++
      vacant (keptOriginals keep values).length ++ above)
    (begins : start = below.length) (ends : keep = true →
      originalEnd = below.length + values.length + gap.length)
    (rest : Succeeds next (machine.turn (below ++ held values ++ gap ++
        held (keptOriginals keep values) ++ above)
      ((keptOriginals keep values).map .direct) []) value after) :
    Succeeds (if keep = true then do
        copyOrdinary start originalEnd 0 values.length
        next
      else next) machine value after := by
  cases keep with
  | true =>
    have ends : originalEnd = (below ++ held values ++ gap).length := by
      simp [ends rfl, Nat.add_assoc]
    have copied := (stages_copyOrdinary rfl begins ends).succeeds above
      (by simp) slots (by simp [keptOriginals])
    rw [map_some_direct] at copied
    exact copied.bind rest
  | false =>
    have same : machine.turn (below ++ held values ++ gap ++
        held (keptOriginals false values) ++ above)
        ((keptOriginals false values).map .direct) [] = machine := by
      rw [show below ++ held values ++ gap ++
        held (keptOriginals false values) ++ above =
        machine.store.slots from slots.symm]
      exact machine.turn_self
    rwa [same] at rest

theorem succeeds_enterOrdinaryFrame (keep : Bool) (initializer : Initializer)
    (outgoing : Outgoing parent method kept head values)
    (slots : machine.store.slots = lower ++ parent.cells ++ vacant spare)
    (active : machine.store.activeEnd = (lower ++ parent.cells).length) :
    let frame := calledFrame layout initializer (keptOriginals keep values)
      values
    Succeeds (enterOrdinaryFrame layout
      (lower ++ parent.fixed ++ held kept ++ held head).length values.length
      method keep initializer) machine
      (machine.windowOf (lower ++ outgoing.caller.cells) frame)
      (machine.entered (lower ++ outgoing.caller.cells) frame spare
        ((keptOriginals keep values).map .direct ++
          padding layout initializer values.length) (head.map .direct)) := by
  intro frame
  unfold Machine.entered Machine.windowOf
  have size : frame.size = _ := size_calledFrame ..
  unfold enterOrdinaryFrame
  refine succeeds_get.bind ?_
  simp only [active, ← length_keptOriginals]
  refine (succeeds_growSlots frame.size slots (end_calledFrame ..)).bind ?_
  generalize vacant (spare - frame.size) = rest
  rw [size, vacant_add, vacant_add, vacant_add, vacant_add]
  refine succeeds_keepOriginals keep
    (lower ++ parent.fixed ++ held kept ++ held head)
    (parent.free ++ vacant values.length)
    (vacant (layout.argumentSlots values.length - values.length) ++
      (vacant layout.locals.length ++ (vacant layout.operandCapacity ++ rest)))
    (by rw [Machine.turn_slots, outgoing.cells]; simp) rfl (fun kept => ?_) ?_
  · rw [kept, outgoing.cells]
    simp only [keptOriginals, if_true, List.length_append, length_held,
      length_vacant]
    omega
  refine outgoing.succeeds_transfer (keptOriginals keep values)
    (vacant layout.operandCapacity ++ rest) (by rw [outgoing.cells]; simp) rfl
    rfl rfl (fun _ _ => rfl) ?_
  rw [← size, end_calledFrame layout initializer, outgoing.length_caller]
  refine Succeeds.of_eq (succeeds_publish ..) ?_ ?_
  · rw [windowAt_calledFrame]
    simp only [Machine.turn, active]
  · simp [frame, cells_calledFrame, held_keptOriginals_comm]

section

variable (newest : Newest access lower spare parent)

include newest

theorem refuses_pushCallFrame_short
    (short : parent.operands.length < count + 1 + methodSlots method) :
    Refuses (pushCallFrame retains layout count method initializer reservation)
      access := by
  unfold pushCallFrame
  refine .later (succeeds_inspect newest.current) (.later succeeds_get ?_)
  simp only [newest.depth, if_pos short]
  exact (Refuses.throw _).bind

theorem refuses_pushOrdinaryFrame_short
    (short : parent.operands.length < count + 1 + methodSlots method) :
    Refuses (pushOrdinaryFrame layout count method initializer
      observesArguments reservation) access := by
  unfold pushOrdinaryFrame
  refine .later (succeeds_inspect newest.current) (.later succeeds_get ?_)
  simp only [newest.depth, if_pos short]
  exact (Refuses.throw _).bind

variable (outgoing : Outgoing parent method kept head values)

include outgoing

theorem succeeds_pushCallFrame
    (passes : frameRefusal access.machine.store layout .empty
      (some initializer) values.length reservation = none)
    (grants : retains.Grants layout initializer values.length) :
    let frame := calledFrame layout initializer values values
    Succeeds (pushCallFrame retains layout values.length method initializer
      reservation) access
      (access.machine.windowOf (lower ++ outgoing.caller.cells) frame)
      ⟨access.machine.entered (lower ++ outgoing.caller.cells) frame spare
        (values.map .direct ++ padding layout initializer values.length)
        (head.map .direct), outgoing.caller.windowAt access.window.owner
          access.window.id lower.length⟩ := by
  intro frame
  have depth := outgoing.depth
  unfold pushCallFrame
  refine (succeeds_inspect newest.current).bind (succeeds_get.bind ?_)
  simp only [if_neg (outgoing.enough newest.toBorrows)]
  refine (succeeds_inspect
    (peekAll_inside newest.toBorrows _ 0 (by omega))).bind ?_
  have pushed := succeeds_pushFrameStorage_call access.window.owner
    access.window.id outgoing newest.slots newest.active passes grants
  rw [← newest.window] at pushed
  exact (succeeds_onMachine access pushed).bind
    ((succeeds_modify _).bind succeeds_pure)

theorem refuses_pushCallFrame
    (refused : frameRefusal access.machine.store layout .empty
      (some initializer) values.length reservation = some message) :
    Refuses (pushCallFrame retains layout values.length method initializer
      reservation) access := by
  have depth := outgoing.depth
  unfold pushCallFrame
  refine .later (succeeds_inspect newest.current) (.later succeeds_get ?_)
  simp only [if_neg (outgoing.enough newest.toBorrows)]
  refine .later (succeeds_inspect
    (peekAll_inside newest.toBorrows _ 0 (by omega)))
    (refuses_onMachine access ?_).bind
  refine ⟨message, succeeds_get.fails ?_⟩
  have unchanged : Fails (refuse .empty message :
      Storing (FrameWindow × Option FrameWindow)) access.machine
      (.internal message) (access.machine.turn access.machine.store.slots []
        []) :=
    fails_refuse message
  rw [Machine.turn_self] at unchanged
  simpa only [refused] using unchanged

theorem succeeds_pushOrdinaryFrame
    (keeps : keepsOriginals observesArguments values = keep)
    (passes : ordinaryRefusal access.machine.store layout values.length keep
      initializer reservation = none) :
    let frame := calledFrame layout initializer (keptOriginals keep values)
      values
    Succeeds (pushOrdinaryFrame layout values.length method initializer
      observesArguments reservation) access
      (access.machine.windowOf (lower ++ outgoing.caller.cells) frame)
      ⟨access.machine.entered (lower ++ outgoing.caller.cells) frame spare
        ((keptOriginals keep values).map .direct ++
          padding layout initializer values.length) (head.map .direct),
        outgoing.caller.windowAt access.window.owner access.window.id
          lower.length⟩ := by
  intro frame
  have borrows := newest.toBorrows
  unfold pushOrdinaryFrame
  refine (succeeds_inspect newest.current).bind (succeeds_get.bind ?_)
  simp only [if_neg (outgoing.enough borrows)]
  refine (succeeds_inspect (outgoing.scan borrows observesArguments)).bind ?_
  rw [keeps, outgoing.start borrows]
  refine (succeeds_inspect (show _ = Except.ok () by simp only [passes])).bind
    ?_
  refine (succeeds_onMachine access (succeeds_enterOrdinaryFrame keep
    initializer outgoing borrows.slots newest.active)).bind ?_
  have popped : access.window.depth -
      (values.length + 1 + methodSlots method) = kept.length := by
    rw [borrows.depth, outgoing.depth]
    omega
  have window : { access.window with depth := access.window.depth -
      (values.length + 1 + methodSlots method) } = outgoing.caller.windowAt
        access.window.owner access.window.id lower.length := by
    rw [popped]
    exact congrArg (fun window : FrameWindow =>
      { window with depth := kept.length }) borrows.window
  exact Succeeds.of_eq ((succeeds_modify _).bind succeeds_pure) rfl
    (congrArg (Access.mk _) window)

theorem refuses_pushOrdinaryFrame
    (refused : ordinaryRefusal access.machine.store layout values.length
      (keepsOriginals observesArguments values) initializer reservation =
      some message) :
    Refuses (pushOrdinaryFrame layout values.length method initializer
      observesArguments reservation) access := by
  unfold pushOrdinaryFrame
  refine .later (succeeds_inspect newest.current) (.later succeeds_get ?_)
  simp only [if_neg (outgoing.enough newest.toBorrows)]
  refine .later (succeeds_inspect
    (outgoing.scan newest.toBorrows observesArguments))
    ⟨message, (fails_inspect ?_).bind⟩
  simp only [refused]

end

end

def Machine.retired (machine : Machine) (base : Nat) : Machine :=
  { machine with store := { machine.store with
    activeEnd := base
    windows := machine.store.windows.dropLast } }

def Frame.storage (frame : Frame) : FrameStorage where
  originalArguments := frame.originals ++ List.replicate
    (frame.actualCount - frame.originals.length) .undefined
  parameters := frame.parameters
  locals := frame.locals
  operands := frame.operands

section

variable {machine : Machine} {lower : Slots}
  {frame : Frame} {id : Nat}

theorem succeeds_checkCurrent
    (current : checkCurrent machine.store window = .ok ()) :
    Succeeds (attempt fun machine : Machine => checkCurrent machine.store window)
      machine () machine := by
  simp [Succeeds, attempt, current]

theorem refuses_takeFrame (current : checkCurrent machine.store window = .ok ())
    (denied : handoff ≠ .granted) :
    Refuses (takeFrame window handoff) machine := by
  refine .later (succeeds_checkCurrent current) ?_
  obtain ⟨message, problem⟩ : ∃ message, handoff.problem = some message := by
    cases handoff with
    | granted => exact absurd rfl denied
    | originals | parameters | locals | operands => exact ⟨_, rfl⟩
  have span : Succeeds (takeFrameSpan window handoff) machine
      (.empty, some message) machine := by
    unfold takeFrameSpan
    rw [if_pos denied, problem]
    exact succeeds_pure
  refine .later span ⟨message, ?_⟩
  have surrendered : Succeeds (surrender .empty) machine ⟨⟩ machine :=
    (succeeds_modify _).of_eq rfl (by simp [FrameStorage.empty])
  exact surrendered.fails fails_throw

theorem vacant_frame (frame : Frame) (spare : Nat) :
    vacant (frame.size + spare) = vacant frame.originals.length ++
      vacant frame.parameters.length ++ vacant frame.locals.length ++
      vacant frame.operands.length ++ (frame.free ++ vacant spare) := by
  have := frame.room
  rw [show frame.free = vacant (frame.capacity - frame.operands.length) from
    rfl, ← vacant_add, ← vacant_add, ← vacant_add, ← vacant_add, ← vacant_add,
    Frame.size]
  congr 1
  omega

theorem succeeds_takeFrameSpan
    (slots : machine.store.slots = lower ++ frame.cells ++ vacant spare) :
    Succeeds (takeFrameSpan (frame.windowAt owner id lower.length) .granted)
      machine (frame.storage, none)
      (machine.turn (lower ++ vacant (frame.size + spare))
        (List.replicate (frame.actualCount - frame.originals.length)
          (.direct .undefined)) []) := by
  have originals : (frame.windowAt owner id lower.length).originalEnd -
      (frame.windowAt owner id lower.length).base = frame.originals.length := by
    simp [Frame.windowAt]
  have parameters : (frame.windowAt owner id lower.length).parametersEnd -
      (frame.windowAt owner id lower.length).originalEnd =
      frame.parameters.length := by
    simp [Frame.windowAt]
  have locals : (frame.windowAt owner id lower.length).localsEnd -
      (frame.windowAt owner id lower.length).parametersEnd =
      frame.locals.length := by
    simp [Frame.windowAt]
  unfold takeFrameSpan
  simp only [ne_eq, not_true_eq_false, if_false, originals, parameters, locals]
  refine (rewrites_takeValues frame.originals _).step lower
    (frame.parameters.map some ++ (frame.locals.map some ++
      (held frame.operands ++ (frame.free ++ vacant spare))))
    (by simp [slots, Frame.cells_eq, Frame.fixed]) rfl ?_
  refine (succeeds_create _).bind ?_
  refine (rewrites_takeBindings _ _).step _ _ rfl (by simp [Frame.windowAt]) ?_
  refine (rewrites_takeBindings _ _).step _ _ rfl
    (by simp [Frame.windowAt, Nat.add_assoc]) ?_
  refine (rewrites_takeValues frame.operands _).step _ _ rfl
    (by simp [Frame.windowAt, Nat.add_assoc]) ?_
  refine Succeeds.of_eq succeeds_pure rfl ?_
  rw [vacant_frame]
  simp [vacant, Frame.windowAt]

section

variable (current : checkCurrent machine.store
    (frame.windowAt owner id lower.length) = .ok ())
  (slots : machine.store.slots = lower ++ frame.cells ++ vacant spare)

include current slots

theorem succeeds_takeFrame :
    Succeeds (takeFrame (frame.windowAt owner id lower.length) .granted)
      machine frame.storage
      ((machine.turn (lower ++ vacant (frame.size + spare))
        (List.replicate (frame.actualCount - frame.originals.length)
          (.direct .undefined)) []).retired lower.length) :=
  (succeeds_checkCurrent current).bind ((succeeds_takeFrameSpan slots).bind
    ((succeeds_modify _).bind succeeds_pure))

theorem succeeds_clearFrame :
    Succeeds (clearFrame (frame.windowAt owner id lower.length)) machine ⟨⟩
      ((machine.turn (lower ++ vacant (frame.size + spare)) []
        frame.bindings).retired lower.length) := by
  have count : (frame.windowAt owner id lower.length).localsEnd +
      (frame.windowAt owner id lower.length).depth -
      (frame.windowAt owner id lower.length).base =
      (frame.fixed ++ held frame.operands).length := by
    simp only [Frame.windowAt, List.length_append, Frame.length_fixed,
      length_held]
    omega
  unfold clearFrame
  refine (succeeds_checkCurrent current).bind ((succeeds_modify _).bind ?_)
  rw [count]
  refine (rewrites_releaseSlots (frame.fixed ++ held frame.operands) _).step
    lower (frame.free ++ vacant spare) (by simp [slots, Frame.cells_eq]) rfl ?_
  have owned : (frame.fixed ++ held frame.operands).reduceOption =
      frame.bindings := by
    rw [← Frame.reduceOption_cells, Frame.cells_eq, List.reduceOption_append _
      frame.free, show frame.free.reduceOption = [] from
        reduceOption_vacant _, List.append_nil]
  have emptied : lower ++ List.replicate
      (frame.fixed ++ held frame.operands).length none ++
      (frame.free ++ vacant spare) = lower ++ vacant (frame.size + spare) := by
    rw [vacant_frame]
    simp [vacant]
  rw [owned, emptied]
  exact succeeds_modify _

end

end

end QuickJsOxide.Frames
