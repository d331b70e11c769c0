import QuickJsOxide.Frames.SlotSteps

namespace QuickJsOxide.Frames

open Library
open List hiding modify

/-! Frames as lists. A frame is what one window holds; its cells are the slots
from the window's base to its end. The operations on the newest window are
compared with operations on these lists. -/

structure Frame where
  actualCount : Nat
  originals : List JsValue
  parameters : List FrameBinding
  locals : List FrameBinding
  operands : List JsValue
  capacity : Nat
  room : operands.length ≤ capacity

namespace Frame

variable (frame : Frame)

def cells : Slots :=
  held frame.originals ++ frame.parameters.map some ++
    frame.locals.map some ++ held frame.operands ++
    replicate (frame.capacity - frame.operands.length) none

def fixed : Slots :=
  held frame.originals ++ frame.parameters.map some ++ frame.locals.map some

def free : Slots :=
  replicate (frame.capacity - frame.operands.length) none

theorem cells_eq : frame.cells = frame.fixed ++ held frame.operands ++
    frame.free := rfl

def size : Nat :=
  frame.originals.length + frame.parameters.length + frame.locals.length +
    frame.capacity

@[simp] theorem length_cells : frame.cells.length = frame.size := by
  have := frame.room
  simp only [cells, size, length_append, length_held, length_map,
    length_replicate]
  omega

@[simp] theorem length_fixed : frame.fixed.length =
    frame.originals.length + frame.parameters.length + frame.locals.length := by
  simp [fixed]
  omega

def bindings : List FrameBinding :=
  frame.originals.map .direct ++ frame.parameters ++ frame.locals ++
    frame.operands.map .direct

@[simp] theorem reduceOption_cells :
    frame.cells.reduceOption = frame.bindings := by
  have all : ∀ bindings : List FrameBinding,
      (bindings.map some).reduceOption = bindings := by
    intro bindings
    simp [reduceOption]
  simp [cells, bindings, reduceOption_append, all]

variable (owner id base : Nat)

def windowAt : FrameWindow where
  actualCount := frame.actualCount
  owner := owner
  id := id
  base := base
  originalEnd := base + frame.originals.length
  parametersEnd := base + frame.originals.length + frame.parameters.length
  localsEnd := base + frame.originals.length + frame.parameters.length +
    frame.locals.length
  windowEnd := base + frame.size
  depth := frame.operands.length

@[simp] theorem windowAt_owner :
    (frame.windowAt owner id base).owner = owner := rfl

@[simp] theorem windowAt_id : (frame.windowAt owner id base).id = id := rfl

@[simp] theorem windowAt_base :
    (frame.windowAt owner id base).base = base := rfl

@[simp] theorem windowAt_depth :
    (frame.windowAt owner id base).depth = frame.operands.length := rfl

def withOperands (operands : List JsValue)
    (room : operands.length ≤ frame.capacity) : Frame :=
  { frame with operands, room }

theorem cells_withOperands (operands : List JsValue)
    (room : operands.length ≤ frame.capacity) :
    (frame.withOperands operands room).cells = frame.fixed ++ held operands ++
      replicate (frame.capacity - operands.length) none := rfl

end Frame

/-- A call has borrowed the window of a frame, which lies between the given
slots. -/
structure Borrows (access : Access) (below above : Slots)
    (frame : Frame) : Prop where
  slots : access.machine.store.slots = below ++ frame.cells ++ above
  window : access.window =
    frame.windowAt access.window.owner access.window.id below.length

def Access.refit (access : Access) (below above : Slots)
    (frame : Frame) (created : List FrameBinding) : Access where
  machine := access.machine.turn (below ++ frame.cells ++ above) created []
  window := frame.windowAt access.window.owner access.window.id below.length

namespace Borrows

theorem refit (access : Access) (below above : Slots)
    (frame : Frame) (created : List FrameBinding) :
    Borrows (access.refit below above frame created) below above frame :=
  ⟨rfl, rfl⟩

variable {access : Access} {frame : Frame}
  (borrows : Borrows access below above frame)

include borrows

theorem localsEnd :
    access.window.localsEnd = (below ++ frame.fixed).length := by
  rw [borrows.window]
  simp only [Frame.windowAt, length_append, Frame.length_fixed]
  omega

theorem depth : access.window.depth = frame.operands.length := by
  rw [borrows.window]
  rfl

theorem capacity :
    access.window.windowEnd - access.window.localsEnd = frame.capacity := by
  rw [borrows.window]
  simp only [Frame.windowAt, Frame.size]
  omega

theorem split (operands : frame.operands = front ++ back) :
    access.machine.store.slots = (below ++ frame.fixed ++ held front) ++
      (held back ++ (frame.free ++ above)) := by
  rw [borrows.slots, Frame.cells_eq, operands]
  simp

theorem position (front : List JsValue) :
    access.window.localsEnd + front.length =
      (below ++ frame.fixed ++ held front).length := by
  simp only [borrows.localsEnd, length_append, length_held]

theorem refit_self : access.refit below above frame [] = access := by
  obtain ⟨machine, window⟩ := access
  have slots : machine.store.slots = below ++ frame.cells ++ above :=
    borrows.slots
  have window : window = frame.windowAt window.owner window.id below.length :=
    borrows.window
  simp only [Access.refit, ← slots, Machine.turn_self, ← window]

theorem refit_withOperands (operands : List JsValue)
    (room : operands.length ≤ frame.capacity)
    (created : List FrameBinding) :
    access.refit below above (frame.withOperands operands room) created =
      ⟨access.machine.turn ((below ++ frame.fixed) ++ held operands ++
        (replicate (frame.capacity - operands.length) none ++ above))
        created [], { access.window with depth := operands.length }⟩ := by
  have window := borrows.window
  simp only [Access.refit, Frame.cells_withOperands, append_assoc]
  rw [window]
  rfl

end Borrows

theorem refit_refit (access : Access)
    (below above : Slots) (first second : Frame)
    (created made : List FrameBinding) :
    (access.refit below above first created).refit below above second made =
      access.refit below above second (created ++ made) := by
  simp [Access.refit, Frame.windowAt]

theorem succeeds_onMachine (access : Access) {after : Machine}
    (runs : Succeeds operation access.machine value after) :
    Succeeds (onMachine operation) access value ⟨after, access.window⟩ := by
  unfold Succeeds at runs ⊢
  simp [onMachine, runs]

variable {read : SlotStore → FrameWindow → Except Fault α} {access : Access}

theorem succeeds_inspect
    (reads : read access.machine.store access.window = .ok value) :
    Succeeds (inspect read) access value access := by
  simp [Succeeds, inspect, attempt, reads]

theorem fails_inspect
    (reads : read access.machine.store access.window = .error fault) :
    Fails (inspect read) access fault access := by
  simp [Fails, inspect, attempt, reads]

def Refuses (operation : EStateM Fault State α) (state : State) : Prop :=
  ∃ message, Fails operation state (.internal message) state

namespace Refuses

variable {State : Type}

theorem throw (message : String) :
    Refuses (throw (.internal message) : EStateM Fault State α) state :=
  ⟨message, fails_throw⟩

theorem bind (refuses : Refuses first state) :
    Refuses (first >>= second) state := by
  obtain ⟨message, fails⟩ := refuses
  exact ⟨message, fails.bind⟩

theorem later (looked : Succeeds first state value state)
    (refuses : Refuses (second value) state) :
    Refuses (first >>= second) state := by
  obtain ⟨message, fails⟩ := refuses
  exact ⟨message, looked.fails fails⟩

theorem inspect (reads : read access.machine.store access.window =
      .error (.internal message)) : Refuses (inspect read) access :=
  ⟨message, fails_inspect reads⟩

end Refuses

theorem exists_split {operands : List JsValue}
    (enough : fromTop ≤ operands.length) :
    ∃ front top, operands = front ++ top ∧ top.length = fromTop := by
  refine ⟨operands.take (operands.length - fromTop),
    operands.drop (operands.length - fromTop),
    (take_append_drop _ _).symm, ?_⟩
  rw [length_drop]
  omega

theorem exists_top {operands : List JsValue}
    (inside : fromTop < operands.length) :
    ∃ front value top, operands = front ++ value :: top ∧
      top.length = fromTop := by
  obtain ⟨front, top, split, length⟩ := exists_split (Nat.succ_le_of_lt inside)
  obtain ⟨value, top, rfl⟩ := exists_cons_of_length_eq_add_one length
  exact ⟨front, value, top, split, Nat.succ.inj length⟩

theorem rotateOnce_perm (left : Bool) (values : List α) :
    (rotateOnce left values).Perm values := by
  unfold rotateOnce
  exact perm_append_comm.trans
    (.of_eq (take_append_drop _ values))

theorem held_rotateOnce (left : Bool) (values : List JsValue) :
    held (rotateOnce left values) = rotateOnce left (held values) := by
  simp [rotateOnce, held]

theorem rotateSlots_eq (left : Bool) (below middle above : Slots) :
    rotateSlots below.length (below.length + middle.length) left
      (below ++ middle ++ above) = below ++ rotateOnce left middle ++ above := by
  have past : (below ++ (middle ++ above)).drop
      (below.length + middle.length) = above := by
    rw [← append_assoc, ← length_append, drop_left]
  simp [rotateSlots, past]

section

variable {access : Access} {frame : Frame}
  (borrows : Borrows access below above frame)

variable {front top : List JsValue}

include borrows

theorem peekCurrent_inside (operands : frame.operands = front ++ value :: top) :
    peekCurrent access.machine.store access.window top.length = .ok value := by
  have depth := borrows.depth
  rw [operands, length_append, length_cons] at depth
  have position : access.window.localsEnd + (access.window.depth -
      (top.length + 1)) = (below ++ frame.fixed ++ held front).length := by
    rw [← borrows.position]
    omega
  have read : readSlot access.machine.store.slots _ =
      .ok (some (.direct value)) :=
    readSlot_at (borrows.split operands) position
  rw [peekCurrent, if_neg (by omega), read]
  rfl

theorem peekCurrent_underflow (shallow : frame.operands.length ≤ fromTop) :
    peekCurrent access.machine.store access.window fromTop =
      .error operandStackUnderflow := by
  rw [peekCurrent, borrows.depth, if_pos (by omega)]

theorem refuses_peek (shallow : frame.operands.length ≤ fromTop) :
    Refuses (inspect fun store window => peekCurrent store window fromTop)
      access :=
  .inspect (peekCurrent_underflow borrows shallow)

theorem succeeds_peek (front : List JsValue) (value : JsValue)
    (top : List JsValue) (operands : frame.operands = front ++ value :: top)
    (position : fromTop = top.length) :
    Succeeds (inspect fun store window => peekCurrent store window fromTop)
      access value access := by
  subst position
  exact succeeds_inspect (peekCurrent_inside borrows operands)

theorem refuses_pushCurrent
    (full : frame.operands.length = frame.capacity) (value : JsValue) :
    Refuses (pushCurrent value) access := by
  have index : operandPushIndex access.machine.store access.window =
      .error (.internal "owned operand stack exceeds verified capacity") := by
    rw [operandPushIndex, borrows.capacity, borrows.depth, if_pos full.ge]
  exact (Refuses.inspect index).bind

theorem succeeds_pushCurrent (value : JsValue)
    (room : (frame.operands ++ [value]).length ≤ frame.capacity) :
    Succeeds (pushCurrent value) access () (access.refit below above
        (frame.withOperands (frame.operands ++ [value]) room) []) := by
  have short : frame.operands.length < frame.capacity := by
    simpa [Nat.succ_le_iff] using room
  have split : access.machine.store.slots =
      (below ++ frame.fixed ++ held frame.operands) ++ none ::
        (replicate (frame.capacity - (frame.operands.length + 1)) none ++
          above) := by
    have free : frame.free = none ::
        replicate (frame.capacity - (frame.operands.length + 1)) none := by
      rw [Frame.free, ← replicate_succ]
      congr 1
      omega
    rw [borrows.split (append_nil _).symm, free]
    rfl
  have position : access.window.localsEnd + access.window.depth =
      (below ++ frame.fixed ++ held frame.operands).length := by
    rw [borrows.depth, borrows.position]
  have index : operandPushIndex access.machine.store access.window =
      .ok (access.window.localsEnd + access.window.depth) := by
    have open' : ¬ access.window.windowEnd - access.window.localsEnd ≤
        access.window.depth := by
      rw [borrows.capacity, borrows.depth]
      omega
    simp only [operandPushIndex, if_neg open', readSlot_at split position]
    rfl
  refine (succeeds_inspect index).bind ?_
  refine (succeeds_onMachine access (succeeds_putSlot _ split position)).bind ?_
  rw [borrows.refit_withOperands]
  exact (succeeds_modify _).of_eq rfl (by simp [borrows.depth])

theorem succeeds_popCurrent (operands : frame.operands = front ++ [value])
    (room : front.length ≤ frame.capacity) : Succeeds popCurrent access value
      (access.refit below above (frame.withOperands front room) []) := by
  have depth := borrows.depth
  rw [operands, length_append, length_singleton] at depth
  have position : access.window.localsEnd + (access.window.depth - 1) =
      (below ++ frame.fixed ++ held front).length := by
    rw [depth, Nat.add_sub_cancel, borrows.position]
  refine (succeeds_inspect (peekCurrent_inside borrows operands)).bind ?_
  refine (succeeds_modify _).bind (succeeds_get.bind ?_)
  refine (succeeds_onMachine ⟨access.machine,
    { access.window with depth := access.window.depth - 1 }⟩
    (succeeds_takeSlot (borrows.split operands) position)).bind ?_
  have free : none :: (frame.free ++ above) =
      replicate (frame.capacity - front.length) none ++ above := by
    have positive : frame.capacity - front.length =
        frame.capacity - frame.operands.length + 1 := by
      have := frame.room
      rw [operands, length_append, length_singleton] at this ⊢
      omega
    rw [positive, replicate_succ]
    rfl
  rw [borrows.refit_withOperands, ← free, depth]
  exact succeeds_pure

theorem refuses_popCurrent (empty : frame.operands = []) :
    Refuses popCurrent access :=
  (refuses_peek borrows (by simp [empty])).bind

theorem refuses_rotateOperandsCurrent {skipTop count : Nat}
    (short : count = 0 ∨ frame.operands.length < skipTop + count)
    (left : Bool) :
    Refuses (rotateOperandsCurrent skipTop count left) access := by
  unfold rotateOperandsCurrent
  by_cases none : count = 0
  · rw [if_pos none]
    exact (Refuses.throw _).bind
  · rw [if_neg none]
    have shallow : frame.operands.length ≤ skipTop + count - 1 := by omega
    exact (refuses_peek borrows shallow).bind

theorem succeeds_rotateOperandsCurrent
    (operands : frame.operands = front ++ middle ++ top)
    (nonempty : middle ≠ []) (left : Bool)
    (room : (front ++ rotateOnce left middle ++ top).length ≤ frame.capacity) :
    Succeeds (rotateOperandsCurrent top.length middle.length left) access ()
      (access.refit below above
        (frame.withOperands (front ++ rotateOnce left middle ++ top) room)
        []) := by
  have positive := length_pos_of_ne_nil nonempty
  obtain ⟨value, rest, split⟩ := exists_cons_of_ne_nil nonempty
  have depth := borrows.depth
  rw [operands] at depth
  simp only [length_append] at depth
  have slots : access.machine.store.slots = (below ++ frame.fixed ++
      held front) ++ held middle ++ (held top ++ (frame.free ++ above)) := by
    rw [borrows.split (operands.trans (append_assoc ..))]
    simp
  have stop : access.window.localsEnd + access.window.depth - top.length =
      (below ++ frame.fixed ++ held front).length + middle.length := by
    rw [← borrows.position]
    omega
  unfold rotateOperandsCurrent
  rw [if_neg (by omega)]
  refine (succeeds_peek borrows front value (rest ++ top)
    (by simp [operands, split]) (by
      simp only [split, length_append, length_cons]
      omega)).bind ?_
  refine succeeds_get.bind ?_
  have inside : ¬ access.machine.store.slots.length <
      access.window.localsEnd + access.window.depth - top.length := by
    rw [stop, slots]
    simp only [length_append, length_held]
    omega
  simp only [if_neg inside]
  have same : (front ++ rotateOnce left middle ++ top).length =
      access.window.depth := by
    rw [depth]
    simp only [length_append, (rotateOnce_perm left middle).length_eq]
  have stretch := rotateSlots_eq left (below ++ frame.fixed ++ held front)
    (held middle) (held top ++ (frame.free ++ above))
  rw [length_held, ← slots, ← held_rotateOnce] at stretch
  refine (succeeds_onMachine access (succeeds_modify _)).trans ?_
  rw [borrows.refit_withOperands, same]
  simp only [stop, Nat.add_sub_cancel, stretch, Machine.turn, append_nil]
  simp only [Frame.free, ← borrows.depth, held_append, append_assoc]

theorem succeeds_copy (value : JsValue) :
    Succeeds (onMachine (dupJsvalue value)) access value
      (access.refit below above frame [.direct value]) := by
  refine (succeeds_onMachine access (succeeds_dupJsvalue value)).trans ?_
  rw [Access.refit, ← borrows.window, ← borrows.slots]

theorem succeeds_insertCopyCurrent
    (source : frame.operands = lower ++ value :: upper)
    (target : frame.operands = front ++ top)
    (room : (front ++ value :: top).length ≤ frame.capacity) :
    Succeeds (insertCopyCurrent upper.length top.length) access ()
      (access.refit below above
        (frame.withOperands (front ++ value :: top) room) [.direct value]) := by
  have length := congrArg length target
  simp only [length_append, length_cons] at length room
  have peeked := succeeds_peek borrows lower value upper source rfl
  unfold insertCopyCurrent
  refine peeked.bind (succeeds_get.bind ?_)
  have fits : ¬ (access.window.depth < top.length ∨
      access.window.windowEnd - access.window.localsEnd ≤
        access.window.depth) := by
    rw [borrows.capacity, borrows.depth]
    omega
  simp only [if_neg fits]
  refine peeked.bind ((succeeds_copy borrows value).bind ?_)
  have pushed : (frame.operands ++ [value]).length ≤ frame.capacity := by
    simp only [length_append, length_singleton]
    omega
  refine (succeeds_pushCurrent (.refit ..) value pushed).bind ?_
  rw [refit_refit, append_nil]
  have grown : (frame.withOperands (frame.operands ++ [value]) pushed).operands =
      front ++ (top ++ [value]) ++ [] := by
    simp [Frame.withOperands, target]
  have turned : front ++ rotateOnce false (top ++ [value]) ++ [] =
      front ++ value :: top := by
    simp [rotateOnce]
  have rotated := succeeds_rotateOperandsCurrent
    (.refit access below above _ [.direct value]) grown (by simp) false
    (by
      rw [turned, length_append, length_cons]
      exact room)
  simp only [refit_refit, turned, append_nil] at rotated
  rw [length_append] at rotated
  exact rotated

theorem refuses_insertCopyCurrent (bad : frame.operands.length ≤ sourceFromTop ∨
      frame.operands.length < destinationFromTop ∨
      frame.operands.length = frame.capacity) :
    Refuses (insertCopyCurrent sourceFromTop destinationFromTop) access := by
  unfold insertCopyCurrent
  rcases Nat.lt_or_ge sourceFromTop frame.operands.length with inside | outside
  · obtain ⟨front, value, top, operands, length⟩ := exists_top inside
    refine .later (succeeds_peek borrows front value top operands length.symm)
      (.later succeeds_get ?_)
    have unfit : access.window.depth < destinationFromTop ∨
        access.window.windowEnd - access.window.localsEnd ≤
          access.window.depth := by
      rw [borrows.capacity, borrows.depth]
      omega
    simp only [if_pos unfit]
    exact (Refuses.throw _).bind
  · exact (refuses_peek borrows outside).bind

omit borrows in
theorem succeeds_duplicateLoop (lower : List JsValue) (count : Nat)
    (rest : List JsValue) :
    ∀ (access : Access) (frame : Frame) (done : List JsValue)
      (room : (lower ++ (done ++ rest) ++ (done ++ rest)).length ≤
        frame.capacity), Borrows access below above frame →
      frame.operands = lower ++ (done ++ rest) ++ done →
      (done ++ rest).length = count + 1 →
      Succeeds (duplicateLoop count rest.length) access ()
        (access.refit below above
          (frame.withOperands (lower ++ (done ++ rest) ++ (done ++ rest)) room)
          (rest.map .direct)) := by
  induction rest with
  | nil =>
    intro access frame done room borrows operands length
    have same : frame.withOperands (lower ++ (done ++ []) ++ (done ++ []))
        room = frame := by
      obtain ⟨_, _, _, _, _, _, _⟩ := frame
      simp only [Frame.withOperands, Frame.mk.injEq]
      simpa using operands.symm
    rw [same, map_nil, borrows.refit_self]
    exact succeeds_pure
  | cons value rest ih =>
    intro access frame done room borrows operands length
    have position : count = (rest ++ done).length := by
      simp only [length_append, length_cons] at length ⊢
      omega
    have peeked := succeeds_peek borrows (lower ++ done) value (rest ++ done)
      (by simp [operands]) position
    have pushed : (frame.operands ++ [value]).length ≤ frame.capacity := by
      rw [operands]
      simp only [length_append, length_cons, length_nil] at room ⊢
      omega
    refine peeked.bind ((succeeds_copy borrows value).bind
      ((succeeds_pushCurrent (.refit ..) value pushed).bind ?_))
    rw [refit_refit, append_nil]
    have tail := ih (access.refit below above (frame.withOperands
        (frame.operands ++ [value]) pushed) [.direct value])
      (frame.withOperands (frame.operands ++ [value]) pushed)
      (done ++ [value]) (by simpa [Frame.withOperands] using room)
      (.refit ..) (by simp [Frame.withOperands, operands])
      (by simpa using length)
    rw [refit_refit] at tail
    simpa [Frame.withOperands] using tail

theorem succeeds_duplicateOperandsCurrent (nonempty : copied ≠ [])
    (operands : frame.operands = lower ++ copied)
    (room : (lower ++ copied ++ copied).length ≤ frame.capacity) :
    Succeeds (duplicateOperandsCurrent copied.length) access ()
      (access.refit below above
        (frame.withOperands (lower ++ copied ++ copied) room)
        (copied.map .direct)) := by
  obtain ⟨value, rest, split⟩ := exists_cons_of_ne_nil nonempty
  have positive := length_pos_of_ne_nil nonempty
  unfold duplicateOperandsCurrent
  rw [if_neg (by omega)]
  refine (succeeds_peek borrows lower value rest (by simp [operands, split])
    (by simp [split])).bind (succeeds_get.bind ?_)
  have length := congrArg length operands
  simp only [length_append] at length room
  have fits : ¬ access.window.windowEnd - access.window.localsEnd -
      access.window.depth < copied.length := by
    rw [borrows.capacity, borrows.depth]
    omega
  simp only [if_neg fits]
  have loop := succeeds_duplicateLoop lower (copied.length - 1) copied access
    frame [] (by simpa [Nat.add_assoc] using room) borrows (by simp [operands])
    (by rw [nil_append]; omega)
  simpa using loop

theorem refuses_duplicateOperandsCurrent {count : Nat}
    (bad : count = 0 ∨ frame.operands.length < count ∨
      frame.capacity < frame.operands.length + count) :
    Refuses (duplicateOperandsCurrent count) access := by
  unfold duplicateOperandsCurrent
  by_cases none : count = 0
  · rw [if_pos none]
    exact (Refuses.throw _).bind
  · rw [if_neg none]
    rcases Nat.lt_or_ge (count - 1) frame.operands.length with
      inside | outside
    · obtain ⟨front, value, top, operands, length⟩ := exists_top inside
      refine .later (succeeds_peek borrows front value top operands
        length.symm) (.later succeeds_get ?_)
      have unfit : access.window.windowEnd - access.window.localsEnd -
          access.window.depth < count := by
        rw [borrows.capacity, borrows.depth]
        omega
      simp only [if_pos unfit]
      exact (Refuses.throw _).bind
    · exact (refuses_peek borrows outside).bind

/-! Replacement. The only operation that checks the window after it has begun
to look is written over `peek`. -/

section

variable (current : checkCurrent access.machine.store access.window = .ok ())
  (value : JsValue)

include current

theorem succeeds_replaceOperand
    (operands : frame.operands = front ++ previous :: top)
    (room : (front ++ value :: top).length ≤ frame.capacity) :
    Succeeds (replaceOperand top.length value) access previous
      (access.refit below above
        (frame.withOperands (front ++ value :: top) room) []) := by
  have depth := borrows.depth
  rw [operands, length_append, length_cons] at depth
  have split : access.machine.store.slots =
      (below ++ frame.fixed ++ held front) ++ some (.direct previous) ::
        (held top ++ (frame.free ++ above)) :=
    borrows.split operands
  have position : access.window.localsEnd + access.window.depth -
      top.length - 1 = (below ++ frame.fixed ++ held front).length := by
    rw [← borrows.position]
    omega
  have peeked : peek access.machine.store access.window top.length =
      .ok previous := by
    rw [peek, current]
    exact peekCurrent_inside borrows operands
  unfold replaceOperand
  refine (succeeds_inspect peeked).bind (succeeds_get.bind ?_)
  refine Succeeds.bind (show Succeeds _ access (some (.direct previous)) access
    by simp [Succeeds, attempt, readSlot_at split position]) ?_
  refine (succeeds_onMachine access (succeeds_putSlot _ split position)).bind
    ?_
  have same : (front ++ value :: top).length = access.window.depth := by
    rw [depth, length_append, length_cons]
  refine succeeds_pure.trans ?_
  rw [borrows.refit_withOperands, same]
  simp only [Frame.free, ← borrows.depth, held_append, held_cons,
    append_assoc, cons_append]

theorem refuses_replaceOperand (shallow : frame.operands.length ≤ fromTop) :
    Refuses (replaceOperand fromTop value) access := by
  have peeked : peek access.machine.store access.window fromTop =
      .error operandStackUnderflow := by
    rw [peek, current]
    exact peekCurrent_underflow borrows shallow
  exact (Refuses.inspect peeked).bind

end

end

end QuickJsOxide.Frames
