import Mathlib.Algebra.Order.Group.Multiset
import Mathlib.Tactic.Abel
import QuickJsOxide.Library.TransitionSystem
import QuickJsOxide.Frames.FrameCalls

namespace QuickJsOxide.Frames

open Library
open List hiding modify

/-! Programs over one slot store. The callers hold one record for each live
window; what they hand in and get back is recorded. -/

inductive Reply where
  | done
  | value (value : JsValue)
  | window (window : FrameWindow)
  | storage (storage : FrameStorage)
deriving Repr

/-- The answer of a call with the owners it gave away. -/
structure Exchange where
  reply : Reply
  left : List FrameBinding
deriving Repr

/-- The owners in `dropped` entered with a refused call and are neither stored
nor released. -/
structure World where
  machine : Machine
  frames : List FrameWindow
  entered : List FrameBinding
  left : List FrameBinding
  dropped : List FrameBinding
deriving Repr

inductive OperandCommand where
  | push (value : JsValue)
  | pop
  | peek (fromTop : Nat)
  | rotate (skipTop count : Nat) (left : Bool)
  | insertCopy (sourceFromTop destinationFromTop : Nat)
  | duplicate (count : Nat)
  | replace (fromTop : Nat) (value : JsValue)

/-- The owner a command takes by value. -/
@[simp] def OperandCommand.argument : OperandCommand → List FrameBinding
  | .push value | .replace _ value => [.direct value]
  | .pop | .peek _ | .rotate .. | .insertCopy .. | .duplicate _ => []

def OperandCommand.perform : OperandCommand → Accessing Exchange
  | .push value => do
    Frames.push value
    return ⟨.done, []⟩
  | .pop => do
    let value ← Frames.pop
    return ⟨.value value, [.direct value]⟩
  | .peek fromTop => do
    let value ← inspect fun store window => Frames.peek store window fromTop
    return ⟨.value value, []⟩
  | .rotate skipTop count left => do
    rotateOperands skipTop count left
    return ⟨.done, []⟩
  | .insertCopy sourceFromTop destinationFromTop => do
    Frames.insertCopy sourceFromTop destinationFromTop
    return ⟨.done, []⟩
  | .duplicate count => do
    duplicateOperands count
    return ⟨.done, []⟩
  | .replace fromTop value => do
    let previous ← replaceOperand fromTop value
    return ⟨.value previous, [.direct previous]⟩

structure CallCommand where
  layout : FrameLayout
  count : Nat
  method : Bool
  initializer : Initializer
  reservation : Reservation

def CallCommand.performRetaining (call : CallCommand) (retains : Retains) :
    Accessing FrameWindow :=
  pushCallFrame retains call.layout call.count call.method call.initializer
    call.reservation

def CallCommand.perform (call : CallCommand) : Accessing FrameWindow :=
  call.performRetaining .granted

/-- An ordinary call; the flag says whether the callee can see its originals. -/
def CallCommand.performOrdinary (call : CallCommand)
    (observesArguments : Bool) : Accessing FrameWindow :=
  pushOrdinaryFrame call.layout call.count call.method call.initializer
    observesArguments call.reservation

structure StorageCommand where
  layout : FrameLayout
  storage : FrameStorage
  fresh : Option Initializer
  reservation : Reservation

def StorageCommand.perform (command : StorageCommand) : Storing FrameWindow :=
  match command.fresh with
  | some initializer => pushInitializedFrame command.layout command.storage
      initializer command.reservation
  | none => pushFrame command.layout command.storage command.reservation

inductive Command where
  | operand (window : FrameWindow) (command : OperandCommand)
  | call (window : FrameWindow) (call : CallCommand)
  | ordinaryCall (window : FrameWindow) (call : CallCommand)
      (observesArguments : Bool)
  | enter (command : StorageCommand)
  | take (window : FrameWindow) (handoff : Handoff)
  | clear (window : FrameWindow)

def Command.window? : Command → Option FrameWindow
  | .operand window _ | .call window _ | .ordinaryCall window _ _
  | .take window _ | .clear window => some window
  | .enter _ => none

def Command.argument : Command → List FrameBinding
  | .operand _ command => command.argument
  | .call .. | .ordinaryCall .. | .enter _ | .take .. | .clear _ => []

def FrameStorage.bindings (storage : FrameStorage) : List FrameBinding :=
  storage.originalArguments.map .direct ++ storage.parameters ++
    storage.locals ++ storage.operands.map .direct

def World.settle (world : World) (window : FrameWindow) (access : Access) :
    World :=
  { world with
    machine := access.machine
    frames := world.frames.map fun live =>
      if live = window then access.window else live }

def World.drop (world : World) (values : List FrameBinding) : World :=
  { world with
    entered := world.entered ++ values
    dropped := world.dropped ++ values }

/-- The argument is given away with the call. A refused call only drops it:
the value has no destructor, and no release is made. -/
def World.operate (world : World) (window : FrameWindow)
    (command : OperandCommand) : Except Fault Reply × World :=
  match command.perform ⟨world.machine, window⟩ with
  | .ok exchange access => (.ok exchange.reply, { world.settle window access with
      entered := world.entered ++ command.argument
      left := world.left ++ exchange.left })
  | .error fault access =>
    (.error fault, (world.settle window access).drop command.argument)

def World.callFrom (world : World) (window : FrameWindow)
    (operation : Accessing FrameWindow) : Except Fault Reply × World :=
  match operation ⟨world.machine, window⟩ with
  | .ok callee access =>
    let settled := world.settle window access
    (.ok (.window callee), { settled with frames := settled.frames ++ [callee] })
  | .error fault access => (.error fault, world.settle window access)

/-- The storage is consumed whether the frame is entered or not. -/
def World.enter (world : World) (command : StorageCommand) :
    Except Fault Reply × World :=
  let entered := world.entered ++ command.storage.bindings
  match command.perform world.machine with
  | .ok window machine => (.ok (.window window),
      { world with machine, entered, frames := world.frames ++ [window] })
  | .error fault machine => (.error fault, { world with machine, entered })

def World.leave (world : World) (window : FrameWindow)
    (operation : Storing Exchange) : Except Fault Reply × World :=
  match operation world.machine with
  | .ok exchange machine => (.ok exchange.reply, { world with
      machine
      frames := world.frames.filter (· ≠ window)
      left := world.left ++ exchange.left })
  | .error fault machine => (.error fault, { world with machine })

def World.run (world : World) : Command → Except Fault Reply × World
  | .operand window command => world.operate window command
  | .call window call => world.callFrom window call.perform
  | .ordinaryCall window call observesArguments =>
    world.callFrom window (call.performOrdinary observesArguments)
  | .enter command => world.enter command
  | .take window handoff => world.leave window do
      let storage ← takeFrame window handoff
      return ⟨.storage storage, storage.bindings⟩
  | .clear window => world.leave window do
      clearFrame window
      return ⟨.done, []⟩

/-- A record of this store with the identity of a live window is that window's
record: windows are made by the store only and are not copied. -/
def World.Genuine (world : World) (command : Command) : Prop :=
  ∀ window, command.window? = some window →
    window.owner = world.machine.store.owner →
    ∀ live ∈ world.frames, live.id = window.id → live = window

def programs (owner limit : Nat) : TransitionSystem World Command where
  initial world := world = ⟨⟨.new owner limit, [], []⟩, [], [], [], []⟩
  step before command after := (before.run command).2 = after

abbrev Stack := List (Nat × Frame)

namespace Stack

def cells (stack : Stack) : Slots :=
  stack.flatMap fun entry => entry.2.cells

def bindings (stack : Stack) : List FrameBinding :=
  stack.flatMap fun entry => entry.2.bindings

def windowsAt (owner : Nat) : Nat → Stack → List FrameWindow
  | _, [] => []
  | base, (id, frame) :: rest =>
    frame.windowAt owner id base :: windowsAt owner (base + frame.size) rest

@[simp] theorem cells_append (front back : Stack) :
    cells (front ++ back) = cells front ++ cells back :=
  flatMap_append

variable (entry : Nat × Frame)

@[simp] theorem cells_singleton : cells [entry] = entry.2.cells :=
  flatMap_singleton ..

@[simp] theorem bindings_append (front back : Stack) :
    bindings (front ++ back) = bindings front ++ bindings back :=
  flatMap_append

@[simp] theorem bindings_singleton : bindings [entry] = entry.2.bindings :=
  flatMap_singleton ..

@[simp] theorem cells_nil : cells [] = [] := rfl

theorem cells_cons (rest : Stack) :
    cells (entry :: rest) = entry.2.cells ++ cells rest :=
  flatMap_cons

theorem bindings_cons (rest : Stack) :
    bindings (entry :: rest) = entry.2.bindings ++ bindings rest :=
  flatMap_cons

@[simp] theorem bindings_nil : bindings [] = [] := rfl

theorem reduceOption_cells (stack : Stack) :
    (cells stack).reduceOption = bindings stack := by
  induction stack with
  | nil => rfl
  | cons _ _ ih =>
    rw [cells_cons, bindings_cons, reduceOption_append, ih]
    simp

theorem windowsAt_append (owner : Nat) (front back : Stack) :
    ∀ base, windowsAt owner base (front ++ back) = windowsAt owner base front ++
      windowsAt owner (base + (cells front).length) back := by
  induction front with
  | nil =>
    intro base
    simp [windowsAt, cells]
  | cons entry _ ih =>
    intro base
    obtain ⟨id, frame⟩ := entry
    rw [cons_append, windowsAt, ih, windowsAt, cells_cons]
    simp [Nat.add_assoc]

end Stack

/-- The records, the slots and the accounts of a world agree with a stack. -/
structure Represents (world : World) (stack : Stack) : Prop where
  frames : world.frames =
    stack.windowsAt world.machine.store.owner 0
  slots : ∃ spare, world.machine.store.slots = stack.cells ++ vacant spare
  active : world.machine.store.activeEnd = stack.cells.length
  windows : world.machine.store.windows = stack.map Prod.fst
  fresh : ∀ entry ∈ stack, entry.1 < world.machine.store.nextWindow
  distinct : (stack.map Prod.fst).Nodup
  balanced : (world.entered ++ world.machine.created).Perm
    (world.left ++ world.machine.released ++ world.dropped ++ stack.bindings)

variable {world : World}

open Stack

theorem Represents.frames_eq (represents : Represents world (front ++ back)) :
    world.frames = windowsAt world.machine.store.owner 0 front ++
        windowsAt world.machine.store.owner
          (cells front).length back := by
  rw [represents.frames, windowsAt_append, Nat.zero_add]

abbrev World.windowBehind (world : World) (front : Stack) (id : Nat)
    (frame : Frame) : FrameWindow :=
  frame.windowAt world.machine.store.owner id (cells front).length

variable {command : Command} {stack : Stack}

theorem Represents.newest_or_stale (represents : Represents world stack)
    (genuine : world.Genuine command) (given : command.window? = some window) :
    (∃ front id frame spare, stack = front ++ [(id, frame)] ∧
      window = world.windowBehind front id frame ∧
      Newest ⟨world.machine, window⟩ (cells front) spare frame) ∨
    (∃ message, checkCurrent world.machine.store window =
      .error (.internal message)) := by
  rcases Decidable.em (checkCurrent world.machine.store window = .ok ()) with
    current | stale
  · left
    have newest := current
    unfold checkCurrent at newest
    split at newest
    · rename_i authentic
      obtain ⟨owned, last, -⟩ := authentic
      rw [represents.windows, getLast?_map, Option.map_eq_some_iff] at last
      obtain ⟨⟨id, frame⟩, last, same⟩ := last
      obtain ⟨front, split⟩ := getLast?_eq_some_iff.mp last
      subst split
      have record : window = world.windowBehind front id frame := by
        refine (genuine window given owned.symm _ ?_ same).symm
        rw [represents.frames_eq]
        simp [windowsAt]
      obtain ⟨spare, slots⟩ := represents.slots
      have active := represents.active
      rw [cells_append, cells_singleton] at slots active
      subst record
      exact ⟨front, id, frame, spare, rfl, rfl, ⟨⟨slots, rfl⟩, current, active⟩⟩
    · cases newest
  · right
    unfold checkCurrent at stale ⊢
    split at stale
    · exact absurd rfl stale
    · rename_i outdated
      exact ⟨_, if_neg outdated⟩

section

variable {access : Access} {frame : Frame}

/-- The operation changes the operands of its window, or nothing. Owners come
from outside or from copies, and go outside. -/
def Reworks (command : OperandCommand) (access : Access)
    (below above : Slots) (frame : Frame) : Prop :=
  Refuses command.perform access ∨
    ∃ operands, ∃ room : operands.length ≤ frame.capacity,
      ∃ created exchange, Succeeds command.perform access exchange
        (access.refit below above (frame.withOperands operands room) created) ∧
      (frame.operands.map FrameBinding.direct ++ command.argument ++
        created).Perm (operands.map FrameBinding.direct ++ exchange.left)

variable (borrows : Borrows access below above frame)
  (current : checkCurrent access.machine.store access.window = .ok ())

include borrows current

theorem reworks_push (value : JsValue) :
    Reworks (.push value) access below above frame := by
  have checked := succeeds_inspect current
  rcases frame.room.lt_or_eq with short | full
  · have room : (frame.operands ++ [value]).length ≤ frame.capacity := by
      simpa [Nat.succ_le_iff] using short
    exact .inr ⟨_, room, [], _,
      (checked.bind (succeeds_pushCurrent borrows value room)).bind
        succeeds_pure, by simp⟩
  · exact .inl (Refuses.later checked
      (refuses_pushCurrent borrows full value)).bind

theorem reworks_pop :
    Reworks .pop access below above frame := by
  have checked := succeeds_inspect current
  rcases eq_nil_or_concat frame.operands with
    empty | ⟨front, value, operands⟩
  · exact .inl (Refuses.later checked (refuses_popCurrent borrows empty)).bind
  · rw [concat_eq_append] at operands
    have room : front.length ≤ frame.capacity := by
      have := frame.room
      rw [operands, length_append] at this
      omega
    exact .inr ⟨front, room, [], _,
      (checked.bind (succeeds_popCurrent borrows operands room)).bind
        succeeds_pure, by simp [operands]⟩

theorem reworks_peek (fromTop : Nat) :
    Reworks (.peek fromTop) access below above frame := by
  have same : peek access.machine.store access.window fromTop =
      peekCurrent access.machine.store access.window fromTop := by
    rw [peek, current]
    rfl
  rcases Nat.lt_or_ge fromTop frame.operands.length with inside | shallow
  · obtain ⟨_, value, top, operands, rfl⟩ := exists_top inside
    rw [peekCurrent_inside borrows operands] at same
    refine .inr ⟨frame.operands, frame.room, [], ⟨.value value, []⟩, ?_,
      by simp⟩
    rw [show frame.withOperands frame.operands frame.room = frame from rfl,
      borrows.refit_self]
    exact (succeeds_inspect same).bind succeeds_pure
  · rw [peekCurrent_underflow borrows shallow] at same
    exact .inl (Refuses.inspect same).bind

theorem reworks_rotate (skipTop count : Nat) (left : Bool) :
    Reworks (.rotate skipTop count left) access below
      above frame := by
  have checked := succeeds_inspect current
  by_cases short : count = 0 ∨ frame.operands.length < skipTop + count
  · exact .inl (Refuses.later checked
      (refuses_rotateOperandsCurrent borrows short left)).bind
  · obtain ⟨positive, enough⟩ := not_or.mp short
    obtain ⟨lower, top, operands, skipped⟩ :=
      exists_split (show skipTop ≤ frame.operands.length by omega)
    have depth := congrArg length operands
    rw [length_append] at depth
    obtain ⟨front, middle, rfl, length⟩ :=
      exists_split (show count ≤ lower.length by omega)
    have turned : (front ++ rotateOnce left middle ++ top).Perm
        frame.operands := by
      rw [operands]
      exact (((rotateOnce_perm left middle).append_left front).append_right top)
    have nonempty : middle ≠ [] := by
      intro empty
      rw [empty] at length
      exact positive length.symm
    have room : (front ++ rotateOnce left middle ++ top).length ≤
        frame.capacity := by
      rw [turned.length_eq]
      exact frame.room
    subst length skipped
    refine .inr ⟨_, room, [], _, (checked.bind
      (succeeds_rotateOperandsCurrent borrows operands nonempty left
        room)).bind succeeds_pure, ?_⟩
    simpa using (turned.map FrameBinding.direct).symm

theorem reworks_insertCopy (sourceFromTop destinationFromTop : Nat) :
    Reworks (.insertCopy sourceFromTop destinationFromTop) access below above frame := by
  have checked := succeeds_inspect current
  by_cases bad : frame.operands.length ≤ sourceFromTop ∨
      frame.operands.length < destinationFromTop ∨
      frame.operands.length = frame.capacity
  · exact .inl (Refuses.later checked
      (refuses_insertCopyCurrent borrows bad)).bind
  · simp only [not_or, not_le, not_lt] at bad
    obtain ⟨inside, fits, short⟩ := bad
    obtain ⟨_, value, upper, source, rfl⟩ := exists_top inside
    obtain ⟨front, top, target, rfl⟩ := exists_split fits
    have room : (front ++ value :: top).length ≤ frame.capacity := by
      have := frame.room
      have length := congrArg length target
      simp only [length_append, length_cons] at length ⊢
      omega
    refine .inr ⟨_, room, _, _, (checked.bind
      (succeeds_insertCopyCurrent borrows source target room)).bind
      succeeds_pure, ?_⟩
    rw [target]
    simp only [map_append, map_cons, append_nil, append_assoc]
    exact (perm_append_singleton _ _).append_left _

theorem reworks_duplicate (count : Nat) :
    Reworks (.duplicate count) access below above
      frame := by
  have checked := succeeds_inspect current
  by_cases bad : count = 0 ∨ frame.operands.length < count ∨
      frame.capacity < frame.operands.length + count
  · exact .inl (Refuses.later checked
      (refuses_duplicateOperandsCurrent borrows bad)).bind
  · simp only [not_or, not_lt] at bad
    obtain ⟨positive, enough, fits⟩ := bad
    obtain ⟨lower, copied, operands, rfl⟩ := exists_split enough
    have room : (lower ++ copied ++ copied).length ≤ frame.capacity := by
      rw [← operands, length_append]
      exact fits
    have nonempty : copied ≠ [] := by
      intro empty
      exact positive (by rw [empty]; rfl)
    refine .inr ⟨_, room, _, _, (checked.bind
      (succeeds_duplicateOperandsCurrent borrows nonempty operands room)).bind
      succeeds_pure, ?_⟩
    simp [operands]

theorem reworks_replace (fromTop : Nat) (value : JsValue) :
    Reworks (.replace fromTop value) access below above
      frame := by
  rcases Nat.lt_or_ge fromTop frame.operands.length with inside | shallow
  · obtain ⟨front, previous, top, operands, rfl⟩ := exists_top inside
    have room : (front ++ value :: top).length ≤ frame.capacity := by
      have := frame.room
      rw [operands] at this
      simpa using this
    refine .inr ⟨_, room, [], _, (succeeds_replaceOperand borrows current value
      operands room).bind succeeds_pure, ?_⟩
    rw [operands]
    simp only [map_append, map_cons, append_nil, append_assoc, cons_append]
    refine Perm.append_left _ ?_
    exact (perm_append_singleton _ _).cons _ |>.trans
      ((Perm.swap _ _ _).trans ((perm_append_singleton _ _).symm.cons _))
  · exact .inl (refuses_replaceOperand borrows current value shallow).bind

theorem reworks_operand (command : OperandCommand) :
    Reworks command access below above frame := by
  cases command with
  | push value => exact reworks_push borrows current value
  | pop => exact reworks_pop borrows current
  | peek fromTop => exact reworks_peek borrows current fromTop
  | rotate skipTop count left =>
    exact reworks_rotate borrows current skipTop count left
  | insertCopy sourceFromTop destinationFromTop =>
    exact reworks_insertCopy borrows current sourceFromTop
      destinationFromTop
  | duplicate count => exact reworks_duplicate borrows current count
  | replace fromTop value =>
    exact reworks_replace borrows current fromTop value

end

section

variable {access : Access} {lower : Slots}

/-- The operation makes a call from the operands of its window, or changes
nothing. `originals` are the originals the callee keeps of its arguments. -/
def Calls (operation : Accessing FrameWindow) (access : Access)
    (lower : Slots) (spare : Nat) (parent : Frame)
    (call : CallCommand) (originals : List JsValue → List JsValue) : Prop :=
  Refuses operation access ∨
    ∃ kept head values,
      ∃ outgoing : Outgoing parent call.method kept head values,
        values.length = call.count ∧
        let frame := calledFrame call.layout call.initializer
          (originals values) values
        Succeeds operation access
          (access.machine.windowOf (lower ++ outgoing.caller.cells) frame)
          ⟨access.machine.entered (lower ++ outgoing.caller.cells) frame spare
            ((originals values).map .direct ++
              padding call.layout call.initializer values.length)
            (head.map .direct), outgoing.caller.windowAt access.window.owner
              access.window.id lower.length⟩

variable (newest : Newest access lower spare parent) (call : CallCommand)

include newest

theorem calls_perform :
    Calls call.perform access lower spare parent call fun values => values := by
  rcases Nat.lt_or_ge parent.operands.length
      (call.count + 1 + methodSlots call.method) with short | enough
  · exact .inl (refuses_pushCallFrame_short newest short)
  · obtain ⟨kept, head, values, outgoing, length⟩ :=
      Outgoing.exists_of_le enough
    unfold CallCommand.perform CallCommand.performRetaining
    rw [← length]
    cases passes : frameRefusal access.machine.store call.layout .empty
        (some call.initializer) values.length call.reservation with
    | some =>
      exact .inl (refuses_pushCallFrame newest outgoing passes)
    | none =>
      exact .inr ⟨kept, head, values, outgoing, length,
        succeeds_pushCallFrame newest outgoing passes
          ⟨fun _ _ => rfl, fun _ _ => ite_self none⟩⟩

theorem calls_performOrdinary (observesArguments : Bool) :
    Calls (call.performOrdinary observesArguments) access lower spare parent
      call fun values =>
        keptOriginals (keepsOriginals observesArguments values) values := by
  rcases Nat.lt_or_ge parent.operands.length
      (call.count + 1 + methodSlots call.method) with short | enough
  · exact .inl (refuses_pushOrdinaryFrame_short newest short)
  · obtain ⟨kept, head, values, outgoing, length⟩ :=
      Outgoing.exists_of_le enough
    unfold CallCommand.performOrdinary
    rw [← length]
    cases passes : ordinaryRefusal access.machine.store call.layout
        values.length (keepsOriginals observesArguments values)
        call.initializer call.reservation with
    | some =>
      exact .inl (refuses_pushOrdinaryFrame newest outgoing passes)
    | none =>
      exact .inr ⟨kept, head, values, outgoing, length,
        succeeds_pushOrdinaryFrame newest outgoing rfl passes⟩

end

theorem Stack.map_id_windowsAt (owner : Nat) (stack : Stack) :
    ∀ base, (windowsAt owner base stack).map FrameWindow.id =
      stack.map Prod.fst := by
  induction stack with
  | nil =>
    intro base
    rfl
  | cons _ _ ih =>
    intro base
    simp [windowsAt, ih, Frame.windowAt]

theorem accounts_advance {entered created left released dropped front tail
    moreEntered moreCreated moreLeft moreReleased replaced : List FrameBinding}
    (balanced : (entered ++ created).Perm
      (left ++ released ++ dropped ++ (front ++ tail)))
    (exchanged : (moreEntered ++ moreCreated ++ tail).Perm
      (moreLeft ++ moreReleased ++ replaced)) :
    (entered ++ moreEntered ++ (created ++ moreCreated)).Perm
      (left ++ moreLeft ++ (released ++ moreReleased) ++ dropped ++
        (front ++ replaced)) := by
  rw [← Multiset.coe_eq_coe] at balanced exchanged ⊢
  simp only [← Multiset.coe_add] at balanced exchanged ⊢
  calc (entered + moreEntered + (created + moreCreated) : Multiset FrameBinding)
      = (entered + created) + (moreEntered + moreCreated) := by abel
    _ = (left + released + dropped + front) +
          (moreEntered + moreCreated + tail) := by
        rw [balanced]
        abel
    _ = left + moreLeft + (released + moreReleased) + dropped +
          (front + replaced) := by
        rw [exchanged]
        abel

theorem exchange_operands {fixed operands replaced entered created left :
    List FrameBinding}
    (exchanged : (operands ++ entered ++ created).Perm (replaced ++ left)) :
    (entered ++ created ++ (fixed ++ operands)).Perm
      (left ++ [] ++ (fixed ++ replaced)) := by
  rw [← Multiset.coe_eq_coe] at exchanged ⊢
  simp only [← Multiset.coe_add, append_nil] at exchanged ⊢
  calc (entered + created + (fixed + operands) : Multiset FrameBinding)
      = fixed + (operands + entered + created) := by abel
    _ = left + (fixed + replaced) := by
        rw [exchanged]
        abel

theorem exchange_call {fixed kept head values originals padded locals :
    List FrameBinding} : ([] ++ (originals ++ (padded ++ locals)) ++
      (fixed ++ (kept ++ head ++ values))).Perm
      ([] ++ head ++ (fixed ++ kept ++ (originals ++ (values ++ padded) ++
        locals))) := by
  rw [← Multiset.coe_eq_coe]
  simp only [← Multiset.coe_add, nil_append]
  abel

section

variable {world : World} {front : Stack} {id : Nat} {frame : Frame}

theorem Represents.not_mem_front
    (represents : Represents world (front ++ [(id, frame)])) (base : Nat) :
    frame.windowAt world.machine.store.owner id base ∉
      windowsAt world.machine.store.owner 0 front := by
  intro member
  have named := mem_map_of_mem (f := FrameWindow.id) member
  rw [map_id_windowsAt] at named
  have distinct := represents.distinct
  rw [map_append, nodup_append] at distinct
  exact distinct.2.2 _ named id (by simp) rfl

theorem Represents.settle_frames
    (represents : Represents world (front ++ [(id, frame)])) (access : Access) :
    (world.settle (world.windowBehind front id frame) access).frames =
      windowsAt world.machine.store.owner 0 front ++ [access.window] := by
  have apart := represents.not_mem_front (cells front).length
  simp only [World.settle, represents.frames_eq, map_append]
  congr 1
  · refine (map_congr_left fun live member => ?_).trans (map_id _)
    rw [if_neg]
    · rfl
    · rintro rfl
      exact apart member
  · simp [windowsAt]

theorem World.settle_self (world : World) (window : FrameWindow) :
    world.settle window ⟨world.machine, window⟩ = world := by
  have same : (world.frames.map fun live =>
      if live = window then window else live) = world.frames := by
    refine (map_congr_left fun live _ => ?_).trans (map_id _)
    split
    · rename_i equal
      exact equal.symm
    · rfl
  simp [World.settle, same]

/-- A step that touches the newest frames only: what it takes in or makes, it
keeps, gives away or releases. -/
structure Advances (world after : World) (front tail replaced : Stack) :
    Prop where
  owner : after.machine.store.owner = world.machine.store.owner
  frames : after.frames =
    windowsAt world.machine.store.owner 0 front ++
      windowsAt world.machine.store.owner (cells front).length
        replaced
  slots : ∃ spare, after.machine.store.slots =
    cells front ++ cells replaced ++ vacant spare
  active : after.machine.store.activeEnd =
    (cells front ++ cells replaced).length
  windows : after.machine.store.windows =
    front.map Prod.fst ++ replaced.map Prod.fst
  later : world.machine.store.nextWindow ≤ after.machine.store.nextWindow
  fresh : ∀ entry ∈ replaced, entry.1 < after.machine.store.nextWindow
  distinct : (front.map Prod.fst ++ replaced.map Prod.fst).Nodup
  dropped : after.dropped = world.dropped
  exchanged : ∃ entered created left released,
    after.entered = world.entered ++ entered ∧
    after.machine.created = world.machine.created ++ created ∧
    after.left = world.left ++ left ∧
    after.machine.released = world.machine.released ++ released ∧
    (entered ++ created ++ bindings tail).Perm
      (left ++ released ++ bindings replaced)

theorem Represents.advance {tail replaced : Stack} {after : World}
    (represents : Represents world (front ++ tail))
    (advances : Advances world after front tail replaced) :
    Represents after (front ++ replaced) where
  frames := by
    rw [advances.frames, advances.owner, windowsAt_append, Nat.zero_add]
  slots := by
    rw [cells_append]
    exact advances.slots
  active := by rw [advances.active, cells_append]
  windows := by rw [advances.windows, map_append]
  fresh entry member := by
    rcases mem_append.mp member with old | new
    · exact (represents.fresh entry (mem_append_left _ old)).trans_le
        advances.later
    · exact advances.fresh entry new
  distinct := by
    rw [map_append]
    exact advances.distinct
  balanced := by
    obtain ⟨_, _, _, _, entries, creations, leavings, releases, exchanged⟩ :=
      advances.exchanged
    have balanced := represents.balanced
    rw [bindings_append] at balanced ⊢
    rw [entries, creations, leavings, releases, advances.dropped]
    exact accounts_advance balanced exchanged

structure Evolves (world : World) (stack : Stack) (command : Command)
    (result : Except Fault Reply × World) : Prop where
  changes : ∃ front tail replaced : Stack, stack = front ++ tail ∧
    (∀ window ∈ windowsAt world.machine.store.owner
      (cells front).length tail, command.window? = some window) ∧
    Represents result.2 (front ++ replaced) ∧
    result.2.machine.store.owner = world.machine.store.owner
  safe : ∀ message, result.1 ≠ .error (.panic message)

theorem Represents.drop (represents : Represents world stack)
    (values : List FrameBinding) : Represents (world.drop values) stack where
  frames := represents.frames
  slots := represents.slots
  active := represents.active
  windows := represents.windows
  fresh := represents.fresh
  distinct := represents.distinct
  balanced := by
    have balanced := represents.balanced
    rw [← Multiset.coe_eq_coe] at balanced ⊢
    simp only [World.drop, ← Multiset.coe_add] at balanced ⊢
    rw [add_right_comm, balanced]
    abel

@[simp] theorem World.drop_nil (world : World) : world.drop [] = world := by
  simp [World.drop]

theorem Represents.evolves_refused (represents : Represents world stack)
    (values : List FrameBinding) :
    Evolves world stack command
      (.error (.internal message), world.drop values) where
  changes := ⟨stack, [], [], by simp, by simp [windowsAt],
    by simpa using represents.drop values, rfl⟩
  safe := by
    intro other
    simp

theorem World.operate_refused {command : OperandCommand}
    (refuses : Fails command.perform ⟨world.machine, window⟩
      (.internal message) ⟨world.machine, window⟩) :
    world.operate window command =
      (.error (.internal message), world.drop command.argument) := by
  unfold Fails at refuses
  simp only [World.operate, refuses, World.settle_self]

theorem World.callFrom_refused
    (refuses : Fails operation ⟨world.machine, window⟩ (.internal message)
      ⟨world.machine, window⟩) :
    world.callFrom window operation = (.error (.internal message), world) := by
  unfold Fails at refuses
  simp only [World.callFrom, refuses, World.settle_self]

theorem World.callFrom_succeeds
    (runs : Succeeds operation ⟨world.machine, window⟩ callee access) :
    world.callFrom window operation = (.ok (.window callee),
      { world.settle window access with
        frames := (world.settle window access).frames ++ [callee] }) := by
  unfold Succeeds at runs
  simp only [World.callFrom, runs]

theorem Represents.distinct_next (represents : Represents world stack) :
    (stack.map Prod.fst ++ [world.machine.store.nextWindow]).Nodup := by
  refine represents.distinct.append (nodup_singleton _) ?_
  rw [disjoint_singleton]
  intro member
  obtain ⟨entry, inside, same⟩ := mem_map.mp member
  exact absurd same (represents.fresh entry inside).ne

theorem Represents.evolves_call
    (represents : Represents world (front ++ [(id, frame)]))
    (given : command.window? = some (world.windowBehind front id frame))
    (calls : Calls operation ⟨world.machine, world.windowBehind front id frame⟩
      (cells front) spare frame call originals) :
    Evolves world (front ++ [(id, frame)]) command
      (world.callFrom (world.windowBehind front id frame) operation) := by
  rcases calls with ⟨message, refuses⟩ |
    ⟨kept, head, values, outgoing, length, runs⟩
  · rw [World.callFrom_refused refuses]
    simpa using represents.evolves_refused []
  · rw [World.callFrom_succeeds runs]
    refine ⟨⟨front, [(id, frame)], [(id, outgoing.caller),
      (world.machine.store.nextWindow, calledFrame call.layout
        call.initializer (originals values) values)], rfl,
      by simp [windowsAt, given], ?_, rfl⟩, by simp⟩
    refine represents.advance {
      owner := rfl
      frames := ?_
      slots := ⟨spare - (calledFrame call.layout call.initializer
        (originals values) values).size, ?_⟩
      active := ?_
      windows := ?_
      later := Nat.le_succ _
      fresh := ?_
      distinct := ?_
      dropped := rfl
      exchanged := ⟨[], _, [], _, (append_nil _).symm, rfl,
        (append_nil _).symm, rfl, ?_⟩ }
    · rw [represents.settle_frames]
      simp [windowsAt, Machine.windowOf]
    · simp [World.settle, Machine.published, cells_cons]
    · simp [World.settle, Machine.published, cells_cons, Nat.add_assoc]
    · simp [World.settle, Machine.published, Machine.turn, represents.windows]
    · intro entry member
      rcases mem_pair.mp member with rfl | rfl
      · exact Nat.lt_succ_of_lt (represents.fresh (id, frame) (by simp))
      · exact Nat.lt_succ_self _
    · simpa using represents.distinct_next
    · simp only [bindings_cons, bindings_nil, Frame.bindings,
        Outgoing.caller, Frame.withOperands, calledFrame, padding]
      rw [outgoing.operands]
      simp only [map_append, map_replicate, map_nil, append_nil]
      exact exchange_call

theorem Represents.evolves_entered {command : StorageCommand}
    (represents : Represents world stack)
    (runs : Succeeds command.perform world.machine
      (world.machine.windowOf (cells stack) frame)
      (world.machine.entered (cells stack) frame spare created []))
    (made : (command.storage.bindings ++ created).Perm frame.bindings) :
    Evolves world stack (.enter command) (world.enter command) := by
  unfold Succeeds at runs
  simp only [World.enter, runs]
  refine ⟨⟨stack, [], [(world.machine.store.nextWindow, frame)], by simp,
    by simp [windowsAt], ?_, rfl⟩, by simp⟩
  rw [← append_nil stack] at represents
  refine represents.advance {
    owner := rfl
    frames := ?_
    slots := ⟨spare - frame.size, ?_⟩
    active := ?_
    windows := ?_
    later := Nat.le_succ _
    fresh := ?_
    distinct := ?_
    dropped := rfl
    exchanged := ⟨_, created, [], [], rfl, rfl, (append_nil _).symm, rfl, ?_⟩ }
  · simp only [represents.frames_eq, windowsAt, append_nil]
  · simp [Machine.published]
  · simp [Machine.published]
  · simp [Machine.published, Machine.turn, represents.windows]
  · intro entry member
    rw [mem_singleton.mp member]
    exact Nat.lt_succ_self _
  · simpa using represents.distinct_next
  · simpa using made

theorem Represents.evolves_abandoned {command : StorageCommand}
    (represents : Represents world stack)
    (refused : Fails command.perform world.machine (.internal message)
      (world.machine.turn world.machine.store.slots []
        (command.storage.originalArguments.map .direct ++
          command.storage.operands.map .direct ++ command.storage.parameters ++
          command.storage.locals))) :
    Evolves world stack (.enter command) (world.enter command) := by
  unfold Fails at refused
  simp only [World.enter, refused]
  refine ⟨⟨stack, [], [], by simp, by simp [windowsAt], ?_, rfl⟩,
    by simp⟩
  rw [← append_nil stack] at represents
  refine represents.advance {
    owner := rfl
    frames := represents.frames_eq
    slots := by simpa using represents.slots
    active := represents.active.trans (by simp)
    windows := represents.windows.trans (by simp)
    later := le_rfl
    fresh := by simp
    distinct := by simpa using represents.distinct
    dropped := rfl
    exchanged := ⟨_, [], [], _, rfl, rfl, (append_nil _).symm, rfl, ?_⟩ }
  · simp only [FrameStorage.bindings, bindings_nil, append_nil,
      nil_append, append_assoc]
    refine Perm.append_left _ ?_
    rw [← append_assoc]
    exact perm_append_comm

theorem Represents.evolves_enter (represents : Represents world stack)
    (command : StorageCommand) :
    Evolves world stack (.enter command) (world.enter command) := by
  obtain ⟨layout, storage, fresh, reservation⟩ := command
  obtain ⟨_, slots⟩ := represents.slots
  cases passes : frameRefusal world.machine.store layout storage fresh
      storage.originalArguments.length reservation with
  | some =>
    cases fresh with
    | some | none =>
      exact represents.evolves_abandoned
        (fails_pushFrameStorage passes).bind
  | none =>
    cases fresh with
    | some =>
      have runs := succeeds_pushFrameStorage_fresh slots represents.active
        passes
      refine represents.evolves_entered (runs.bind succeeds_pure) ?_
      obtain ⟨parameters, locals, operands⟩ :=
        (admitted_of_frameRefusal passes).clean rfl
      simp [FrameStorage.bindings, Frame.bindings, calledFrame, padding,
        parameters, locals, operands]
    | none =>
      obtain ⟨_, runs⟩ := succeeds_pushFrameStorage_owned slots
        represents.active passes
      refine represents.evolves_entered (runs.bind succeeds_pure) ?_
      simp [FrameStorage.bindings, Frame.bindings, ownedFrame]

theorem World.leave_refused {operation : Storing Exchange}
    (refuses : Fails operation world.machine (.internal message) world.machine) :
    world.leave window operation = (.error (.internal message), world) := by
  unfold Fails at refuses
  simp only [World.leave, refuses]

section

variable (represents : Represents world (front ++ [(id, frame)]))

include represents

theorem Represents.evolves_left {operation : Storing Exchange}
    {created released : List FrameBinding}
    (given : command.window? = some (world.windowBehind front id frame))
    (runs : Succeeds operation world.machine exchange
      ((world.machine.turn (cells front ++ vacant spare) created
        released).retired (cells front).length))
    (exchanged : (created ++ frame.bindings).Perm
      (exchange.left ++ released)) :
    Evolves world (front ++ [(id, frame)]) command
      (world.leave (world.windowBehind front id frame) operation) := by
  unfold Succeeds at runs
  simp only [World.leave, runs]
  refine ⟨⟨front, [(id, frame)], [], rfl, by simp [windowsAt, given], ?_,
    rfl⟩, by simp⟩
  have distinct := represents.distinct
  rw [map_append] at distinct
  refine represents.advance {
    owner := rfl
    frames := ?_
    slots := ⟨spare, ?_⟩
    active := ?_
    windows := ?_
    later := le_rfl
    fresh := by simp
    distinct := ?_
    dropped := rfl
    exchanged := ⟨[], created, exchange.left, released,
      (append_nil _).symm, rfl, rfl, rfl, ?_⟩ }
  · have apart := represents.not_mem_front (cells front).length
    have others : (windowsAt world.machine.store.owner 0 front).filter
        (· ≠ world.windowBehind front id frame) =
        windowsAt world.machine.store.owner 0 front := by
      refine filter_eq_self.mpr fun live member => ?_
      simp only [decide_eq_true_eq]
      rintro rfl
      exact apart member
    simp only [represents.frames_eq, windowsAt, filter_append, others]
    simp
  · simp [Machine.retired]
  · simp [Machine.retired]
  · simp [Machine.retired, Machine.turn, represents.windows]
  · simpa using distinct.of_append_left
  · simpa using exchanged

variable (newest : Newest ⟨world.machine, world.windowBehind front id frame⟩
  (cells front) spare frame)

include newest

theorem Represents.evolves_take (handoff : Handoff) :
    Evolves world (front ++ [(id, frame)])
      (.take (world.windowBehind front id frame) handoff)
      (world.run (.take (world.windowBehind front id frame) handoff)) := by
  rcases Decidable.em (handoff = .granted) with rfl | denied
  · refine represents.evolves_left rfl ((succeeds_takeFrame newest.current
      newest.slots).bind succeeds_pure) ?_
    simp only [FrameStorage.bindings, Frame.storage, Frame.bindings,
      map_append, map_replicate, append_assoc, append_nil]
    rw [← append_assoc, ← append_assoc (map _ frame.originals)]
    exact perm_append_comm.append_right _
  · obtain ⟨_, refused⟩ := refuses_takeFrame newest.current denied
    rw [World.run, World.leave_refused refused.bind]
    simpa using represents.evolves_refused []

theorem Represents.evolves_clear : Evolves world (front ++ [(id, frame)])
      (.clear (world.windowBehind front id frame))
      (world.run (.clear (world.windowBehind front id frame))) :=
  represents.evolves_left rfl ((succeeds_clearFrame newest.current
    newest.slots).bind succeeds_pure) (.refl _)

theorem Represents.evolves_operand (command : OperandCommand) :
    Evolves world (front ++ [(id, frame)])
      (.operand (world.windowBehind front id frame) command)
      (world.operate (world.windowBehind front id frame) command) := by
  rcases reworks_operand newest.toBorrows newest.current command with
    ⟨message, refuses⟩ | ⟨operands, room, created, exchange, runs, exchanged⟩
  · rw [World.operate_refused refuses]
    exact represents.evolves_refused _
  · unfold Succeeds at runs
    simp only [World.operate, runs]
    refine ⟨⟨front, [(id, frame)], [(id, frame.withOperands operands room)],
      rfl, by simp [windowsAt, Command.window?], ?_, rfl⟩, by simp⟩
    refine represents.advance {
      owner := rfl
      frames := represents.settle_frames _
      slots := ⟨spare, by simp [World.settle, Access.refit]⟩
      active := newest.active.trans (by simp [Frame.size, Frame.withOperands])
      windows := represents.windows.trans (by simp)
      later := le_rfl
      fresh := ?_
      distinct := by simpa using represents.distinct
      dropped := rfl
      exchanged := ⟨command.argument, created, exchange.left, [], rfl, rfl,
        rfl, rfl, ?_⟩ }
    · intro entry member
      rw [mem_singleton.mp member]
      exact represents.fresh (id, frame) (by simp)
    · simp only [bindings_singleton, Frame.bindings, Frame.withOperands]
      exact exchange_operands exchanged

end

theorem fails_perform_stale
    (stale : checkCurrent access.machine.store access.window =
      .error (.internal message)) (command : OperandCommand) :
    Fails command.perform access (.internal message) access := by
  have checked := fails_inspect stale
  have peeked (fromTop : Nat) : peek access.machine.store access.window
      fromTop = .error (.internal message) := by
    rw [peek, stale]
    rfl
  cases command with
  | push | pop | rotate | insertCopy | duplicate =>
    exact checked.bind.bind
  | peek fromTop => exact (fails_inspect (peeked fromTop)).bind
  | replace fromTop => exact (fails_inspect (peeked fromTop)).bind.bind

theorem World.run_stale (given : command.window? = some window)
    (stale : checkCurrent world.machine.store window =
      .error (.internal message)) :
    world.run command =
      (.error (.internal message), world.drop command.argument) := by
  have checked : Fails (inspect checkCurrent) ⟨world.machine, window⟩
      (.internal message) ⟨world.machine, window⟩ := fails_inspect stale
  have attempted : Fails (attempt fun machine : Machine =>
      checkCurrent machine.store window) world.machine (.internal message)
      world.machine := by
    simp [Fails, attempt, stale]
  cases command with
  | enter => cases given
  | operand _ command =>
    cases given
    exact World.operate_refused (fails_perform_stale stale command)
  | call | ordinaryCall =>
    cases given
    rw [Command.argument, World.drop_nil]
    exact World.callFrom_refused checked.bind
  | take | clear =>
    cases given
    rw [Command.argument, World.drop_nil]
    exact World.leave_refused attempted.bind.bind

theorem Represents.evolves (represents : Represents world stack)
    (genuine : world.Genuine command) :
    Evolves world stack command (world.run command) := by
  cases given : command.window? with
  | none =>
    cases command with
    | enter command => exact represents.evolves_enter command
    | operand | call | ordinaryCall | take | clear => cases given
  | some window =>
    rcases represents.newest_or_stale genuine given with
      ⟨front, id, frame, spare, rfl, rfl, newest⟩ | ⟨message, stale⟩
    · cases command with
      | enter => cases given
      | operand _ command =>
        cases given
        exact represents.evolves_operand newest command
      | call _ call =>
        cases given
        exact represents.evolves_call rfl (calls_perform newest call)
      | ordinaryCall _ call observesArguments =>
        cases given
        exact represents.evolves_call rfl
          (calls_performOrdinary newest call observesArguments)
      | take _ handoff =>
        cases given
        exact represents.evolves_take newest handoff
      | clear =>
        cases given
        exact represents.evolves_clear newest
    · rw [World.run_stale given stale]
      exact represents.evolves_refused _

end

end QuickJsOxide.Frames
