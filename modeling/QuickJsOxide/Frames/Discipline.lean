import QuickJsOxide.Frames.Runs

namespace QuickJsOxide.Frames

open Library List Stack

/-! The discipline of frame windows: what holds in every state a program over
one slot store reaches, and what every next command then does. -/

def area (slots : Slots) (start stop : Nat) : Slots :=
  (slots.drop start).take (stop - start)

def World.slots (world : World) : Slots :=
  world.machine.store.slots

def outgoingArguments (world : World) (parent : FrameWindow) (count : Nat) :
    Slots :=
  area world.slots (parent.localsEnd + parent.depth - count)
    (parent.localsEnd + parent.depth)

structure Transfers (before after : World) (parent callee : FrameWindow)
    (call : CallCommand) (originals : Slots) : Prop where
  enough : call.count + 1 + methodSlots call.method ≤ parent.depth
  frames : after.frames = before.frames.dropLast ++ [{ parent with
    depth := parent.depth - (call.count + 1 + methodSlots call.method) },
    callee]
  kept : area after.slots parent.base (parent.localsEnd +
      (parent.depth - (call.count + 1 + methodSlots call.method))) =
    area before.slots parent.base (parent.localsEnd +
      (parent.depth - (call.count + 1 + methodSlots call.method)))
  originals : area after.slots callee.base callee.originalEnd = originals
  parameters : area after.slots callee.originalEnd callee.parametersEnd =
    outgoingArguments before parent call.count ++ replicate
      (call.layout.argumentSlots call.count - call.count)
      (some (.direct .undefined))
  released : after.machine.released = before.machine.released ++
    (area before.slots (parent.localsEnd +
        (parent.depth - (call.count + 1 + methodSlots call.method)))
      (parent.localsEnd + parent.depth - call.count)).reduceOption

theorem area_at (below middle above : Slots)
    (split : slots = below ++ middle ++ above) (begins : start = below.length)
    (ends : stop = below.length + middle.length) :
    area slots start stop = middle := by
  subst split begins ends
  simp [area]

section

variable {world : World}

variable {command : Command}

theorem Represents.rejected (represents : Represents world stack)
    (genuine : world.Genuine command) (given : command.window? = some window)
    (outdated : world.frames.getLast? ≠ some window) :
    ∃ message, world.run command =
      (.error (.internal message), world.drop command.argument) := by
  rcases represents.newest_or_stale genuine given with
    ⟨front, id, frame, -, rfl, rfl, -⟩ | ⟨message, stale⟩
  · refine absurd ?_ outdated
    rw [represents.frames_eq]
    simp [windowsAt]
  · exact ⟨message, World.run_stale given stale⟩

section

variable {after : World} {lower : Slots} {parent : Frame}
  {id : Nat} {call : CallCommand}
  {head values : List JsValue}

theorem Outgoing.localsEnd_add (parent : Frame)
    (lower : Slots) (owner id depth : Nat) :
    (parent.windowAt owner id lower.length).localsEnd + depth =
      (lower ++ parent.fixed).length + depth := by
  simp only [Frame.windowAt, length_append, Frame.length_fixed]
  omega

section

variable (outgoing : Outgoing parent call.method kept head values)
  (length : values.length = call.count)
  (before : world.slots = lower ++ parent.cells ++ vacant spare)

include outgoing length before

theorem Outgoing.arguments :
    outgoingArguments world (parent.windowAt owner id lower.length)
      call.count = held values := by
  have depth := outgoing.depth
  rw [outgoing.cells, append_assoc] at before
  refine area_at _ _ _ before ?_ ?_
  all_goals
    rw [Frame.windowAt_depth, localsEnd_add]
    simp only [length_append, length_held, outgoing.callee]
    omega

theorem Outgoing.transfers
    (slots : after.slots = lower ++ outgoing.caller.cells ++
      (calledFrame call.layout call.initializer originals values).cells ++
      vacant rest)
    (frames : after.frames = world.frames.dropLast ++
      [outgoing.caller.windowAt owner id lower.length,
        (calledFrame call.layout call.initializer originals values).windowAt
          owner fresh (lower ++ outgoing.caller.cells).length])
    (released : after.machine.released =
      world.machine.released ++ head.map .direct) :
    Transfers world after (parent.windowAt owner id lower.length)
      ((calledFrame call.layout call.initializer originals values).windowAt
        owner fresh (lower ++ outgoing.caller.cells).length) call
      (held originals) := by
  have depth := outgoing.depth
  have fits : values.length ≤ call.layout.argumentSlots values.length :=
    Nat.le_max_left ..
  have remaining : parent.operands.length -
      (call.count + 1 + methodSlots call.method) = kept.length := by
    omega
  have stop : (lower ++ parent.fixed).length + kept.length =
      lower.length + (parent.fixed ++ held kept).length := by
    simp only [length_append, length_held]
    omega
  have cells := outgoing.cells lower
  have caller : outgoing.caller.cells = parent.fixed ++ held kept ++
      vacant (parent.capacity - kept.length) := rfl
  refine ⟨?_, ?_, ?_, ?_, ?_, ?_⟩
  · rw [Frame.windowAt_depth]
    omega
  · rw [frames, Frame.windowAt_depth, remaining]
    rfl
  · rw [Frame.windowAt_depth, remaining, localsEnd_add, Frame.windowAt_base,
      area_at lower (parent.fixed ++ held kept) _
        (by rw [slots, caller]; simp; rfl) rfl stop,
      area_at lower (parent.fixed ++ held kept) _
        (by rw [before, cells]; simp; rfl) rfl stop]
  · rw [cells_calledFrame] at slots
    rw [windowAt_calledFrame]
    exact area_at _ _ _ (by rw [slots]; simp; rfl) rfl (by simp)
  · rw [outgoing.arguments length before, windowAt_calledFrame]
    rw [cells_calledFrame] at slots
    refine area_at (lower ++ outgoing.caller.cells ++ held originals)
      (held values ++ replicate
        (call.layout.argumentSlots call.count - call.count)
        (some (.direct .undefined)))
      ((initialBindings call.initializer call.layout.locals).map some ++
        vacant call.layout.operandCapacity ++ vacant rest) ?_ ?_ ?_
    · rw [slots, length]
      simp [held]
    · simp [Nat.add_assoc]
    · rw [← length]
      simp only [length_append, length_held, length_replicate]
      omega
  · have start : (parent.windowAt owner id lower.length).localsEnd +
        parent.operands.length - call.count =
        (lower ++ parent.fixed ++ held kept).length +
          (held head).length := by
      rw [localsEnd_add]
      simp only [length_append, length_held, outgoing.callee]
      omega
    rw [cells, append_assoc, append_assoc _ (held values)] at before
    rw [released, Frame.windowAt_depth, remaining, start, localsEnd_add,
      area_at _ _ _ before (by simp [Nat.add_assoc]) rfl, reduceOption_held]

end

end

theorem Represents.transferred {id spare : Nat}
    (represents : Represents world (front ++ [(id, frame)]))
    (slots : world.slots = cells front ++ frame.cells ++ vacant spare)
    (calls : Calls operation ⟨world.machine, world.windowBehind front id frame⟩
      (cells front) spare frame call originals)
    (returned : (world.callFrom (world.windowBehind front id frame)
      operation).1 = .ok (.window callee)) :
    ∃ values, outgoingArguments world (world.windowBehind front id frame)
        call.count = held values ∧
      Transfers world (world.callFrom (world.windowBehind front id frame)
          operation).2 (world.windowBehind front id frame) callee call
        (held (originals values)) := by
  rcases calls with ⟨message, refuses⟩ |
    ⟨kept, head, values, outgoing, length, runs⟩
  · rw [World.callFrom_refused refuses] at returned
    cases returned
  · rw [World.callFrom_succeeds runs] at returned ⊢
    cases returned
    refine ⟨values, outgoing.arguments length slots,
      outgoing.transfers length slots rfl ?_ rfl⟩
    rw [represents.settle_frames, represents.frames_eq]
    simp [windowsAt, Machine.windowOf]

end

theorem represents_initial (owner limit : Nat) :
    Represents ⟨⟨.new owner limit, [], []⟩, [], [], [], []⟩ [] where
  frames := rfl
  slots := ⟨0, rfl⟩
  active := rfl
  windows := rfl
  fresh := by simp
  distinct := nodup_nil
  balanced := .refl _

theorem represents_reachable
    (reachable : (programs owner limit).Reachable World.Genuine world) :
    ∃ stack, Represents world stack := by
  refine reachable.invariant (fun world => ∃ stack, Represents world stack) ?_ ?_
  · rintro _ rfl
    exact ⟨[], represents_initial owner limit⟩
  · rintro before command after ⟨stack, represents⟩ genuine rfl
    obtain ⟨_, _, _, -, -, evolved, -⟩ :=
      (represents.evolves genuine).changes
    exact ⟨_, evolved⟩

variable {world : World} {command : Command}

end QuickJsOxide.Frames
