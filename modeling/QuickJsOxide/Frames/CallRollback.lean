import QuickJsOxide.Frames.Discipline

namespace QuickJsOxide.Frames

open Library
open List hiding modify

/-! A call frame when the heap may refuse to retain an owner. What was staged
in the unpublished window is then released again. -/

/-- The first index below a bound at which something is refused. -/
def firstRefusal (refuses : Nat → Option String) : Nat → Option (Nat × String)
  | 0 => none
  | count + 1 =>
    (firstRefusal refuses count).or ((refuses count).map (count, ·))

section

variable {count : Nat}

theorem firstRefusal_eq_none :
    firstRefusal refuses count = none ↔
      ∀ index < count, refuses index = none := by
  induction count with
  | zero => simp [firstRefusal]
  | succ count ih =>
    simp only [firstRefusal, Option.or_eq_none_iff, ih, Option.map_eq_none_iff,
      Nat.forall_lt_succ_right]

theorem firstRefusal_eq_some
    (found : firstRefusal refuses count = some (index, message)) :
    index < count ∧ refuses index = some message ∧
      ∀ earlier < index, refuses earlier = none := by
  induction count with
  | zero => cases found
  | succ count ih =>
    rcases Option.or_eq_some_iff.mp found with before | ⟨granted, here⟩
    · obtain ⟨inside, rest⟩ := ih before
      exact ⟨Nat.lt_succ_of_lt inside, rest⟩
    · obtain ⟨_, refused, ⟨⟩⟩ := Option.map_eq_some_iff.mp here
      exact ⟨Nat.lt_succ_self _, refused, firstRefusal_eq_none.mp granted⟩

end

/-- The first retain of a call that is refused. -/
def Retains.refusal (retains : Retains) (call : CallCommand) :
    Option (RetainPoint × String) :=
  ((firstRefusal (fun index => retains (.argument index)) call.count).map
    fun (index, message) => (.argument index, message)).or
  ((firstRefusal (retains.local call.initializer)
    call.layout.locals.length).map
    fun (index, message) => (.localBinding index, message))

variable {retains : Retains} {call : CallCommand}

theorem Retains.grants_of_refusal (granted : retains.refusal call = none) :
    retains.Grants call.layout call.initializer call.count := by
  obtain ⟨arguments, locals⟩ := Option.or_eq_none_iff.mp granted
  exact ⟨firstRefusal_eq_none.mp (Option.map_eq_none_iff.mp arguments),
    firstRefusal_eq_none.mp (Option.map_eq_none_iff.mp locals)⟩

/-- How many slots behind the originals the rollback clears. From a refused
local it counts the arguments twice. -/
def CallCommand.rollbackLength (call : CallCommand) : RetainPoint → Nat
  | .argument index => index
  | .localBinding index =>
    call.count + call.layout.argumentSlots call.count + index

def CallCommand.windowEnd (call : CallCommand) (store : SlotStore) : Nat :=
  store.activeEnd + call.count + call.layout.argumentSlots call.count +
    call.layout.locals.length + call.layout.operandCapacity

/-- The rollback from the first refusal ends inside the slot vector. -/
def CallCommand.RollsBackInside (call : CallCommand) (retains : Retains)
    (store : SlotStore) : Prop :=
  ∀ point message, retains.refusal call = some (point, message) →
    store.activeEnd + call.count + call.rollbackLength point ≤
      (growSlots (call.windowEnd store) store.slots).length

/-! The rollback either gives back what was staged or leaves the vector. -/

section

theorem fails_refuse_empty :
    Fails (refuse .empty message : Storing α) machine (.internal message)
      machine := by
  have refused : Fails (refuse .empty message : Storing α) machine
      (.internal message) (machine.turn machine.store.slots [] []) :=
    fails_refuse message
  rwa [machine.turn_self] at refused

variable {machine : Machine} {below : Slots}

/-- The rollback releases the staged bindings and runs on over empty slots. -/
theorem fails_rollback (staged : List FrameBinding) {start count : Nat}
    (slots : machine.store.slots = below ++ staged.map some ++ vacant free)
    (begins : start = below.length) (covers : staged.length ≤ count)
    (inside : count ≤ staged.length + free) :
    Fails (do
      clearUnpublished start count
      refuse .empty message : Storing α) machine (.internal message)
      (machine.turn (below ++ vacant (staged.length + free)) [] staged) := by
  obtain ⟨past, rfl⟩ := Nat.exists_eq_add_of_le covers
  obtain ⟨rest, rfl⟩ : ∃ rest, free = past + rest :=
    Nat.exists_eq_add_of_le (by omega)
  have cleared := rewrites_releaseSlots (staged.map some ++ vacant past) start
  have owners : (staged.map some ++ vacant past).reduceOption = staged := by
    rw [reduceOption_append, reduceOption_vacant, append_nil]
    simp [reduceOption]
  rw [length_append, length_map, length_vacant, owners] at cleared
  have split : machine.store.slots = below ++
      (staged.map some ++ vacant past) ++ vacant rest := by
    rw [slots, vacant_add]
    simp only [append_assoc]
  rw [← Nat.add_assoc, vacant_add, ← append_assoc]
  exact (cleared.runs machine below _ split begins).fails fails_refuse_empty

theorem fails_releaseSlots (slots : Slots) :
    ∀ (machine : Machine) (below : Slots)
      (start count : Nat), machine.store.slots = below ++ slots →
      start = below.length → slots.length < count →
      ∃ after, Fails (releaseSlots start count) machine slotOutOfBounds
        after := by
  induction slots with
  | nil =>
    intro machine below start count split begins long
    obtain ⟨count, rfl⟩ := Nat.exists_eq_add_of_lt long
    have missing : readSlot machine.store.slots start =
        .error slotOutOfBounds := by
      rw [readSlot, split, begins]
      simp
    have read : Fails (attempt fun machine : Machine =>
        readSlot machine.store.slots start) machine slotOutOfBounds machine :=
      fails_attempt missing
    rw [length_nil, Nat.zero_add]
    exact ⟨machine, read.bind.bind⟩
  | cons slot slots ih =>
    intro machine below start count split begins long
    obtain ⟨count, rfl⟩ : ∃ fewer, count = fewer + 1 :=
      ⟨count - 1, by simp at long; omega⟩
    have rest (released : List FrameBinding) := ih (machine.turn
        (below ++ none :: slots) [] released) (below ++ [none]) (start + 1)
      count (by simp) (by simp [begins]) (by simpa using long)
    have taken := succeeds_takeSlot split begins
    cases slot with
    | none =>
      obtain ⟨after, fails⟩ := rest []
      exact ⟨after, taken.fails (succeeds_pure.fails fails)⟩
    | some binding =>
      obtain ⟨after, fails⟩ := rest [binding]
      refine ⟨after, taken.fails
        ((succeeds_releaseBinding binding).fails ?_)⟩
      simpa using fails

end

section

variable {access : Access} {head values : List JsValue} {after : Machine}

/-- What a call stages before it moves an owner of the caller. -/
def stageCall (call : CallCommand) (retains : Retains)
    (start originalEnd : Nat) : Storing Unit := do
  copyArguments retains .empty (some start) originalEnd 0 call.count
  let parameters := call.layout.argumentSlots call.count
  fillUndefined (originalEnd + call.count) (parameters - call.count)
  initializeLocals call.initializer (originalEnd + parameters)
    (rollbackLocals retains .empty call.initializer originalEnd call.count
      parameters) 0 call.layout.locals

theorem fails_pushCallFrame (newest : Newest access lower spare parent)
    (outgoing : Outgoing parent call.method kept head values)
    (count : values.length = call.count)
    (passes : frameRefusal access.machine.store call.layout .empty
      (some call.initializer) call.count call.reservation = none)
    (staging : Fails (stageCall call retains (lower ++ parent.fixed ++
      held kept ++ held head).length (access.machine.store.activeEnd +
      call.count)) (access.machine.turn (growSlots
        (call.windowEnd access.machine.store) access.machine.store.slots)
      [] []) error after) :
    Fails (call.performRetaining retains) access error
      ⟨after, access.window⟩ := by
  obtain ⟨layout, _, method, initializer, reservation⟩ := call
  subst count
  dsimp only at outgoing
  have depth := outgoing.depth
  refine (succeeds_inspect newest.current).fails (succeeds_get.fails ?_)
  simp only [if_neg (outgoing.enough newest.toBorrows)]
  refine (succeeds_inspect
    (peekAll_inside newest.toBorrows _ 0 (by omega))).fails (Fails.bind ?_)
  have pushed : Fails (pushFrameStorage retains layout .empty
      (some initializer) (some (access.window, values.length, method))
      reservation) access.machine error after := by
    refine succeeds_get.fails ?_
    simp only [passes, Option.map_some, outgoing.start newest.toBorrows]
    refine (succeeds_modify _).fails ?_
    simp only [Machine.turn, append_nil] at staging
    have staged (next : Unit → Storing (FrameWindow × Option FrameWindow)) :
        Fails (_ >>= next) _ error after := staging.bind
    simp only [stageCall, bind_assoc] at staged ⊢
    exact staged fun _ => _
  unfold Fails at pushed ⊢
  simp [onMachine, pushed]

/-- The operation is refused behind some staged bindings, and fails as the
rollback of `extent` slots does. -/
def FailsStaged (operation : Storing Unit) (machine : Machine) (front : Slots)
    (free originalEnd extent : Nat) (message : String) : Prop :=
  ∃ staged rest, staged.length + rest = free ∧ staged.length ≤ extent ∧
    ∀ error after, Fails (do
        clearUnpublished originalEnd extent
        refuse .empty message : Storing Unit)
      (machine.turn (front ++ staged.map some ++ vacant rest) staged []) error
      after → Fails operation machine error after

section

variable {machine : Machine}
  (outgoing : Outgoing parent method kept head values)
  (count : values.length = call.count)
  (slots : machine.store.slots = lower ++ parent.cells ++ vacant call.count ++
    vacant free)
  (room : call.layout.argumentSlots call.count + call.layout.locals.length ≤
    free)
  (begins : originalEnd = (lower ++ parent.cells).length + call.count)
  (starts : source = (lower ++ parent.fixed ++ held kept ++ held head).length)

include outgoing count slots room begins starts

theorem Outgoing.refused_argument (inside : index < call.count)
    (refuses : retains (.argument index) = some message)
    (earlier : ∀ before < index, retains (.argument before) = none) :
    FailsStaged (stageCall call retains source originalEnd) machine
      (lower ++ parent.cells ++ vacant call.count) free originalEnd index
      message := by
  subst begins starts
  obtain ⟨layout, _, _, initializer, _⟩ := call
  subst count
  dsimp only at slots room inside
  have within : values.length ≤ layout.argumentSlots values.length :=
    Nat.le_max_left ..
  obtain ⟨rest, rfl⟩ : ∃ rest, free = index + rest :=
    Nat.exists_eq_add_of_le (by omega)
  refine ⟨(values.map .direct).take index, rest, ?_, length_take_le ..,
    fun error after undone => Fails.bind ?_⟩
  · rw [length_take, length_map]
    omega
  · refine (outgoing.stages_copyArguments lower retains).fails (vacant rest)
      (by simpa using inside) (by simpa [rollbackArguments] using earlier)
      (by rw [rollbackArguments, refuses]; rfl)
      (show _ = _ ++ vacant index ++ _ from ?_) (length_vacant _) undone
    rw [slots, vacant_add, append_assoc _ (vacant index)]

theorem Outgoing.refused_local
    (granted : ∀ index < call.count, retains (.argument index) = none)
    (inside : index < call.layout.locals.length)
    (refuses : retains.local call.initializer index = some message)
    (earlier : ∀ before < index,
      retains.local call.initializer before = none) :
    FailsStaged (stageCall call retains source originalEnd) machine
      (lower ++ parent.cells ++ vacant call.count) free originalEnd
      (call.rollbackLength (.localBinding index)) message := by
  subst begins starts
  obtain ⟨layout, _, _, initializer, _⟩ := call
  subst count
  dsimp only at slots room granted inside refuses earlier ⊢
  obtain ⟨padding, padded⟩ := Nat.exists_eq_add_of_le
    (show values.length ≤ layout.argumentSlots values.length from
      Nat.le_max_left ..)
  obtain ⟨rest, rfl⟩ : ∃ rest, free = values.length + (padding +
      (index + rest)) :=
    ⟨free - layout.argumentSlots values.length - index, by omega⟩
  refine ⟨values.map .direct ++ replicate padding (.direct .undefined) ++
    (initialBindings initializer layout.locals).take index, rest, ?_, ?_,
    fun error after undone => ?_⟩
  · simp [Nat.add_assoc, inside.le]
  · simp only [length_append, length_map, length_replicate, length_take,
      length_initialBindings, CallCommand.rollbackLength]
    omega
  · refine ((outgoing.stages_copyArguments lower retains).succeeds
      (vacant (padding + (index + rest)))
      (by simpa [rollbackArguments] using granted)
      (show _ = _ ++ vacant values.length ++ _ by simp [slots, vacant_add])
      (by simp)).fails ?_
    dsimp only
    rw [padded, Nat.add_sub_cancel_left, vacant_add padding]
    refine ((rewrites_fillUndefined padding _ (vacant padding)
      (by simp)).runs _ _ (vacant (index + rest)) (append_assoc ..).symm
      (by simp [Nat.add_assoc])).fails ?_
    refine (stages_initializeLocals initializer _ layout.locals (lower ++
        parent.cells ++ vacant values.length ++
        (values.map FrameBinding.direct).map some ++
        held (replicate padding .undefined)) ?_).fails (vacant rest)
      (by simpa using inside) (by simpa [rollbackLocals] using earlier)
      (by rw [rollbackLocals, refuses]; rfl)
      (show _ = _ ++ vacant index ++ _ by simp [vacant_add])
      (length_vacant _) ?_
    · simp [Nat.add_assoc]
    · simpa [held, CallCommand.rollbackLength, padded] using undone

theorem Outgoing.failsStaged
    (refused : retains.refusal call = some (point, message)) :
    FailsStaged (stageCall call retains source originalEnd) machine
      (lower ++ parent.cells ++ vacant call.count) free originalEnd
      (call.rollbackLength point) message := by
  rcases Option.or_eq_some_iff.mp refused with arguments | ⟨granted, locals⟩
  · obtain ⟨_, found, ⟨⟩⟩ := Option.map_eq_some_iff.mp arguments
    obtain ⟨inside, refuses, earlier⟩ := firstRefusal_eq_some found
    exact outgoing.refused_argument count slots room begins starts inside
      refuses earlier
  · obtain ⟨_, found, ⟨⟩⟩ := Option.map_eq_some_iff.mp locals
    obtain ⟨inside, refuses, earlier⟩ := firstRefusal_eq_some found
    exact outgoing.refused_local count slots room begins starts
      (firstRefusal_eq_none.mp (Option.map_eq_none_iff.mp granted)) inside
      refuses earlier

end

theorem Newest.grows (newest : Newest access lower spare parent)
    (count more : Nat) : ∃ free, more ≤ free ∧
      growSlots (access.machine.store.activeEnd + count + more)
        access.machine.store.slots =
          lower ++ parent.cells ++ vacant count ++ vacant free := by
  refine ⟨more + (spare - (count + more)), Nat.le_add_right .., ?_⟩
  rw [newest.active, Nat.add_assoc, newest.slots, growSlots_eq,
    append_assoc _ (vacant (count + more)), append_assoc _ (vacant count),
    ← vacant_add, ← vacant_add, Nat.add_assoc]

theorem fails_performRetaining (newest : Newest access lower spare parent)
    (enough : call.count + 1 + methodSlots call.method ≤ access.window.depth)
    (passes : frameRefusal access.machine.store call.layout .empty
      (some call.initializer) call.count call.reservation = none)
    (refused : retains.refusal call = some (point, message)) :
    if access.machine.store.activeEnd + call.count +
        call.rollbackLength point ≤ (growSlots
          (call.windowEnd access.machine.store)
          access.machine.store.slots).length then
      ∃ staged free, Fails (call.performRetaining retains) access
        (.internal message) ⟨access.machine.turn (lower ++ parent.cells ++
          vacant free) staged staged, access.window⟩
    else
      ∃ after, Fails (call.performRetaining retains) access slotOutOfBounds
        after := by
  rw [newest.depth] at enough
  obtain ⟨kept, head, values, outgoing, count⟩ := Outgoing.exists_of_le enough
  obtain ⟨free, room, grown⟩ := newest.grows call.count
    (call.layout.argumentSlots call.count + call.layout.locals.length +
      call.layout.operandCapacity)
  rw [← Nat.add_assoc, ← Nat.add_assoc] at grown
  have begins : access.machine.store.activeEnd + call.count =
      (lower ++ parent.cells ++ vacant call.count).length := by
    simp [newest.active, Nat.add_assoc]
  obtain ⟨staged, rest, rfl, covers, fails⟩ := outgoing.failsStaged count
    (access.machine.turn_slots (lower ++ parent.cells ++ vacant call.count ++
      vacant free) [] []) (by omega) (congrArg (· + call.count) newest.active)
    rfl refused
  have enters : ∀ error after, _ → Fails (call.performRetaining retains) access
      error ⟨after, access.window⟩ := fun error after undone =>
    fails_pushCallFrame newest outgoing count passes (by
      rw [CallCommand.windowEnd, grown]
      exact fails error after undone)
  rw [Machine.turn_turn, nil_append, nil_append] at enters
  rw [CallCommand.windowEnd, grown, length_append, ← begins, length_vacant]
  generalize call.rollbackLength point = extent at covers enters ⊢
  split
  · rename_i inside
    refine ⟨staged, call.count + (staged.length + rest), ?_⟩
    have undone := enters _ _ (fails_rollback staged rfl begins covers
      (by omega))
    simpa [vacant_add] using undone
  · rename_i outside
    obtain ⟨after, panics⟩ := fails_releaseSlots _ (access.machine.turn (lower ++
      parent.cells ++ vacant call.count ++ staged.map some ++ vacant rest)
      staged []) _ _ extent (append_assoc ..) begins (by simp; omega)
    exact ⟨_, enters _ after panics.bind⟩

end

/-- The store, the caller and the counts are as before; the slot vector may
have grown, but holds nothing above the active windows. -/
structure Unchanged (before after : Access) : Prop where
  window : after.window = before.window
  store : { after.machine.store with slots := before.machine.store.slots } =
    before.machine.store
  slots : ∃ free, after.machine.store.slots =
    before.machine.store.slots.take before.machine.store.activeEnd ++
      vacant free
  counts : ∃ staged,
    after.machine.created = before.machine.created ++ staged ∧
      after.machine.released = before.machine.released ++ staged

theorem Represents.newest (represents : Represents world stack)
    (last : world.frames.getLast? = some parent) :
    ∃ lower spare frame, Newest ⟨world.machine, parent⟩ lower spare frame := by
  rcases eq_nil_or_concat' stack with rfl | ⟨front, ⟨id, frame⟩, rfl⟩
  · rw [represents.frames] at last
    cases last
  · rw [represents.frames_eq] at last
    obtain rfl : world.windowBehind front id frame = parent := by
      simpa [Stack.windowsAt] using last
    obtain ⟨spare, slots⟩ := represents.slots
    have active := represents.active
    rw [Stack.cells_append, Stack.cells_singleton] at slots active
    refine ⟨_, spare, frame, ⟨slots, rfl⟩, if_pos ⟨rfl, ?_, ?_⟩, active⟩
    · rw [represents.windows]
      simp
    · rw [active, length_append, Frame.length_cells]
      rfl

/-- The call enters its frame, or the first retain that fails is its error and
nothing else has happened. -/
def CallCommand.Transacts (call : CallCommand) (retains : Retains)
    (access : Access) : Prop :=
  match retains.refusal call with
  | none => ∃ window after,
    call.performRetaining retains access = .ok window after
  | some (_, message) => ∃ after,
    call.performRetaining retains access = .error (.internal message) after ∧
      Unchanged access after

/-- An admitted call is transactional exactly if its rollback stays inside the
slot vector; otherwise it panics. -/
theorem pushCallFrame_transactional {owner limit : Nat} {world : World}
    (reachable : (programs owner limit).Reachable World.Genuine world)
    {parent : FrameWindow} (last : world.frames.getLast? = some parent)
    (call : CallCommand) (retains : Retains)
    (enough : call.count + 1 + methodSlots call.method ≤ parent.depth)
    (admitted : frameRefusal world.machine.store call.layout .empty
      (some call.initializer) call.count call.reservation = none) :
    (call.Transacts retains ⟨world.machine, parent⟩ ↔
      call.RollsBackInside retains world.machine.store) ∧
    (¬ call.RollsBackInside retains world.machine.store →
      ∃ after, call.performRetaining retains ⟨world.machine, parent⟩ =
        .error (.panic "index out of bounds") after) := by
  obtain ⟨_, represents⟩ := represents_reachable reachable
  obtain ⟨lower, _, frame, newest⟩ := represents.newest last
  unfold CallCommand.Transacts CallCommand.RollsBackInside
  cases refusal : retains.refusal call with
  | none =>
    rw [show parent.depth = _ from newest.depth] at enough
    obtain ⟨_, _, _, outgoing, count⟩ := Outgoing.exists_of_le enough
    have grants := Retains.grants_of_refusal refusal
    rw [← count] at admitted grants
    have entered := succeeds_pushCallFrame newest outgoing admitted grants
    rw [count] at entered
    simpa using ⟨_, _, entered⟩
  | some refused =>
    obtain ⟨point, message⟩ := refused
    have outcome := fails_performRetaining newest enough admitted refusal
    split at outcome
    · rename_i inside
      obtain ⟨staged, free, fails⟩ := outcome
      have unchanged : Unchanged ⟨world.machine, parent⟩ ⟨world.machine.turn
          (lower ++ frame.cells ++ vacant free) staged staged, parent⟩ := by
        refine ⟨rfl, rfl, ⟨free, ?_⟩, staged, rfl, rfl⟩
        rw [newest.slots, newest.active, take_left]
        rfl
      refine ⟨⟨?_, fun _ => ⟨_, fails, unchanged⟩⟩, ?_⟩
      · rintro - _ _ ⟨⟩
        exact inside
      · intro outside
        refine absurd ?_ outside
        rintro _ _ ⟨⟩
        exact inside
    · rename_i outside
      obtain ⟨after, fails⟩ := outcome
      refine ⟨⟨?_, fun inside => absurd (inside _ _ rfl) outside⟩,
        fun _ => ⟨after, fails⟩⟩
      rintro ⟨_, other, -⟩
      cases fails.symm.trans other

def callerWindow : FrameWindow := ⟨0, 7, 1, 0, 0, 0, 0, 3, 3⟩

def callerWorld : World :=
  ((⟨⟨.new 7 64, [], []⟩, [], [], [], []⟩ : World).run (.enter ⟨⟨0, [], 3⟩,
    ⟨[], [], [], [.object ⟨0, 0⟩, .int 5, .int 6]⟩, none, ⟨true, true⟩⟩)).2

def namedCall (count : Nat) : CallCommand :=
  ⟨⟨0, [⟨false⟩], 0⟩, count, false, ⟨⟨0, 0⟩, some 0⟩, ⟨true, true⟩⟩

def refusesCallee : Retains
  | .argument _ => none
  | .localBinding _ => some "reference count overflow"

theorem reachable_callerWorld :
    (programs 7 64).Reachable World.Genuine callerWorld := by
  refine .step _ _ _ (.initial _ rfl) (fun window given => ?_) rfl
  cases given

theorem pushCallFrame_transactional_namedCall :
    (namedCall 1).RollsBackInside refusesCallee callerWorld.machine.store ∧
    (namedCall 1).Transacts refusesCallee
      ⟨callerWorld.machine, callerWindow⟩ := by
  have inside : (namedCall 1).RollsBackInside refusesCallee
      callerWorld.machine.store := by
    rintro _ _ ⟨⟩
    decide
  exact ⟨inside, (pushCallFrame_transactional reachable_callerWorld
    (show _ = some callerWindow from rfl) (namedCall 1) refusesCallee
    (by decide) (by decide)).1.mpr inside⟩

/-- With two arguments the rollback runs past the end of the slot vector. -/
theorem rollback_panics : (programs 7 64).Reachable World.Genuine callerWorld ∧
    callerWorld.frames.getLast? = some callerWindow ∧
    frameRefusal callerWorld.machine.store (namedCall 2).layout .empty
      (some (namedCall 2).initializer) 2 (namedCall 2).reservation = none ∧
    ∃ after, (namedCall 2).performRetaining refusesCallee
      ⟨callerWorld.machine, callerWindow⟩ =
        .error (.panic "index out of bounds") after :=
  ⟨reachable_callerWorld, rfl, by decide, _, rfl⟩

end QuickJsOxide.Frames
