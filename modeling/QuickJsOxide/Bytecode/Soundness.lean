import QuickJsOxide.Bytecode.Arms

namespace QuickJsOxide.Bytecode

open Library List VerificationState

/-! Verified code runs safely as long as no iterator result is taken from a
return address. -/

variable {code : List Instruction}

def Tracks (code : List Instruction)
    (recorded : Nat → VerificationState → Prop) (machine : Machine) : Prop :=
  ∃ state, recorded machine.pc state ∧ state.WellLayered ∧
    Describes code recorded state machine

variable {machine : Machine}

theorem Describes.values (describes : Describes code recorded state machine)
    (count pc : Nat) (cut : state.Cut floor) : Describes code recorded
      ⟨floor + count, (state.below floor).regions,
        (state.below floor).returnAddresses, (state.below floor).superCallBases⟩
      ⟨pc, machine.stack.take floor ++ replicate count .value,
        (state.below floor).regions⟩ := by
  have moved := describes.move (Move.values floor count cut) pc nofun nofun
  rw [Move.values_next] at moved
  exact moved

theorem tracks_of_unwind {machine after : Machine} (layered : state.WellLayered)
    (describes : Describes code recorded state machine)
    (unwound : unwind machine.stack state.regions = some after) :
    Tracks code recorded after := by
  generalize hregions : state.regions = regions at unwound
  induction regions generalizing state machine with
  | nil => cases unwound
  | cons region _ ih =>
    have cut := layered.cut_base hregions
    have outside := layered.regions_below_base hregions
    cases region with
    | catch_ target markerDepth =>
      cases unwound
      have here := mem_regions_head hregions
      have positive : 1 ≤ markerDepth := layered.regionsFormed _ here
      have handled := describes.handlers target markerDepth here
      have described := describes.values 1 target.toNat cut
      rw [outside] at described
      have depth : (UnwindRegionState.catch_ target markerDepth).base + 1 =
          markerDepth := Nat.sub_add_cancel positive
      rw [depth, ← outside] at described
      refine ⟨_, handled, ?_, ?_⟩
      · exact (layered.below (markerDepth - 1)).deepen (Nat.sub_le _ _)
      · rw [← outside]
        exact described
    | iterator recordBase =>
      have described := describes.values 0 machine.pc cut
      rw [replicate_zero, append_nil] at described
      exact ih (layered.below recordBase) described outside unwound

variable {instruction : Instruction} {state next : VerificationState}

theorem tracks_continue {machine after : Machine} (successors : ∀ successor ∈
      instruction.controlEffect.successors machine.pc state next,
      recorded successor.1 successor.2) (layered : next.WellLayered)
    (describes : ∀ pc, Describes code recorded next
      ⟨pc, operands.stack, operands.regions⟩)
    (notRet : instruction.controlEffect ≠ .ret)
    (notCatch : ∀ target, instruction.controlEffect ≠ .catch_ target)
    (notGosub : ∀ target, instruction.controlEffect ≠ .gosub target)
    (continued : machine.continueWith instruction choice operands = some after)
    : Tracks code recorded after := by
  unfold Machine.continueWith Machine.resumeAt at continued
  cases control : instruction.controlEffect
  case ret => exact (notRet control).elim
  case catch_ target => exact (notCatch target control).elim
  case gosub target => exact (notGosub target control).elim
  all_goals rw [control] at continued successors
  case jump target =>
    cases continued
    exact ⟨next, successors (target.toNat, next) mem_cons_self,
      layered, describes _⟩
  case branch target =>
    simp only at continued
    split at continued
    · cases continued
      exact ⟨next, successors (target.toNat, next) mem_cons_self,
        layered, describes _⟩
    · cases continued
      exact ⟨next, successors (machine.pc + 1, next)
        (mem_cons_of_mem _ mem_cons_self), layered, describes _⟩
  case return_ | tailCall => cases continued
  case throw =>
    have described := describes 0
    have regions : operands.regions = next.regions := described.regions
    simp only [regions] at continued
    exact tracks_of_unwind layered described continued
  all_goals
    cases continued
    exact ⟨next, successors (machine.pc + 1, next) mem_cons_self,
      layered, describes _⟩

theorem controlEffect_eq_ret (control : instruction.controlEffect = .ret) :
    instruction = .ret := by
  cases instruction <;> first | rfl | cases control

variable {target : UInt32}

theorem controlEffect_eq_catch
    (control : instruction.controlEffect = .catch_ target) :
    instruction = .catch_ target := by
  cases instruction <;> cases control
  rfl

theorem controlEffect_eq_gosub
    (control : instruction.controlEffect = .gosub target) :
    instruction = .gosub target := by
  cases instruction <;> cases control
  rfl

theorem complete_eq (notRet : instruction ≠ .ret) (machine : Machine)
    (choice : Choice) :
    machine.complete instruction choice = (do
      let operands ← machine.execute instruction
      return machine.continueWith instruction choice operands) := by
  cases instruction <;> first | rfl | exact (notRet rfl).elim

section

variable (layered : state.WellLayered)
  (describes : Describes code recorded state machine)

include layered describes

theorem tracks_catch
    (transferred : Transferred (.catch_ target) state next)
    (successors : ∀ successor ∈ ControlEffect.successors machine.pc state next
      (.catch_ target), recorded successor.1 successor.2) :
    Tracks code recorded ⟨machine.pc + 1, machine.stack ++ [.catchMarker],
      .catch_ target (machine.stack.length + 1) :: machine.regions⟩ := by
  obtain ⟨-, -, arm, -⟩ := transferred
  change ordinary _ _ _ _ = _ at arm
  simp only [ordinary, bind_eq_ok, pure_eq_ok] at arm
  obtain ⟨_, -, rfl⟩ := arm
  let move : Move state := .put state.depth
    (.region (.catch_ target (state.depth + 1))) [.catchMarker]
    layered.clear.cut ⟨Nat.le_add_left 1 state.depth, rfl⟩ rfl
    (by rintro ⟨⟩)
  have nextState : move.next = ⟨state.depth + 1,
      .catch_ target (state.depth + 1) :: state.regions, state.returnAddresses,
      state.superCallBases⟩ := by
    simp only [move, Move.put, Move.next, raise,
      below_depth layered, length_singleton]
  have described := describes.move move (machine.pc + 1) (by rintro ⟨⟩) (by
    intro handler markerDepth same
    cases same
    rw [Nat.add_sub_cancel, below_depth layered]
    exact successors (target.toNat, { state with depth := state.depth + 1 })
      mem_cons_self)
  have stack : move.stack machine = machine.stack ++ [.catchMarker] := by
    simp only [move, Move.put, Move.stack]
    rw [← describes.depth, take_length]
  have wellLayered := move.wellLayered layered
  rw [nextState] at described wellLayered
  rw [stack] at described
  rw [describes.depth, describes.regions]
  exact ⟨_, successors _ (mem_cons_of_mem _ mem_cons_self),
    wellLayered, described⟩

theorem tracks_gosub
    (present : code[machine.pc]? = some (.gosub target))
    (transferred : Transferred (.gosub target) state next)
    (successors : ∀ successor ∈ ControlEffect.successors machine.pc state next
      (.gosub target), recorded successor.1 successor.2) :
    Tracks code recorded ⟨target.toNat, machine.stack ++ [.returnAddress
      ⟨machine.pc + 1, machine.stack.length, machine.regions⟩],
      machine.regions⟩ := by
  obtain ⟨-, -, arm, -⟩ := transferred
  change ordinary _ _ _ _ = _ at arm
  simp only [ordinary, bind_eq_ok, pure_eq_ok] at arm
  obtain ⟨_, -, rfl⟩ := arm
  let move : Move state := .put state.depth .address [.returnAddress
      ⟨machine.pc + 1, machine.stack.length, machine.regions⟩]
    layered.clear.cut trivial rfl (by rintro ⟨⟩)
  have nextState : move.next = ⟨state.depth + 1, state.regions,
      state.depth :: state.returnAddresses, state.superCallBases⟩ := by
    simp only [move, Move.put, Move.next, raise,
      below_depth layered, length_singleton]
  have genuine : Genuine code recorded state state.depth
      ⟨machine.pc + 1, machine.stack.length, machine.regions⟩ := by
    refine ⟨⟨target, present⟩, describes.depth, ?_, ?_⟩
    · rw [below_depth layered]
      exact describes.regions
    · rw [below_depth layered]
      exact successors (machine.pc + 1, state)
        (mem_cons_of_mem _ mem_cons_self)
  have described := describes.move move target.toNat
    (fun _ => ⟨_, rfl, genuine⟩) (by rintro _ _ ⟨⟩)
  have stack : move.stack machine = machine.stack ++ [.returnAddress
      ⟨machine.pc + 1, machine.stack.length, machine.regions⟩] := by
    simp only [move, Move.put, Move.stack]
    rw [← describes.depth, take_length]
  have wellLayered := move.wellLayered layered
  rw [nextState] at described wellLayered
  rw [stack, ← describes.regions] at described
  refine ⟨_, successors _ mem_cons_self, wellLayered, ?_⟩
  rw [describes.regions] at described ⊢
  exact described

theorem tracks_ret (transferred : Transferred .ret state next) :
    ∃ caller target rest, machine.stack = rest ++ [.returnAddress caller] ∧
      code[caller.pc - 1]? = some (.gosub target) ∧
      rest.length = caller.depth ∧ machine.regions = caller.regions ∧
      Tracks code recorded ⟨caller.pc, rest, caller.regions⟩ ∧
      ∀ choice, machine.complete .ret choice =
        .ok (some ⟨caller.pc, rest, caller.regions⟩) := by
  have positive : 1 ≤ state.depth := transferred.enough
  obtain ⟨cut, below, regions, caller, genuine, stack, popped⟩ :=
    pops_returnAddress describes layered rfl rfl rfl transferred
  obtain ⟨target, gosub⟩ := genuine.gosub
  have same : machine.regions = caller.regions := by
    rw [genuine.regions, ← below, regions, describes.regions]
  have described := describes.values 0 caller.pc cut
  rw [replicate_zero, append_nil] at described
  refine ⟨caller, target, machine.stack.take (state.depth - 1), stack, gosub,
    ?_, same, ?_, ?_⟩
  · rw [genuine.depth, length_take, describes.depth]
    omega
  · rw [genuine.regions]
    exact ⟨_, genuine.resumes, layered.below _, described⟩
  · intro choice
    unfold Machine.complete
    rw [popped, regions, ← describes.regions, same]
    rfl

end

theorem Describes.caller (describes : Describes code recorded state machine)
    (top : state.depth - 1 ∈ state.returnAddresses) :
    ∃ caller, machine.stack.getLast? = some (.returnAddress caller) := by
  obtain ⟨caller, slot, -⟩ := describes.callers _ top
  refine ⟨caller, ?_⟩
  rw [getLast?_eq_getElem?, describes.depth]
  exact slot

variable {maximum : Nat}

theorem tracks_step (solution : Solution code maximum recorded)
    (tracks : Tracks code recorded machine)
    (unclobbered : ¬ machine.Clobbers code) (choice : Choice) :
    ∃ outcome, machine.step code choice = .ok outcome ∧
      ∀ after, outcome = some after → Tracks code recorded after := by
  obtain ⟨state, known, layered, describes⟩ := tracks
  obtain ⟨instruction, next, present, accepted, successors⟩ :=
    solution.expands machine.pc state known
  have transferred := transfer_eq_ok accepted
  unfold Machine.step
  rw [present]
  have completes : ∃ outcome, machine.complete instruction choice = .ok outcome ∧
      ∀ after, outcome = some after → Tracks code recorded after := by
    by_cases isRet : instruction = .ret
    · subst isRet
      obtain ⟨caller, target, rest, -, -, -, -, tracked, completed⟩ :=
        tracks_ret layered describes transferred
      refine ⟨_, completed choice, fun after same => ?_⟩
      cases same
      exact tracked
    · rw [complete_eq isRet]
      by_cases isCatch : ∃ target, instruction = .catch_ target
      · obtain ⟨target, rfl⟩ := isCatch
        refine ⟨_, rfl, fun after same => ?_⟩
        cases same
        exact tracks_catch layered describes transferred successors
      · by_cases isGosub : ∃ target, instruction = .gosub target
        · obtain ⟨target, rfl⟩ := isGosub
          refine ⟨_, rfl, fun after same => ?_⟩
          cases same
          exact tracks_gosub layered describes present transferred successors
        · have executed := executes describes layered transferred isRet
            (fun target same => isCatch ⟨target, same⟩)
            (fun target same => isGosub ⟨target, same⟩)
            (fun same top => unclobbered ⟨same ▸ present, describes.caller top⟩)
          obtain ⟨⟨move, rfl, noAddress, noCatch, ran⟩, -⟩ := executed
          rw [ran]
          refine ⟨_, rfl, fun after continued => ?_⟩
          refine tracks_continue successors (move.wellLayered layered)
            (fun pc => describes.move move pc
              (fun same => (noAddress same).elim)
              (fun target markerDepth same =>
                (noCatch target markerDepth same).elim))
            (fun control => isRet (controlEffect_eq_ret control))
            (fun target control => isCatch
              ⟨target, controlEffect_eq_catch control⟩)
            (fun target control => isGosub
              ⟨target, controlEffect_eq_gosub control⟩) continued
  cases choice with
  | throw =>
    refine ⟨_, rfl, fun after unwound => ?_⟩
    rw [describes.regions] at unwound
    exact tracks_of_unwind layered describes unwound
  | proceed | branch => exact completes

theorem mem_topSlots {count : Nat} (member : slot ∈ machine.topSlots count) :
    ∃ index, machine.stack.length - count ≤ index ∧
      index < machine.stack.length ∧ machine.stack[index]? = some slot := by
  unfold Machine.topSlots at member
  obtain ⟨_, found⟩ := List.mem_iff_getElem?.mp member
  rw [List.getElem?_drop] at found
  obtain ⟨inside, -⟩ := List.getElem?_eq_some_iff.mp found
  exact ⟨_, Nat.le_add_right _ _, inside, found⟩

theorem safe_of_tracks (solution : Solution code maximum recorded)
    (tracks : Tracks code recorded machine)
    (unclobbered : ¬ machine.Clobbers code) : machine.Safe code := by
  have steps := tracks_step solution tracks unclobbered
  obtain ⟨state, known, layered, describes⟩ := tracks
  obtain ⟨instruction, next, present, accepted, -⟩ :=
    solution.expands machine.pc state known
  have transferred := transfer_eq_ok accepted
  have same : ∀ other, code[machine.pc]? = some other →
      other = instruction := by
    intro other there
    rw [present] at there
    exact (Option.some.inj there).symm
  refine ⟨?_, ?_, ?_, ?_, ?_⟩
  · intro other there
    obtain rfl := same other there
    rw [describes.depth]
    exact transferred.enough
  · intro other there slot member
    obtain rfl := same other there
    obtain ⟨index, low, inside, found⟩ := mem_topSlots member
    rw [describes.depth] at low inside
    have plain : state.Plain index := by
      by_cases none : other.operandCount = 0
      · omega
      · refine (executes describes layered transferred ?_ ?_ ?_ ?_).plain index
          low inside
        · rintro rfl
          exact none rfl
        · rintro target rfl
          exact none rfl
        · rintro target rfl
          exact none rfl
        · rintro rfl top
          exact unclobbered ⟨present, describes.caller top⟩
    have value := describes.plain index inside plain
    rw [found] at value
    exact Option.some.inj value
  · intro other there consumes
    obtain rfl := same other there
    have top := (executes_consumeSuperCall describes layered consumes
      transferred).2
    obtain ⟨first, second⟩ := describes.pairs _ (mem_of_mem_head? top)
    unfold Machine.topSlots
    rw [describes.depth, take_drop]
    apply ext_getElem?
    intro index
    rw [getElem?_drop, getElem?_take]
    match index with
    | 0 => simpa using first
    | 1 => simpa using second
    | index + 2 => simp
  · intro choice
    obtain ⟨outcome, stepped, -⟩ := steps choice
    exact ⟨outcome, stepped⟩
  · intro returns
    obtain rfl := same .ret returns
    obtain ⟨caller, target, rest, stack, gosub, depth, regions, -, completed⟩ :=
      tracks_ret layered describes transferred
    refine ⟨caller, target, rest, stack, gosub, depth, regions, ?_⟩
    intro choice completes
    unfold Machine.step
    rw [present]
    cases choice with
    | throw => exact (completes rfl).elim
    | proceed => exact completed .proceed
    | branch => exact completed .branch

theorem tracks_initial (solution : Solution code maximum recorded) :
    Tracks code recorded ⟨0, [], []⟩ := by
  refine ⟨initialState, solution.start, ?_, ?_⟩
  · constructor <;> simp [initialState]
  · constructor <;> simp [initialState]

/-- In every run of verified code that never takes a return address for the
result of an iterator, the frame stays inside the code and within the verified
depth, and every step keeps to the stack contracts. -/
theorem verified_runs_safe {constantCount declared maximum : Nat}
    (verified : verifyParts code constantCount declared = .ok maximum)
    {machine : Machine} (reached : (frames code).Reachable
      (fun machine _ => ¬ machine.Clobbers code) machine) :
    machine.pc < code.length ∧ machine.stack.length ≤ maximum ∧
      (¬ machine.Clobbers code → machine.Safe code) := by
  obtain ⟨recorded, solution⟩ := verifyParts_solution verified
  have tracks : Tracks code recorded machine := by
    refine reached.invariant (Tracks code recorded) ?_ ?_
    · intro start initial
      have begins : start = ⟨0, [], []⟩ := initial
      rw [begins]
      exact tracks_initial solution
    · intro before choice after tracked unclobbered stepped
      obtain ⟨_, ran, kept⟩ :=
        tracks_step solution tracked unclobbered choice
      have taken : before.step code choice = .ok (some after) := stepped
      rw [ran] at taken
      cases taken
      exact kept after rfl
  refine ⟨?_, ?_, safe_of_tracks solution tracks⟩
  · obtain ⟨state, known, -, -⟩ := tracks
    obtain ⟨_, -, present, -, -⟩ :=
      solution.expands machine.pc state known
    exact (List.getElem?_eq_some_iff.mp present).1
  · obtain ⟨state, known, -, describes⟩ := tracks
    rw [describes.depth]
    exact solution.bounded machine.pc state known

def finalizerCode : List Instruction :=
  [.gosub 3, .undefined, .return_, .ret]

theorem finalizer_runs_safe : verifyParts finalizerCode 0 1 = .ok 1 ∧
    Machine.Safe ⟨3, [.returnAddress ⟨1, 0, []⟩], []⟩ finalizerCode := by
  have verified : verifyParts finalizerCode 0 1 = .ok 1 := by decide +kernel
  have quiet : ∀ machine, ¬ Machine.Clobbers machine finalizerCode := by
    intro machine clobbers
    have member := mem_of_getElem? clobbers.1
    simp [finalizerCode] at member
  have start : (frames finalizerCode).Reachable
      (fun machine _ => ¬ machine.Clobbers finalizerCode) ⟨0, [], []⟩ :=
    .initial _ rfl
  have reached : (frames finalizerCode).Reachable
      (fun machine _ => ¬ machine.Clobbers finalizerCode)
      ⟨3, [.returnAddress ⟨1, 0, []⟩], []⟩ :=
    .step _ _ .proceed start (quiet _) rfl
  exact ⟨verified, (verified_runs_safe verified reached).2.2 (quiet _)⟩

/-- A `for await` body whose finalizer reads the iterator result that the body
has already dropped. -/
def clobberingCode : List Instruction :=
  [.undefined, .forAwaitOfStart, .forAwaitOfNext, .drop, .gosub 7, .undefined,
    .throw, .iteratorGetValueDone, .drop, .ret]

/-- The verifier accepts the code, and a run of it reaches a `Ret` that finds a
plain value where its return address was. -/
theorem clobbering_verified : verifyParts clobberingCode 0 5 = .ok 5 ∧
    ∃ machine, (frames clobberingCode).Reachable (fun _ _ => True) machine ∧
      clobberingCode[machine.pc]? = some .ret ∧
      machine.stack.getLast? = some .value ∧
      machine.step clobberingCode .proceed = .error .noReturnAddress := by
  refine ⟨by decide +kernel, ?_⟩
  let pending : UnwindRegionState := .iterator 0 3 .async .asyncNextPending
  let stable : UnwindRegionState := .iterator 0 3 .async .stable
  let record : List Slot := replicate 3 .iteratorRecord
  let address : Slot := .returnAddress ⟨5, 3, [pending]⟩
  have next : ∀ (before after : Machine),
      (frames clobberingCode).Reachable (fun _ _ => True) before →
      before.step clobberingCode .proceed = .ok (some after) →
      (frames clobberingCode).Reachable (fun _ _ => True) after :=
    fun before after reached stepped =>
      .step before after .proceed reached trivial stepped
  have start : (frames clobberingCode).Reachable (fun _ _ => True)
      ⟨0, [], []⟩ := .initial _ rfl
  have started := next _ ⟨1, [.value], []⟩ start rfl
  have entered := next _ ⟨2, record, [stable]⟩ started rfl
  have advanced := next _ ⟨3, record ++ [.value], [pending]⟩ entered rfl
  have dropped := next _ ⟨4, record, [pending]⟩ advanced rfl
  have called := next _ ⟨7, record ++ [address], [pending]⟩ dropped rfl
  have finished := next _ ⟨8, record ++ [.value, .value], [stable]⟩ called rfl
  have returning := next _ ⟨9, record ++ [.value], [stable]⟩ finished rfl
  exact ⟨_, returning, rfl, rfl, rfl⟩

end QuickJsOxide.Bytecode
