import QuickJsOxide.Bytecode.Simulation

namespace QuickJsOxide.Bytecode

open Library VerificationState List

/-! Each arm of the verifier moves the symbolic state as the machine moves the
stack. -/

namespace VerificationState

structure Clear (state : VerificationState) (floor : Nat) : Prop where
  within : floor ≤ state.depth
  regions : ∀ region ∈ state.regions, region.markerDepth ≤ floor
  addresses : ∀ address ∈ state.returnAddresses, address < floor
  bases : ∀ base ∈ state.superCallBases, base + 2 ≤ floor

variable {state : VerificationState}

theorem Clear.cut (clear : state.Clear floor) : state.Cut floor :=
  ⟨clear.within, fun region member => .inl (clear.regions region member),
    fun base member => .inl (clear.bases base member)⟩

theorem Clear.below (clear : state.Clear floor) :
    state.below floor = { state with depth := floor } :=
  below_eq clear.regions clear.addresses clear.bases

theorem Clear.plain (clear : state.Clear floor) (above : floor ≤ index) :
    state.Plain index := by
  refine ⟨fun member => ?_, fun region member => .inr ?_,
    fun base member => .inr ?_⟩
  · have under := clear.addresses index member
    omega
  · exact (clear.regions region member).trans above
  · exact (clear.bases base member).trans above

theorem WellLayered.clear (layered : state.WellLayered) :
    state.Clear state.depth :=
  ⟨le_rfl, layered.regionsWithin, layered.addressesWithin, layered.basesWithin⟩

end VerificationState

structure Transferred (instruction : Instruction)
    (state next : VerificationState) : Prop where
  enough : instruction.nominalStackEffect.1 ≤ state.depth
  pair : instruction.stackStateEffect.preservesSuperPair = true →
    instruction.nominalStackEffect.1 = 0 ∨
      ∀ base ∈ state.superCallBases.head?,
        base + 2 ≤ state.depth - instruction.nominalStackEffect.1
  arm : verifyArm instruction state
    (state.depth - instruction.nominalStackEffect.1)
    instruction.nominalStackEffect.1 instruction.nominalStackEffect.2 = .ok next
  crossed : ∀ base ∈ next.superCallBases.head?, base + 2 ≤ next.depth

variable {state next : VerificationState} {instruction : Instruction}

theorem transfer_eq_ok (transferred : transfer instruction state = .ok next) :
    Transferred instruction state next := by
  unfold transfer at transferred
  simp only [bind_eq_ok, ensure_eq_ok, pure_eq_ok] at transferred
  obtain ⟨-, enough, _, pair, middle, arm, -, crossed, -, -, rfl⟩ := transferred
  refine ⟨enough, fun preserved => ?_, arm, crossed⟩
  unfold verifySuperPair verifySuperCallPairUntouched at pair
  rw [if_pos preserved, ensure_eq_ok] at pair
  exact pair

theorem verifyOrdinaryConsumption_eq_ok :
    verifyOrdinaryConsumption state remaining popped = .ok result ↔
      (popped = 0 ∨ ∀ address ∈ state.returnAddresses.head?,
        address < remaining) ∧
      ∀ region ∈ state.regions.head?, region.markerDepth ≤ remaining := by
  unfold verifyOrdinaryConsumption
  rw [ensure_bind_eq_ok, ensure_eq_ok]

section

variable {state next : VerificationState} {popped : Nat}
variable (layered : state.WellLayered) (enough : popped ≤ state.depth)
include layered enough

theorem addresses_lt_of_consumption
    (checked : popped = 0 ∨ ∀ address ∈ state.returnAddresses.head?,
      address < state.depth - popped) :
    ∀ address ∈ state.returnAddresses, address < state.depth - popped := by
  rcases checked with rfl | top
  · exact layered.addressesWithin
  · exact layered.addresses_lt top

theorem bases_le_of_untouched
    (checked : popped = 0 ∨ ∀ base ∈ state.superCallBases.head?,
      base + 2 ≤ state.depth - popped) :
    ∀ base ∈ state.superCallBases, base + 2 ≤ state.depth - popped := by
  rcases checked with rfl | top
  · exact layered.basesWithin
  · exact layered.bases_le top

theorem clear_of_consumption
    (pair : popped = 0 ∨ ∀ base ∈ state.superCallBases.head?,
      base + 2 ≤ state.depth - popped)
    (checked : verifyOrdinaryConsumption state (state.depth - popped) popped =
      .ok result) : state.Clear (state.depth - popped) := by
  obtain ⟨addresses, regions⟩ := verifyOrdinaryConsumption_eq_ok.mp checked
  exact ⟨Nat.sub_le _ _, layered.regions_le regions,
    addresses_lt_of_consumption layered enough addresses,
    bases_le_of_untouched layered enough pair⟩

end

def Move.values {state : VerificationState} (floor count : Nat)
    (cut : state.Cut floor) : Move state where
  floor := floor
  layer := .bare
  fresh := replicate count .value
  cut := cut
  fits := trivial
  room := Nat.le_add_right _ _
  plain := by
    intro index _ inside
    rw [length_replicate] at inside
    simp [inside]
  pair := nofun

theorem Move.values_next {floor count : Nat} (cut : state.Cut floor) :
    (Move.values floor count cut).next =
      ⟨floor + count, (state.below floor).regions,
        (state.below floor).returnAddresses,
        (state.below floor).superCallBases⟩ := by
  simp [Move.next, Move.values, raise]

theorem plain_of_none (none : instruction.operandCount = 0) :
    ∀ index, state.depth - instruction.operandCount ≤ index →
      index < state.depth → state.Plain index := by
  intro index above inside
  omega

def Move.put {state : VerificationState} (floor : Nat) (layer : Layer)
    (fresh : List Slot) (cut : state.Cut floor) (fits : layer.Fits floor)
    (exact : layer.height floor = floor + fresh.length)
    (pair : layer = .pair → fresh[0]? = some .superPair ∧
      fresh[1]? = some .superPair) : Move state where
  floor := floor
  layer := layer
  fresh := fresh
  cut := cut
  fits := fits
  room := exact.le
  plain := by
    intro index above inside
    omega
  pair := pair

structure Executes (instruction : Instruction)
    (state next : VerificationState) (machine : Machine) : Prop where
  moves : ∃ move : Move state, next = move.next ∧ move.layer ≠ .address ∧
    (∀ target markerDepth, move.layer ≠ .region (.catch_ target markerDepth)) ∧
    machine.execute instruction = .ok ⟨move.stack machine, next.regions⟩
  plain : ∀ index, state.depth - instruction.operandCount ≤ index →
    index < state.depth → state.Plain index

theorem Executes.of_values (floor count : Nat) (cut : state.Cut floor)
    (moved : next = ⟨floor + count, (state.below floor).regions,
      (state.below floor).returnAddresses, (state.below floor).superCallBases⟩)
    (executed : machine.execute instruction =
      .ok ⟨machine.stack.take floor ++ replicate count .value,
        next.regions⟩)
    (plain : ∀ index, state.depth - instruction.operandCount ≤ index →
      index < state.depth → state.Plain index) :
    Executes instruction state next machine := by
  refine ⟨⟨Move.values floor count cut, ?_, nofun, nofun, executed⟩, plain⟩
  rw [Move.values_next, moved]

section

variable (describes : Describes code recorded state machine)
variable (layered : state.WellLayered)

theorem exchange_eq_ok (describes : Describes code recorded state machine)
    (enough : popped ≤ state.depth) (pushed : List Slot) :
    machine.operands.exchange popped pushed =
      .ok ⟨machine.stack.take (state.depth - popped) ++ pushed,
        state.regions⟩ := by
  have length := describes.depth
  unfold Operands.exchange
  rw [if_pos (by simpa [Operands.depth, Machine.operands, length] using enough)]
  simp [Operands.depth, Machine.operands, length, describes.regions]

/-- Instructions that the verifier and the machine treat alike. -/
def Instruction.isOrdinary : Instruction → Bool
  | .markSuperCall | .constructSuper _ | .applySuper | .catch_ _ | .dropCatch |
      .nipCatch | .forOfStart | .forAwaitOfStart | .forOfNext _ |
      .forAwaitOfNext | .iteratorGetValueDone | .iteratorClose |
      .iteratorClosePreserve | .iteratorDropPreserve |
      .iteratorDetachPreserve | .gosub _ | .ret | .dropGosub => false
  | _ => true

section

variable (plain : instruction.isOrdinary = true)

include plain

theorem verifyArm_ordinary (state : VerificationState)
    (remaining popped pushed : Nat) :
    verifyArm instruction state remaining popped pushed =
      ordinary state remaining popped pushed := by
  cases instruction <;> first | rfl | cases plain

theorem execute_ordinary (machine : Machine) : machine.execute instruction =
      machine.operands.exchange instruction.nominalStackEffect.1
        (replicate instruction.nominalStackEffect.2 .value) := by
  cases instruction <;> first | rfl | cases plain

theorem operandCount_ordinary :
    instruction.operandCount = instruction.nominalStackEffect.1 := by
  cases instruction <;> first | rfl | cases plain

theorem preservesSuperPair_ordinary :
    instruction.stackStateEffect.preservesSuperPair = true := by
  cases instruction <;> first | rfl | cases plain

end

theorem plain_top (layered : state.WellLayered)
    (hregions : state.regions = region :: outer)
    (above : region.markerDepth < state.depth)
    (address : state.returnAddresses.head? ≠ some (state.depth - 1))
    (bases : ∀ base ∈ state.superCallBases, base + 2 ≤ state.depth - 1) :
    ∀ index, state.depth - 1 ≤ index → index < state.depth →
      state.Plain index := by
  intro index low high
  have top : index = state.depth - 1 := by omega
  subst top
  refine ⟨fun member => address (layered.head_of_top member),
    fun region member => .inr ?_, fun base member => .inr (bases base member)⟩
  apply layered.regions_le _ region member
  intro inner head
  rw [hregions] at head
  cases head
  omega

theorem getLast_value (describes : Describes code recorded state machine)
    (plain : ∀ index, state.depth - 1 ≤ index →
      index < state.depth → state.Plain index) (positive : 1 ≤ state.depth) :
    machine.stack.getLast? = some .value := by
  rw [getLast?_eq_getElem?, describes.depth]
  exact describes.plain _ (by omega) (plain _ le_rfl (by omega))

section

variable (layered : state.WellLayered)
  (hregions : state.regions =
    .iterator recordBase markerDepth kind phase :: outer)
  (addresses : ∀ address ∈ state.returnAddresses, address < markerDepth)
  (bases : ∀ base ∈ state.superCallBases, base < markerDepth)

include layered hregions addresses bases

/-- What lies under the innermost iterator record when nothing but the record
and plain values is above its foot. -/
theorem below_record : state.below recordBase =
    ⟨recordBase, outer, state.returnAddresses, state.superCallBases⟩ := by
  have here := mem_regions_head hregions
  have low : ∀ address ∈ state.returnAddresses, address < recordBase :=
    fun address member =>
      layered.address_lt_base here member (addresses address member)
  have lower : ∀ base ∈ state.superCallBases, base + 2 ≤ recordBase :=
    fun base member => layered.pair_le_base here member (bases base member)
  rw [← addresses_below_eq low, ← bases_below_eq lower,
    ← layered.regions_below_base hregions]
  rfl

theorem Executes.of_record (later : IteratorRegionPhase) (count : Nat)
    (describes : Describes code recorded state machine)
    (moved : next = ⟨markerDepth + count,
      .iterator recordBase markerDepth kind later :: outer,
      state.returnAddresses, state.superCallBases⟩)
    (executed : machine.execute instruction =
      .ok ⟨machine.stack.take markerDepth ++ replicate count .value,
        next.regions⟩)
    (plain : ∀ index, state.depth - instruction.operandCount ≤ index →
      index < state.depth → state.Plain index) :
    Executes instruction state next machine := by
  have here := mem_regions_head hregions
  have record : markerDepth = recordBase + 3 := layered.regionsFormed _ here
  have within : markerDepth ≤ state.depth := layered.regionsWithin _ here
  have length : ((machine.stack.take markerDepth).drop recordBase).length =
      3 := by
    rw [length_drop, length_take, describes.depth]
    omega
  have shorter : (machine.stack.take markerDepth).take recordBase =
      machine.stack.take recordBase := by
    rw [take_take, Nat.min_eq_left (by omega)]
  refine ⟨⟨{
    floor := recordBase
    layer := .region (.iterator recordBase markerDepth kind later)
    fresh := (machine.stack.take markerDepth).drop recordBase ++
      replicate count .value
    cut := layered.cut_base hregions
    fits := ⟨record, rfl⟩
    room := by
      simp only [Layer.height, UnwindRegionState.markerDepth,
        length_append, length]
      omega
    plain := by
      intro index above inside
      have bound : markerDepth ≤ recordBase + index := above
      simp only [length_append, length, length_replicate] at inside
      rw [getElem?_append_right (by omega), length,
        getElem?_replicate, if_pos (by omega)]
    pair := by rintro ⟨⟩ }, ?_, by rintro ⟨⟩, by rintro _ _ ⟨⟩, ?_⟩, plain⟩
  · simp only [Move.next, raise, length_append, length,
      length_replicate, below_record layered hregions addresses bases]
    rw [moved, record, Nat.add_assoc]
  · rw [executed, Move.stack, ← append_assoc, ← shorter, take_append_drop]

end

include describes layered

theorem executes_ordinary (plain : instruction.isOrdinary = true)
    (transferred : Transferred instruction state next) :
    Executes instruction state next machine := by
  obtain ⟨enough, pair, arm, -⟩ := transferred
  rw [verifyArm_ordinary plain, ordinary] at arm
  simp only [bind_eq_ok, pure_eq_ok] at arm
  obtain ⟨_, checked, rfl⟩ := arm
  have clear := clear_of_consumption layered enough
    (pair (preservesSuperPair_ordinary plain)) checked
  apply Executes.of_values _ _ clear.cut
  · rw [clear.below]
  · rw [execute_ordinary plain, exchange_eq_ok describes enough]
  · intro index above _
    rw [operandCount_ordinary plain] at above
    exact clear.plain above

theorem executes_markSuperCall
    (transferred : Transferred .markSuperCall state next) :
    Executes .markSuperCall state next machine := by
  obtain ⟨enough, pair, arm, -⟩ := transferred
  change markSuperCall _ _ _ _ = _ at arm
  simp only [markSuperCall, bind_eq_ok, pure_eq_ok] at arm
  obtain ⟨_, checked, rfl⟩ := arm
  have clear := clear_of_consumption layered enough (pair rfl) checked
  refine ⟨⟨.put (state.depth - 2) .pair (replicate 2 .superPair) clear.cut
    trivial rfl fun _ => ⟨rfl, rfl⟩, ?_, nofun, nofun, ?_⟩, ?_⟩
  · simp only [Move.next, Move.put, raise]
    rw [show state.below (state.depth - 2) = _ from clear.below]
    rfl
  · exact exchange_eq_ok describes enough (replicate 2 .superPair)
  · intro index above _
    exact clear.plain above

theorem executes_consumeSuperCall
    (consumes : instruction.stackStateEffect = .consumeSuperCall)
    (transferred : Transferred instruction state next) :
    Executes instruction state next machine ∧ state.superCallBases.head? =
        some (state.depth - instruction.nominalStackEffect.1) := by
  obtain ⟨enough, -, arm, -⟩ := transferred
  have dispatch : verifyArm instruction state
      (state.depth - instruction.nominalStackEffect.1)
      instruction.nominalStackEffect.1 instruction.nominalStackEffect.2 =
      consumeSuperCall state (state.depth - instruction.nominalStackEffect.1)
        instruction.nominalStackEffect.1 instruction.nominalStackEffect.2 := by
    cases instruction <;> first | rfl | cases consumes
  have execution : machine.execute instruction =
      machine.operands.exchange instruction.nominalStackEffect.1
        (replicate instruction.nominalStackEffect.2 .value) := by
    cases instruction <;> first | rfl | cases consumes
  have count : instruction.operandCount =
      instruction.nominalStackEffect.1 - 2 := by
    unfold Instruction.operandCount
    rw [consumes]
  have least : 2 ≤ instruction.nominalStackEffect.1 := by
    cases instruction with
    | constructSuper argumentCount =>
      exact Nat.le_add_left 2 argumentCount.toNat
    | applySuper => decide
    | _ => cases consumes
  rw [dispatch, consumeSuperCall] at arm
  simp only [bind_eq_ok, ensure_eq_ok, pure_eq_ok] at arm
  obtain ⟨-, top, _, checked, rfl⟩ := arm
  obtain ⟨addressesTop, regionsTop⟩ :=
    verifyOrdinaryConsumption_eq_ok.mp checked
  have regions := layered.regions_le regionsTop
  have addresses := addresses_lt_of_consumption layered enough addressesTop
  obtain ⟨outer, hbases⟩ : ∃ outer, state.superCallBases =
      (state.depth - instruction.nominalStackEffect.1) :: outer :=
    head?_eq_some_iff.mp top
  have sorted := layered.basesSorted
  rw [hbases, pairwise_cons] at sorted
  have cut : state.Cut (state.depth - instruction.nominalStackEffect.1) := by
    refine ⟨Nat.sub_le _ _, fun region member => .inl (regions region member),
      fun base member => ?_⟩
    rw [hbases] at member
    rcases mem_cons.mp member with rfl | inside
    · exact .inr le_rfl
    · exact .inl (sorted.1 base inside)
  refine ⟨?_, top⟩
  apply Executes.of_values _ _ cut
  · have kept : (state.below (state.depth -
        instruction.nominalStackEffect.1)).superCallBases = outer := by
      unfold below
      rw [hbases, filter_cons_of_neg (by simp)]
      apply filter_eq_self.mpr
      intro base member
      simpa using sorted.1 base member
    rw [kept, regions_below_eq regions, addresses_below_eq addresses, hbases]
    rfl
  · rw [execution, exchange_eq_ok describes enough]
  · intro index above inside
    rw [count] at above
    refine ⟨fun member => ?_, fun region member => .inr ?_,
      fun base member => .inr ?_⟩
    · have under := addresses index member
      omega
    · have under := regions region member
      omega
    · rw [hbases] at member
      rcases mem_cons.mp member with rfl | outside
      · omega
      · have under := sorted.1 base outside
        omega

theorem executes_dropCatch (transferred : Transferred .dropCatch state next) :
    Executes .dropCatch state next machine := by
  obtain ⟨enough, pair, arm, -⟩ := transferred
  change dropCatch _ _ _ = _ at arm
  simp only [dropCatch] at arm
  split at arm
  · cases arm
  · cases arm
  · rename_i target markerDepth outer hregions
    simp only [bind_eq_ok, ensure_eq_ok, pure_eq_ok] at arm
    obtain ⟨-, atMarker, rfl⟩ := arm
    have here := mem_regions_head hregions
    have positive : 1 ≤ markerDepth := layered.regionsFormed _ here
    have addresses : ∀ address ∈ state.returnAddresses,
        address < markerDepth - 1 := by
      intro address member
      refine layered.address_lt_base here member ?_
      exact (layered.addressesWithin address member).trans_eq atMarker
    have bases := bases_le_of_untouched layered enough (pair rfl)
    have one : state.depth - 1 = markerDepth - 1 := by omega
    apply Executes.of_values (markerDepth - 1) 0 (layered.cut_base hregions)
    · have regions : (state.below (markerDepth - 1)).regions = outer :=
        layered.regions_below_base hregions
      rw [regions, addresses_below_eq addresses,
        bases_below_eq (one ▸ bases), ← one]
      rfl
    · unfold Machine.execute Operands.dropCatch
      simp only [Machine.operands, Operands.depth, describes.regions, hregions,
        describes.depth, atMarker, if_true]
      simp
    · exact plain_of_none rfl

theorem executes_nipCatch (transferred : Transferred .nipCatch state next) :
    Executes .nipCatch state next machine := by
  obtain ⟨enough, pair, arm, crossed⟩ := transferred
  change nipCatch _ = _ at arm
  simp only [nipCatch] at arm
  split at arm
  · cases arm
  · cases arm
  · rename_i target markerDepth outer hregions
    simp only [bind_eq_ok, ensure_eq_ok, pure_eq_ok] at arm
    obtain ⟨-, above, -, address, rfl⟩ := arm
    have here := mem_regions_head hregions
    have positive : 1 ≤ markerDepth := layered.regionsFormed _ here
    have bases : ∀ base ∈ state.superCallBases,
        base + 2 ≤ markerDepth - 1 := by
      intro base member
      have within : base + 2 ≤ markerDepth := layered.bases_le crossed base member
      exact layered.pair_le_base here member (Nat.lt_of_lt_of_le (by omega) within)
    have plain := plain_top layered hregions above address
      (bases_le_of_untouched layered enough (pair rfl))
    apply Executes.of_values (markerDepth - 1) 1 (layered.cut_base hregions)
    · have regions : (state.below (markerDepth - 1)).regions = outer :=
        layered.regions_below_base hregions
      rw [regions, bases_below_eq bases, Nat.sub_add_cancel positive]
      rfl
    · have top := getLast_value describes plain (by omega)
      unfold Machine.execute Operands.preserveCatch Operands.keepTop
      simp only [Machine.operands, Operands.depth, describes.regions, hregions,
        describes.depth, above, if_true, top]
      rfl
    · exact plain

theorem executes_startIterator
    (dispatch : verifyArm instruction state (state.depth - 1) 1 3 =
      startIterator kind state (state.depth - 1) 1 3)
    (effect : instruction.nominalStackEffect = (1, 3))
    (enters : instruction.stackStateEffect = .enterIterator)
    (execution : machine.execute instruction =
      machine.operands.enterIterator kind)
    (transferred : Transferred instruction state next) :
    Executes instruction state next machine := by
  obtain ⟨enough, pair, arm, -⟩ := transferred
  rw [effect] at enough pair arm
  rw [dispatch, startIterator] at arm
  simp only [bind_eq_ok, pure_eq_ok] at arm
  obtain ⟨_, checked, rfl⟩ := arm
  have clear := clear_of_consumption layered enough (pair (by rw [enters]; rfl))
    checked
  refine ⟨⟨.put (state.depth - 1) (.region (.iterator (state.depth - 1)
    (state.depth - 1 + 3) kind .stable)) (replicate 3 .iteratorRecord)
    clear.cut ⟨rfl, rfl⟩ rfl nofun, ?_, nofun, nofun, ?_⟩, ?_⟩
  · simp only [Move.next, Move.put, raise]
    rw [clear.below]
    rfl
  · rw [execution]
    unfold Operands.enterIterator
    rw [exchange_eq_ok describes enough]
    have depth : machine.operands.depth = state.depth := describes.depth
    have positive : 1 ≤ state.depth := enough
    have marker : state.depth + 2 = state.depth - 1 + 3 := by omega
    simp only [Bind.bind, Except.bind, Pure.pure, Except.pure, depth, marker,
      Move.stack, Move.put]
    rw [show machine.operands.regions = state.regions from describes.regions]
  · intro index above _
    have count : instruction.operandCount = 1 := by
      unfold Instruction.operandCount
      rw [enters, effect]
    rw [count] at above
    exact clear.plain above

theorem executes_forOfNext
    (transferred : Transferred (.forOfNext offset) state next) :
    Executes (.forOfNext offset) state next machine := by
  obtain ⟨enough, -, arm, -⟩ := transferred
  change forOfNext _ _ _ _ = _ at arm
  simp only [forOfNext] at arm
  split at arm
  · rename_i recordBase markerDepth kind phase outer hregions
    simp only [bind_eq_ok, ensure_eq_ok, pure_eq_ok] at arm
    obtain ⟨-, -, -, rfl, -, reached, -, -, -, -, rfl⟩ := arm
    have least : 3 ≤ state.depth := enough
    apply Executes.of_values state.depth 2 layered.clear.cut
    · rw [below_depth layered]
      congr 1
      change state.depth - 3 + 5 = state.depth + 2
      omega
    · unfold Machine.execute Operands.advance
      simp only [Machine.operands, Operands.depth, describes.regions, hregions,
        describes.depth, ← reached, if_true]
      rw [← describes.depth, take_length]
    · exact plain_of_none rfl
  · cases arm

theorem executes_forAwaitOfNext
    (transferred : Transferred .forAwaitOfNext state next) :
    Executes .forAwaitOfNext state next machine := by
  obtain ⟨enough, -, arm, -⟩ := transferred
  change forAwaitOfNext _ _ _ = _ at arm
  simp only [forAwaitOfNext] at arm
  split at arm
  · rename_i recordBase markerDepth kind phase outer hregions
    simp only [bind_eq_ok, ensure_eq_ok, pure_eq_ok] at arm
    obtain ⟨-, -, -, -, -, reached, -, record, -, -, rfl⟩ := arm
    have least : 3 ≤ state.depth := enough
    refine Executes.of_record layered hregions ?_ ?_ .asyncNextPending 1
      describes ?_ ?_ (plain_of_none rfl)
    · intro address member
      exact (layered.addressesWithin address member).trans_eq reached
    · intro base member
      have within := layered.basesWithin base member
      omega
    · congr 1
      change state.depth - 3 + 4 = markerDepth + 1
      omega
    · unfold Machine.execute Operands.advance
      simp only [Machine.operands, Operands.depth, describes.regions, hregions,
        describes.depth, reached, Nat.add_zero, if_true]
      rw [← reached, ← describes.depth, take_length]
  · cases arm

theorem executes_iteratorGetValueDone
    (unclobbered : state.depth - 1 ∉ state.returnAddresses)
    (transferred : Transferred .iteratorGetValueDone state next) :
    Executes .iteratorGetValueDone state next machine := by
  obtain ⟨enough, -, arm, -⟩ := transferred
  change iteratorGetValueDone _ _ _ = _ at arm
  simp only [iteratorGetValueDone] at arm
  split at arm
  · rename_i recordBase markerDepth kind phase outer hregions
    simp only [bind_eq_ok, ensure_eq_ok, pure_eq_ok] at arm
    obtain ⟨-, -, -, -, -, reached, -, record, -, -, rfl⟩ := arm
    have addresses : ∀ address ∈ state.returnAddresses,
        address < markerDepth := by
      intro address member
      have within := layered.addressesWithin address member
      have different : address ≠ state.depth - 1 := by
        rintro rfl
        exact unclobbered member
      omega
    have bases : ∀ base ∈ state.superCallBases, base < markerDepth := by
      intro base member
      have within := layered.basesWithin base member
      omega
    refine Executes.of_record layered hregions addresses bases .stable 2
      describes ?_ ?_ (plain_top layered hregions ?_ ?_ ?_)
    · congr 1
      change state.depth - 2 + 3 = markerDepth + 2
      omega
    · unfold Machine.execute Operands.finishValue
      simp only [Machine.operands, Operands.depth, describes.regions, hregions,
        describes.depth, reached, if_true]
    · simp only [UnwindRegionState.markerDepth]
      omega
    · intro top
      exact unclobbered (mem_of_mem_head? top)
    · intro pair member
      have foot : pair + 2 ≤ recordBase := layered.pair_le_base
        (mem_regions_head hregions) member
        (bases pair member)
      omega
  · cases arm

theorem executes_iteratorClose
    (transferred : Transferred .iteratorClose state next) :
    Executes .iteratorClose state next machine := by
  obtain ⟨enough, -, arm, -⟩ := transferred
  change iteratorClose _ _ _ = _ at arm
  simp only [iteratorClose] at arm
  split at arm
  · cases arm
  · cases arm
  · rename_i recordBase markerDepth kind phase outer hregions
    simp only [bind_eq_ok, ensure_eq_ok, pure_eq_ok] at arm
    obtain ⟨-, -, -, ⟨reached, remaining⟩, -, addresses, rfl⟩ := arm
    have below := below_record layered hregions
      (fun address member =>
        (layered.addressesWithin address member).trans_eq reached)
      (fun base member => by
        have within := layered.basesWithin base member
        omega)
    apply Executes.of_values recordBase 0 (layered.cut_base hregions)
    · rw [below, remaining]
      rfl
    · unfold Machine.execute Operands.closeIterator
      simp only [Machine.operands, Operands.depth, describes.regions, hregions,
        describes.depth, reached, if_true]
      simp
    · exact plain_of_none rfl

theorem executes_preserveIterator (few : extra ≤ 1)
    (dispatch : verifyArm instruction state (state.depth - 1) 1
      instruction.nominalStackEffect.2 =
      preserveIterator operation (extra + 1) state)
    (effect : instruction.nominalStackEffect.1 = 1)
    (preserved : instruction.stackStateEffect.preservesSuperPair = true)
    (count : instruction.operandCount = 1)
    (execution : machine.execute instruction =
      machine.operands.preserveIterator (replicate extra .value))
    (transferred : Transferred instruction state next) :
    Executes instruction state next machine := by
  obtain ⟨enough, pair, arm, crossed⟩ := transferred
  rw [effect] at enough pair arm
  rw [dispatch] at arm
  unfold preserveIterator at arm
  split at arm
  · cases arm
  · cases arm
  · rename_i recordBase markerDepth kind phase outer hregions
    simp only [bind_eq_ok, ensure_eq_ok, pure_eq_ok] at arm
    obtain ⟨-, -, -, above, -, address, rfl⟩ := arm
    have here := mem_regions_head hregions
    have record : markerDepth = recordBase + 3 :=
      layered.regionsFormed _ here
    have bases : ∀ base ∈ state.superCallBases, base + 2 ≤ recordBase := by
      intro base member
      have within : base + 2 ≤ recordBase + (extra + 1) :=
        layered.bases_le crossed base member
      exact layered.pair_le_base here member
        (show base < markerDepth by omega)
    have plain := plain_top layered hregions above address
      (bases_le_of_untouched layered enough (pair preserved))
    apply Executes.of_values recordBase (extra + 1) (layered.cut_base hregions)
    · have regions : (state.below recordBase).regions = outer :=
        layered.regions_below_base hregions
      rw [regions, bases_below_eq bases]
      rfl
    · have top := getLast_value describes plain enough
      rw [execution]
      unfold Operands.preserveIterator Operands.keepTop
      simp only [Machine.operands, Operands.depth, describes.regions, hregions,
        describes.depth, above, if_true, top]
      rfl
    · rw [count]
      exact plain

theorem pops_returnAddress
    (dispatch : verifyArm instruction state (state.depth - 1) 1 0 =
      consumeGosub name state (state.depth - 1) 0)
    (effect : instruction.nominalStackEffect = (1, 0))
    (preserved : instruction.stackStateEffect.preservesSuperPair = true)
    (transferred : Transferred instruction state next) :
    state.Cut (state.depth - 1) ∧ next = state.below (state.depth - 1) ∧
    next.regions = state.regions ∧
    ∃ caller, Genuine code recorded state (state.depth - 1) caller ∧
      machine.stack = machine.stack.take (state.depth - 1) ++
        [.returnAddress caller] ∧ machine.operands.popReturnAddress =
        .ok (caller, ⟨machine.stack.take (state.depth - 1), next.regions⟩) := by
  obtain ⟨enough, pair, arm, -⟩ := transferred
  rw [effect] at enough pair arm
  rw [dispatch, consumeGosub] at arm
  simp only [bind_eq_ok, ensure_eq_ok, pure_eq_ok] at arm
  obtain ⟨-, top, -, inner, rfl⟩ := arm
  have regions := layered.regions_le inner
  have bases := bases_le_of_untouched layered enough (pair preserved)
  have positive : 1 ≤ state.depth := enough
  obtain ⟨lower, haddresses⟩ : ∃ lower, state.returnAddresses =
      (state.depth - 1) :: lower := head?_eq_some_iff.mp top
  have sorted := layered.addressesSorted
  rw [haddresses, pairwise_cons] at sorted
  refine ⟨⟨Nat.sub_le _ _, fun region member => .inl (regions region member),
    fun base member => .inl (bases base member)⟩, ?_, rfl, ?_⟩
  · have kept : (state.below (state.depth - 1)).returnAddresses = lower := by
      unfold below
      rw [haddresses, filter_cons_of_neg (by simp)]
      apply filter_eq_self.mpr
      intro address member
      simpa using sorted.1 address member
    rw [haddresses, tail_cons, ← kept, ← regions_below_eq regions,
      ← bases_below_eq bases]
    rfl
  · obtain ⟨caller, slot, genuine⟩ := describes.callers (state.depth - 1)
      (haddresses ▸ mem_cons_self)
    have last : machine.stack.getLast? = some (.returnAddress caller) := by
      rw [getLast?_eq_getElem?, describes.depth]
      exact slot
    have initial : machine.stack.dropLast =
        machine.stack.take (state.depth - 1) := by
      rw [dropLast_eq_take, describes.depth]
    refine ⟨caller, genuine, ?_, ?_⟩
    · rw [← initial]
      exact (dropLast_append_getLast? _ last).symm
    · unfold Operands.popReturnAddress
      simp only [Machine.operands, last, initial, describes.regions]

theorem executes_dropGosub (transferred : Transferred .dropGosub state next) :
    Executes .dropGosub state next machine := by
  have positive : 1 ≤ state.depth := transferred.enough
  obtain ⟨cut, below, -, caller, -, -, popped⟩ :=
    pops_returnAddress describes layered rfl rfl rfl transferred
  apply Executes.of_values (state.depth - 1) 0 cut
  · rw [below]
    rfl
  · unfold Machine.execute
    rw [popped]
    simp [Bind.bind, Except.bind, Pure.pure, Except.pure]
  · exact plain_of_none rfl

theorem executes (transferred : Transferred instruction state next)
    (notRet : instruction ≠ .ret)
    (notCatch : ∀ target, instruction ≠ .catch_ target)
    (notGosub : ∀ target, instruction ≠ .gosub target)
    (unclobbered : instruction = .iteratorGetValueDone →
      state.depth - 1 ∉ state.returnAddresses) :
    Executes instruction state next machine := by
  cases plain : instruction.isOrdinary with
  | true => exact executes_ordinary describes layered plain transferred
  | false =>
    cases instruction with
    | markSuperCall => exact executes_markSuperCall describes layered transferred
    | constructSuper | applySuper =>
      exact (executes_consumeSuperCall describes layered rfl transferred).1
    | catch_ target => exact (notCatch target rfl).elim
    | dropCatch => exact executes_dropCatch describes layered transferred
    | nipCatch => exact executes_nipCatch describes layered transferred
    | forOfStart | forAwaitOfStart =>
      exact executes_startIterator describes layered rfl rfl rfl rfl
        transferred
    | forOfNext => exact executes_forOfNext describes layered transferred
    | forAwaitOfNext =>
      exact executes_forAwaitOfNext describes layered transferred
    | iteratorGetValueDone =>
      exact executes_iteratorGetValueDone describes layered
        (unclobbered rfl) transferred
    | iteratorClose => exact executes_iteratorClose describes layered transferred
    | iteratorClosePreserve | iteratorDropPreserve =>
      exact executes_preserveIterator describes layered (Nat.zero_le 1) rfl
        rfl rfl rfl rfl transferred
    | iteratorDetachPreserve =>
      exact executes_preserveIterator describes layered (Nat.le_refl 1) rfl
        rfl rfl rfl rfl transferred
    | gosub target => exact (notGosub target rfl).elim
    | ret => exact (notRet rfl).elim
    | dropGosub => exact executes_dropGosub describes layered transferred
    | _ => cases plain

end

end QuickJsOxide.Bytecode
