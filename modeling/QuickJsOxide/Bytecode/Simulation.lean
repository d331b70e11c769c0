import QuickJsOxide.Bytecode.Layers
import QuickJsOxide.Bytecode.Walk

namespace QuickJsOxide.Bytecode

open Library VerificationState List

/-! The symbolic state recorded for an instruction describes every stack the
machine can have there. -/

/-- A return address that leads back behind its `Gosub`, where the recorded
state is what lies under the address. -/
structure Genuine (code : List Instruction)
    (recorded : Nat → VerificationState → Prop) (state : VerificationState)
    (address : Nat) (caller : Caller) : Prop where
  gosub : ∃ target, code[caller.pc - 1]? = some (.gosub target)
  depth : caller.depth = address
  regions : caller.regions = (state.below address).regions
  resumes : recorded caller.pc (state.below address)

structure Describes (code : List Instruction)
    (recorded : Nat → VerificationState → Prop) (state : VerificationState)
    (machine : Machine) : Prop where
  depth : machine.stack.length = state.depth
  regions : machine.regions = state.regions
  plain : ∀ index < state.depth, state.Plain index →
    machine.stack[index]? = some .value
  pairs : ∀ base ∈ state.superCallBases,
    machine.stack[base]? = some .superPair ∧
    machine.stack[base + 1]? = some .superPair
  callers : ∀ address ∈ state.returnAddresses, ∃ caller,
    machine.stack[address]? = some (.returnAddress caller) ∧
    Genuine code recorded state address caller
  handlers : ∀ target markerDepth,
    .catch_ target markerDepth ∈ state.regions →
    recorded target.toNat
      { state.below (markerDepth - 1) with depth := markerDepth }

/-- A change of the stack: everything from a floor on is replaced. -/
structure Move (state : VerificationState) where
  floor : Nat
  layer : Layer
  fresh : List Slot
  cut : state.Cut floor
  fits : layer.Fits floor
  room : layer.height floor ≤ floor + fresh.length
  plain : ∀ index, layer.height floor ≤ floor + index → index < fresh.length →
    fresh[index]? = some .value
  pair : layer = .pair →
    fresh[0]? = some .superPair ∧ fresh[1]? = some .superPair

namespace Move

variable (move : Move state)

def next : VerificationState :=
  state.raise move.floor (move.floor + move.fresh.length) move.layer

def stack (machine : Machine) : List Slot :=
  machine.stack.take move.floor ++ move.fresh

theorem wellLayered (layered : state.WellLayered) : move.next.WellLayered :=
  layered.raise move.fits move.room

theorem below_next (ordered : low ≤ move.floor) :
    move.next.below low = state.below low :=
  below_raise move.fits ordered

section

variable (describes : Describes code recorded state machine)

include describes

theorem floor_le : move.floor ≤ machine.stack.length := by
  rw [describes.depth]
  exact move.cut.within

theorem stack_length :
    (move.stack machine).length = move.floor + move.fresh.length := by
  have within := move.floor_le describes
  simp only [stack, length_append, length_take]
  omega

theorem stack_lt (under : index < move.floor) :
    (move.stack machine)[index]? = machine.stack[index]? := by
  have within := move.floor_le describes
  have inside : index < (machine.stack.take move.floor).length := by
    simp only [length_take]
    omega
  rw [stack, getElem?_append_left inside, getElem?_take_of_lt under]

theorem stack_ge (index : Nat) :
    (move.stack machine)[move.floor + index]? = move.fresh[index]? := by
  have within := move.floor_le describes
  have length : (machine.stack.take move.floor).length = move.floor := by
    simp only [length_take]
    omega
  rw [stack, getElem?_append_right (by omega), length,
    Nat.add_sub_cancel_left]

end

end Move

theorem Genuine.move {move : Move state}
    (genuine : Genuine code recorded state address caller)
    (under : address ≤ move.floor) :
    Genuine code recorded move.next address caller := by
  refine ⟨genuine.gosub, genuine.depth, ?_, ?_⟩
  · rw [move.below_next under]
    exact genuine.regions
  · rw [move.below_next under]
    exact genuine.resumes

theorem Describes.move (describes : Describes code recorded state machine)
    (move : Move state) (pc : Nat) (address : move.layer = .address → ∃ caller,
      move.fresh[0]? = some (.returnAddress caller) ∧
      Genuine code recorded state move.floor caller)
    (handler : ∀ target markerDepth,
      move.layer = .region (.catch_ target markerDepth) → recorded target.toNat
        { state.below (markerDepth - 1) with depth := markerDepth }) :
    Describes code recorded move.next
      ⟨pc, move.stack machine, move.next.regions⟩ where
  depth := by
    rw [move.stack_length describes]
    exact raise_depth.symm
  regions := rfl
  plain := by
    intro index inside plain
    rcases Nat.lt_or_ge index move.floor with under | above
    · rw [move.stack_lt describes under]
      apply describes.plain index (under.trans_le move.cut.within)
      exact Plain.of_raise move.cut under plain
    · obtain ⟨_, rfl⟩ := Nat.exists_eq_add_of_le above
      rw [move.stack_ge describes]
      apply move.plain
      · exact Plain.height_le above move.fits plain
      · have depth : move.next.depth = move.floor + move.fresh.length :=
          raise_depth
        omega
  pairs := by
    intro base member
    rcases mem_bases_raise member with old | ⟨added, rfl⟩
    · obtain ⟨known, under⟩ := mem_bases_below.mp old
      rw [move.stack_lt describes (by omega), move.stack_lt describes (by omega)]
      exact describes.pairs base known
    · obtain ⟨first, second⟩ := move.pair added
      have start := move.stack_ge describes 0
      rw [Nat.add_zero] at start
      rw [start, move.stack_ge describes 1]
      exact ⟨first, second⟩
  callers := by
    intro place member
    rcases mem_addresses_raise member with old | ⟨added, rfl⟩
    · obtain ⟨known, under⟩ := mem_addresses_below.mp old
      obtain ⟨caller, slot, genuine⟩ := describes.callers place known
      rw [move.stack_lt describes under]
      exact ⟨caller, slot, genuine.move under.le⟩
    · obtain ⟨caller, slot, genuine⟩ := address added
      have start := move.stack_ge describes 0
      rw [Nat.add_zero] at start
      rw [start]
      exact ⟨caller, slot, genuine.move le_rfl⟩
  handlers := by
    intro target markerDepth member
    rcases mem_regions_raise member with old | added
    · obtain ⟨known, under⟩ := mem_regions_below.mp old
      have low : markerDepth - 1 ≤ move.floor := by
        have marker : markerDepth ≤ move.floor := under
        omega
      rw [move.below_next low]
      exact describes.handlers target markerDepth known
    · have base : markerDepth - 1 = move.floor := by
        have fits := move.fits
        rw [added] at fits
        exact fits.2
      rw [move.below_next base.le]
      exact handler target markerDepth added

end QuickJsOxide.Bytecode
