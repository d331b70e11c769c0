import QuickJsOxide.Bytecode.Machine

namespace QuickJsOxide.Bytecode

open List

/-! The layers of a symbolic stack: unwind regions, return addresses and
super-call pairs occupy disjoint stretches of the stack, and every instruction
keeps the layers under some floor and puts at most one new layer on it. -/

namespace UnwindRegionState

def base : UnwindRegionState → Nat
  | .catch_ _ markerDepth => markerDepth - 1
  | .iterator recordBase _ _ _ => recordBase

def WellFormed : UnwindRegionState → Prop
  | .catch_ _ markerDepth => 1 ≤ markerDepth
  | .iterator recordBase markerDepth _ _ => markerDepth = recordBase + 3

theorem WellFormed.base_lt {region : UnwindRegionState}
    (wellFormed : region.WellFormed) : region.base < region.markerDepth := by
  cases region with
  | catch_ _ markerDepth =>
    have positive : 1 ≤ markerDepth := wellFormed
    simp only [base, UnwindRegionState.markerDepth]
    omega
  | iterator recordBase markerDepth =>
    have exact : markerDepth = recordBase + 3 := wellFormed
    simp only [base, UnwindRegionState.markerDepth]
    omega

end UnwindRegionState

namespace VerificationState

structure WellLayered (state : VerificationState) : Prop where
  regionsFormed : ∀ region ∈ state.regions, region.WellFormed
  regionsWithin : ∀ region ∈ state.regions, region.markerDepth ≤ state.depth
  regionsSorted : state.regions.Pairwise fun inner outer =>
    outer.markerDepth ≤ inner.base
  addressesWithin : ∀ address ∈ state.returnAddresses, address < state.depth
  addressesSorted : state.returnAddresses.Pairwise fun upper lower =>
    lower < upper
  basesWithin : ∀ base ∈ state.superCallBases, base + 2 ≤ state.depth
  basesSorted : state.superCallBases.Pairwise fun inner outer =>
    outer + 2 ≤ inner
  regionsAddresses : ∀ region ∈ state.regions,
    ∀ address ∈ state.returnAddresses,
      address < region.base ∨ region.markerDepth ≤ address
  regionsBases : ∀ region ∈ state.regions, ∀ base ∈ state.superCallBases,
    base + 2 ≤ region.base ∨ region.markerDepth ≤ base
  addressesBases : ∀ address ∈ state.returnAddresses,
    ∀ base ∈ state.superCallBases, address < base ∨ base + 2 ≤ address

def below (state : VerificationState) (height : Nat) : VerificationState where
  depth := height
  regions := state.regions.filter (·.markerDepth ≤ height)
  returnAddresses := state.returnAddresses.filter (· < height)
  superCallBases := state.superCallBases.filter (· + 2 ≤ height)

def Plain (state : VerificationState) (index : Nat) : Prop :=
  index ∉ state.returnAddresses ∧
  (∀ region ∈ state.regions, index < region.base ∨ region.markerDepth ≤ index) ∧
  ∀ base ∈ state.superCallBases, index < base ∨ base + 2 ≤ index

structure Cut (state : VerificationState) (floor : Nat) : Prop where
  within : floor ≤ state.depth
  regions : ∀ region ∈ state.regions,
    region.markerDepth ≤ floor ∨ floor ≤ region.base
  bases : ∀ base ∈ state.superCallBases, base + 2 ≤ floor ∨ floor ≤ base

variable {state : VerificationState}

theorem below_below (ordered : low ≤ high) :
    (state.below high).below low = state.below low := by
  unfold below
  simp only [filter_filter, mk.injEq, true_and]
  refine ⟨?_, ?_, ?_⟩
  all_goals
    apply filter_congr
    intro layer _
    simp only [← Bool.decide_and, decide_eq_decide]
    omega

theorem WellLayered.below (layered : state.WellLayered) (height : Nat) :
    (state.below height).WellLayered where
  regionsFormed region member :=
    layered.regionsFormed region (mem_of_mem_filter member)
  regionsWithin _ member :=
    of_decide_eq_true (mem_filter.mp member).2
  regionsSorted := layered.regionsSorted.filter _
  addressesWithin _ member :=
    of_decide_eq_true (mem_filter.mp member).2
  addressesSorted := layered.addressesSorted.filter _
  basesWithin _ member :=
    of_decide_eq_true (mem_filter.mp member).2
  basesSorted := layered.basesSorted.filter _
  regionsAddresses region member address inside :=
    layered.regionsAddresses region (mem_of_mem_filter member)
      address (mem_of_mem_filter inside)
  regionsBases region member base inside :=
    layered.regionsBases region (mem_of_mem_filter member)
      base (mem_of_mem_filter inside)
  addressesBases address member base inside :=
    layered.addressesBases address (mem_of_mem_filter member)
      base (mem_of_mem_filter inside)

theorem WellLayered.deepen (layered : state.WellLayered) {depth : Nat}
    (deeper : state.depth ≤ depth) :
    ({ state with depth } : VerificationState).WellLayered :=
  { layered with
    regionsWithin := fun region member =>
      (layered.regionsWithin region member).trans deeper
    addressesWithin := fun address member =>
      (layered.addressesWithin address member).trans_le deeper
    basesWithin := fun base member =>
      (layered.basesWithin base member).trans deeper }

end VerificationState

/-- What an instruction puts on its floor, besides plain values. -/
inductive Layer where
  | bare
  | region (added : UnwindRegionState)
  | pair
  | address

namespace Layer

def height (floor : Nat) : Layer → Nat
  | .bare => floor
  | .region added => added.markerDepth
  | .pair => floor + 2
  | .address => floor + 1

def Fits (floor : Nat) : Layer → Prop
  | .region added => added.WellFormed ∧ added.base = floor
  | _ => True

theorem Fits.le_height {layer : Layer} (fits : layer.Fits floor) :
    floor ≤ layer.height floor := by
  cases layer with
  | bare => exact Nat.le_refl floor
  | region =>
    have above := fits.1.base_lt
    rw [fits.2] at above
    exact above.le
  | pair => exact Nat.le_add_right floor 2
  | address => exact Nat.le_add_right floor 1

end Layer

namespace VerificationState

def raise (state : VerificationState) (floor depth : Nat) :
    Layer → VerificationState
  | .bare => { state.below floor with depth }
  | .region region => { state.below floor with
      depth, regions := region :: (state.below floor).regions }
  | .pair => { state.below floor with
      depth, superCallBases := floor :: (state.below floor).superCallBases }
  | .address => { state.below floor with
      depth, returnAddresses := floor :: (state.below floor).returnAddresses }

variable {state : VerificationState} {depth : Nat}

@[simp] theorem raise_depth : (state.raise floor depth layer).depth = depth := by
  cases layer <;> rfl

variable {region : UnwindRegionState}

theorem mem_regions_below : region ∈ (state.below floor).regions ↔
      region ∈ state.regions ∧ region.markerDepth ≤ floor := by
  simp [below]

theorem mem_addresses_below : address ∈ (state.below floor).returnAddresses ↔
      address ∈ state.returnAddresses ∧ address < floor := by
  simp [below]

theorem mem_bases_below : base ∈ (state.below floor).superCallBases ↔
      base ∈ state.superCallBases ∧ base + 2 ≤ floor := by
  simp [below]

theorem mem_regions_raise
    (member : region ∈ (state.raise floor depth layer).regions) :
    region ∈ (state.below floor).regions ∨ layer = .region region := by
  cases layer with
  | region =>
    rcases mem_cons.mp member with rfl | inside
    · exact .inr rfl
    · exact .inl inside
  | bare | pair | address => exact .inl member

theorem mem_addresses_raise
    (member : address ∈ (state.raise floor depth layer).returnAddresses) :
    address ∈ (state.below floor).returnAddresses ∨
      layer = .address ∧ address = floor := by
  cases layer with
  | address =>
    rcases mem_cons.mp member with rfl | inside
    · exact .inr ⟨rfl, rfl⟩
    · exact .inl inside
  | bare | region | pair => exact .inl member

theorem mem_bases_raise
    (member : base ∈ (state.raise floor depth layer).superCallBases) :
    base ∈ (state.below floor).superCallBases ∨
      layer = .pair ∧ base = floor := by
  cases layer with
  | pair =>
    rcases mem_cons.mp member with rfl | inside
    · exact .inr ⟨rfl, rfl⟩
    · exact .inl inside
  | bare | region | address => exact .inl member

theorem below_raise {low : Nat} (fits : layer.Fits floor)
    (ordered : low ≤ floor) :
    (state.raise floor depth layer).below low = state.below low := by
  refine Eq.trans ?_ (below_below ordered)
  cases layer with
  | bare => rfl
  | region region =>
    have above := fits.1.base_lt
    rw [fits.2] at above
    have outside : ¬ region.markerDepth ≤ low := by omega
    simp [raise, below, outside]
  | pair =>
    have outside : ¬ floor + 2 ≤ low := by omega
    simp [raise, below, outside]
  | address =>
    have outside : ¬ floor < low := by omega
    simp [raise, below, outside]

theorem WellLayered.raise (layered : state.WellLayered)
    (fits : layer.Fits floor) (room : layer.height floor ≤ depth) :
    (state.raise floor depth layer).WellLayered := by
  have kept := layered.below floor
  have deeper : (state.below floor).depth ≤ depth :=
    fits.le_height.trans room
  have base := kept.deepen deeper
  cases layer with
  | bare => exact base
  | region region =>
    have under : ∀ outer ∈ (state.below floor).regions,
        outer.markerDepth ≤ region.base := by
      intro outer member
      rw [fits.2]
      exact kept.regionsWithin outer member
    exact { base with
      regionsFormed := forall_mem_cons.mpr ⟨fits.1, base.regionsFormed⟩
      regionsWithin := forall_mem_cons.mpr ⟨room, base.regionsWithin⟩
      regionsSorted := pairwise_cons.mpr ⟨under, base.regionsSorted⟩
      regionsAddresses := forall_mem_cons.mpr
        ⟨fun address member => .inl (by
          rw [fits.2]
          exact kept.addressesWithin address member),
        base.regionsAddresses⟩
      regionsBases := forall_mem_cons.mpr
        ⟨fun pair member => .inl (by
          rw [fits.2]
          exact kept.basesWithin pair member),
        base.regionsBases⟩ }
  | pair =>
    exact { base with
      basesWithin := forall_mem_cons.mpr ⟨room, base.basesWithin⟩
      basesSorted := pairwise_cons.mpr
        ⟨kept.basesWithin, base.basesSorted⟩
      regionsBases := fun region member => forall_mem_cons.mpr
        ⟨.inr (kept.regionsWithin region member),
          base.regionsBases region member⟩
      addressesBases := fun address member => forall_mem_cons.mpr
        ⟨.inl (kept.addressesWithin address member),
          base.addressesBases address member⟩ }
  | address =>
    exact { base with
      addressesWithin := forall_mem_cons.mpr
        ⟨room, base.addressesWithin⟩
      addressesSorted := pairwise_cons.mpr
        ⟨kept.addressesWithin, base.addressesSorted⟩
      regionsAddresses := fun region member => forall_mem_cons.mpr
        ⟨.inr (kept.regionsWithin region member),
          base.regionsAddresses region member⟩
      addressesBases := forall_mem_cons.mpr
        ⟨fun pair member => .inr (kept.basesWithin pair member),
          base.addressesBases⟩ }

theorem Plain.of_raise (cut : state.Cut floor) (under : index < floor)
    (plain : (state.raise floor depth layer).Plain index) :
    state.Plain index := by
  have kept : (state.below floor).Plain index := by
    obtain ⟨addresses, regions, bases⟩ := plain
    cases layer with
    | bare => exact ⟨addresses, regions, bases⟩
    | region =>
      exact ⟨addresses, (forall_mem_cons.mp regions).2, bases⟩
    | pair => exact ⟨addresses, regions, (forall_mem_cons.mp bases).2⟩
    | address =>
      exact ⟨fun member => addresses (mem_cons_of_mem floor member),
        regions, bases⟩
  obtain ⟨addresses, regions, bases⟩ := kept
  refine ⟨fun member => ?_, fun region member => ?_, fun base member => ?_⟩
  · exact addresses (mem_addresses_below.mpr ⟨member, under⟩)
  · rcases cut.regions region member with low | high
    · exact regions region (mem_regions_below.mpr ⟨member, low⟩)
    · exact .inl (under.trans_le high)
  · rcases cut.bases base member with low | high
    · exact bases base (mem_bases_below.mpr ⟨member, low⟩)
    · exact .inl (under.trans_le high)

theorem Plain.height_le (above : floor ≤ index) (fits : layer.Fits floor)
    (plain : (state.raise floor depth layer).Plain index) :
    layer.height floor ≤ index := by
  obtain ⟨addresses, regions, bases⟩ := plain
  cases layer with
  | bare => exact above
  | region =>
    rcases (forall_mem_cons.mp regions).1 with low | high
    · rw [fits.2] at low
      omega
    · exact high
  | pair =>
    rcases (forall_mem_cons.mp bases).1 with low | high
    · omega
    · exact high
  | address =>
    have different : index ≠ floor := by
      intro same
      apply addresses
      rw [same]
      exact mem_cons_self
    show floor + 1 ≤ index
    omega

theorem forall_of_head {items : List α} {bound : α → Prop}
    (sorted : items.Pairwise inside)
    (passes : ∀ inner ∈ items, ∀ outer, inside inner outer → bound inner →
      bound outer) (head : ∀ item ∈ items.head?, bound item) :
    ∀ item ∈ items, bound item := by
  cases items with
  | nil => simp
  | cons inner =>
    have innermost := head inner rfl
    exact forall_mem_cons.mpr ⟨innermost, fun outer member =>
      passes inner mem_cons_self outer
        ((pairwise_cons.mp sorted).1 outer member) innermost⟩

theorem mem_regions_head (hregions : state.regions = region :: outer) :
    region ∈ state.regions := by
  rw [hregions]
  exact mem_cons_self

variable (layered : state.WellLayered)

include layered

theorem WellLayered.regions_le
    (head : ∀ region ∈ state.regions.head?, region.markerDepth ≤ floor) :
    ∀ region ∈ state.regions, region.markerDepth ≤ floor := by
  refine forall_of_head layered.regionsSorted ?_ head
  intro inner member outer under low
  exact under.trans ((layered.regionsFormed inner member).base_lt.le.trans low)

theorem WellLayered.addresses_lt
    (head : ∀ address ∈ state.returnAddresses.head?, address < floor) :
    ∀ address ∈ state.returnAddresses, address < floor :=
  forall_of_head layered.addressesSorted
    (fun _ _ _ under low => under.trans low) head

theorem WellLayered.bases_le
    (head : ∀ base ∈ state.superCallBases.head?, base + 2 ≤ floor) :
    ∀ base ∈ state.superCallBases, base + 2 ≤ floor := by
  refine forall_of_head layered.basesSorted ?_ head
  intro inner _ outer under low
  omega

theorem WellLayered.address_lt_base (here : region ∈ state.regions)
    (member : address ∈ state.returnAddresses)
    (under : address < region.markerDepth) : address < region.base := by
  rcases layered.regionsAddresses region here address member with low | high
  · exact low
  · omega

theorem WellLayered.pair_le_base (here : region ∈ state.regions)
    (member : base ∈ state.superCallBases) (under : base < region.markerDepth) :
    base + 2 ≤ region.base := by
  rcases layered.regionsBases region here base member with low | high
  · exact low
  · omega

theorem WellLayered.cut_base (hregions : state.regions = region :: outer) :
    state.Cut region.base := by
  have here := mem_regions_head hregions
  have formed := (layered.regionsFormed region here).base_lt
  have sorted := layered.regionsSorted
  rw [hregions, pairwise_cons] at sorted
  refine ⟨?_, fun other member => ?_, fun base member => ?_⟩
  · exact formed.le.trans (layered.regionsWithin region here)
  · rw [hregions] at member
    rcases mem_cons.mp member with rfl | outside
    · exact .inr le_rfl
    · exact .inl (sorted.1 other outside)
  · rcases layered.regionsBases region here base member with low | high
    · exact .inl low
    · exact .inr (formed.le.trans high)

theorem WellLayered.regions_below_base
    (hregions : state.regions = region :: outer) :
    (state.below region.base).regions = outer := by
  have sorted := layered.regionsSorted
  have formed :=
    (layered.regionsFormed region (mem_regions_head hregions)).base_lt
  rw [hregions, pairwise_cons] at sorted
  unfold VerificationState.below
  rw [hregions, filter_cons_of_neg (by simpa using formed)]
  apply filter_eq_self.mpr
  intro other member
  simpa using sorted.1 other member

theorem WellLayered.head_of_top
    (member : state.depth - 1 ∈ state.returnAddresses) :
    state.returnAddresses.head? = some (state.depth - 1) := by
  have within := layered.addressesWithin
  have sorted := layered.addressesSorted
  cases haddresses : state.returnAddresses with
  | nil =>
    rw [haddresses] at member
    cases member
  | cons upper =>
    rw [haddresses] at member within sorted
    rcases mem_cons.mp member with top | inside
    · rw [top]
      rfl
    · have under := (pairwise_cons.mp sorted).1 _ inside
      have bound := within upper mem_cons_self
      omega

omit layered

theorem addresses_below_eq
    (addresses : ∀ address ∈ state.returnAddresses, address < floor) :
    (state.below floor).returnAddresses = state.returnAddresses := by
  apply filter_eq_self.mpr
  simpa using addresses

theorem bases_below_eq
    (bases : ∀ base ∈ state.superCallBases, base + 2 ≤ floor) :
    (state.below floor).superCallBases = state.superCallBases := by
  apply filter_eq_self.mpr
  simpa using bases

section

variable (regions : ∀ region ∈ state.regions, region.markerDepth ≤ floor)

include regions

theorem regions_below_eq : (state.below floor).regions = state.regions := by
  apply filter_eq_self.mpr
  simpa using regions

theorem below_eq
    (addresses : ∀ address ∈ state.returnAddresses, address < floor)
    (bases : ∀ base ∈ state.superCallBases, base + 2 ≤ floor) :
    state.below floor = { state with depth := floor } := by
  rw [← regions_below_eq regions, ← addresses_below_eq addresses,
    ← bases_below_eq bases]
  rfl

end

theorem below_depth (layered : state.WellLayered) :
    state.below state.depth = state :=
  below_eq layered.regionsWithin layered.addressesWithin layered.basesWithin

end VerificationState

end QuickJsOxide.Bytecode
