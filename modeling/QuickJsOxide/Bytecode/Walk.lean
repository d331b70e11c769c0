import QuickJsOxide.Bytecode.Verifier

namespace QuickJsOxide.Bytecode

open Library CompactVisits List

/-! What a successful verification has established: a table of symbolic states
that is closed under the successors of every instruction. -/

theorem recordMaximumDepth_eq_ok {maximum depth declared result : Nat} :
    recordMaximumDepth maximum depth declared = .ok result ↔
      max maximum depth ≤ declared ∧ result = max maximum depth := by
  unfold recordMaximumDepth
  rw [ensure_bind_eq_ok, pure_eq_ok, eq_comm]

theorem validateTarget_eq_ok : validateTarget target codeLen = .ok result ↔
      target.toNat < codeLen ∧ result = target.toNat := by
  unfold validateTarget
  rw [ensure_bind_eq_ok, pure_eq_ok, eq_comm]

theorem fallthrough_eq_ok : fallthrough pc codeLen = .ok result ↔
      pc + 1 < codeLen ∧ result = pc + 1 := by
  unfold fallthrough
  rw [ensure_bind_eq_ok, pure_eq_ok, eq_comm]

/-! Visits refine a partial map from instructions to states. -/

namespace CompactVisits

def recorded (visits : CompactVisits) (pc : Nat) : Option VerificationState :=
  match visits.depths[pc]? with
  | none => none
  | some depth =>
    if depth = unvisited then
      none
    else
      some
        { depth
          regions := (visits.previous pc).elim [] (·.regions)
          returnAddresses := (visits.previous pc).elim [] (·.returnAddresses)
          superCallBases := (visits.previous pc).elim [] (·.superCallBases) }

/-- Full states exist for all instructions or for none, and only visited
instructions have one. -/
structure Valid (visits : CompactVisits) : Prop where
  length : ∀ states, visits.exceptional = some states →
    states.length = visits.depths.length
  fresh : ∀ pc, visits.depths[pc]? = some unvisited → visits.previous pc = none

theorem valid_new (length : Nat) : (new length).Valid where
  length states exceptional := by cases exceptional
  fresh pc _ := rfl

theorem recorded_new (length pc : Nat) : (new length).recorded pc = none := by
  unfold recorded new
  simp only [getElem?_replicate]
  split
  · rfl
  · rename_i depth found
    split at found
    · cases found
      simp
    · cases found

variable {visits : CompactVisits} {state : VerificationState}

def states (visits : CompactVisits) : List (Option VerificationState) :=
  visits.exceptional.getD (replicate visits.depths.length none)

theorem Valid.states_length (valid : visits.Valid) :
    visits.states.length = visits.depths.length := by
  unfold states
  cases exceptional : visits.exceptional with
  | none => simp
  | some states => exact valid.length states exceptional

theorem previous_eq_states (pc : Nat) :
    visits.previous pc = visits.states[pc]?.join := by
  unfold previous states
  cases visits.exceptional with
  | none =>
    simp only [Option.bind_none, Option.getD_none, getElem?_replicate]
    split <;> rfl
  | some => rfl

theorem previous_record_ne (different : other ≠ pc) :
    (visits.record pc state).previous other = visits.previous other := by
  unfold record
  split
  · rfl
  · change (visits.states.set pc (some state))[other]?.join = _
    rw [getElem?_set_ne (Ne.symm different), previous_eq_states]

theorem depths_record : (visits.record pc state).depths =
    visits.depths.set pc state.depth := by
  unfold record
  split <;> rfl

theorem recorded_record_ne (different : other ≠ pc) :
    (visits.record pc state).recorded other = visits.recorded other := by
  unfold recorded
  rw [depths_record, getElem?_set_ne (Ne.symm different),
    previous_record_ne different]

theorem recorded_record (valid : visits.Valid)
    (free : visits.depths[pc]? = some unvisited)
    (bounded : state.depth < unvisited) :
    (visits.record pc state).recorded pc = some state := by
  have inside : pc < visits.depths.length := by
    by_contra outside
    rw [List.getElem?_eq_none (Nat.le_of_not_lt outside)] at free
    cases free
  have depth : (visits.record pc state).depths[pc]? = some state.depth := by
    rw [depths_record, List.getElem?_set_self inside]
  unfold recorded
  rw [depth]
  simp only [if_neg bounded.ne]
  by_cases bare : (state.regions.isEmpty && state.returnAddresses.isEmpty &&
      state.superCallBases.isEmpty) = true
  · have previous : (visits.record pc state).previous pc = none := by
      unfold record
      rw [if_pos bare]
      exact valid.fresh pc free
    rw [previous]
    simp only [Bool.and_eq_true, List.isEmpty_iff] at bare
    obtain ⟨⟨regions, addresses⟩, bases⟩ := bare
    cases state
    simp only at regions addresses bases
    rw [regions, addresses, bases]
    rfl
  · have previous : (visits.record pc state).previous pc = some state := by
      unfold record
      rw [if_neg bare]
      change (visits.states.set pc (some state))[pc]?.join = _
      rw [List.getElem?_set_self (valid.states_length ▸ inside)]
      rfl
    rw [previous]
    rfl

theorem Valid.record (valid : visits.Valid) (bounded : state.depth < unvisited) :
    (visits.record pc state).Valid where
  length states exceptional := by
    rw [depths_record, length_set]
    unfold CompactVisits.record at exceptional
    split at exceptional
    · exact valid.length states exceptional
    · cases exceptional
      rw [length_set]
      exact valid.states_length
  fresh other free := by
    by_cases same : other = pc
    · subst same
      rw [depths_record] at free
      rw [getElem?_set_self'] at free
      cases inside : visits.depths[other]? with
      | none =>
        rw [inside] at free
        cases free
      | some =>
        rw [inside] at free
        simp only [Functor.map, Option.map, Function.const,
          Option.some.injEq] at free
        omega
    · rw [previous_record_ne same]
      rw [depths_record, getElem?_set_ne (Ne.symm same)] at free
      exact valid.fresh other free

theorem visit_first {after : CompactVisits}
    (visited : visits.visit pc state = .ok (true, after)) :
    visits.depths[pc]? = some unvisited ∧ after = visits.record pc state := by
  unfold visit at visited
  split at visited
  · cases visited
  · rename_i depth found
    split at visited
    · unfold revisit at visited
      simp only [ensure_bind_eq_ok, pure_eq_ok] at visited
      simp at visited
    · rename_i fresh
      cases visited
      have same : depth = unvisited := not_not.mp fresh
      exact ⟨found.trans (congrArg some same), rfl⟩

theorem visit_again {after : CompactVisits}
    (visited : visits.visit pc state = .ok (false, after)) :
    visits.recorded pc = some state ∧ after = visits := by
  unfold visit at visited
  split at visited
  · cases visited
  · rename_i depth found
    split at visited
    · rename_i known
      unfold revisit at visited
      simp only [ensure_bind_eq_ok, pure_eq_ok, Prod.mk.injEq,
        true_and] at visited
      obtain ⟨depths, regions, addresses, bases, rfl⟩ := visited
      refine ⟨?_, rfl⟩
      unfold recorded
      rw [found]
      simp only [if_neg known]
      rw [depths, regions, addresses, bases]
    · cases visited

theorem recorded_unvisited (free : visits.depths[pc]? = some unvisited) :
    visits.recorded pc = none := by
  unfold recorded
  rw [free]
  simp

end CompactVisits

def ControlEffect.successors (pc : Nat) (state next : VerificationState) :
    ControlEffect → List WorkItem
  | .return_ | .tailCall | .throw | .ret => []
  | .jump target => [(target.toNat, next)]
  | .branch target => [(target.toNat, next), (pc + 1, next)]
  | .catch_ target =>
    [(target.toNat, { state with depth := next.depth }),
      (pc + 1, { next with
        regions := .catch_ target next.depth :: next.regions })]
  | .gosub target =>
    [(target.toNat, { state with
        depth := state.depth + 1
        returnAddresses := state.depth :: state.returnAddresses }),
      (pc + 1, next)]
  | .next | .suspend => [(pc + 1, next)]

/-- What stands for every instruction of the same control effect. -/
def ControlEffect.instruction : ControlEffect → Instruction
  | .return_ | .tailCall | .throw | .ret => .return_
  | .jump target => .goto target
  | .branch target => .ifFalse target
  | .catch_ handler => .catch_ handler
  | .gosub target => .gosub target
  | .next | .suspend => .undefined

theorem enqueue_eq (instruction : Instruction) (pc codeLen declared : Nat)
    (state next : VerificationState) (maximum : Nat) :
    enqueue instruction pc codeLen declared state next maximum =
      enqueue instruction.controlEffect.instruction pc codeLen declared state
        next maximum := by
  cases instruction <;> rfl

theorem enqueue_eq_ok {state next : VerificationState}
    (enqueued : enqueue instruction pc codeLen declared state next low =
      .ok (found, high)) :
    found = instruction.controlEffect.successors pc state next ∧
      low ≤ high := by
  rw [enqueue_eq] at enqueued
  generalize instruction.controlEffect = control at enqueued ⊢
  cases control
  case return_ | tailCall | throw | ret =>
    cases enqueued
    exact ⟨rfl, le_rfl⟩
  all_goals
    simp only [ControlEffect.instruction, enqueue, bind_eq_ok, pure_eq_ok,
      Prod.mk.injEq, validateTarget_eq_ok, fallthrough_eq_ok,
      recordMaximumDepth_eq_ok] at enqueued
  case branch =>
    obtain ⟨_, ⟨-, rfl⟩, _, ⟨-, rfl⟩, rfl, rfl⟩ := enqueued
    exact ⟨rfl, le_rfl⟩
  case catch_ | gosub =>
    obtain ⟨_, ⟨-, rfl⟩, _, ⟨-, rfl⟩, _, ⟨-, rfl⟩, rfl, rfl⟩ := enqueued
    exact ⟨rfl, le_max_left _ _⟩
  all_goals
    obtain ⟨_, ⟨-, rfl⟩, rfl, rfl⟩ := enqueued
    exact ⟨rfl, le_rfl⟩

theorem ControlEffect.successors_length (control : ControlEffect) (pc : Nat)
    (state next : VerificationState) :
    (control.successors pc state next).length ≤ 2 := by
  cases control <;> simp [successors]

def Expands (code : List Instruction) (item : WorkItem)
    (successors : List WorkItem) : Prop :=
  ∃ instruction next, code[item.1]? = some instruction ∧
    transfer instruction item.2 = .ok next ∧
    successors = instruction.controlEffect.successors item.1 item.2 next

theorem Expands.unique (first : Expands code item left)
    (second : Expands code item right) : left = right := by
  obtain ⟨_, _, present, transferred, rfl⟩ := first
  obtain ⟨_, _, present', transferred', rfl⟩ := second
  cases present.symm.trans present'
  cases transferred.symm.trans transferred'
  rfl

structure VerifierTable.Recorded (code : List Instruction)
    (table : VerifierTable) (item : WorkItem) : Prop where
  state : table.visits.recorded item.1 = some item.2
  bounded : item.2.depth ≤ table.maximum
  expanded : ∃ successors, Expands code item successors

def Follows (code : List Instruction) (item successor : WorkItem) : Prop :=
  ∃ successors, Expands code item successors ∧ successor ∈ successors

theorem expand_eq_ok {declared pc low : Nat}
    (expanded : expand code declared pc state visits low = .ok (found, table)) :
    Expands code (pc, state) found ∧ table.visits = visits ∧
      low ≤ table.maximum := by
  unfold expand at expanded
  split at expanded
  · cases expanded
  · rename_i instruction present
    simp only [bind_eq_ok, pure_eq_ok, recordMaximumDepth_eq_ok] at expanded
    obtain ⟨next, transferred, _, ⟨-, rfl⟩, ⟨items, high⟩, enqueued, same⟩ :=
      expanded
    cases same
    obtain ⟨successors, grown⟩ := enqueue_eq_ok enqueued
    exact ⟨⟨instruction, next, present, transferred, successors⟩, rfl,
      (le_max_left _ _).trans grown⟩

variable {table after : VerifierTable}

theorem processItem_eq_ok
    (processed : processItem code declared table item = .ok (found, after)) :
    item.2.depth ≤ declared ∧ table.maximum ≤ after.maximum ∧
    item.2.depth ≤ after.maximum ∧
    ((table.visits.recorded item.1 = some item.2 ∧ found = [] ∧
        after.visits = table.visits) ∨
      (table.visits.depths[item.1]? = some unvisited ∧
        after.visits = table.visits.record item.1 item.2 ∧
        Expands code item found)) := by
  unfold processItem at processed
  simp only [bind_eq_ok, recordMaximumDepth_eq_ok] at processed
  obtain ⟨_, ⟨enough, rfl⟩, ⟨first, visits⟩, visited, rest⟩ := processed
  have deep : item.2.depth ≤ declared := (le_max_right _ _).trans enough
  cases first with
  | false =>
    obtain ⟨known, rfl⟩ := visit_again visited
    cases rest
    exact ⟨deep, le_max_left _ _, le_max_right _ _, .inl ⟨known, rfl, rfl⟩⟩
  | true =>
    obtain ⟨free, rfl⟩ := visit_first visited
    obtain ⟨expands, same, grown⟩ := expand_eq_ok rest
    exact ⟨deep, (le_max_left _ _).trans grown, (le_max_right _ _).trans grown,
      .inr ⟨free, same, expands⟩⟩

theorem lt_unvisited (small : declared ≤ maxStackSize)
    (bounded : depth ≤ declared) : depth < unvisited := by
  have limit : maxStackSize < unvisited := by decide
  omega

structure VerifierTable.Valid (code : List Instruction)
    (table : VerifierTable) : Prop where
  visits : table.visits.Valid
  complete : ∀ pc state, table.visits.recorded pc = some state →
    table.Recorded code (pc, state)

theorem VerifierTable.Recorded.grows (known : table.Recorded code other)
    (processed : processItem code declared table item = .ok (found, after)) :
    after.Recorded code other := by
  obtain ⟨-, grown, -, outcome⟩ := processItem_eq_ok processed
  refine ⟨?_, known.bounded.trans grown, known.expanded⟩
  rcases outcome with ⟨-, -, same⟩ | ⟨free, recorded, -⟩
  · rw [same]
    exact known.state
  · have different : other.1 ≠ item.1 := by
      intro same
      have missing := recorded_unvisited free
      rw [← same, known.state] at missing
      cases missing
    rw [recorded, recorded_record_ne different]
    exact known.state

theorem records (code : List Instruction) (small : declared ≤ maxStackSize) :
    Worklist.Records (processItem code declared) (VerifierTable.Valid code)
      (VerifierTable.Recorded code) (Follows code) where
  keeps := by
    intro table item found after valid processed
    obtain ⟨deep, grown, high, outcome⟩ := processItem_eq_ok processed
    rcases outcome with ⟨-, -, same⟩ | ⟨free, recorded, expands⟩
    · refine ⟨same ▸ valid.visits, fun pc state known => ?_⟩
      rw [same] at known
      exact (valid.complete pc state known).grows processed
    · have bounded := lt_unvisited small deep
      have stored := recorded_record valid.visits free bounded
      refine ⟨recorded ▸ valid.visits.record bounded, fun pc state known => ?_⟩
      rw [recorded] at known
      by_cases here : pc = item.1
      · subst here
        rw [stored] at known
        cases known
        exact ⟨recorded ▸ stored, high, found, expands⟩
      · rw [recorded_record_ne here] at known
        exact (valid.complete pc state known).grows processed
  grows := by
    intro table item found after other _ processed known
    exact known.grows processed
  records := by
    intro table item found after valid processed
    obtain ⟨deep, -, high, outcome⟩ := processItem_eq_ok processed
    rcases outcome with ⟨known, -, -⟩ | ⟨free, recorded, expands⟩
    · exact (valid.complete item.1 item.2 known).grows processed
    · refine ⟨?_, high, found, expands⟩
      rw [recorded]
      exact recorded_record valid.visits free
        (lt_unvisited small deep)
  expands := by
    intro table item found after other successor valid processed known fresh
      next
    obtain ⟨deep, -, -, outcome⟩ := processItem_eq_ok processed
    rcases outcome with ⟨-, -, same⟩ | ⟨free, recorded, expands⟩
    · have old : table.visits.recorded other.1 = some other.2 :=
        same ▸ known.state
      exact (fresh (valid.complete other.1 other.2 old)).elim
    · have here : other.1 = item.1 := by
        by_contra different
        apply fresh
        apply valid.complete
        rw [← recorded_record_ne different, ← recorded]
        exact known.state
      have same : other = item := by
        have stored := recorded_record valid.visits free
          (lt_unvisited small deep)
        rw [← recorded, ← here, known.state] at stored
        exact Prod.ext here (Option.some.inj stored)
      subst same
      obtain ⟨_, expanded, member⟩ := next
      exact expands.unique expanded ▸ member

def VerifierTable.potential (table : VerifierTable) : Nat :=
  2 * table.visits.depths.count unvisited

theorem processItem_pays (small : declared ≤ maxStackSize)
    (processed : processItem code declared table item = .ok (found, after)) :
    found.length + after.potential ≤ table.potential := by
  obtain ⟨deep, -, -, outcome⟩ := processItem_eq_ok processed
  unfold VerifierTable.potential
  rcases outcome with ⟨-, rfl, same⟩ | ⟨free, recorded, expands⟩
  · simp [same]
  · have few : found.length ≤ 2 := by
      obtain ⟨_, _, -, -, rfl⟩ := expands
      exact ControlEffect.successors_length _ _ _ _
    have other : item.2.depth ≠ unvisited := (lt_unvisited small deep).ne
    obtain ⟨inside, value⟩ := List.getElem?_eq_some_iff.mp free
    have present : 0 < table.visits.depths.count unvisited :=
      List.count_pos_iff.mpr (value ▸ List.getElem_mem inside)
    rw [recorded, depths_record, List.count_set inside]
    simp only [value, beq_self_eq_true, if_true, beq_iff_eq, if_neg other]
    omega

theorem walk_ne_none (code : List Instruction) (small : declared ≤ maxStackSize) :
    walk code declared ≠ .ok none := by
  apply Worklist.run_ne_none VerifierTable.potential
  · intro table item found after processed
    exact processItem_pays small processed
  · simp only [VerifierTable.potential, new, length_singleton,
      count_replicate_self]
    omega

/-- A branch out of a loop. -/
def loopCode : List Instruction :=
  [.pushTrue, .ifFalse 4, .undefined, .return_, .goto 0]

theorem walk_ne_none_loopCode :
    (walk loopCode 1).map (Option.map VerifierTable.maximum) = .ok (some 1) ∧
      walk loopCode 1 ≠ .ok none :=
  ⟨by decide +kernel, walk_ne_none loopCode (by decide)⟩

structure Solution (code : List Instruction) (maximum : Nat)
    (recorded : Nat → VerificationState → Prop) : Prop where
  start : recorded 0 initialState
  bounded : ∀ pc state, recorded pc state → state.depth ≤ maximum
  expands : ∀ pc state, recorded pc state → ∃ instruction next,
    code[pc]? = some instruction ∧ transfer instruction state = .ok next ∧
    ∀ successor ∈ instruction.controlEffect.successors pc state next,
      recorded successor.1 successor.2

theorem verifyParts_solution {constantCount declared maximum : Nat}
    (verified : verifyParts code constantCount declared = .ok maximum) :
    ∃ recorded, Solution code maximum recorded := by
  unfold verifyParts at verified
  simp only [bind_eq_ok, ensure_eq_ok] at verified
  obtain ⟨-, small, -, -, -, -, outcome, walked, rest⟩ := verified
  cases outcome with
  | none => cases rest
  | some table =>
    simp only [ensure_bind_eq_ok, pure_eq_ok] at rest
    obtain ⟨-, rfl⟩ := rest
    have valid : VerifierTable.Valid code
        ⟨new code.length, 0⟩ := by
      refine ⟨valid_new code.length, fun pc state known => ?_⟩
      rw [recorded_new] at known
      cases known
    have none : ∀ item successor : WorkItem,
        VerifierTable.Recorded code ⟨new code.length, 0⟩ item →
        Follows code item successor →
        VerifierTable.Recorded code ⟨new code.length, 0⟩
          successor ∨ successor ∈ [(0, initialState)] := by
      intro item successor known
      have impossible := known.state
      rw [recorded_new] at impossible
      cases impossible
    obtain ⟨-, covered, closed⟩ := (records code small).closed valid none walked
    refine ⟨fun pc state => table.Recorded code (pc, state), ?_, ?_, ?_⟩
    · exact covered (0, initialState) (.inr (by simp))
    · intro pc state known
      exact known.bounded
    · intro pc state known
      obtain ⟨_, instruction, next, present, transferred, rfl⟩ :=
        known.expanded
      refine ⟨instruction, next, present, transferred, ?_⟩
      intro successor member
      exact closed (pc, state) successor known
        ⟨_, ⟨instruction, next, present, transferred, rfl⟩, member⟩

end QuickJsOxide.Bytecode
