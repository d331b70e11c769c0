import Mathlib.Logic.Relation
import QuickJsOxide.RegExp.Backtracking

namespace QuickJsOxide.RegExp

/-! In Unicode mode no position lies between the halves of a surrogate pair. -/

def splitsPair (input : List UInt16) (position : Nat) : Bool :=
  0 < position && input[position - 1]?.any isHighSurrogate &&
    input[position]?.any isLowSurrogate

def Boundary (input : List UInt16) (position : Nat) : Prop :=
  position ≤ input.length ∧ splitsPair input position = false

instance (input : List UInt16) (position : Nat) :
    Decidable (Boundary input position) :=
  inferInstanceAs (Decidable (_ ∧ _))

/-- One turn of the loop of `match_back_reference`, from the positions in the
capture and in the input. -/
def ForwardTurn (input : List UInt16) (captureEnd : Nat)
    (before after : Nat × Nat) : Prop :=
  before.1 < captureEnd ∧ ∃ captured current,
    readCharacter (input.take captureEnd) before.1 true =
      some (captured, after.1) ∧
    readCharacter input before.2 true = some (current, after.2)

/-- One turn of the loop of `match_backward_back_reference`. -/
def BackwardTurn (input : List UInt16) (captureStart : Nat)
    (before after : Nat × Nat) : Prop :=
  captureStart < before.1 ∧ ∃ captured current,
    readPreviousCharacterBounded input before.1 captureStart true =
      some (captured, after.1) ∧
    readPreviousCharacterBounded input before.2 0 true = some (current, after.2)

def CapturesAligned (input : List UInt16) (cells : Cells) : Prop :=
  ∀ position, some position ∈ cells.captures → Boundary input position

/-- All positions of an attempt are boundaries, those that a comparison with a
capture passes through included. -/
structure KeepsPairs (input : List UInt16) (candidate : Nat)
    (state : MatchState) : Prop where
  candidate : Boundary input candidate
  position : Boundary input state.position
  captures : CapturesAligned input state.cells
  forward : ∀ start stop, some start ∈ state.cells.captures →
    some stop ∈ state.cells.captures → ∀ reached,
      Relation.ReflTransGen (ForwardTurn input stop) (start, state.position)
        reached →
      Boundary input reached.1 ∧ Boundary input reached.2
  backward : ∀ start stop, some start ∈ state.cells.captures →
    some stop ∈ state.cells.captures → ∀ reached,
      Relation.ReflTransGen (BackwardTurn input start) (stop, state.position)
        reached →
      Boundary input reached.1 ∧ Boundary input reached.2

/-! Reading leads from boundary to boundary. -/

section

variable {input : List UInt16}

theorem not_isLowSurrogate (high : isHighSurrogate unit = true) :
    isLowSurrogate unit = false := by
  simp only [isHighSurrogate, isLowSurrogate, Bool.and_eq_true,
    decide_eq_true_eq, Bool.and_eq_false_iff, decide_eq_false_iff_not,
    UInt16.le_iff_toNat_le] at *
  exact .inl (by simp at *; omega)

theorem boundary_zero (input : List UInt16) : Boundary input 0 :=
  ⟨Nat.zero_le _, rfl⟩

theorem readCharacter_boundary
    (read : readCharacter input position true = some (character, next)) :
    Boundary input next := by
  refine ⟨(readCharacter_next read).2, ?_⟩
  unfold readCharacter at read
  unfold splitsPair
  grind [not_isLowSurrogate]

theorem readPreviousCharacterBounded_boundary
    (hlower : Boundary input lowerBound)
    (read : readPreviousCharacterBounded input position lowerBound true =
      some (character, previous)) :
    Boundary input previous := by
  have order := readPreviousCharacterBounded_previous read
  unfold Boundary splitsPair at *
  unfold readPreviousCharacterBounded at read
  grind [not_isLowSurrogate]

theorem Boundary.of_take (hstop : Boundary input stop)
    (boundary : Boundary (input.take stop) position) :
    Boundary input position := by
  unfold Boundary splitsPair at *
  grind

theorem normalizeStart_boundary (inside : start ≤ input.length) :
    Boundary input (normalizeStart input start true) := by
  unfold Boundary splitsPair normalizeStart
  grind [not_isLowSurrogate]

variable (input) in
theorem advanceStringIndex_boundary (position : Nat) :
    Boundary input (advanceStringIndex input position true) := by
  unfold advanceStringIndex
  cases read : readCharacter input position true with
  | none =>
    refine ⟨le_rfl, ?_⟩
    simp [splitsPair]
  | some => exact readCharacter_boundary read

end

variable {input : List UInt16}

theorem forwardTurns_boundary (hstop : Boundary input stop)
    (turns : Relation.ReflTransGen (ForwardTurn input stop) before after)
    (capture : Boundary input before.1) (current : Boundary input before.2) :
    Boundary input after.1 ∧ Boundary input after.2 := by
  induction turns with
  | refl => exact ⟨capture, current⟩
  | tail _ turn =>
    obtain ⟨-, _, _, readCapture, readCurrent⟩ := turn
    exact ⟨hstop.of_take (readCharacter_boundary readCapture),
      readCharacter_boundary readCurrent⟩

theorem backwardTurns_boundary (hstart : Boundary input start)
    (turns : Relation.ReflTransGen (BackwardTurn input start) before after)
    (capture : Boundary input before.1) (current : Boundary input before.2) :
    Boundary input after.1 ∧ Boundary input after.2 := by
  induction turns with
  | refl => exact ⟨capture, current⟩
  | tail _ turn =>
    obtain ⟨-, _, _, readCapture, readCurrent⟩ := turn
    exact ⟨readPreviousCharacterBounded_boundary hstart readCapture,
      readPreviousCharacterBounded_boundary (boundary_zero input) readCurrent⟩

theorem matchForward_boundary (current : Boundary input position)
    (matched : matchForward input stop true ignoreCase capture position =
      some (some result)) : Boundary input result := by
  fun_induction matchForward input stop true ignoreCase capture position with
  | case5 _ _ _ _ _ _ _ _ readCurrent _ ih =>
    exact ih (readCharacter_boundary readCurrent) matched
  | case6 =>
    cases matched
    exact current
  | _ => cases matched

theorem matchBackward_boundary (current : Boundary input position)
    (matched : matchBackward input start true ignoreCase capture position =
      some (some result)) : Boundary input result := by
  fun_induction matchBackward input start true ignoreCase capture position with
  | case5 _ _ _ _ _ _ _ _ readCurrent _ ih =>
    exact ih (readPreviousCharacterBounded_boundary (boundary_zero input)
      readCurrent) matched
  | case6 =>
    cases matched
    exact current
  | _ => cases matched

/-! What the instructions ask for keeps to boundaries. -/

def Action.Aligned (input : List UInt16) : Action → Prop
  | .moveTo _ position => Boundary input position
  | .set entries _ => ∀ slot position,
      Undo.capture slot (some position) ∈ entries → Boundary input position
  | _ => True

section

variable {state : MatchState} (position : Boundary input state.position)

theorem consume_aligned (accepts : Nat → Option Bool) :
    (consume input true state accepts).Aligned input := by
  unfold consume
  split
  · trivial
  · rename_i read
    cases accepts _ with
    | none => trivial
    | some answer =>
      cases answer with
      | false => trivial
      | true => exact readCharacter_boundary read

include position in
theorem ofBool_aligned (pc : Nat) (answer : Option Bool) :
    (Action.ofBool pc state.position answer).Aligned input := by
  cases answer with
  | none => trivial
  | some answer =>
    cases answer with
    | false => trivial
    | true => exact position

include position in
theorem referTo_aligned (candidates : List Nat)
    {compare : Nat → Nat → Nat → Option (Option Nat)}
    (aligned : ∀ start stop result,
      compare start stop state.position = some (some result) →
      Boundary input result) :
    (referTo state candidates compare).Aligned input := by
  unfold referTo
  split
  · trivial
  · exact position
  · split
    · trivial
    · trivial
    · rename_i result
      exact aligned _ _ _ result

include position in
theorem dispatch_aligned (instruction : Instruction) :
    (dispatch input true state instruction).Aligned input := by
  cases instruction with
  | char | dot | any | space | range => exact consume_aligned _
  | lineStart | lineEnd | wordBoundary => exact ofBool_aligned position _ _
  | prev =>
    simp only [dispatch]
    split
    · trivial
    · exact readPreviousCharacterBounded_boundary (boundary_zero input) ‹_›
  | backReference candidates =>
    simp only [dispatch]
    refine referTo_aligned position candidates ?_
    intro start stop result matched
    unfold matchBackReference at matched
    split at matched
    · exact matchForward_boundary position matched
    · cases matched
  | backwardBackReference candidates =>
    refine referTo_aligned position candidates ?_
    intro start stop result matched
    exact matchBackward_boundary position matched
  | lookAhead | lookAheadEnd | split | accept => trivial
  | jump => exact position
  | saveStart | saveEnd =>
    intro slot recorded member
    cases List.mem_singleton.mp member
    exact position
  | resetCaptures | setRegister | savePosition =>
    intro slot recorded member
    simp at member
  | loop =>
    simp only [dispatch]
    split
    · trivial
    · intro slot recorded member
      simp at member
    · trivial
  | checkAdvance =>
    simp only [dispatch]
    split
    · trivial
    · exact ofBool_aligned position _ _
    · trivial

end

/-! The invariant is kept by the machine with copies, whose frames show what
they restore. -/

structure SnapshotState.Aligned (input : List UInt16) (state : SnapshotState) :
    Prop where
  position : Boundary input state.position
  captures : CapturesAligned input state.cells
  frames : ∀ frame ∈ state.controls,
    Boundary input frame.position ∧ CapturesAligned input frame.cells

variable {state : SnapshotState}

def Step.Aligned (input : List UInt16) (aligned : State → Prop) :
    Step State → Prop
  | .running state => aligned state
  | .stopped (.matched captures) => ∀ start stop, some (start, stop) ∈ captures →
      Boundary input start ∧ Boundary input stop
  | .stopped _ => True

theorem finishMatch_aligned (capture : Nat)
    (finished : finishMatch capture captures = .ok ranges)
    (member : some (start, stop) ∈ ranges) :
    some start ∈ captures ∧ some stop ∈ captures := by
  fun_induction finishMatch capture captures generalizing ranges with
  | case1 capture rest ih =>
    cases finishing : finishMatch (capture + 1) rest <;>
      rw [finishing] at finished <;> cases finished
    obtain ⟨hstart, hstop⟩ := ih finishing (by simpa using member)
    exact ⟨by simp [hstart], by simp [hstop]⟩
  | case2 capture rest _ _ _ ih =>
    cases finishing : finishMatch (capture + 1) rest <;>
      rw [finishing] at finished <;> cases finished
    rcases List.mem_cons.mp member with same | member
    · cases same
      simp
    · obtain ⟨hstart, hstop⟩ := ih finishing member
      exact ⟨by simp [hstart], by simp [hstop]⟩
  | case3 | case4 => cases finished
  | case5 =>
    cases finished
    cases member

theorem restore_aligned (captures : CapturesAligned input cells) {entry : Undo}
    (aligned : ∀ slot position, entry = .capture slot (some position) →
      Boundary input position) :
    CapturesAligned input (entry.restore cells) := by
  intro position member
  cases entry with
  | capture slot =>
    rcases List.mem_or_eq_of_mem_set member with kept | rfl
    · exact captures position kept
    · exact aligned slot position rfl
  | register => exact captures position member

theorem foldl_set_aligned (entries : List Undo) :
    ∀ {state : SnapshotState}, state.Aligned input →
      (∀ slot position, Undo.capture slot (some position) ∈ entries →
        Boundary input position) →
      (entries.foldl snapshots.set state).Aligned input := by
  induction entries with
  | nil => exact fun aligned _ => aligned
  | cons entry _ ih =>
    intro state aligned asked
    refine ih ⟨aligned.position, ?_, aligned.frames⟩ fun slot position member =>
      asked slot position (List.mem_cons_of_mem entry member)
    apply restore_aligned aligned.captures
    rintro slot position rfl
    exact asked slot position List.mem_cons_self

theorem restoreFrom_aligned (frames : ∀ frame ∈ controls,
      Boundary input frame.position ∧ CapturesAligned input frame.cells) :
    ∀ after ∈ state.restoreFrom controls, after.Aligned input := by
  induction controls generalizing state with
  | nil => exact nofun
  | cons frame _ ih =>
    have outer := fun other member =>
      frames other (List.mem_cons_of_mem frame member)
    obtain ⟨position, captures⟩ := frames frame List.mem_cons_self
    simp only [SnapshotState.restoreFrom]
    split
    · rintro after ⟨⟩
      exact ⟨position, captures, outer⟩
    · exact ih outer
    · rintro after ⟨⟩
      exact ⟨position, captures, outer⟩

theorem leave_aligned (aligned : state.Aligned input) (kind : ControlKind)
    (captures : ∀ frame ∈ state.controls, CapturesAligned input (cells frame)) :
    ∀ after ∈ state.leave kind cells, after.Aligned input := by
  have sublist := List.dropWhile_sublist (l := state.controls)
    fun frame => !frame.kind.isLookAhead
  unfold SnapshotState.leave
  split
  · exact nofun
  · rename_i frame controls left
    rw [left] at sublist
    have member := sublist.subset (List.mem_cons_self (a := frame))
    split
    · rintro after ⟨⟩
      exact ⟨(aligned.frames frame member).1, captures frame member,
        fun other inside => aligned.frames other
          (sublist.subset (List.mem_cons_of_mem _ inside))⟩
    · exact nofun

theorem Step.aligned_ofOption {state : Option SnapshotState} {outcome : Outcome}
    (aligned : ∀ after ∈ state, after.Aligned input)
    (unmatched : (Step.stopped outcome).Aligned input
      (SnapshotState.Aligned input)) :
    (Step.ofOption outcome state).Aligned input (SnapshotState.Aligned input) := by
  cases state with
  | none => exact unmatched
  | some after => exact aligned after rfl

theorem perform_aligned (aligned : state.Aligned input) (pc : Nat)
    (asked : action.Aligned input) :
    (snapshots.perform state pc action).Aligned input
      (SnapshotState.Aligned input) := by
  cases action with
  | fail =>
    exact Step.aligned_ofOption (restoreFrom_aligned aligned.frames) trivial
  | moveTo => exact ⟨asked, aligned.captures, aligned.frames⟩
  | set entries =>
    simp only [Backtracking.perform]
    split
    · have set := foldl_set_aligned entries aligned asked
      exact ⟨set.position, set.captures, set.frames⟩
    · trivial
  | split | lookAhead =>
    exact ⟨aligned.position, aligned.captures, List.forall_mem_cons.mpr
      ⟨⟨aligned.position, aligned.captures⟩, aligned.frames⟩⟩
  | lookAheadEnd negative =>
    cases negative with
    | false =>
      exact Step.aligned_ofOption (leave_aligned aligned _
        fun _ _ => aligned.captures) trivial
    | true =>
      have rejected := leave_aligned aligned (.lookAhead true (pc + 1))
        fun frame member => (aligned.frames frame member).2
      change (Step.bind (.ofOption _ (state.leave _ _)) _).Aligned input _
      cases left : state.leave (.lookAhead true (pc + 1))
          fun frame => frame.cells with
      | none => trivial
      | some after =>
        change (Step.ofOption _ (after.restoreFrom _)).Aligned input _
        exact Step.aligned_ofOption
          (restoreFrom_aligned (rejected after left).frames) trivial
  | accept =>
    simp only [Backtracking.perform]
    split
    · rename_i finished
      intro start stop member
      obtain ⟨hstart, hstop⟩ := finishMatch_aligned 0 finished member
      exact ⟨aligned.captures start hstart, aligned.captures stop hstop⟩
    · trivial
  | error | panic => trivial

section

variable (program : CompiledRegExp) (unicode : program.flags.isUnicode = true)

theorem fresh_aligned (boundary : Boundary input candidate) :
    (snapshots.fresh program candidate).Aligned input := by
  refine ⟨boundary, fun position member => ?_, nofun⟩
  cases List.eq_of_mem_replicate member

include unicode

theorem attempt_aligned (aligned : state.Aligned input) :
    (snapshots.attempt program input state).Aligned input
      (SnapshotState.Aligned input) := by
  simp only [Backtracking.attempt]
  split
  · trivial
  · rw [unicode]
    apply perform_aligned
    · exact ⟨aligned.position, aligned.captures, aligned.frames⟩
    · exact dispatch_aligned aligned.position _

theorem step_aligned
    (aligned : Boundary input execution.1 ∧ execution.2.Aligned input) :
    (snapshots.step program input execution).Aligned input
      fun after => Boundary input after.1 ∧ after.2.Aligned input := by
  have attempted := attempt_aligned program unicode aligned.2
  simp only [Backtracking.step]
  split
  · rename_i taken
    rw [taken] at attempted
    exact ⟨aligned.1, attempted⟩
  · split
    · trivial
    · rw [unicode]
      have next := advanceStringIndex_boundary input execution.1
      exact ⟨next, fresh_aligned program next⟩
  · rename_i outcome _ taken
    rw [taken] at attempted
    cases outcome with
    | matched => exact attempted
    | _ => trivial

variable (input) in
theorem execute_aligned (start steps : Nat) :
    (snapshots.execute program input start steps).Aligned input
      fun after => Boundary input after.1 ∧ after.2.Aligned input := by
  induction steps with
  | zero =>
    simp only [Backtracking.execute, unicode]
    split
    · trivial
    · rename_i inside
      have first := normalizeStart_boundary (Nat.le_of_not_lt inside)
      exact ⟨first, fresh_aligned program first⟩
  | succ steps ih =>
    simp only [Backtracking.execute]
    cases reached : snapshots.execute program input start steps with
    | running =>
      rw [reached] at ih
      exact step_aligned program unicode ih
    | stopped =>
      rw [reached] at ih
      exact ih

theorem execute_keepsPairs (input : List UInt16) (start steps : Nat) :
    match undoLog.execute program input start steps with
    | .running (candidate, state) => KeepsPairs input candidate state.toMatchState
    | .stopped (.matched captures) => ∀ start stop,
        some (start, stop) ∈ captures →
          Boundary input start ∧ Boundary input stop
    | .stopped _ => True := by
  have aligned := execute_aligned input program unicode start steps
  rw [← (undoLog_refines.execute program input start steps).2] at aligned
  cases reached : undoLog.execute program input start steps with
  | running =>
    rw [reached] at aligned
    obtain ⟨candidate, position, captures, -⟩ := aligned
    refine ⟨candidate, position, captures, ?_, ?_⟩
    · intro start stop hstart hstop after turns
      exact forwardTurns_boundary (captures stop hstop) turns
        (captures start hstart) position
    · intro start stop hstart hstop after turns
      exact backwardTurns_boundary (captures start hstart) turns
        (captures stop hstop) position
  | stopped outcome =>
    rw [reached] at aligned
    cases outcome with
    | matched => exact aligned
    | _ => trivial

end

theorem execute_keepsPairs_pair :
    KeepsPairs [0xd83d, 0xde00] 0 ⟨1, 2, [none, none], []⟩ :=
  execute_keepsPairs ⟨⟨false, true, false⟩, 1, 0, [.any, .accept]⟩ rfl
    [0xd83d, 0xde00] 1 1

end QuickJsOxide.RegExp
