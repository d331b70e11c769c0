import QuickJsOxide.RegExp.Executor

namespace QuickJsOxide.RegExp

open Library List AttemptState

/-! A reference machine whose frames hold full copies of the captures and
registers. -/

structure SnapshotFrame where
  kind : ControlKind
  position : Nat
  cells : Cells
deriving Repr

structure SnapshotState extends MatchState where
  controls : List SnapshotFrame
deriving Repr

namespace SnapshotState

def restoreFrom (state : SnapshotState) :
    List SnapshotFrame → Option SnapshotState
  | [] => none
  | frame :: controls =>
    let state := { state with
      cells := frame.cells, position := frame.position, controls }
    match frame.kind with
    | .split pc => some { state with pc }
    | .lookAhead false _ => restoreFrom state controls
    | .lookAhead true target => some { state with pc := target }

def leave (state : SnapshotState) (kind : ControlKind)
    (cells : SnapshotFrame → Cells) : Option SnapshotState :=
  match state.controls.dropWhile fun frame => !frame.kind.isLookAhead with
  | [] => none
  | frame :: controls =>
    if frame.kind = kind then
      some { state with
        cells := cells frame, position := frame.position, controls }
    else none

end SnapshotState

def snapshots : Backtracking SnapshotState where
  visible := SnapshotState.toMatchState
  start visible := ⟨visible, []⟩
  moveTo state pc position := { state with pc, position }
  set state entry := { state with cells := entry.restore state.cells }
  push state kind := { state with controls :=
    ⟨kind, state.position, state.cells⟩ :: state.controls }
  restoreBacktrack state := state.restoreFrom state.controls
  finishPositiveLookahead state pc :=
    state.leave (.lookAhead false (pc + 1)) fun _ => state.cells
  rejectNegativeLookahead state pc :=
    state.leave (.lookAhead true (pc + 1)) fun frame => frame.cells

/-! One way to go back refines another when a function takes the states of the
one to those of the other and commutes with every operation. -/

structure Refines (concrete : Backtracking State)
    (reference : Backtracking Target) (good : State → Prop)
    (image : State → Target) : Prop where
  visible : ∀ state, reference.visible (image state) = concrete.visible state
  start : ∀ visible, good (concrete.start visible) ∧
    image (concrete.start visible) = reference.start visible
  moveTo : ∀ {state}, good state → ∀ pc position,
    good (concrete.moveTo state pc position) ∧
      image (concrete.moveTo state pc position) =
        reference.moveTo (image state) pc position
  set : ∀ {state}, good state → ∀ entry, good (concrete.set state entry) ∧
    image (concrete.set state entry) = reference.set (image state) entry
  push : ∀ {state}, good state → ∀ kind, good (concrete.push state kind) ∧
    image (concrete.push state kind) = reference.push (image state) kind
  restoreBacktrack : ∀ {state}, good state →
    (∀ after ∈ concrete.restoreBacktrack state, good after) ∧
      (concrete.restoreBacktrack state).map image =
        reference.restoreBacktrack (image state)
  finishPositiveLookahead : ∀ {state}, good state → ∀ pc,
    (∀ after ∈ concrete.finishPositiveLookahead state pc, good after) ∧
      (concrete.finishPositiveLookahead state pc).map image =
        reference.finishPositiveLookahead (image state) pc
  rejectNegativeLookahead : ∀ {state}, good state → ∀ pc,
    (∀ after ∈ concrete.rejectNegativeLookahead state pc, good after) ∧
      (concrete.rejectNegativeLookahead state pc).map image =
        reference.rejectNegativeLookahead (image state) pc

def Step.All (good : State → Prop) : Step State → Prop
  | .running state => good state
  | .stopped _ => True

theorem Step.all_ofOption (all : ∀ after ∈ state, good after) :
    (Step.ofOption outcome state).All good := by
  cases state with
  | none => trivial
  | some after => exact all after rfl

theorem Step.map_ofOption (function : State → Target) (outcome : Outcome)
    (state : Option State) : (Step.ofOption outcome state).map function =
      .ofOption outcome (state.map function) := by
  cases state <;> rfl

theorem Step.map_bind {first : Step State} (all : first.All good)
    {next : State → Step State} {image : State → Target}
    (each : ∀ state, good state →
      (next state).All good ∧ (next state).map image = follow (image state)) :
    (first.bind next).All good ∧
      (first.bind next).map image = (first.map image).bind follow := by
  cases first with
  | running state => exact each state all
  | stopped => exact ⟨trivial, rfl⟩

namespace Refines

variable {concrete : Backtracking State} {reference : Backtracking Target}
  {good : State → Prop} {image : State → Target}
  (refines : Refines concrete reference good image)
  (program : CompiledRegExp) (input : List UInt16)
include refines

theorem foldl_set (entries : List Undo) :
    ∀ {state : State}, good state → good (entries.foldl concrete.set state) ∧
      image (entries.foldl concrete.set state) =
        entries.foldl reference.set (image state) := by
  induction entries with
  | nil => exact fun kept => ⟨kept, rfl⟩
  | cons entry _ ih =>
    intro state kept
    obtain ⟨kept, same⟩ := refines.set kept entry
    rw [foldl_cons, foldl_cons, ← same]
    exact ih kept

theorem perform {state : State} (kept : good state) (pc : Nat)
    (action : Action) : (concrete.perform state pc action).All good ∧
      (concrete.perform state pc action).map image =
        reference.perform (image state) pc action := by
  cases action with
  | fail =>
    obtain ⟨all, same⟩ := refines.restoreBacktrack kept
    simp only [Backtracking.perform, ← same]
    exact ⟨Step.all_ofOption all, Step.map_ofOption image _ _⟩
  | moveTo pc position =>
    obtain ⟨kept, same⟩ := refines.moveTo kept pc position
    exact ⟨kept, congrArg Step.running same⟩
  | set entries pc =>
    simp only [Backtracking.perform, refines.visible]
    split
    · obtain ⟨kept, same⟩ := refines.foldl_set entries kept
      obtain ⟨moved, image⟩ := refines.moveTo kept pc _
      rw [← same, refines.visible, ← image]
      exact ⟨moved, rfl⟩
    · exact ⟨trivial, rfl⟩
  | split first second =>
    obtain ⟨kept, same⟩ := refines.push kept (.split second)
    obtain ⟨moved, image⟩ := refines.moveTo kept first _
    simp only [Backtracking.perform]
    rw [← same, refines.visible, ← image]
    exact ⟨moved, rfl⟩
  | lookAhead negative target =>
    obtain ⟨kept, same⟩ := refines.push kept (.lookAhead negative target)
    exact ⟨kept, congrArg Step.running same⟩
  | lookAheadEnd negative =>
    cases negative with
    | false =>
      obtain ⟨all, same⟩ := refines.finishPositiveLookahead kept pc
      simp only [Backtracking.perform, ← same]
      exact ⟨Step.all_ofOption all, Step.map_ofOption image _ _⟩
    | true =>
      obtain ⟨all, same⟩ := refines.rejectNegativeLookahead kept pc
      simp only [Backtracking.perform, ← same, ← Step.map_ofOption]
      refine Step.map_bind (Step.all_ofOption all) fun state kept => ?_
      obtain ⟨all, same⟩ := refines.restoreBacktrack kept
      rw [← same]
      exact ⟨Step.all_ofOption all, Step.map_ofOption image _ _⟩
  | accept =>
    simp only [Backtracking.perform, refines.visible]
    split <;> exact ⟨trivial, rfl⟩
  | error | panic => exact ⟨trivial, rfl⟩

theorem attempt (kept : good state) :
    (concrete.attempt program input state).All good ∧
      (concrete.attempt program input state).map image =
        reference.attempt program input (image state) := by
  simp only [Backtracking.attempt, refines.visible]
  split
  · exact ⟨trivial, rfl⟩
  · obtain ⟨kept, same⟩ := refines.moveTo kept
      ((concrete.visible state).pc + 1) (concrete.visible state).position
    rw [← same]
    exact refines.perform kept _ _

theorem step (kept : good execution.2) :
    (concrete.step program input execution).All (fun after => good after.2) ∧
      (concrete.step program input execution).map (Prod.map id image) =
        reference.step program input (Prod.map id image execution) := by
  obtain ⟨all, same⟩ := refines.attempt program input kept
  simp only [Backtracking.step, Prod.map_fst, Prod.map_snd, id_eq]
  rw [← same]
  cases taken : concrete.attempt program input execution.2 with
  | running =>
    rw [taken] at all
    exact ⟨all, rfl⟩
  | stopped outcome =>
    cases outcome with
    | noMatch =>
      simp only [Step.map]
      split
      · exact ⟨trivial, rfl⟩
      · obtain ⟨kept, same⟩ := refines.start _
        exact ⟨kept, congrArg (fun state => Step.running (_, state)) same⟩
    | _ => exact ⟨trivial, rfl⟩

theorem execute (start steps : Nat) :
    (concrete.execute program input start steps).All
        (fun execution => good execution.2) ∧
      (concrete.execute program input start steps).map (Prod.map id image) =
        reference.execute program input start steps := by
  induction steps with
  | zero =>
    simp only [Backtracking.execute]
    split
    · exact ⟨trivial, rfl⟩
    · obtain ⟨kept, same⟩ := refines.start _
      exact ⟨kept, congrArg (fun state => Step.running (_, state)) same⟩
  | succ _ ih =>
    obtain ⟨all, same⟩ := ih
    simp only [Backtracking.execute, ← same]
    exact Step.map_bind all fun execution kept =>
      refines.step program input kept

end Refines

theorem overwrites : Overwrites Undo.restore Undo.location where
  same := by
    intro first second same cells
    cases first <;> cases second <;> cases same <;> simp [Undo.restore]
  other := by
    intro first second other cells
    cases first <;> cases second <;> simp only [Undo.restore]
    case capture.capture =>
        rw [set_comm]
        exact fun same => other (congrArg Location.capture same.symm)
    case register.register =>
        rw [set_comm]
        exact fun same => other (congrArg Location.register same.symm)

theorem set_getD (values : List α) (index : Nat) (value : α) :
    values.set index (values.getD index value) = values := by
  rw [getD_eq_getElem?_getD]
  by_cases inside : index < values.length
  · rw [getElem?_eq_getElem inside, Option.getD_some, set_getElem_self]
  · exact set_eq_of_length_le (Nat.le_of_not_lt inside)

theorem restore_current (entry : Undo) (cells : Cells) :
    (entry.current cells).restore (entry.restore cells) = cells := by
  have same : (entry.current cells).location = entry.location := by
    cases entry <;> rfl
  rw [overwrites.same same]
  cases entry <;> simp only [Undo.restore, Undo.current, set_getD]

/-- The frames with what going back to them would restore. -/
def copies (undo : List Undo) (cells : Cells) (controls : List ControlFrame) :
    List SnapshotFrame :=
  controls.map fun frame => ⟨frame.kind, frame.position,
    rollback Undo.restore (undo.drop frame.undoLen) cells⟩

def AttemptState.snapshot (state : AttemptState) : SnapshotState :=
  ⟨state.toMatchState, copies state.undo state.cells state.controls⟩

structure Checkpoints (undo : List Undo) (controls : List ControlFrame) :
    Prop where
  bounded : ∀ frame ∈ controls, frame.undoLen ≤ undo.length
  nested : controls.Pairwise fun inner outer => outer.undoLen ≤ inner.undoLen

def AttemptState.Good (state : AttemptState) : Prop :=
  Checkpoints state.undo state.controls

variable {undo : List Undo} {controls : List ControlFrame}

theorem Checkpoints.sublist (checkpoints : Checkpoints undo controls)
    (sublist : fewer.Sublist controls) : Checkpoints undo fewer :=
  ⟨fun frame member => checkpoints.bounded frame (sublist.subset member),
    checkpoints.nested.sublist sublist⟩

theorem copies_congr (same : ∀ frame ∈ controls,
      rollback Undo.restore (other.drop frame.undoLen) cells' =
        rollback Undo.restore (undo.drop frame.undoLen) cells) :
    copies other cells' controls = copies undo cells controls := by
  apply map_congr_left
  intro frame member
  rw [same frame member]

theorem copies_rollback (cells : Cells)
    (checkpoints : Checkpoints undo (frame :: controls)) :
    Checkpoints (undo.take frame.undoLen) controls ∧
      copies (undo.take frame.undoLen)
          (rollback Undo.restore (undo.drop frame.undoLen) cells) controls =
        copies undo cells controls := by
  obtain ⟨outer, nested⟩ := pairwise_cons.mp checkpoints.nested
  have length : (undo.take frame.undoLen).length = frame.undoLen :=
    length_take_of_le (checkpoints.bounded frame mem_cons_self)
  refine ⟨⟨fun other member => ?_, nested⟩, copies_congr fun other member => ?_⟩
  · exact (outer other member).trans_eq length.symm
  · rw [← rollback_append, ← drop_append_of_le_length
      ((outer other member).trans_eq length.symm), take_append_drop]

theorem restoreFrom_snapshot (reference : SnapshotState)
    (controls : List ControlFrame) :
    ∀ {state : AttemptState}, Checkpoints state.undo controls →
      (∀ after ∈ state.restoreFrom controls, after.Good) ∧
        (state.restoreFrom controls).map snapshot =
          reference.restoreFrom (copies state.undo state.cells controls) := by
  induction controls generalizing reference with
  | nil =>
    intro state _
    exact ⟨nofun, rfl⟩
  | cons frame controls ih =>
    intro state checkpoints
    obtain ⟨outer, same⟩ := copies_rollback state.cells checkpoints
    simp only [restoreFrom, SnapshotState.restoreFrom, copies,
      map_cons]
    rcases kind : frame.kind with pc | ⟨_ | _, target⟩
    on_goal 2 =>
      obtain ⟨good, later⟩ := @ih _ { state.rollbackTo frame.undoLen with
        position := frame.position, controls } outer
      exact ⟨good, later.trans (congrArg _ same)⟩
    all_goals
      refine ⟨?_, congrArg some (congrArg (SnapshotState.mk _) same)⟩
      rintro after ⟨⟩
      exact outer

theorem copies_dropWhile (undo : List Undo) (cells : Cells)
    (controls : List ControlFrame) : (copies undo cells controls).dropWhile
        (fun frame => !frame.kind.isLookAhead) = copies undo cells
        (controls.dropWhile fun frame => !frame.kind.isLookAhead) :=
  dropWhile_map

theorem copies_compact (cells : Cells)
    (checkpoints : Checkpoints undo (frame :: outer :: controls)) :
    Checkpoints (compact Undo.location outer.undoLen
        (undo.take frame.undoLen) (undo.drop frame.undoLen))
        (outer :: controls) ∧ copies (compact Undo.location outer.undoLen
          (undo.take frame.undoLen) (undo.drop frame.undoLen)) cells
          (outer :: controls) = copies undo cells (outer :: controls) := by
  obtain ⟨inside, nested⟩ := pairwise_cons.mp checkpoints.nested
  have length : (undo.take frame.undoLen).length = frame.undoLen :=
    length_take_of_le (checkpoints.bounded frame mem_cons_self)
  refine ⟨⟨fun other member => ?_, nested⟩, copies_congr fun other member => ?_⟩
  · exact ((inside other member).trans_eq length.symm).trans
      (length_le_compact _ _)
  · have order : other.undoLen ≤ outer.undoLen := by
      rcases mem_cons.mp member with rfl | later
      · exact le_rfl
      · exact (pairwise_cons.mp nested).1 other later
    rw [rollback_drop_compact overwrites order _ _ _
      ((inside outer mem_cons_self).trans_eq length.symm),
      take_append_drop]

section

variable {state : AttemptState} (good : state.Good)

include good

theorem finishPositiveLookahead_snapshot (pc : Nat) :
    (∀ after ∈ state.finishPositiveLookahead pc, after.Good) ∧
      (state.finishPositiveLookahead pc).map snapshot =
        snapshots.finishPositiveLookahead state.snapshot pc := by
  have inner := good.sublist (dropWhile_sublist
    fun frame => !frame.kind.isLookAhead)
  simp only [finishPositiveLookahead, snapshots,
    SnapshotState.leave, snapshot, copies_dropWhile]
  cases left : state.controls.dropWhile fun frame => !frame.kind.isLookAhead with
  | nil => exact ⟨by rintro _ ⟨⟩, rfl⟩
  | cons _ controls =>
    rw [left] at inner
    simp only [copies, map_cons]
    split
    · cases controls with
      | nil =>
        refine ⟨?_, rfl⟩
        rintro after ⟨⟩
        exact ⟨by rintro _ ⟨⟩, .nil⟩
      | cons =>
        obtain ⟨checkpoints, same⟩ := copies_compact state.cells inner
        refine ⟨?_, congrArg some (congrArg (SnapshotState.mk _) same)⟩
        rintro after ⟨⟩
        exact checkpoints
    · exact ⟨by rintro _ ⟨⟩, rfl⟩

theorem rejectNegativeLookahead_snapshot (pc : Nat) :
    (∀ after ∈ state.rejectNegativeLookahead pc, after.Good) ∧
      (state.rejectNegativeLookahead pc).map snapshot =
        snapshots.rejectNegativeLookahead state.snapshot pc := by
  have inner := good.sublist (dropWhile_sublist
    fun frame => !frame.kind.isLookAhead)
  simp only [rejectNegativeLookahead, snapshots,
    SnapshotState.leave, snapshot, copies_dropWhile]
  cases left : state.controls.dropWhile fun frame => !frame.kind.isLookAhead with
  | nil => exact ⟨nofun, rfl⟩
  | cons =>
    rw [left] at inner
    obtain ⟨outer, same⟩ := copies_rollback state.cells inner
    simp only [copies, map_cons]
    split
    · refine ⟨?_, congrArg some (congrArg (SnapshotState.mk _) same)⟩
      rintro after ⟨⟩
      exact outer
    · exact ⟨nofun, rfl⟩

/-- Recording keeps what every frame would restore: a location that is not
recorded again since the innermost checkpoint is in the log of every frame. -/
theorem set_snapshot (entry : Undo) :
    (state.set entry).Good ∧
      (state.set entry).snapshot = snapshots.set state.snapshot entry := by
  have recorded : Checkpoints (state.record entry) state.controls ∧
      copies (state.record entry) (entry.restore state.cells) state.controls =
        copies state.undo state.cells state.controls := by
    unfold record
    split
    · rename_i none
      rw [none]
      exact ⟨⟨nofun, .nil⟩, rfl⟩
    · rename_i top rest frames
      split
      · rename_i found
        obtain ⟨_, member, same⟩ := any_eq_true.mp found
        refine ⟨good, copies_congr fun frame inside => ?_⟩
        refine rollback_restore_of_mem overwrites ?_ (of_decide_eq_true same) _
        apply (drop_sublist_drop_left state.undo _).subset member
        have nested := good.nested
        rw [frames] at inside nested
        rcases mem_cons.mp inside with rfl | later
        · exact le_rfl
        · exact (pairwise_cons.mp nested).1 frame later
      · refine ⟨⟨fun frame inside => ?_, good.nested⟩,
          copies_congr fun frame inside => ?_⟩
        · rw [length_append]
          exact Nat.le_add_right_of_le (good.bounded frame inside)
        · rw [drop_append_of_le_length (good.bounded frame inside),
            rollback_append]
          exact congrArg _ (restore_current entry state.cells)
  exact ⟨recorded.1, congrArg (SnapshotState.mk _) recorded.2⟩

theorem push_snapshot (kind : ControlKind) : (state.push kind).Good ∧
      (state.push kind).snapshot = snapshots.push state.snapshot kind := by
  refine ⟨⟨?_, pairwise_cons.mpr ⟨good.bounded, good.nested⟩⟩, ?_⟩
  · simpa [push] using good.bounded
  · simp [push, snapshot, snapshots, copies, rollback]

end

theorem undoLog_refines :
    Refines undoLog snapshots Good snapshot where
  visible _ := rfl
  start _ := ⟨⟨nofun, .nil⟩, rfl⟩
  moveTo good _ _ := ⟨good, rfl⟩
  set := set_snapshot
  push := push_snapshot
  restoreBacktrack good := restoreFrom_snapshot _ _ good
  finishPositiveLookahead := finishPositiveLookahead_snapshot
  rejectNegativeLookahead := rejectNegativeLookahead_snapshot

/-- Both machines are in the same state with the same frames, and each frame
of the executor would restore the copy in the frame of the other. -/
structure Agrees (execution : Nat × AttemptState)
    (reference : Nat × SnapshotState) : Prop where
  candidate : execution.1 = reference.1
  visible : execution.2.toMatchState = reference.2.toMatchState
  frames : Forall₂ (fun frame copy => frame.kind = copy.kind ∧
      frame.position = copy.position ∧
      (execution.2.rollbackTo frame.undoLen).cells = copy.cells)
    execution.2.controls reference.2.controls

/-- The executor and the machine with copies take the same steps. -/
theorem execute_undoLog (program : CompiledRegExp) (input : List UInt16)
    (start steps : Nat) :
    match undoLog.execute program input start steps,
      snapshots.execute program input start steps with
    | .running execution, .running reference => Agrees execution reference
    | .stopped outcome, .stopped expected => outcome = expected
    | _, _ => False := by
  rw [← (undoLog_refines.execute program input start steps).2]
  cases undoLog.execute program input start steps with
  | running =>
    refine ⟨rfl, rfl, ?_⟩
    rw [Prod.map_snd, snapshot, copies, forall₂_map_right_iff]
    exact forall₂_same.mpr fun frame _ => ⟨rfl, rfl, rfl⟩
  | stopped => rfl

end QuickJsOxide.RegExp
