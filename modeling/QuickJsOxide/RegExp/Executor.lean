import Mathlib.Algebra.Group.Nat.Defs
import QuickJsOxide.Library.UndoLog
import QuickJsOxide.RegExp.Ranges
import QuickJsOxide.Unicode.Case

namespace QuickJsOxide.RegExp

open Library Unicode

/-! The executor of compiled regular expressions, over UTF-16 units. -/

inductive Instruction where
  | char (value : Nat) (ignoreCase : Bool)
  | dot
  | any
  | space (inverted : Bool)
  | range (ranges : List CharacterRange) (inverted ignoreCase : Bool)
  | lineStart (multiline : Bool)
  | lineEnd (multiline : Bool)
  | wordBoundary (inverted ignoreCase : Bool)
  | prev
  | backReference (captures : List Nat) (ignoreCase : Bool)
  | backwardBackReference (captures : List Nat) (ignoreCase : Bool)
  | lookAhead (negative : Bool) (target : Nat)
  | lookAheadEnd (negative : Bool)
  | jump (target : Nat)
  | split (first second : Nat)
  | accept
  | saveStart (capture : Nat)
  | saveEnd (capture : Nat)
  | resetCaptures (first last : Nat)
  | setRegister (register value : Nat)
  | loop (register target : Nat)
  | savePosition (register : Nat)
  | checkAdvance (register : Nat)
deriving Repr, DecidableEq

structure RegExpFlags where
  sticky : Bool
  unicode : Bool
  unicodeSets : Bool
deriving Repr, DecidableEq

def RegExpFlags.isUnicode (flags : RegExpFlags) : Bool :=
  flags.unicode || flags.unicodeSets

structure CompiledRegExp where
  flags : RegExpFlags
  captureCount : Nat
  registerCount : Nat
  instructions : List Instruction
deriving Repr

inductive ProgramError where
  | programCounter (pc : Nat)
  | counterRegisterExpected (pc register : Nat)
  | positionRegisterExpected (pc register : Nat)
  | assertionStructure (pc : Nat)
  | incompleteCapture (capture : Nat)
deriving Repr, DecidableEq

def isHighSurrogate (unit : UInt16) : Bool :=
  0xd800 ≤ unit && unit ≤ 0xdbff

def isLowSurrogate (unit : UInt16) : Bool :=
  0xdc00 ≤ unit && unit ≤ 0xdfff

def isLineTerminator (character : Nat) : Bool :=
  character = 0x000a || character = 0x000d || character = 0x2028 ||
    character = 0x2029

def isSpace (character : Nat) : Bool :=
  (0x0009 ≤ character && character ≤ 0x000d) || character = 0x0020 ||
    character = 0x00a0 || character = 0x1680 ||
    (0x2000 ≤ character && character ≤ 0x200a) || character = 0x2028 ||
    character = 0x2029 || character = 0x202f || character = 0x205f ||
    character = 0x3000 || character = 0xfeff

def isWord (character : Nat) (ignoreCase : Bool) : Bool :=
  character = 0x5f || (0x30 ≤ character && character ≤ 0x39) ||
    (0x41 ≤ character && character ≤ 0x5a) ||
    (0x61 ≤ character && character ≤ 0x7a) ||
    (ignoreCase && (character = 0x017f || character = 0x212a))

def surrogatePair (first second : UInt16) : Nat :=
  0x10000 + (first.toNat - 0xd800) * 1024 + (second.toNat - 0xdc00)

def readCharacter (input : List UInt16) (position : Nat) (unicode : Bool) :
    Option (Nat × Nat) :=
  match input[position]? with
  | none => none
  | some first =>
    match input[position + 1]? with
    | some second =>
      if unicode && isHighSurrogate first && isLowSurrogate second then
        some (surrogatePair first second, position + 2)
      else some (first.toNat, position + 1)
    | none => some (first.toNat, position + 1)

def readPreviousCharacterBounded (input : List UInt16)
    (position lowerBound : Nat) (unicode : Bool) : Option (Nat × Nat) :=
  if position ≤ lowerBound then none
  else
    match input[position - 1]? with
    | none => none
    | some last =>
      match input[position - 2]? with
      | some first =>
        if unicode && isLowSurrogate last && lowerBound + 2 ≤ position &&
            isHighSurrogate first then
          some (surrogatePair first last, position - 2)
        else some (last.toNat, position - 1)
      | none => some (last.toNat, position - 1)

def readPreviousCharacter (input : List UInt16) (position : Nat)
    (unicode : Bool) : Option (Nat × Nat) :=
  readPreviousCharacterBounded input position 0 unicode

def previousCharacter (input : List UInt16) (position : Nat) (unicode : Bool) :
    Option Nat :=
  (readPreviousCharacter input position unicode).map Prod.fst

def normalizeStart (input : List UInt16) (start : Nat) (unicode : Bool) : Nat :=
  if unicode && 0 < start && input[start]?.any isLowSurrogate &&
      input[start - 1]?.any isHighSurrogate then
    start - 1
  else start

def advanceStringIndex (input : List UInt16) (position : Nat) (unicode : Bool) :
    Nat :=
  ((readCharacter input position unicode).map Prod.snd).getD input.length

theorem readCharacter_next
    (read : readCharacter input position unicode = some (character, next)) :
    position < next ∧ next ≤ input.length := by
  unfold readCharacter at read
  grind

theorem readPreviousCharacterBounded_previous
    (read : readPreviousCharacterBounded input position lowerBound unicode =
      some (character, previous)) :
    lowerBound ≤ previous ∧ previous < position := by
  unfold readPreviousCharacterBounded at read
  grind

/-! Back references. An outer `none` is a panic of the case conversion. -/

def fold (character : Nat) (unicode ignoreCase : Bool) : Option Nat :=
  if ignoreCase then regexpCanonicalize character unicode else some character

def sameCharacter (captured current : Nat) (unicode ignoreCase : Bool) :
    Option Bool := do
  let captured ← fold captured unicode ignoreCase
  let current ← fold current unicode ignoreCase
  return captured = current

variable (input : List UInt16)

/-- The loop of `match_back_reference`. -/
def matchForward (input : List UInt16) (captureEnd : Nat)
    (unicode ignoreCase : Bool) (capturePosition inputPosition : Nat) :
    Option (Option Nat) :=
  if capturePosition < captureEnd then
    match _ : readCharacter (input.take captureEnd) capturePosition unicode with
    | none => some none
    | some (captured, nextCapture) =>
      match readCharacter input inputPosition unicode with
      | none => some none
      | some (current, nextInput) =>
        match sameCharacter captured current unicode ignoreCase with
        | none => none
        | some false => some none
        | some true => matchForward input captureEnd unicode ignoreCase
            nextCapture nextInput
  else some (some inputPosition)
termination_by captureEnd - capturePosition
decreasing_by
  have := readCharacter_next ‹_›
  omega

def matchBackReference (captureStart captureEnd inputStart : Nat)
    (unicode ignoreCase : Bool) : Option (Option Nat) :=
  if captureEnd ≤ input.length then
    matchForward input captureEnd unicode ignoreCase captureStart inputStart
  else some none

/-- The loop of `match_backward_back_reference`. -/
def matchBackward (input : List UInt16) (captureStart : Nat)
    (unicode ignoreCase : Bool) (capturePosition inputPosition : Nat) :
    Option (Option Nat) :=
  if captureStart < capturePosition then
    match _ : readPreviousCharacterBounded input capturePosition captureStart
        unicode with
    | none => some none
    | some (captured, previousCapture) =>
      match readPreviousCharacterBounded input inputPosition 0 unicode with
      | none => some none
      | some (current, previousInput) =>
        match sameCharacter captured current unicode ignoreCase with
        | none => none
        | some false => some none
        | some true => matchBackward input captureStart unicode ignoreCase
            previousCapture previousInput
  else if capturePosition = captureStart then some (some inputPosition)
  else some none
termination_by capturePosition
decreasing_by exact (readPreviousCharacterBounded_previous ‹_›).2

def matchBackwardBackReference (captureStart captureEnd inputEnd : Nat)
    (unicode ignoreCase : Bool) : Option (Option Nat) :=
  matchBackward input captureStart unicode ignoreCase captureEnd inputEnd

inductive RegisterValue where
  | unset
  | counter (value : Nat)
  | position (value : Nat)
deriving Repr, DecidableEq

structure Cells where
  captures : List (Option Nat)
  registers : List RegisterValue
deriving Repr

structure MatchState where
  pc : Nat
  position : Nat
  cells : Cells
deriving Repr

/-- A location with the value it had or is given. -/
inductive Undo where
  | capture (slot : Nat) (value : Option Nat)
  | register (index : Nat) (value : RegisterValue)
deriving Repr, DecidableEq

inductive Location where
  | capture (slot : Nat)
  | register (index : Nat)
deriving Repr, DecidableEq

namespace Undo

def location : Undo → Location
  | .capture slot _ => .capture slot
  | .register index _ => .register index

def restore : Undo → Cells → Cells
  | .capture slot value, cells =>
    { cells with captures := cells.captures.set slot value }
  | .register index value, cells =>
    { cells with registers := cells.registers.set index value }

def current : Undo → Cells → Undo
  | .capture slot value, cells => .capture slot (cells.captures.getD slot value)
  | .register index value, cells =>
    .register index (cells.registers.getD index value)

def inBounds : Undo → Cells → Bool
  | .capture slot _, cells => slot < cells.captures.length
  | .register index _, cells => index < cells.registers.length

end Undo

inductive ControlKind where
  | split (pc : Nat)
  | lookAhead (negative : Bool) (target : Nat)
deriving Repr, DecidableEq

def ControlKind.isLookAhead : ControlKind → Bool
  | .split _ => false
  | .lookAhead _ _ => true

structure ControlFrame where
  kind : ControlKind
  position : Nat
  undoLen : Nat
deriving Repr

/-- The undo log grows at its end, the stack of control frames at its head. -/
structure AttemptState extends MatchState where
  undo : List Undo
  controls : List ControlFrame
deriving Repr

namespace AttemptState

def start (visible : MatchState) : AttemptState := ⟨visible, [], []⟩

variable (state : AttemptState)

def moveTo (pc position : Nat) : AttemptState :=
  { state with pc, position }

/-- `push_backtrack` and `push_lookahead`. -/
def push (kind : ControlKind) : AttemptState :=
  { state with controls :=
      ⟨kind, state.position, state.undo.length⟩ :: state.controls }

def rollbackTo (undoLen : Nat) : AttemptState :=
  { state with
    cells := rollback Undo.restore (state.undo.drop undoLen) state.cells
    undo := state.undo.take undoLen }

/-- The loop of `restore_backtrack`. -/
def restoreFrom (state : AttemptState) :
    List ControlFrame → Option AttemptState
  | [] => none
  | frame :: controls =>
    let state := { state.rollbackTo frame.undoLen with
      position := frame.position, controls }
    match frame.kind with
    | .split pc => some { state with pc }
    | .lookAhead false _ => restoreFrom state controls
    | .lookAhead true target => some { state with pc := target }

def restoreBacktrack : Option AttemptState :=
  state.restoreFrom state.controls

/-- `none` is an error in the structure of the assertions. -/
def finishPositiveLookahead (pc : Nat) : Option AttemptState :=
  match state.controls.dropWhile fun frame => !frame.kind.isLookAhead with
  | [] => none
  | frame :: controls =>
    if frame.kind = .lookAhead false (pc + 1) then
      some { state with
        position := frame.position
        controls
        undo := match controls with
          | outer :: _ => compact Undo.location outer.undoLen
              (state.undo.take frame.undoLen) (state.undo.drop frame.undoLen)
          | [] => state.undo.take frame.undoLen }
    else none

def rejectNegativeLookahead (pc : Nat) : Option AttemptState :=
  match state.controls.dropWhile fun frame => !frame.kind.isLookAhead with
  | [] => none
  | frame :: controls =>
    if frame.kind = .lookAhead true (pc + 1) then
      some { state.rollbackTo frame.undoLen with
        position := frame.position, controls }
    else none

/-- `record_capture` and `record_register`: nothing is recorded without a
control frame, and a location only once after its checkpoint. -/
def record (entry : Undo) : List Undo :=
  match state.controls with
  | [] => state.undo
  | frame :: _ =>
    if (state.undo.drop frame.undoLen).any fun existing =>
        existing.location = entry.location then
      state.undo
    else state.undo ++ [entry.current state.cells]

/-- `set_capture` and `set_register`. -/
def set (entry : Undo) : AttemptState :=
  { state with undo := state.record entry, cells := entry.restore state.cells }

end AttemptState

/-- What an instruction asks of the state, once the program counter has passed
it. -/
inductive Action where
  | fail
  | moveTo (pc position : Nat)
  | set (entries : List Undo) (pc : Nat)
  | split (first second : Nat)
  | lookAhead (negative : Bool) (target : Nat)
  | lookAheadEnd (negative : Bool)
  | accept
  | error (error : ProgramError)
  | panic
deriving Repr

def Action.ofBool (pc position : Nat) : Option Bool → Action
  | none => .panic
  | some false => .fail
  | some true => .moveTo (pc + 1) position

def consume (unicode : Bool) (state : MatchState)
    (accepts : Nat → Option Bool) : Action :=
  match readCharacter input state.position unicode with
  | none => .fail
  | some (character, next) => .ofBool state.pc next (accepts character)

def participating (captures : List (Option Nat)) :
    List Nat → Option (Option (Nat × Nat))
  | [] => some none
  | capture :: rest =>
    match captures[capture * 2]?, captures[capture * 2 + 1]? with
    | some (some start), some (some stop) => some (some (start, stop))
    | some _, some _ => participating captures rest
    | _, _ => none

/-- Both instructions for back references, which differ in how they compare. -/
def referTo (state : MatchState) (captures : List Nat)
    (compare : Nat → Nat → Nat → Option (Option Nat)) : Action :=
  match participating state.cells.captures captures with
  | none => .panic
  | some none => .moveTo (state.pc + 1) state.position
  | some (some (start, stop)) =>
    match compare start stop state.position with
    | none => .panic
    | some none => .fail
    | some (some position) => .moveTo (state.pc + 1) position

def dispatch (unicode : Bool) (state : MatchState) : Instruction → Action
  | .char value ignoreCase => consume input unicode state fun character =>
    (fold character unicode ignoreCase).map fun character => character = value
  | .dot => consume input unicode state fun character =>
    some (!isLineTerminator character)
  | .any => consume input unicode state fun _ => some true
  | .space inverted => consume input unicode state fun character =>
    some (isSpace character != inverted)
  | .range ranges inverted ignoreCase =>
    consume input unicode state fun character =>
      (fold character unicode ignoreCase).map fun character =>
        rangeContains ranges character != inverted
  | .lineStart multiline => .ofBool state.pc state.position <| some <|
      state.position = 0 || multiline &&
        (previousCharacter input state.position unicode).any isLineTerminator
  | .lineEnd multiline => .ofBool state.pc state.position <| some <|
      state.position = input.length || multiline &&
        (readCharacter input state.position unicode).any
          fun read => isLineTerminator read.1
  | .wordBoundary inverted ignoreCase =>
    let previous := (previousCharacter input state.position unicode).any
      fun character => isWord character (ignoreCase && unicode)
    let current := (readCharacter input state.position unicode).any
      fun read => isWord read.1 (ignoreCase && unicode)
    .ofBool state.pc state.position (some ((previous != current) != inverted))
  | .prev =>
    match readPreviousCharacter input state.position unicode with
    | none => .fail
    | some (_, previous) => .moveTo (state.pc + 1) previous
  | .backReference captures ignoreCase =>
    referTo state captures fun start stop position =>
      matchBackReference input start stop position unicode ignoreCase
  | .backwardBackReference captures ignoreCase =>
    referTo state captures fun start stop position =>
      matchBackwardBackReference input start stop position unicode ignoreCase
  | .lookAhead negative target => .lookAhead negative target
  | .lookAheadEnd negative => .lookAheadEnd negative
  | .jump target => .moveTo target state.position
  | .split first second => .split first second
  | .accept => .accept
  | .saveStart capture =>
    .set [.capture (capture * 2) (some state.position)] (state.pc + 1)
  | .saveEnd capture =>
    .set [.capture (capture * 2 + 1) (some state.position)] (state.pc + 1)
  | .resetCaptures first last =>
    .set ((List.range' first (last + 1 - first)).flatMap fun capture =>
      [.capture (capture * 2) none, .capture (capture * 2 + 1) none])
      (state.pc + 1)
  | .setRegister register value =>
    .set [.register register (.counter value)] (state.pc + 1)
  | .loop register target =>
    match state.cells.registers[register]? with
    | none => .panic
    | some (.counter value) =>
      -- the counter wraps around below zero
      let value := (value + (2 ^ 32 - 1)) % 2 ^ 32
      .set [.register register (.counter value)]
        (if value = 0 then state.pc + 1 else target)
    | some _ => .error (.counterRegisterExpected state.pc register)
  | .savePosition register =>
    .set [.register register (.position state.position)] (state.pc + 1)
  | .checkAdvance register =>
    match state.cells.registers[register]? with
    | none => .panic
    | some (.position position) =>
      .ofBool state.pc state.position (some (position != state.position))
    | some _ => .error (.positionRegisterExpected state.pc register)

/-- The ranges of a match, or the first capture with only one boundary. -/
def finishMatch : Nat → List (Option Nat) →
    Except ProgramError (List (Option (Nat × Nat)))
  | capture, start :: stop :: rest =>
    match start, stop with
    | none, none => (none :: ·) <$> finishMatch (capture + 1) rest
    | some start, some stop =>
      if start ≤ stop then
        (some (start, stop) :: ·) <$> finishMatch (capture + 1) rest
      else .error (.incompleteCapture (capture % 256))
    | _, _ => .error (.incompleteCapture (capture % 256))
  | _, _ => .ok []

/-! Execution, over any way to go back to an earlier state. -/

structure Backtracking (State : Type) where
  visible : State → MatchState
  start : MatchState → State
  moveTo : State → Nat → Nat → State
  set : State → Undo → State
  push : State → ControlKind → State
  restoreBacktrack : State → Option State
  finishPositiveLookahead : State → Nat → Option State
  rejectNegativeLookahead : State → Nat → Option State

inductive Outcome where
  | noMatch
  | matched (captures : List (Option (Nat × Nat)))
  | error (error : ProgramError)
  | startOutOfBounds (start length : Nat)
  | panicked
deriving Repr

inductive Step (State : Type) where
  | running (state : State)
  | stopped (outcome : Outcome)
deriving Repr

def Step.map (function : State → Target) : Step State → Step Target
  | .running state => .running (function state)
  | .stopped outcome => .stopped outcome

def Step.bind (step : Step State) (next : State → Step Target) : Step Target :=
  match step with
  | .running state => next state
  | .stopped outcome => .stopped outcome

def Step.ofOption (outcome : Outcome) : Option State → Step State
  | none => .stopped outcome
  | some state => .running state

namespace Backtracking

variable (backtracking : Backtracking State)

def perform (state : State) (pc : Nat) : Action → Step State
  | .fail => .ofOption .noMatch (backtracking.restoreBacktrack state)
  | .moveTo pc position => .running (backtracking.moveTo state pc position)
  | .set entries pc =>
    if entries.all fun entry =>
        entry.inBounds (backtracking.visible state).cells then
      let state := entries.foldl backtracking.set state
      .running (backtracking.moveTo state pc
        (backtracking.visible state).position)
    else .stopped .panicked
  | .split first second =>
    let state := backtracking.push state (.split second)
    .running (backtracking.moveTo state first
      (backtracking.visible state).position)
  | .lookAhead negative target =>
    .running (backtracking.push state (.lookAhead negative target))
  | .lookAheadEnd false => .ofOption (.error (.assertionStructure pc))
      (backtracking.finishPositiveLookahead state pc)
  | .lookAheadEnd true =>
    (Step.ofOption (.error (.assertionStructure pc))
      (backtracking.rejectNegativeLookahead state pc)).bind fun state =>
        .ofOption .noMatch (backtracking.restoreBacktrack state)
  | .accept =>
    match finishMatch 0 (backtracking.visible state).cells.captures with
    | .ok captures => .stopped (.matched captures)
    | .error error => .stopped (.error error)
  | .error error => .stopped (.error error)
  | .panic => .stopped .panicked

variable (program : CompiledRegExp)

/-- One turn of the loop of `run_attempt`. -/
def attempt (input : List UInt16) (state : State) : Step State :=
  let visible := backtracking.visible state
  match program.instructions[visible.pc]? with
  | none => .stopped (.error (.programCounter visible.pc))
  | some instruction =>
    backtracking.perform
      (backtracking.moveTo state (visible.pc + 1) visible.position) visible.pc
      (dispatch input program.flags.isUnicode visible instruction)

def fresh (candidate : Nat) : State :=
  backtracking.start ⟨0, candidate, List.replicate (program.captureCount * 2) none,
    List.replicate program.registerCount .unset⟩

/-- One step of `execute_units`, whose state is the candidate with the state of
its attempt. -/
def step (input : List UInt16) (execution : Nat × State) : Step (Nat × State) :=
  let candidate := execution.1
  match backtracking.attempt program input execution.2 with
  | .running state => .running (candidate, state)
  | .stopped .noMatch =>
    if program.flags.sticky || candidate = input.length then .stopped .noMatch
    else
      let candidate :=
        advanceStringIndex input candidate program.flags.isUnicode
      .running (candidate, backtracking.fresh program candidate)
  | .stopped outcome => .stopped outcome

/-- The first steps of `execute_units`. -/
def execute (program : CompiledRegExp) (input : List UInt16) (start : Nat) :
    Nat → Step (Nat × State)
  | 0 =>
    if input.length < start then
      .stopped (.startOutOfBounds start input.length)
    else
      let candidate := normalizeStart input start program.flags.isUnicode
      .running (candidate, backtracking.fresh program candidate)
  | steps + 1 => (execute program input start steps).bind
      (backtracking.step program input)

end Backtracking

def undoLog : Backtracking AttemptState where
  visible := AttemptState.toMatchState
  start := AttemptState.start
  moveTo := AttemptState.moveTo
  set := AttemptState.set
  push := AttemptState.push
  restoreBacktrack := AttemptState.restoreBacktrack
  finishPositiveLookahead := AttemptState.finishPositiveLookahead
  rejectNegativeLookahead := AttemptState.rejectNegativeLookahead

end QuickJsOxide.RegExp
