import Mathlib.Data.List.Nodup
import Mathlib.Data.List.Range
import QuickJsOxide.Promises.Reactions

namespace QuickJsOxide.Promises.Aggregates

open Library
open List hiding modify

/-! The loop that `Promise.all`, `Promise.allSettled` and `Promise.any` share.
The replies of the iterator, of `resolve` and of `then` come one at a time; the
functions handed to `then` may be called at any moment, also inside `then`. -/

inductive PromiseNativeKind where
  | all
  | allSettled
  | any
deriving Repr, DecidableEq

/-- An entry of the array; `allSettled` wraps what it was given. -/
inductive Entry where
  | value (value : JsValue)
  | settled (outcome : PromiseReactionKind) (value : JsValue)
deriving Repr, DecidableEq

/-- A function handed to `then`, with the arguments of all its calls. -/
structure ElementFunction where
  index : Nat
  outcome : Option PromiseReactionKind
  alreadyCalled : Bool
  arguments : List JsValue
deriving Repr, DecidableEq

def ElementFunction.call (function : ElementFunction) (argument : JsValue) :
    ElementFunction :=
  { function with
    alreadyCalled := true, arguments := function.arguments ++ [argument] }

def ElementFunction.entry (function : ElementFunction) (argument : JsValue) :
    Entry :=
  match function.outcome with
  | none => .value argument
  | some outcome => .settled outcome argument

inductive Phase where
  | next
  | resolved
  | then_
  | terminal
  | closed
  | finished
deriving Repr, DecidableEq

inductive IteratorStep where
  | throw (reason : JsValue)
  | yield (value : JsValue)
  | done
deriving Repr, DecidableEq

structure Settlement where
  function : PromiseResolvingKind
  values : List (Option Entry)
deriving Repr, DecidableEq

structure Loop where
  kind : PromiseNativeKind
  phase : Phase
  values : List (Option Entry)
  remaining : Int
  index : Nat
  functions : List ElementFunction
  settlements : List Settlement
  rejections : List JsValue
deriving Repr, DecidableEq

inductive Event where
  | next (result : IteratorStep)
  | reply (completion : Completion)
  | call (position : Nat) (argument : JsValue)

def PromiseNativeKind.settles : PromiseNativeKind → PromiseResolvingKind
  | .any => .reject
  | _ => .resolve

def PromiseNativeKind.element : PromiseNativeKind → String
  | .all => "Promise.all resolve-element"
  | .allSettled => "Promise.allSettled element"
  | .any => "Promise.any reject-element"

def Loop.start (kind : PromiseNativeKind) : Loop where
  kind := kind
  phase := .next
  values := []
  remaining := 1
  index := 0
  functions := []
  settlements := []
  rejections := []

def checkedSub (count : Int) (message : String) : Except String Int :=
  if -0x80000000 ≤ count - 1 then .ok (count - 1) else .error message

def checkedAdd (count : Int) : Option Int :=
  if count + 1 ≤ 0x7fffffff then some (count + 1) else none

/-- Definitions past the end leave holes. -/
def definePromiseArrayElement (values : List (Option Entry)) (index : Nat)
    (value : Entry) : List (Option Entry) :=
  if index < values.length then
    values.set index (some value)
  else
    values ++ replicate (index - values.length) none ++ [some value]

namespace Loop

variable (loop : Loop)

def settle : Loop :=
  { loop with
    settlements := loop.settlements ++ [⟨loop.kind.settles, loop.values⟩] }

def reject (reason : JsValue) : Loop :=
  { loop with
    phase := .finished, rejections := loop.rejections ++ [reason] }

def preparePromiseAggregateHandlers : Loop :=
  let index := loop.index
  match loop.kind with
  | .all => { loop with
      functions := loop.functions ++ [⟨index, none, false, []⟩] }
  | .allSettled => { loop with
      functions := loop.functions ++
        [⟨index, some .fulfill, false, []⟩, ⟨index, some .reject, false, []⟩] }
  | .any => { loop with
      functions := loop.functions ++ [⟨index, none, false, []⟩]
      values := definePromiseArrayElement loop.values index
        (.value .undefined) }

/-- The reply of `resolve` is there: make the handlers and call `then`. When
there are too many elements, the iterator is closed. -/
def resolved : Loop :=
  let prepared := loop.preparePromiseAggregateHandlers
  match checkedAdd prepared.remaining with
  | some count => { prepared with remaining := count, phase := .then_ }
  | none => { prepared with phase := .closed }

def thenReturned : Loop :=
  if loop.index + 1 < 0xffffffff then
    { loop with index := loop.index + 1, phase := .next }
  else
    { loop with phase := .closed }

def next : IteratorStep → Except String Loop
  | .throw reason => .ok (loop.reject reason)
  | .yield _ => .ok { loop with phase := .resolved }
  | .done => do
    let count ← checkedSub loop.remaining
      "Promise aggregate remaining-elements counter underflowed"
    let loop := { loop with remaining := count }
    if count = 0 then
      return { loop.settle with phase := .terminal }
    else
      return { loop with phase := .finished }

def finishPromiseAggregateElement (index : Nat) (value : Entry) :
    Except String Loop := do
  let loop := { loop with
    values := definePromiseArrayElement loop.values index value }
  let count ← checkedSub loop.remaining
    "Promise aggregate element counter underflowed"
  let loop := { loop with remaining := count }
  return if count = 0 then loop.settle else loop

def callElement (position : Nat) (argument : JsValue) : Except String Loop :=
  match loop.functions[position]? with
  | none => .error (loop.kind.element ++ " had no internal capture")
  | some function =>
    let called := { loop with
      functions := loop.functions.set position (function.call argument) }
    if function.alreadyCalled then
      .ok called
    else
      called.finishPromiseAggregateElement function.index
        (function.entry argument)

def resume : Completion → Phase → Except String Loop
  | .throw _, .resolved | .throw _, .then_ =>
    .ok { loop with phase := .closed }
  | .throw reason, .terminal | .throw reason, .closed =>
    .ok (loop.reject reason)
  | .throw _, .next => .error "Promise next expected iterator reply"
  | .return _, .resolved => .ok loop.resolved
  | .return _, .then_ => .ok loop.thenReturned
  | .return _, .terminal => .ok { loop with phase := .finished }
  | _, _ => .error "Promise aggregate unexpected reply"

def perform : Event → Except String Loop
  | .next result =>
    if loop.phase = .next then
      loop.next result
    else
      .error "Promise iterator reply has wrong phase"
  | .reply completion => loop.resume completion loop.phase
  | .call position argument => loop.callElement position argument

end Loop

/-- No abrupt completion ends the iteration, and there are fewer than `2³¹ - 1`
elements. -/
def Undisturbed (before : Loop) : Event → Prop
  | .next (.throw _) => False
  | .reply (.throw _) => before.phase ≠ .resolved ∧ before.phase ≠ .then_
  | .reply (.return _) => before.phase = .resolved →
      before.functions.length + 1 < 0x7fffffff
  | .next _ | .call _ _ => True

def Phase.iterates : Phase → Bool
  | .terminal | .finished => false
  | _ => true

/-- The element whose `then` runs has its function already. -/
def Phase.ahead : Phase → Nat
  | .then_ => 1
  | _ => 0

def ElementFunction.waits (function : ElementFunction) : Bool :=
  function.arguments.isEmpty

structure ElementFunction.Tracked (function : ElementFunction)
    (values : List (Option Entry)) (position : Nat) : Prop where
  index : function.index = position
  outcome : function.outcome = none
  alreadyCalled : function.alreadyCalled = !function.waits
  first : ∀ argument, function.arguments.head? = some argument →
    values[position]? = some (some (.value argument))

namespace Loop

structure Tracked (loop : Loop) : Prop where
  functions : ∀ (position : Nat) (function : ElementFunction),
    loop.functions[position]? = some function →
    function.Tracked loop.values position
  index : loop.functions.length = loop.index + loop.phase.ahead
  remaining : loop.remaining = loop.phase.iterates.toNat +
    loop.functions.countP ElementFunction.waits
  bounded : loop.values.length ≤ loop.functions.length
  few : loop.functions.length < 0x7fffffff
  single : loop.kind ≠ .allSettled
  going : loop.phase ≠ .closed

structure Sound (loop : Loop) : Prop extends Tracked loop where
  settlements : loop.settlements =
    if loop.remaining = 0 then
      [⟨loop.kind.settles, loop.values⟩]
    else
      []

end Loop

section

variable {values : List (Option Entry)} (value : Entry)

theorem getElem?_definePromiseArrayElement_self :
    (definePromiseArrayElement values index value)[index]? =
      some (some value) := by
  unfold definePromiseArrayElement
  split
  · rename_i inside
    exact getElem?_set_self inside
  · rename_i outside
    rw [getElem?_append_right (by simp; omega)]
    simp [Nat.add_sub_cancel' (Nat.le_of_not_lt outside)]

theorem getElem?_definePromiseArrayElement_of_ne (different : other ≠ index)
    (present : values[other]? = some entry) :
    (definePromiseArrayElement values index value)[other]? = some entry := by
  have inside := (List.getElem?_eq_some_iff.mp present).1
  unfold definePromiseArrayElement
  split
  · rw [getElem?_set_ne different.symm, present]
  · rw [append_assoc, getElem?_append_left inside, present]

theorem length_definePromiseArrayElement_le (inside : index < limit)
    (bounded : values.length ≤ limit) :
    (definePromiseArrayElement values index value).length ≤ limit := by
  unfold definePromiseArrayElement
  split
  · rw [length_set]
    exact bounded
  · simp only [length_append, length_replicate, length_singleton]
    omega

end

namespace Loop

variable {loop after : Loop} {position : Nat}

theorem Tracked.settle_sound (tracked : loop.Tracked)
    (unsettled : loop.settlements = []) :
    (if loop.remaining = 0 then loop.settle else loop).Sound := by
  by_cases zero : loop.remaining = 0
  · rw [if_pos zero]
    refine ⟨{ tracked with }, ?_⟩
    simp [settle, unsettled, zero]
  · rw [if_neg zero]
    exact ⟨tracked, by rw [unsettled, if_neg zero]⟩

theorem Tracked.checkedSub_eq (tracked : loop.Tracked) (message : String) :
    checkedSub loop.remaining message = .ok (loop.remaining - 1) := by
  have counted := tracked.remaining
  exact if_pos (by omega)

theorem Sound.unsettled (sound : loop.Sound)
    (open' : 0 < loop.remaining) : loop.settlements = [] := by
  rw [sound.settlements, if_neg (by omega)]

theorem Tracked.call {values : List (Option Entry)} {remaining : Int}
    (tracked : loop.Tracked)
    (found : loop.functions[position]? = some function)
    (first : ∀ given, (function.call argument).arguments.head? = some given →
      values[position]? = some (some (.value given)))
    (kept : ∀ other entry, other ≠ position →
      loop.values[other]? = some entry → values[other]? = some entry)
    (bounded : values.length ≤ loop.functions.length)
    (counted : remaining + function.waits.toNat = loop.remaining) :
    { loop with
      functions := loop.functions.set position (function.call argument)
      values, remaining }.Tracked := by
  have inside := (List.getElem?_eq_some_iff.mp found).1
  have fits := tracked.functions position function found
  have before := tracked.remaining
  refine { tracked with
    functions := ?_, index := ?_, remaining := ?_, bounded := ?_, few := ?_ }
  · intro other replaced place
    rw [getElem?_set] at place
    split at place
    · rename_i same
      subst same
      cases place
      exact ⟨fits.index, fits.outcome, by simp [ElementFunction.call,
        ElementFunction.waits], first⟩
    · rename_i apart
      have old := tracked.functions other replaced place
      exact { old with
        first := fun given same =>
          kept other _ (Ne.symm apart) (old.first given same) }
  · rw [length_set]
    exact tracked.index
  · have here := (List.getElem?_eq_some_iff.mp found).2
    have gone : (function.call argument).waits = false := by
      simp [ElementFunction.call, ElementFunction.waits]
    have member := mem_of_getElem? found
    simp only [countP_set inside, here, gone]
    cases waits : function.waits with
    | false => simpa [waits] using counted.trans before
    | true =>
      have waiting := countP_pos_iff.mpr ⟨function, member, waits⟩
      simp only [waits, Bool.toNat_true] at counted
      simp
      omega
  · rw [length_set]
    exact bounded
  · rw [length_set]
    exact tracked.few

theorem Sound.callElement (sound : loop.Sound)
    (inside : position < loop.functions.length) (argument : JsValue) :
    ∃ after, loop.callElement position argument = .ok after ∧ after.Sound := by
  obtain ⟨function, found⟩ : ∃ function, loop.functions[position]? =
      some function := ⟨_, getElem?_eq_getElem inside⟩
  have fits := sound.functions position function found
  have counted := sound.remaining
  unfold Loop.callElement
  simp only [found, fits.alreadyCalled, fits.index, ElementFunction.entry,
    fits.outcome]
  cases waits : function.waits with
  | false =>
    have same : (function.call argument).arguments.head? =
        function.arguments.head? := by
      cases given : function.arguments with
      | nil => simp [ElementFunction.waits, given] at waits
      | cons => simp [ElementFunction.call, given]
    refine ⟨_, rfl, sound.toTracked.call found ?_ (fun _ _ _ => id)
      sound.bounded (by simp [waits]), sound.settlements⟩
    rw [same]
    exact fits.first
  | true =>
    have only : (function.call argument).arguments = [argument] := by
      simpa [ElementFunction.waits, ElementFunction.call] using waits
    have waiting : 0 < loop.functions.countP ElementFunction.waits :=
      countP_pos_iff.mpr ⟨function, mem_of_getElem? found, waits⟩
    have called : { loop with
        functions := loop.functions.set position (function.call argument)
        values := definePromiseArrayElement loop.values position
          (.value argument)
        remaining := loop.remaining - 1 }.Tracked := by
      refine sound.toTracked.call found ?_ ?_ ?_ (by simp [waits])
      · rw [only]
        rintro given ⟨⟩
        exact getElem?_definePromiseArrayElement_self _
      · intro other entry apart
        exact getElem?_definePromiseArrayElement_of_ne _ apart
      · exact length_definePromiseArrayElement_le _ inside sound.bounded
    refine ⟨_, ?_, called.settle_sound (sound.unsettled (by omega))⟩
    simp only [Bool.not_true, Bool.false_eq_true, if_false,
      finishPromiseAggregateElement, sound.checkedSub_eq]
    rfl

theorem Sound.prepare (sound : loop.Sound)
    (index : loop.functions.length = loop.index) :
    ∃ values, loop.preparePromiseAggregateHandlers = { loop with
        functions := loop.functions ++ [⟨loop.index, none, false, []⟩]
        values } ∧
      values.length ≤ loop.functions.length + 1 ∧
      ∀ other < loop.functions.length, ∀ entry,
        loop.values[other]? = some entry → values[other]? = some entry := by
  unfold preparePromiseAggregateHandlers
  cases kind : loop.kind with
  | all =>
    exact ⟨_, rfl, Nat.le_succ_of_le sound.bounded, fun _ _ _ => id⟩
  | allSettled => exact absurd kind sound.single
  | any =>
    refine ⟨_, rfl, length_definePromiseArrayElement_le _ (by omega)
      (Nat.le_succ_of_le sound.bounded), ?_⟩
    intro other inside entry
    exact getElem?_definePromiseArrayElement_of_ne _ (by omega)

theorem Sound.move {phase : Phase} {index : Nat} (sound : loop.Sound)
    (rejections : List JsValue)
    (same : phase.iterates = loop.phase.iterates)
    (level : loop.functions.length = index + phase.ahead)
    (going : phase ≠ .closed) :
    { loop with phase, index, rejections }.Sound := by
  have counted := sound.remaining
  rw [← same] at counted
  exact ⟨{ sound with index := level, remaining := counted, going },
    sound.settlements⟩

section

variable (sound : loop.Sound)

include sound

theorem Sound.resolved (phase : loop.phase = .resolved)
    (more : loop.functions.length + 1 < 0x7fffffff) : loop.resolved.Sound := by
  have index := sound.index
  have counted := sound.remaining
  have few : loop.functions.countP ElementFunction.waits ≤
      loop.functions.length := countP_le_length
  rw [phase] at index counted
  simp only [Phase.iterates, Phase.ahead, Bool.toNat_true,
    Nat.add_zero] at index counted
  obtain ⟨_, prepared, bounded, kept⟩ := sound.prepare index
  unfold Loop.resolved
  simp only [prepared, checkedAdd]
  rw [if_pos (by omega)]
  refine ⟨{ sound with
    functions := ?_, index := ?_, remaining := ?_
    bounded := ?_, few := ?_, going := ?_ }, ?_⟩ <;>
    simp only [length_append, length_singleton]
  · intro position function found
    by_cases inside : position < loop.functions.length
    · rw [getElem?_append_left inside] at found
      have fits := sound.functions position function found
      exact { fits with
        first := fun argument given =>
          kept position inside _ (fits.first argument given) }
    · have last := (List.getElem?_eq_some_iff.mp found).1
      rw [length_append, length_singleton] at last
      have here : position = loop.functions.length := by omega
      subst here
      rw [getElem?_concat_length] at found
      cases found
      exact ⟨index.symm, rfl, rfl, by rintro _ ⟨⟩⟩
  · rw [index]
    rfl
  · rw [countP_append, counted]
    simp [Phase.iterates, ElementFunction.waits]
    omega
  · exact bounded
  · exact more
  · rintro ⟨⟩
  · rw [sound.unsettled (by omega), if_neg (by omega)]

theorem Sound.done (phase : loop.phase = .next) :
    ∃ after, loop.next .done = .ok after ∧ after.Sound := by
  have index := sound.index
  have counted := sound.remaining
  rw [phase] at index counted
  simp only [Phase.iterates, Bool.toNat_true] at counted
  have unsettled := sound.unsettled (by omega)
  have ends : ∀ phase : Phase, phase.iterates = false → phase.ahead = 0 →
      phase ≠ .closed → { loop with
        remaining := loop.remaining - 1, phase }.Tracked := by
    intro phase ends level going
    refine { sound with index := ?_, remaining := ?_, going := going }
    · rw [level]
      exact index
    · rw [ends, counted]
      simp only [Bool.toNat_false]
      omega
  simp only [next, sound.checkedSub_eq]
  by_cases zero : loop.remaining - 1 = 0
  · have settled := (ends .terminal rfl rfl
      (by rintro ⟨⟩)).settle_sound unsettled
    rw [if_pos zero] at settled
    exact ⟨_, if_pos zero, settled⟩
  · have settled := (ends .finished rfl rfl
      (by rintro ⟨⟩)).settle_sound unsettled
    rw [if_neg zero] at settled
    exact ⟨_, if_neg zero, settled⟩

theorem Sound.next (phase : loop.phase = .next)
    (undisturbed : Undisturbed loop (.next result)) :
    ∃ after, loop.next result = .ok after ∧ after.Sound := by
  cases result with
  | throw => exact undisturbed.elim
  | yield =>
    have index := sound.index
    rw [phase] at index
    exact ⟨_, rfl, sound.move _ (by rw [phase]; rfl) index (by rintro ⟨⟩)⟩
  | done => exact sound.done phase

theorem Sound.reply (undisturbed : Undisturbed loop (.reply completion))
    (taken : loop.perform (.reply completion) = .ok after) : after.Sound := by
  have index := sound.index
  rw [perform] at taken
  cases phase : loop.phase <;> rw [phase] at taken index
  case next => cases completion <;> cases taken
  case finished => cases completion <;> cases taken
  case closed => exact absurd phase sound.going
  case terminal =>
    cases completion <;> cases taken <;>
      exact sound.move _ (by rw [phase]; rfl) index (by rintro ⟨⟩)
  case resolved =>
    cases completion with
    | throw => exact absurd phase undisturbed.1
    | «return» value =>
      cases taken
      exact sound.resolved phase (undisturbed phase)
  case then_ =>
    cases completion with
    | throw => exact absurd phase undisturbed.2
    | «return» value =>
      cases taken
      have few := sound.few
      simp only [Phase.ahead] at index
      rw [thenReturned, if_pos (by omega)]
      exact sound.move _ (by rw [phase]; rfl) index (by rintro ⟨⟩)

theorem Sound.step (undisturbed : Undisturbed loop event)
    (taken : loop.perform event = .ok after) : after.Sound := by
  cases event with
  | reply => exact sound.reply undisturbed taken
  | next result =>
    rw [Loop.perform] at taken
    split at taken
    · rename_i phase
      obtain ⟨result, replied, good⟩ := sound.next phase undisturbed
      rw [replied] at taken
      cases taken
      exact good
    · cases taken
  | call position argument =>
    rw [Loop.perform] at taken
    by_cases inside : position < loop.functions.length
    · obtain ⟨_, called, good⟩ := sound.callElement inside argument
      rw [called] at taken
      cases taken
      exact good
    · rw [Loop.callElement, getElem?_eq_none (Nat.le_of_not_lt inside)] at taken
      cases taken

end

end Loop

end QuickJsOxide.Promises.Aggregates
