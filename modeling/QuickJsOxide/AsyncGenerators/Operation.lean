import QuickJsOxide.Promises.Reactions

namespace QuickJsOxide.AsyncGenerators

open Library
open Promises (JsValue Completion ObjectId ContextId PromiseResolvingKind)

/-! Async generators: the object with its queue of requests, and the
continuation that serves the queue. Bodies, promise resolution and resolving
functions run outside of the continuation, which waits for them on a stack. -/

inductive GeneratorResumeKind where
  | next
  | return
  | throw
deriving Repr, DecidableEq

inductive AsyncGeneratorState where
  | suspendedStart
  | suspendedYield
  | suspendedYieldStar
  | executing
  | awaitingReturn
  | completed
deriving Repr, DecidableEq

inductive AsyncGeneratorResumeKind where
  | awaitFulfill
  | awaitReject
  | returnFulfill
  | returnReject
deriving Repr, DecidableEq

inductive VmSuspendKind where
  | initial
  | yield
  | yieldStar
  | asyncYieldStar
  | await
deriving Repr, DecidableEq

inductive VmResume where
  | next (value : JsValue)
  | return (value : JsValue)
  | throw (value : JsValue)
deriving Repr, DecidableEq

inductive VmActivationResume where
  | initial
  | awaitFulfill (value : JsValue)
  | awaitReject (value : JsValue)
  | generator (resume : VmResume)
deriving Repr, DecidableEq

/-- The frozen frame of a body, by number. -/
abbrev GeneratorActivationData := Nat

structure RootedVmActivation where
  kind : VmSuspendKind
  data : GeneratorActivationData
deriving Repr, DecidableEq

inductive VmRunOutcome where
  | complete (completion : Completion)
  | suspend (value : JsValue) (kind : VmSuspendKind)
      (activation : GeneratorActivationData)
deriving Repr

structure AsyncGeneratorRequestData where
  completion : GeneratorResumeKind
  result : JsValue
  promise : ObjectId
  resolve : ObjectId
  reject : ObjectId
deriving Repr

structure AsyncGeneratorData where
  state : AsyncGeneratorState
  activation : Option GeneratorActivationData
  resumeRealm : Option ContextId
  queue : List AsyncGeneratorRequestData
deriving Repr

def AsyncGeneratorData.new (activation : GeneratorActivationData) :
    AsyncGeneratorData where
  state := .suspendedStart
  activation := some activation
  resumeRealm := none
  queue := []

inductive HeapObject where
  | asyncGenerator (data : AsyncGeneratorData)
  | promise
  | resolving (promise : ObjectId) (kind : PromiseResolvingKind)
  | iteratorResult (value : JsValue) (done : Bool)
  | other
deriving Repr

structure PromiseCapability where
  promise : ObjectId
  resolve : ObjectId
  reject : ObjectId
deriving Repr, DecidableEq

inductive Phase where
  | body
  | await (activation : GeneratorActivationData)
  | completedReturn
  | settled (pump : Bool)
deriving Repr, DecidableEq

structure AsyncGeneratorResume where
  realm : ContextId
  generator : Option ObjectId
  output : JsValue
  phase : Phase
deriving Repr

inductive AsyncGeneratorStep where
  | complete (completion : Completion)
  | run (resume : AsyncGeneratorResume) (activation : RootedVmActivation)
      (input : VmActivationResume)
  | resolve (resume : AsyncGeneratorResume) (value : JsValue)
      (realm : ContextId)
  | call (resume : AsyncGeneratorResume) (callable : ObjectId)
      (value : JsValue)
deriving Repr

inductive AsyncGeneratorSettlement where
  | resolve (value : JsValue) (done : Bool)
  | reject (value : JsValue)
deriving Repr

inductive Awaited where
  | body
  | completedReturn
deriving Repr, DecidableEq

structure Wait where
  generator : ObjectId
  awaited : Awaited
deriving Repr, DecidableEq

structure Settlement where
  promise : ObjectId
  kind : PromiseResolvingKind
  value : JsValue
deriving Repr

inductive RuntimeError where
  | invariant (message : String)
  /-- The loop of `pump` was cut off. -/
  | endless
  | idle
deriving Repr, DecidableEq

/-- The runtime, topmost continuation first. `requested` holds every request
with its generator and `settlements` every call of a resolving function, in
the order in which they were made. -/
structure Runtime where
  objects : List HeapObject
  operations : List AsyncGeneratorStep
  waits : List Wait
  requested : List (ObjectId × ObjectId)
  settlements : List Settlement
deriving Repr

def Runtime.new : Runtime where
  objects := []
  operations := []
  waits := []
  requested := []
  settlements := []

abbrev Running := EStateM RuntimeError Runtime

def Runtime.asyncGenerator? (runtime : Runtime) (id : ObjectId) :
    Option AsyncGeneratorData :=
  match runtime.objects[id]? with
  | some (.asyncGenerator data) => some data
  | _ => none

def Runtime.isCallable (runtime : Runtime) (id : ObjectId) : Bool :=
  match runtime.objects[id]? with
  | some (.resolving ..) => true
  | _ => false

def Runtime.setAsyncGenerator (runtime : Runtime) (id : ObjectId)
    (data : AsyncGeneratorData) : Runtime :=
  { runtime with objects := runtime.objects.set id (.asyncGenerator data) }

def allocate (object : HeapObject) : Running ObjectId := do
  let id := (← get).objects.length
  modify fun runtime =>
    { runtime with objects := runtime.objects ++ [object] }
  return id

def asyncGeneratorData (wrongClass : String) (id : ObjectId) :
    Running AsyncGeneratorData :=
  attempt fun runtime =>
    match runtime.asyncGenerator? id with
    | some data => .ok data
    | none => .error (.invariant wrongClass)

def asyncGeneratorSnapshot (id : ObjectId) : Running AsyncGeneratorData :=
  asyncGeneratorData
    "AsyncGenerator state requested for an object with the wrong class" id

def store (id : ObjectId) (data : AsyncGeneratorData) : Running Unit :=
  modify fun runtime => runtime.setAsyncGenerator id data

def asyncGeneratorEnqueue (id : ObjectId)
    (request : AsyncGeneratorRequestData) : Running Unit := do
  let data ← asyncGeneratorData
    "AsyncGenerator request reached an object with the wrong class" id
  store id { data with queue := data.queue ++ [request] }
  modify fun runtime => { runtime with
    requested := runtime.requested ++ [(id, request.promise)] }

def asyncGeneratorFrontRequest (id : ObjectId) :
    Running (Option AsyncGeneratorRequestData) := do
  let data ← asyncGeneratorData
    "AsyncGenerator request lookup reached an object with the wrong class" id
  return data.queue.head?

def asyncGeneratorPopFront (id : ObjectId) :
    Running AsyncGeneratorRequestData := do
  let data ← asyncGeneratorData
    "AsyncGenerator request removal reached an object with the wrong class" id
  match data.queue with
  | [] => throw (.invariant "AsyncGenerator request queue is empty")
  | request :: rest => do
    store id { data with queue := rest }
    return request

def beginAsyncGeneratorResume (id : ObjectId) :
    Running (AsyncGeneratorState × GeneratorActivationData) := do
  let data ← asyncGeneratorData
    "AsyncGenerator resume reached an object with the wrong class" id
  if data.state = .awaitingReturn ∨ data.state = .completed then
    throw (.invariant "AsyncGenerator resume began outside a parked state")
  match data.activation with
  | none => throw (.invariant "parked AsyncGenerator has no activation")
  | some activation => do
    store id { data with
      state := .executing, activation := none, resumeRealm := none }
    return (data.state, activation)

def suspendAsyncGenerator (id : ObjectId) (state : AsyncGeneratorState)
    (activation : GeneratorActivationData) (resumeRealm : Option ContextId) :
    Running Unit := do
  if ¬ ((state = .suspendedYield ∧ resumeRealm = none) ∨
      (state = .suspendedYieldStar ∧ resumeRealm = none) ∨
      (state = .executing ∧ resumeRealm ≠ none)) then
    throw (.invariant
      "AsyncGenerator suspension has an invalid state/realm pair")
  let data ← asyncGeneratorData
    "AsyncGenerator suspension reached an object with the wrong class" id
  if ¬ (data.state = .executing ∧ data.activation = none ∧
      data.resumeRealm = none ∧ data.queue ≠ []) then
    throw (.invariant "AsyncGenerator suspension did not follow execution")
  store id { data with state, activation := some activation, resumeRealm }

def completeAsyncGenerator (id : ObjectId) : Running Unit := do
  let data ← asyncGeneratorData
    "AsyncGenerator completion reached an object with the wrong class" id
  if data.state = .awaitingReturn ∨ data.state = .completed then
    throw (.invariant
      "AsyncGenerator completion repeated or interrupted completed-return await")
  store id { data with
    state := .completed, activation := none, resumeRealm := none }

def beginAsyncGeneratorCompletedReturn (id : ObjectId) (realm : ContextId) :
    Running Unit := do
  let data ← asyncGeneratorData
    "AsyncGenerator completed return reached the wrong class" id
  if ¬ (data.state = .completed ∧ data.activation = none ∧
      data.resumeRealm = none ∧ data.queue ≠ []) then
    throw (.invariant
      "AsyncGenerator completed return began in an invalid state")
  store id { data with state := .awaitingReturn, resumeRealm := some realm }

def finishAsyncGeneratorCompletedReturn (id : ObjectId) : Running Unit := do
  let data ← asyncGeneratorData
    "AsyncGenerator completed-return callback reached the wrong class" id
  if data.state ≠ .awaitingReturn ∨ data.activation ≠ none then
    throw (.invariant
      "AsyncGenerator completed-return callback reached an invalid state")
  store id { data with state := .completed, resumeRealm := none }
  if data.resumeRealm = none then
    throw (.invariant "AsyncGenerator completed-return callback lost its realm")

def newDefaultPromiseCapability : Running PromiseCapability := do
  let promise ← allocate .promise
  let resolve ← allocate (.resolving promise .resolve)
  let reject ← allocate (.resolving promise .reject)
  return ⟨promise, resolve, reject⟩

def enqueueAsyncGeneratorRequest (generator : ObjectId)
    (completion : GeneratorResumeKind) (result : JsValue)
    (capability : PromiseCapability) : Running Unit :=
  asyncGeneratorEnqueue generator
    ⟨completion, result, capability.promise, capability.resolve,
      capability.reject⟩

def rootFrontAsyncGeneratorRequest (generator : ObjectId) :
    Running AsyncGeneratorRequestData := do
  match ← asyncGeneratorFrontRequest generator with
  | none => throw (.invariant "AsyncGenerator request queue is empty")
  | some request => do
    if ¬ (← get).isCallable request.resolve then
      throw (.invariant "AsyncGenerator request resolve is not callable")
    if ¬ (← get).isCallable request.reject then
      throw (.invariant "AsyncGenerator request reject is not callable")
    return request

def performPromiseThenWithoutCapability (generator : ObjectId)
    (awaited : Awaited) : Running Unit :=
  modify fun runtime =>
    { runtime with waits := ⟨generator, awaited⟩ :: runtime.waits }

namespace AsyncGeneratorResume

section

variable (resume : AsyncGeneratorResume)

def requireGenerator : Running ObjectId :=
  match resume.generator with
  | some generator => return generator
  | none => throw (.invariant "async generator operation has no generator")

def finish : AsyncGeneratorStep :=
  .complete (.return resume.output)

def detach (expected : AsyncGeneratorState) : Running AsyncGeneratorResume := do
  let id ← resume.requireGenerator
  let (previous, _) ← beginAsyncGeneratorResume id
  if previous ≠ expected then
    throw (.invariant "AsyncGenerator activation changed before resume")
  return { resume with phase := .body }

def settle (settlement : AsyncGeneratorSettlement) (pump : Bool) :
    Running AsyncGeneratorStep := do
  let generator ← resume.requireGenerator
  let request ← rootFrontAsyncGeneratorRequest generator
  match settlement with
  | .resolve value done => do
    let result ← allocate (.iteratorResult value done)
    let _ ← asyncGeneratorPopFront generator
    return .call { resume with phase := .settled pump } request.resolve
      (.object result)
  | .reject value => do
    let _ ← asyncGeneratorPopFront generator
    return .call { resume with phase := .settled pump } request.reject value

def suspendKind : AsyncGeneratorState → VmSuspendKind
  | .suspendedStart => .initial
  | .suspendedYield => .yield
  | .suspendedYieldStar => .asyncYieldStar
  | _ => .await

/-- What a parked body is resumed with. The last case is a body that a
resolving function parked while the queue was being served. -/
def resumeInput (previous : AsyncGeneratorState)
    (request : AsyncGeneratorRequestData) : VmActivationResume :=
  match previous with
  | .suspendedStart => .initial
  | .suspendedYield | .suspendedYieldStar =>
    .generator (match request.completion with
      | .next => .next request.result
      | .return => .return request.result
      | .throw => .throw request.result)
  | _ => .awaitFulfill .undefined

def serveCompleted (generator : ObjectId)
    (request : AsyncGeneratorRequestData) : Running AsyncGeneratorStep :=
  match request.completion with
  | .next => resume.settle (.resolve .undefined true) false
  | .throw => do
    let request ← rootFrontAsyncGeneratorRequest generator
    resume.settle (.reject request.result) false
  | .return => do
    let request ← rootFrontAsyncGeneratorRequest generator
    beginAsyncGeneratorCompletedReturn generator resume.realm
    return .resolve { resume with phase := .completedReturn } request.result
      resume.realm

def resumeBody (generator : ObjectId) (snapshot : AsyncGeneratorData) :
    Running AsyncGeneratorStep := do
  match snapshot.activation with
  | none => throw (.invariant "suspended AsyncGenerator has no activation")
  | some activation => do
    let request ← rootFrontAsyncGeneratorRequest generator
    let resume ← resume.detach snapshot.state
    return .run resume ⟨suspendKind snapshot.state, activation⟩
      (resumeInput snapshot.state request)

/-- One turn of the loop of `pump`; nothing is returned if the loop goes on. -/
def pumpTurn : Running (Option AsyncGeneratorStep) := do
  let generator ← resume.requireGenerator
  let snapshot ← asyncGeneratorSnapshot generator
  match snapshot.queue with
  | [] => return some resume.finish
  | request :: _ =>
    match snapshot.state with
    | .awaitingReturn => return some resume.finish
    | .completed => some <$> resume.serveCompleted generator request
    | .suspendedStart =>
      if request.completion ≠ .next then do
        completeAsyncGenerator generator
        return none
      else some <$> resume.resumeBody generator snapshot
    | _ => some <$> resume.resumeBody generator snapshot

def pumpLoop (resume : AsyncGeneratorResume) : Nat → Running AsyncGeneratorStep
  | 0 => throw .endless
  | fuel + 1 => do
    match ← resume.pumpTurn with
    | some step => return step
    | none => resume.pumpLoop fuel

/-- A turn that goes on completes the generator, and the next one stops. -/
def pump : Running AsyncGeneratorStep :=
  resume.pumpLoop 2

def body (outcome : VmRunOutcome) : Running AsyncGeneratorStep := do
  if resume.phase ≠ .body then
    throw (.invariant "async generator body reply has wrong phase")
  match outcome with
  | .complete completion => do
    completeAsyncGenerator (← resume.requireGenerator)
    match completion with
    | .return value => resume.settle (.resolve value true) true
    | .throw value => resume.settle (.reject value) true
  | .suspend value .yield activation => do
    suspendAsyncGenerator (← resume.requireGenerator) .suspendedYield
      activation none
    resume.settle (.resolve value false) true
  | .suspend value .asyncYieldStar activation => do
    suspendAsyncGenerator (← resume.requireGenerator) .suspendedYieldStar
      activation none
    resume.settle (.resolve value false) true
  | .suspend value .await activation =>
    return .resolve { resume with phase := .await activation } value
      resume.realm
  | .suspend _ _ _ => throw (.invariant
      "AsyncGenerator stopped at an unsupported suspension")

end

def resume (resume : AsyncGeneratorResume) (completion : Completion) :
    Running AsyncGeneratorStep :=
  match resume.phase with
  | .body => resume.body (.complete completion)
  | .settled pump =>
    if pump then AsyncGeneratorResume.pump { resume with phase := .body }
    else return resume.finish
  | .await activation =>
    match completion with
    | .throw reason =>
      return .run { resume with phase := .body } ⟨.await, activation⟩
        (.awaitReject reason)
    | .return (.object _) => do
      let generator ← resume.requireGenerator
      suspendAsyncGenerator generator .executing activation
        (some resume.realm)
      performPromiseThenWithoutCapability generator .body
      return resume.finish
    | .return _ => throw (.invariant
        "intrinsic PromiseResolve returned a non-object")
  | .completedReturn =>
    match completion with
    -- The reason goes into a promise that is rejected already.
    | .throw _ => do
      let _ ← allocate .promise
      performPromiseThenWithoutCapability (← resume.requireGenerator)
        .completedReturn
      return resume.finish
    | .return (.object _) => do
      performPromiseThenWithoutCapability (← resume.requireGenerator)
        .completedReturn
      return resume.finish
    | .return _ => throw (.invariant
        "completed-return PromiseResolve returned a non-object")

end AsyncGeneratorResume

def startRequest (realm : ContextId) (kind : GeneratorResumeKind)
    (thisValue argument : JsValue) : Running AsyncGeneratorStep := do
  let capability ← newDefaultPromiseCapability
  let runtime ← get
  let generator := match thisValue with
    | .object id => if (runtime.asyncGenerator? id).isSome then some id else none
    | _ => none
  let resume : AsyncGeneratorResume :=
    ⟨realm, generator, .object capability.promise, .settled false⟩
  match generator with
  | none => do
    let reason ← allocate .other
    return .call resume capability.reject (.object reason)
  | some generator => do
    enqueueAsyncGeneratorRequest generator kind argument capability
    let snapshot ← asyncGeneratorSnapshot generator
    if snapshot.state = .executing ∨ snapshot.state = .awaitingReturn then
      return resume.finish
    resume.pump

def startContinuation (realm : ContextId) (generator : ObjectId)
    (kind : AsyncGeneratorResumeKind) (argument : JsValue) :
    Running AsyncGeneratorStep := do
  let snapshot ← asyncGeneratorSnapshot generator
  let resume : AsyncGeneratorResume := ⟨realm, some generator, .undefined, .body⟩
  if kind = .awaitFulfill ∨ kind = .awaitReject then
    if snapshot.state ≠ .executing then
      return resume.finish
    if snapshot.resumeRealm = none then
      throw (.invariant
        "AsyncGenerator continuation has no installed awaiting realm")
    match snapshot.activation with
    | none => throw (.invariant "awaiting AsyncGenerator has no activation")
    | some activation => do
      let resume ← resume.detach .executing
      return .run resume ⟨.await, activation⟩
        (if kind = .awaitFulfill then .awaitFulfill argument
          else .awaitReject argument)
  else do
    if snapshot.resumeRealm = none then
      throw (.invariant
        "AsyncGenerator continuation has no installed awaiting realm")
    if snapshot.state ≠ .awaitingReturn ∨ snapshot.activation ≠ none then
      throw (.invariant
        "AsyncGenerator return continuation reached an invalid state")
    finishAsyncGeneratorCompletedReturn generator
    resume.settle
      (if kind = .returnFulfill then .resolve argument true
        else .reject argument) false

def noteCall (callable : ObjectId) (value : JsValue) : Running Unit :=
  modify fun runtime =>
    match runtime.objects[callable]? with
    | some (.resolving promise kind) => { runtime with
        settlements := runtime.settlements ++ [⟨promise, kind, value⟩] }
    | _ => runtime

def drive (step : AsyncGeneratorStep) : Running Unit :=
  match step with
  | .complete _ => return ()
  | .call resume callable value => do
    noteCall callable value
    modify fun runtime => { runtime with
      operations := .call resume callable value :: runtime.operations }
  | step => modify fun runtime =>
    { runtime with operations := step :: runtime.operations }

inductive BodyOutcome where
  | return (value : JsValue)
  | throw (value : JsValue)
  | yield (value : JsValue) (delegating : Bool)
      (activation : GeneratorActivationData)
  | await (value : JsValue) (activation : GeneratorActivationData)
deriving Repr

def BodyOutcome.outcome : BodyOutcome → VmRunOutcome
  | .return value => .complete (.return value)
  | .throw value => .complete (.throw value)
  | .yield value delegating activation =>
    .suspend value (if delegating then .asyncYieldStar else .yield) activation
  | .await value activation => .suspend value .await activation

inductive Resolution where
  | promise (id : ObjectId)
  | failed (reason : JsValue)
deriving Repr

def Resolution.completion : Resolution → Completion
  | .promise id => .return (.object id)
  | .failed reason => .throw reason

def Wait.callback (wait : Wait) (fulfilled : Bool) :
    AsyncGeneratorResumeKind :=
  match wait.awaited, fulfilled with
  | .body, true => .awaitFulfill
  | .body, false => .awaitReject
  | .completedReturn, true => .returnFulfill
  | .completedReturn, false => .returnReject

inductive Command where
  | newGenerator (activation : GeneratorActivationData)
  | newObject
  | request (realm : ContextId) (kind : GeneratorResumeKind)
      (thisValue argument : JsValue)
  /-- An awaited promise has settled and its reaction is delivered. -/
  | react (wait : Wait) (realm : ContextId) (fulfilled : Bool)
      (argument : JsValue)
  | body (outcome : BodyOutcome)
  | resolved (resolution : Resolution)
  | called (completion : Completion)

def popOperation : Running Unit :=
  modify fun runtime => { runtime with operations := runtime.operations.tail }

def perform : Command → Running Unit
  | .newGenerator activation => do
    let _ ← allocate (.asyncGenerator (.new activation))
  | .newObject => do
    let _ ← allocate .other
  | .request realm kind thisValue argument => do
    drive (← startRequest realm kind thisValue argument)
  | .react wait realm fulfilled argument => do
    if wait ∉ (← get).waits then
      throw .idle
    modify fun runtime => { runtime with waits := runtime.waits.erase wait }
    drive (← startContinuation realm wait.generator (wait.callback fulfilled)
      argument)
  | .body outcome => do
    match (← get).operations with
    | .run resume _ _ :: _ => do
      popOperation
      drive (← resume.body outcome.outcome)
    | _ => throw .idle
  | .resolved resolution => do
    match (← get).operations with
    | .resolve resume _ _ :: _ => do
      popOperation
      drive (← resume.resume resolution.completion)
    | _ => throw .idle
  | .called completion => do
    match (← get).operations with
    | .call resume _ _ :: _ => do
      popOperation
      drive (← resume.resume completion)
    | _ => throw .idle

def Runtime.run (runtime : Runtime) (command : Command) : Runtime :=
  final (perform command) runtime

def programs : TransitionSystem Runtime Command where
  initial runtime := runtime = .new
  step before command after := before.run command = after

end QuickJsOxide.AsyncGenerators
