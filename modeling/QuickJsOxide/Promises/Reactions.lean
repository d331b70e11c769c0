import QuickJsOxide.Library.Stateful
import QuickJsOxide.Library.TransitionSystem

namespace QuickJsOxide.Promises

open Library

/-! Promises, their reactions and the job queue. Code of the host and of
scripts runs between the steps below: an operation that calls out leaves an
activation behind, and anything may happen before it is resumed. -/

abbrev ObjectId := Nat

abbrev ContextId := Nat

inductive JsValue where
  | undefined
  | null
  | bool (value : Bool)
  | int (value : Int32)
  | float (bits : UInt64)
  | bigInt (id : Nat)
  | shortBigInt (value : Int64)
  | string (id : Nat)
  | symbol (atom : Nat)
  | object (id : ObjectId)
deriving Repr, DecidableEq

inductive Completion where
  | return (value : JsValue)
  | throw (value : JsValue)
deriving Repr, DecidableEq

inductive PromiseState where
  | pending
  | fulfilled
  | rejected
deriving Repr, DecidableEq

inductive PromiseReactionKind where
  | fulfill
  | reject
deriving Repr, DecidableEq

structure PromiseCapabilityData where
  resolve : ObjectId
  reject : ObjectId
deriving Repr, DecidableEq

/-- A reaction, with the number of the `then` call that made it. -/
structure PromiseReaction where
  kind : PromiseReactionKind
  handler : Option ObjectId
  capability : Option PromiseCapabilityData
  registration : Nat
deriving Repr, DecidableEq

structure PromiseData where
  state : PromiseState
  result : JsValue
  fulfillReactions : List PromiseReaction
  rejectReactions : List PromiseReaction
  isHandled : Bool
deriving Repr

def PromiseData.new : PromiseData where
  state := .pending
  result := .undefined
  fulfillReactions := []
  rejectReactions := []
  isHandled := false

inductive PromiseResolvingKind where
  | resolve
  | reject
deriving Repr, DecidableEq

/-- What the operations ask of an object. Two resolving functions share the
cell that says whether one of them was called. -/
inductive HeapObject where
  | promise (data : PromiseData)
  | resolving (promise : ObjectId) (alreadyResolved : Nat)
      (kind : PromiseResolvingKind)
  | other (callable : Bool)
deriving Repr

/-- Jobs of finalization registries and dynamic imports are `other`. -/
inductive PendingJob where
  | promiseReaction (realm : ContextId) (reaction : PromiseReaction)
      (argument : JsValue)
  | promiseResolveThenable (realm : ContextId)
      (promise thenable action : ObjectId)
  | other
deriving Repr

structure Registration where
  promise : ObjectId
  fulfill : PromiseReaction
  reject : PromiseReaction
  whilePending : Bool
deriving Repr, DecidableEq

def Registration.number (registration : Registration) : Nat :=
  registration.fulfill.registration

/-- What an operation still has to do when the code it called returns. -/
inductive Activation where
  /-- `settle_promise` has called the tracker; the jobs are not published. -/
  | settling (jobs : List PendingJob)
  /-- A `then` on a rejected promise has called the tracker. -/
  | registering (realm : ContextId) (registration : Registration)
      (result : JsValue)
  /-- The property `then` of a resolution is being read. -/
  | resolveThen (realm : ContextId) (promise resolution : ObjectId)
  /-- The handler of a reaction job is running. -/
  | reaction (realm : ContextId) (targets : Option PromiseCapabilityData)
  /-- The `then` of a thenable is running. -/
  | thenable (realm : ContextId) (reject : ObjectId)
  /-- Any other code is running. -/
  | call
deriving Repr

inductive RuntimeError where
  | invariant (message : String)
  | engine (message : String)
  | idle
deriving Repr, DecidableEq

/-- The runtime, topmost activation first. `registrations` counts the `then`
calls, `returned` holds those that returned normally, and `published` every job
that ever entered the queue. -/
structure Runtime where
  objects : List HeapObject
  cells : List Bool
  pendingJobs : List PendingJob
  tracker : Bool
  activations : List Activation
  registrations : Nat
  returned : List Registration
  published : List PendingJob
deriving Repr

def Runtime.new : Runtime where
  objects := []
  cells := []
  pendingJobs := []
  tracker := false
  activations := []
  registrations := 0
  returned := []
  published := []

abbrev Running := EStateM RuntimeError Runtime

def Runtime.promise? (runtime : Runtime) (id : ObjectId) :
    Option PromiseData :=
  match runtime.objects[id]? with
  | some (.promise data) => some data
  | _ => none

def Runtime.isCallable (runtime : Runtime) (id : ObjectId) : Bool :=
  match runtime.objects[id]? with
  | some (.resolving ..) => true
  | some (.other callable) => callable
  | _ => false

def promiseSnapshot (id : ObjectId) : Running PromiseData :=
  attempt fun runtime =>
    match runtime.promise? id with
    | some data => .ok data
    | none => .error (.invariant
        "Promise snapshot reached an object with the wrong class")

def Runtime.setPromise (runtime : Runtime) (id : ObjectId)
    (data : PromiseData) : Runtime :=
  { runtime with objects := runtime.objects.set id (.promise data) }

def allocate (object : HeapObject) : Running ObjectId := do
  let id := (← get).objects.length
  modify fun runtime =>
    { runtime with objects := runtime.objects ++ [object] }
  return id

def suspend (activation : Activation) : Running Unit :=
  modify fun runtime =>
    { runtime with activations := activation :: runtime.activations }

def publishPreparedJobs (jobs : List PendingJob) : Running Unit :=
  modify fun runtime => { runtime with
    pendingJobs := runtime.pendingJobs ++ jobs
    published := runtime.published ++ jobs }

def enqueuePromiseReactionJob (realm : ContextId) (reaction : PromiseReaction)
    (argument : JsValue) : Running Unit :=
  publishPreparedJobs [.promiseReaction realm reaction argument]

def enqueuePromiseResolveThenableJob (realm : ContextId)
    (promise thenable action : ObjectId) : Running Unit :=
  publishPreparedJobs [.promiseResolveThenable realm promise thenable action]

def promiseAddReactions (id : ObjectId) (fulfill reject : PromiseReaction) :
    Running Unit := do
  let data ← promiseSnapshot id
  if fulfill.kind ≠ .fulfill ∨ reject.kind ≠ .reject then
    throw (.invariant
      "Promise reactions were appended to the wrong settlement lists")
  if data.state ≠ .pending then
    throw (.invariant "cannot append reactions to a settled Promise")
  modify fun runtime => runtime.setPromise id { data with
    fulfillReactions := data.fulfillReactions ++ [fulfill]
    rejectReactions := data.rejectReactions ++ [reject] }

def promiseSettle (id : ObjectId) (state : PromiseState) (result : JsValue) :
    Running Unit := do
  let data ← promiseSnapshot id
  if state = .pending then
    throw (.invariant
      "Promise settlement requires a final state and ordinary value")
  if data.state ≠ .pending then
    throw (.invariant "Promise was settled more than once")
  modify fun runtime => runtime.setPromise id { data with
    state := state
    result := result
    fulfillReactions := []
    rejectReactions := [] }

def promiseMarkHandled (id : ObjectId) : Running Unit := do
  let data ← promiseSnapshot id
  modify fun runtime => runtime.setPromise id { data with isHandled := true }

/-- The jobs of a settled promise are published after the host has seen an
unhandled rejection. -/
def settlePromise (realm : ContextId) (promise : ObjectId)
    (state : PromiseState) (result : JsValue) : Running Unit := do
  let snapshot ← promiseSnapshot promise
  if snapshot.state ≠ .pending then
    return ()
  let reactions ← match state with
    | .fulfilled => pure snapshot.fulfillReactions
    | .rejected => pure snapshot.rejectReactions
    | .pending => throw (.invariant
        "Promise settlement requested the pending state")
  let prepared := reactions.map fun reaction =>
    PendingJob.promiseReaction realm reaction result
  promiseSettle promise state result
  if state = .rejected ∧ snapshot.isHandled = false ∧ (← get).tracker then
    suspend (.settling prepared)
  else
    publishPreparedJobs prepared

def returnRegistration (registration : Registration) : Running Unit := do
  promiseMarkHandled registration.promise
  modify fun runtime =>
    { runtime with returned := runtime.returned ++ [registration] }

/-- The part both kinds of `then` share. The result of a rejected promise is
read before the host is told that it is handled now. -/
def performPromiseThen (realm : ContextId) (promise : ObjectId)
    (fulfill reject : PromiseReaction) : Running Unit := do
  let snapshot ← promiseSnapshot promise
  match snapshot.state with
  | .pending => do
    promiseAddReactions promise fulfill reject
    returnRegistration ⟨promise, fulfill, reject, true⟩
  | .fulfilled => do
    enqueuePromiseReactionJob realm fulfill snapshot.result
    returnRegistration ⟨promise, fulfill, reject, false⟩
  | .rejected => do
    if snapshot.isHandled = false ∧ (← get).tracker then
      suspend (.registering realm ⟨promise, fulfill, reject, false⟩
        snapshot.result)
    else do
      enqueuePromiseReactionJob realm reject snapshot.result
      returnRegistration ⟨promise, fulfill, reject, false⟩

def nextRegistration : Running Nat := do
  let number := (← get).registrations
  modify fun runtime => { runtime with registrations := number + 1 }
  return number

/-- A handler that is not callable counts as none. -/
def handlerId (runtime : Runtime) : JsValue → Option ObjectId
  | .object id => if runtime.isCallable id then some id else none
  | _ => none

def finishPromiseThen (realm : ContextId) (promise : ObjectId)
    (onFulfilled onRejected : JsValue) (capability : PromiseCapabilityData) :
    Running Unit := do
  let number ← nextRegistration
  let runtime ← get
  performPromiseThen realm promise
    ⟨.fulfill, handlerId runtime onFulfilled, some capability, number⟩
    ⟨.reject, handlerId runtime onRejected, some capability, number⟩

def performPromiseThenInternal (realm : ContextId) (promise : ObjectId)
    (fulfill reject : Option ObjectId)
    (capability : Option PromiseCapabilityData) : Running Unit := do
  let number ← nextRegistration
  performPromiseThen realm promise ⟨.fulfill, fulfill, capability, number⟩
    ⟨.reject, reject, capability, number⟩

def createPromiseResolvingFunctions (promise : ObjectId) :
    Running (ObjectId × ObjectId) := do
  let cell := (← get).cells.length
  modify fun runtime => { runtime with cells := runtime.cells ++ [false] }
  let resolve ← allocate (.resolving promise cell .resolve)
  let reject ← allocate (.resolving promise cell .reject)
  return (resolve, reject)

def newPromise : Running ObjectId := do
  let promise ← allocate (.promise .new)
  let _ ← createPromiseResolvingFunctions promise
  return promise

def callResolving (realm : ContextId) (promise : ObjectId)
    (alreadyResolved : Nat) (kind : PromiseResolvingKind)
    (resolution : JsValue) : Running Unit := do
  if (← get).cells[alreadyResolved]? = some true then
    return ()
  modify fun runtime =>
    { runtime with cells := runtime.cells.set alreadyResolved true }
  match kind, resolution with
  | .reject, _ => settlePromise realm promise .rejected resolution
  | .resolve, .object id =>
    if id = promise then do
      let reason ← allocate (.other false)
      settlePromise realm promise .rejected (.object reason)
    else
      suspend (.resolveThen realm promise id)
  | .resolve, _ => settlePromise realm promise .fulfilled resolution

def callFunction (realm : ContextId) (function : ObjectId)
    (argument : JsValue) : Running Unit := do
  match (← get).objects[function]? with
  | some (.resolving promise alreadyResolved kind) =>
    callResolving realm promise alreadyResolved kind argument
  | some (.other true) => suspend .call
  | _ => throw (.invariant "Promise reaction capability was no longer callable")

def finishReaction (realm : ContextId)
    (targets : Option PromiseCapabilityData) (completion : Completion) :
    Running Unit :=
  match targets, completion with
  | none, _ => return ()
  | some targets, .return value => callFunction realm targets.resolve value
  | some targets, .throw value => callFunction realm targets.reject value

def executePromiseReactionJob (realm : ContextId) (reaction : PromiseReaction)
    (argument : JsValue) : Running Unit :=
  match reaction.handler with
  | some handler => do
    if (← get).isCallable handler then
      suspend (.reaction realm reaction.capability)
    else
      throw (.invariant
        "queued Promise reaction handler was no longer callable")
  | none => finishReaction realm reaction.capability
      (if reaction.kind = .reject then .throw argument else .return argument)

def executePromiseResolveThenableJob (realm : ContextId)
    (promise action : ObjectId) : Running Unit := do
  if (← get).isCallable action then do
    let (_, reject) ← createPromiseResolvingFunctions promise
    suspend (.thenable realm reject)
  else
    throw (.invariant "queued Promise then action was no longer callable")

def executePendingJob : Running Unit := do
  match (← get).pendingJobs with
  | [] => return ()
  | job :: rest => do
    modify fun runtime => { runtime with pendingJobs := rest }
    match job with
    | .promiseReaction realm reaction argument =>
      executePromiseReactionJob realm reaction argument
    | .promiseResolveThenable realm promise _ action =>
      executePromiseResolveThenableJob realm promise action
    | .other => suspend .call

def takeActivation : Running Activation := do
  match (← get).activations with
  | [] => throw .idle
  | activation :: rest => do
    modify fun runtime => { runtime with activations := rest }
    return activation

/-- The code that was called has completed. A tracker returns a value; if the
host boundary could not be entered or left, the operation ends there. -/
def resume (completion : Completion) (boundary : Bool) : Running Unit := do
  match ← takeActivation with
  | .settling jobs =>
    if boundary then publishPreparedJobs jobs
    else throw (.engine "stack overflow")
  | .registering realm registration result =>
    if boundary then do
      enqueuePromiseReactionJob realm registration.reject result
      returnRegistration registration
    else throw (.engine "stack overflow")
  | .resolveThen realm promise resolution =>
    match completion with
    | .throw reason => settlePromise realm promise .rejected reason
    | .return (.object action) => do
      if (← get).isCallable action then
        enqueuePromiseResolveThenableJob realm promise resolution action
      else
        settlePromise realm promise .fulfilled (.object resolution)
    | .return _ => settlePromise realm promise .fulfilled (.object resolution)
  | .reaction realm targets => finishReaction realm targets completion
  | .thenable realm reject =>
    match completion with
    | .return _ => return ()
    | .throw reason => callFunction realm reject reason
  | .call => return ()

/-- A panic of the host, or an error of the engine, ends the topmost
activations; what they own is dropped. -/
def unwind (depth : Nat) : Running Unit :=
  modify fun runtime =>
    { runtime with activations := runtime.activations.drop depth }

inductive Command where
  | newObject (callable : Bool)
  | newPromise
  | setTracker (installed : Bool)
  | enqueueOther
  | call (realm : ContextId) (function : ObjectId) (argument : JsValue)
  | finishThen (realm : ContextId) (promise : ObjectId)
      (onFulfilled onRejected : JsValue) (capability : PromiseCapabilityData)
  | internalThen (realm : ContextId) (promise : ObjectId)
      (fulfill reject : Option ObjectId)
      (capability : Option PromiseCapabilityData)
  | executePendingJob
  | resume (completion : Completion) (boundary : Bool)
  | unwind (depth : Nat)

def perform : Command → Running Unit
  | .newObject callable => do
    let _ ← allocate (.other callable)
  | .newPromise => do
    let _ ← newPromise
  | .setTracker installed =>
    modify fun runtime => { runtime with tracker := installed }
  | .enqueueOther => publishPreparedJobs [.other]
  | .call realm function argument => callFunction realm function argument
  | .finishThen realm promise onFulfilled onRejected capability =>
    finishPromiseThen realm promise onFulfilled onRejected capability
  | .internalThen realm promise fulfill reject capability =>
    performPromiseThenInternal realm promise fulfill reject capability
  | .executePendingJob => executePendingJob
  | .resume completion boundary => resume completion boundary
  | .unwind depth => unwind depth

def Runtime.run (runtime : Runtime) (command : Command) : Runtime :=
  final (perform command) runtime

def programs : TransitionSystem Runtime Command where
  initial runtime := runtime = .new
  step before command after := before.run command = after

end QuickJsOxide.Promises
