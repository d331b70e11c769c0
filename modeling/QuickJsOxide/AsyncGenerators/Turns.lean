import QuickJsOxide.AsyncGenerators.Operation
import Mathlib.Data.List.Basic

namespace QuickJsOxide.AsyncGenerators

open Library List AsyncGenerators.Runtime
open Promises (JsValue Completion ObjectId ContextId PromiseResolvingKind)

/-! What a continuation does to its generator. -/

abbrev AsyncGeneratorData.detached (data : AsyncGeneratorData)
    (state : AsyncGeneratorState) : AsyncGeneratorData :=
  { data with state, activation := none, resumeRealm := none }

def HeapObject.isGenerator : HeapObject → Bool
  | .asyncGenerator _ => true
  | _ => false

/-- One generator has new data, other objects were created and callbacks were
registered; nothing else changed. -/
structure Rewrites (before after : Runtime) (id : ObjectId)
    (data : AsyncGeneratorData) (added : List Wait) : Prop where
  bound : id < before.objects.length
  after : ∃ fresh : List HeapObject,
    (∀ object ∈ fresh, object.isGenerator = false) ∧
    after = { before with
      objects := (before.objects ++ fresh).set id (.asyncGenerator data)
      waits := added ++ before.waits }

section

variable {before middle after runtime : Runtime} {id : ObjectId}

theorem Runtime.asyncGenerator?_eq_some :
    runtime.asyncGenerator? id = some data ↔
      runtime.objects[id]? = some (.asyncGenerator data) := by
  unfold asyncGenerator?
  split
  next found => simp [found]
  next other =>
    constructor
    · intro impossible
      cases impossible
    · intro found
      exact absurd found (other data)

section

variable (found : runtime.asyncGenerator? id = some data)

include found

theorem Runtime.lt_of_asyncGenerator? : id < runtime.objects.length :=
  (List.getElem?_eq_some_iff.mp (asyncGenerator?_eq_some.mp found)).1

theorem Runtime.set_asyncGenerator? :
    runtime.objects.set id (.asyncGenerator data) = runtime.objects := by
  have same := asyncGenerator?_eq_some.mp found
  obtain ⟨_, value⟩ := List.getElem?_eq_some_iff.mp same
  rw [← value, set_getElem_self]

theorem Rewrites.refl : Rewrites runtime runtime id data [] := by
  refine ⟨lt_of_asyncGenerator? found, [], by simp, ?_⟩
  rw [append_nil, set_asyncGenerator? found, nil_append]

variable {object : HeapObject}

theorem Rewrites.allocate (plain : object.isGenerator = false) :
    Rewrites runtime { runtime with objects := runtime.objects ++ [object] } id
      data [] := by
  have bound := lt_of_asyncGenerator? found
  refine ⟨bound, [object], by simpa using plain, ?_⟩
  rw [set_append_left _ _ bound, set_asyncGenerator? found, nil_append]

theorem Rewrites.register (wait : Wait) :
    Rewrites runtime { runtime with waits := wait :: runtime.waits } id data
      [wait] := by
  refine ⟨lt_of_asyncGenerator? found, [], by simp, ?_⟩
  rw [append_nil, set_asyncGenerator? found]
  rfl

end

theorem Rewrites.trans (front : Rewrites before middle id first earlier)
    (back : Rewrites middle after id second later) :
    Rewrites before after id second (later ++ earlier) := by
  obtain ⟨bound, fresh, plain, rfl⟩ := front
  obtain ⟨_, more, alsoPlain, rfl⟩ := back
  refine ⟨bound, fresh ++ more, ?_, ?_⟩
  · intro object member
    rcases mem_append.mp member with old | new
    · exact plain object old
    · exact alsoPlain object new
  · have inside : id < (before.objects ++ fresh).length := by
      rw [length_append]
      exact Nat.lt_add_right _ bound
    have outer : id <
        ((before.objects ++ fresh).set id (.asyncGenerator first)).length := by
      rwa [length_set]
    have objects :
        ((before.objects ++ fresh).set id (.asyncGenerator first) ++ more).set
          id (.asyncGenerator second) =
        (before.objects ++ (fresh ++ more)).set id (.asyncGenerator second) := by
      rw [set_append_left _ _ outer, set_set, ← append_assoc,
        set_append_left _ _ inside]
    rw [objects, append_assoc]

section

variable (rewrites : Rewrites before after id data added)

include rewrites

theorem Rewrites.self : after.asyncGenerator? id = some data := by
  obtain ⟨bound, fresh, -, rfl⟩ := rewrites
  refine asyncGenerator?_eq_some.mpr ?_
  rw [getElem?_set_self]
  rw [length_append]
  exact Nat.lt_add_right _ bound

theorem Rewrites.kept (apart : other ≠ id)
    (found : before.objects[other]? = some object) :
    after.objects[other]? = some object := by
  obtain ⟨_, _, -, rfl⟩ := rewrites
  obtain ⟨inside, -⟩ := List.getElem?_eq_some_iff.mp found
  rw [List.getElem?_set_ne (Ne.symm apart), List.getElem?_append_left inside]
  exact found

theorem Rewrites.others (apart : other ≠ id) :
    after.asyncGenerator? other = before.asyncGenerator? other := by
  obtain ⟨_, fresh, plain, rfl⟩ := rewrites
  unfold asyncGenerator?
  rw [getElem?_set_ne (Ne.symm apart)]
  by_cases inside : other < before.objects.length
  · rw [getElem?_append_left inside]
  · rw [getElem?_append_right (Nat.le_of_not_lt inside),
      getElem?_eq_none (Nat.le_of_not_lt inside)]
    cases found : fresh[other - before.objects.length]? with
    | none => rfl
    | some object =>
      have ordinary := plain object (mem_of_getElem? found)
      cases object with
      | asyncGenerator => cases ordinary
      | promise | resolving | iteratorResult | other => rfl

section

variable {last : Runtime} (objects : last.objects = after.objects)

include objects

theorem Rewrites.located (found : last.asyncGenerator? other = some now) :
    other = id ∧ now = data ∨
      other ≠ id ∧ before.asyncGenerator? other = some now := by
  rw [asyncGenerator?, objects, ← asyncGenerator?] at found
  by_cases same : other = id
  · rw [same, rewrites.self] at found
    exact .inl ⟨same, (Option.some.inj found).symm⟩
  · exact .inr ⟨same, (rewrites.others same).symm.trans found⟩

theorem Rewrites.present (known : (before.asyncGenerator? other).isSome) :
    (last.asyncGenerator? other).isSome := by
  rw [asyncGenerator?, objects, ← asyncGenerator?]
  by_cases same : other = id
  · rw [same, rewrites.self]
    rfl
  · rwa [rewrites.others same]

end

theorem Rewrites.length : before.objects.length ≤ after.objects.length := by
  obtain ⟨_, _, -, rfl⟩ := rewrites
  simp

theorem Rewrites.resolving (found : before.asyncGenerator? id = some first)
    {function : ObjectId} {promise : ObjectId}
    (object : before.objects[function]? = some (.resolving promise kind)) :
    after.objects[function]? = some (.resolving promise kind) := by
  refine rewrites.kept ?_ object
  rintro rfl
  rw [asyncGenerator?_eq_some.mp found] at object
  cases object

end

end

section

variable {runtime : Runtime} {id : ObjectId} {data : AsyncGeneratorData}

theorem succeeds_asyncGeneratorData (wrongClass : String)
    (found : runtime.asyncGenerator? id = some data) :
    Succeeds (asyncGeneratorData wrongClass id) runtime data runtime := by
  simp [Succeeds, asyncGeneratorData, attempt, found]

section

variable (found : runtime.asyncGenerator? id = some data)

include found

theorem rewrites_store (changed : AsyncGeneratorData) :
    Rewrites runtime (runtime.setAsyncGenerator id changed) id changed [] := by
  refine ⟨lt_of_asyncGenerator? found, [], by simp, ?_⟩
  rw [append_nil]
  rfl

omit found in
theorem succeeds_store (changed : AsyncGeneratorData) :
    Succeeds (store id changed) runtime ()
      (runtime.setAsyncGenerator id changed) := rfl

omit found in
structure Served (runtime : Runtime) (request : AsyncGeneratorRequestData) :
    Prop where
  resolve : runtime.objects[request.resolve]? =
    some (.resolving request.promise .resolve)
  reject : runtime.objects[request.reject]? =
    some (.resolving request.promise .reject)

omit found in
theorem Served.kept {after : Runtime} {added : List Wait}
    (served : Served runtime request)
    (found : runtime.asyncGenerator? id = some data)
    (rewrites : Rewrites runtime after id changed added) :
    Served after request :=
  ⟨rewrites.resolving found served.resolve,
    rewrites.resolving found served.reject⟩

theorem succeeds_rootFrontAsyncGeneratorRequest
    (queued : data.queue = request :: rest) (served : Served runtime request) :
    Succeeds (rootFrontAsyncGeneratorRequest id) runtime request runtime := by
  have front : Succeeds (asyncGeneratorFrontRequest id) runtime (some request)
      runtime := by
    refine (succeeds_asyncGeneratorData _ found).bind ?_
    rw [queued]
    exact succeeds_pure
  refine front.bind (succeeds_get.bind ?_)
  have resolves : runtime.isCallable request.resolve = true := by
    simp [isCallable, served.resolve]
  have rejects : runtime.isCallable request.reject = true := by
    simp [isCallable, served.reject]
  simp only [resolves, not_true_eq_false, if_false]
  refine succeeds_get.bind ?_
  simp only [rejects, not_true_eq_false, if_false]
  exact succeeds_pure

theorem succeeds_asyncGeneratorPopFront
    (queued : data.queue = request :: rest) :
    Succeeds (asyncGeneratorPopFront id) runtime request
      (runtime.setAsyncGenerator id { data with queue := rest }) := by
  refine (succeeds_asyncGeneratorData _ found).bind ?_
  rw [queued]
  exact (succeeds_store _).bind succeeds_pure

section

variable (open' : ¬ (data.state = .awaitingReturn ∨ data.state = .completed))

include open'

theorem succeeds_completeAsyncGenerator :
    Succeeds (completeAsyncGenerator id) runtime ()
      (runtime.setAsyncGenerator id (data.detached .completed)) := by
  refine (succeeds_asyncGeneratorData _ found).bind ?_
  simp only [if_neg open']
  exact succeeds_store _

theorem succeeds_beginAsyncGeneratorResume
    (parked : data.activation = some activation) :
    Succeeds (beginAsyncGeneratorResume id) runtime (data.state, activation)
      (runtime.setAsyncGenerator id (data.detached .executing)) := by
  refine (succeeds_asyncGeneratorData _ found).bind ?_
  simp only [if_neg open', parked]
  exact (succeeds_store _).bind succeeds_pure

end

end

end

structure AsyncGeneratorData.Suspended (data : AsyncGeneratorData) : Prop where
  state : data.state = .suspendedStart ∨ data.state = .suspendedYield ∨
    data.state = .suspendedYieldStar
  activation : data.activation ≠ none
  resumeRealm : data.resumeRealm = none

structure AsyncGeneratorData.Completed (data : AsyncGeneratorData) : Prop where
  state : data.state = .completed
  activation : data.activation = none
  resumeRealm : data.resumeRealm = none

structure AsyncGeneratorData.Executes (data : AsyncGeneratorData) : Prop where
  state : data.state = .executing
  activation : data.activation = none
  resumeRealm : data.resumeRealm = none
  queue : data.queue ≠ []

structure AsyncGeneratorData.Awaits (data : AsyncGeneratorData) : Prop where
  state : data.state = .executing
  activation : data.activation ≠ none
  resumeRealm : data.resumeRealm ≠ none
  queue : data.queue ≠ []

/-- The front request is a `return` whose value is awaited. -/
structure AsyncGeneratorData.Returns (data : AsyncGeneratorData) : Prop where
  state : data.state = .awaitingReturn
  activation : data.activation = none
  resumeRealm : data.resumeRealm ≠ none
  queue : data.queue ≠ []

/-- A generator whose queue `pump` can serve. -/
inductive AsyncGeneratorData.Pumpable (data : AsyncGeneratorData) : Prop where
  | suspended (suspended : data.Suspended)
      (short : data.state = .suspendedStart → data.queue.length ≤ 1)
  | completed (completed : data.Completed)

/-- A generator with the continuation that works on it and the callbacks that
wait for it. Once it is completed, an entry of the driver serves one request;
`left` says which queues it may leave behind. -/
inductive Stage (left : List AsyncGeneratorRequestData → Prop) (id : ObjectId)
    (data : AsyncGeneratorData) :
    List AsyncGeneratorStep → List Wait → Prop where
  | idle (pumpable : data.Pumpable)
      (rest : data.queue = [] ∨ data.state = .completed ∧ left data.queue) :
      Stage left id data [] []
  | running {resume : AsyncGeneratorResume} (activation : RootedVmActivation)
      (input : VmActivationResume) (phase : resume.phase = .body)
      (executes : data.Executes) :
      Stage left id data [.run resume activation input] []
  | resolving {resume : AsyncGeneratorResume}
      {activation : GeneratorActivationData} (value : JsValue)
      (realm : ContextId) (phase : resume.phase = .await activation)
      (executes : data.Executes) :
      Stage left id data [.resolve resume value realm] []
  | awaiting (awaits : data.Awaits) : Stage left id data [] [⟨id, .body⟩]
  | settling {resume : AsyncGeneratorResume} (callable : ObjectId)
      (value : JsValue) (phase : resume.phase = .settled true)
      (pumpable : data.Pumpable) :
      Stage left id data [.call resume callable value] []
  | settled {resume : AsyncGeneratorResume} (callable : ObjectId)
      (value : JsValue) (phase : resume.phase = .settled false)
      (completed : data.Completed)
      (rest : data.queue = [] ∨ left data.queue) :
      Stage left id data [.call resume callable value] []
  | returning {resume : AsyncGeneratorResume} (value : JsValue)
      (realm : ContextId) (phase : resume.phase = .completedReturn)
      (returns : data.Returns) :
      Stage left id data [.resolve resume value realm] []
  | awaitingReturn (returns : data.Returns) :
      Stage left id data [] [⟨id, .completedReturn⟩]

theorem Stage.mono {id : ObjectId} {waits : List Wait}
    (weaker : ∀ queue, left queue → more queue)
    (stage : Stage left id data steps waits) :
    Stage more id data steps waits := by
  cases stage with
  | idle pumpable rest =>
    exact .idle pumpable (rest.imp_right fun ⟨completed, trailing⟩ =>
      ⟨completed, weaker _ trailing⟩)
  | settled callable value phase completed rest =>
    exact .settled callable value phase completed (rest.imp_right (weaker _))
  | running activation input phase executes =>
    exact .running activation input phase executes
  | resolving value realm phase executes =>
    exact .resolving value realm phase executes
  | awaiting awaits => exact .awaiting awaits
  | settling callable value phase pumpable =>
    exact .settling callable value phase pumpable
  | returning value realm phase returns =>
    exact .returning value realm phase returns
  | awaitingReturn returns => exact .awaitingReturn returns

def AsyncGeneratorStep.generator? : AsyncGeneratorStep → Option ObjectId
  | .complete _ => none
  | .run resume _ _ => resume.generator
  | .resolve resume _ _ => resume.generator
  | .call resume _ _ => resume.generator

def AsyncGeneratorStep.pushed : AsyncGeneratorStep → List AsyncGeneratorStep
  | .complete _ => []
  | step => [step]

/-- A step calls a resolving function exactly if it took the front request. -/
inductive Settles (data changed : AsyncGeneratorData) :
    AsyncGeneratorStep → Prop where
  | nothing {step : AsyncGeneratorStep} (same : changed.queue = data.queue)
      (quiet : ∀ resume callable value, step ≠ .call resume callable value) :
      Settles data changed step
  | front {request : AsyncGeneratorRequestData} {resume : AsyncGeneratorResume}
      {callable : ObjectId} {value : JsValue}
      (queued : data.queue = request :: changed.queue)
      (own : callable = request.resolve ∨ callable = request.reject) :
      Settles data changed (.call resume callable value)

/-- A continuation that was alone with its generator has come to a step. -/
structure Outcome (left : List AsyncGeneratorRequestData → Prop)
    (before : Runtime) (id : ObjectId) (data : AsyncGeneratorData)
    (step : AsyncGeneratorStep) (after : Runtime) (changed : AsyncGeneratorData)
    (added : List Wait) : Prop where
  rewrites : Rewrites before after id changed added
  stage : Stage left id changed step.pushed added
  owner : ∀ pushed ∈ step.pushed, pushed.generator? = some id
  settles : Settles data changed step

abbrev Advances (left : List AsyncGeneratorRequestData → Prop)
    (operation : Running AsyncGeneratorStep) (runtime : Runtime)
    (id : ObjectId) (data : AsyncGeneratorData) (added : List Wait) : Prop :=
  ∃ step after changed, Succeeds operation runtime step after ∧
    Outcome left runtime id data step after changed added

variable {step : AsyncGeneratorStep}

theorem Outcome.after {before middle after : Runtime} {id : ObjectId}
    (rewrites : Rewrites before middle id first [])
    (same : first.queue = data.queue)
    (outcome : Outcome left middle id first step after changed added) :
    Outcome left before id data step after changed added where
  rewrites := by
    have both := rewrites.trans outcome.rewrites
    rwa [append_nil] at both
  stage := outcome.stage
  owner := outcome.owner
  settles := by
    cases outcome.settles with
    | nothing unchanged quiet => exact .nothing (unchanged.trans same) quiet
    | front queued own => exact .front (same ▸ queued) own

theorem owned_pushed {id : ObjectId} (own : step.generator? = some id) :
    ∀ pushed ∈ step.pushed, pushed.generator? = some id := by
  intro pushed member
  cases step with
  | complete => cases member
  | run | resolve | call =>
    obtain rfl := mem_singleton.mp member
    exact own

section

variable {id : ObjectId} {data changed : AsyncGeneratorData}

theorem Advances.bind (runs : Succeeds start before value middle)
    (rewrites : Rewrites before middle id changed [])
    (same : changed.queue = data.queue)
    (rest : Advances left (second value) middle id changed added) :
    Advances left (start >>= second) before id data added := by
  obtain ⟨step, after, last, continues, outcome⟩ := rest
  exact ⟨step, after, last, runs.bind continues, outcome.after rewrites same⟩

theorem Advances.read (reads : Succeeds start before value before)
    (rest : Advances left (second value) before id data added) :
    Advances left (start >>= second) before id data added := by
  obtain ⟨step, after, last, continues, outcome⟩ := rest
  exact ⟨step, after, last, reads.bind continues, outcome⟩

end

section

variable {runtime : Runtime} {id : ObjectId} {data : AsyncGeneratorData}
  {resume : AsyncGeneratorResume} {request : AsyncGeneratorRequestData}

theorem owned_finish :
    ∀ pushed ∈ resume.finish.pushed, pushed.generator? = some id := by
  simp [AsyncGeneratorResume.finish, AsyncGeneratorStep.pushed]

theorem settles_finish (same : changed.queue = data.queue) :
    Settles data changed resume.finish :=
  .nothing same (by simp [AsyncGeneratorResume.finish])

theorem AsyncGeneratorData.Suspended.open' (suspended : data.Suspended) :
    ¬ (data.state = .awaitingReturn ∨ data.state = .completed) := by
  rcases suspended.state with state | state | state <;> simp [state]

theorem AsyncGeneratorData.Executes.open' (executes : data.Executes) :
    ¬ (data.state = .awaitingReturn ∨ data.state = .completed) := by
  simp [executes.state]

theorem succeeds_requireGenerator (own : resume.generator = some id) :
    Succeeds resume.requireGenerator runtime id runtime := by
  rw [AsyncGeneratorResume.requireGenerator, own]
  exact succeeds_pure

theorem succeeds_pump_stop {after : Runtime}
    (turn : Succeeds resume.pumpTurn runtime (some step) after) :
    Succeeds resume.pump runtime step after :=
  turn.bind succeeds_pure

theorem succeeds_pump_again {middle after : Runtime}
    (first : Succeeds resume.pumpTurn runtime none middle)
    (second : Succeeds resume.pumpTurn middle (some step) after) :
    Succeeds resume.pump runtime step after :=
  first.bind (second.bind succeeds_pure)

theorem succeeds_map {before after : Runtime} (function : α → β)
    (runs : Succeeds first before value after) :
    Succeeds (function <$> first) before (function value) after := by
  unfold Succeeds at runs ⊢
  simp only [Functor.map, EStateM.map, runs]

theorem succeeds_suspendAsyncGenerator
    (found : runtime.asyncGenerator? id = some data) (executes : data.Executes)
    (legal : (state = .suspendedYield ∧ realm = none) ∨
      (state = .suspendedYieldStar ∧ realm = none) ∨
      (state = .executing ∧ realm ≠ none))
    (activation : GeneratorActivationData) :
    Succeeds (suspendAsyncGenerator id state activation realm) runtime ()
      (runtime.setAsyncGenerator id { data with
        state, activation := some activation, resumeRealm := realm }) := by
  unfold suspendAsyncGenerator
  simp only [if_neg (not_not.mpr legal)]
  refine (succeeds_asyncGeneratorData _ found).bind ?_
  have follows : data.state = .executing ∧ data.activation = none ∧
      data.resumeRealm = none ∧ data.queue ≠ [] :=
    ⟨executes.state, executes.activation, executes.resumeRealm, executes.queue⟩
  simp only [if_neg (not_not.mpr follows)]
  exact succeeds_store _

section

variable (own : resume.generator = some id)
  (found : runtime.asyncGenerator? id = some data)

include own found

theorem settle_outcome (queued : data.queue = request :: rest)
    (served : Served runtime request) (settlement : AsyncGeneratorSettlement)
    (pump : Bool) (stage : ∀ callable value,
      Stage left id { data with queue := rest }
      [.call { resume with phase := .settled pump } callable value] []) :
    Advances left (resume.settle settlement pump) runtime id data [] := by
  have front := succeeds_rootFrontAsyncGeneratorRequest found queued served
  cases settlement with
  | resolve value done =>
    have fresh := Rewrites.allocate found
      (rfl : (HeapObject.iteratorResult value done).isGenerator = false)
    have popped := rewrites_store fresh.self { data with queue := rest }
    exact ⟨_, _, _, (succeeds_requireGenerator own).bind (front.bind
      (Succeeds.bind rfl ((succeeds_asyncGeneratorPopFront fresh.self
        queued).bind succeeds_pure))), fresh.trans popped, stage _ _,
      owned_pushed own, .front queued (.inl rfl)⟩
  | reject =>
    exact ⟨_, _, _, (succeeds_requireGenerator own).bind (front.bind
      ((succeeds_asyncGeneratorPopFront found queued).bind succeeds_pure)),
      rewrites_store found _, stage _ _, owned_pushed own,
      .front queued (.inr rfl)⟩

theorem serveCompleted_outcome (completed : data.Completed)
    (queued : data.queue = request :: rest) (served : Served runtime request)
    (trailing : request.completion ≠ .return → rest = [] ∨ left rest) :
    Advances left (resume.serveCompleted id request) runtime id data [] := by
  have front := succeeds_rootFrontAsyncGeneratorRequest found queued served
  have last (settled : request.completion ≠ .return)
      (settlement : AsyncGeneratorSettlement) :=
    settle_outcome own found queued served settlement false fun callable value =>
      .settled callable value rfl ⟨completed.state, completed.activation,
        completed.resumeRealm⟩ (trailing settled)
  unfold AsyncGeneratorResume.serveCompleted
  cases kind : request.completion with
  | next => exact last (by simp [kind]) (.resolve .undefined true)
  | throw =>
    exact .read front (last (by simp [kind]) (.reject request.result))
  | «return» =>
    have begins : Succeeds
        (beginAsyncGeneratorCompletedReturn id resume.realm) runtime ()
        (runtime.setAsyncGenerator id { data with
          state := .awaitingReturn, resumeRealm := some resume.realm }) := by
      refine (succeeds_asyncGeneratorData _ found).bind ?_
      have legal : data.state = .completed ∧ data.activation = none ∧
          data.resumeRealm = none ∧ data.queue ≠ [] :=
        ⟨completed.state, completed.activation, completed.resumeRealm,
          by simp [queued]⟩
      simp only [if_neg (not_not.mpr legal)]
      exact succeeds_store _
    exact ⟨_, _, _, front.bind (begins.bind succeeds_pure),
      rewrites_store found _, .returning _ _ rfl ⟨rfl, completed.activation,
        by simp, by simp [queued]⟩, owned_pushed own, .nothing rfl (by simp)⟩

theorem detach_outcome
    (open' : ¬ (data.state = .awaitingReturn ∨ data.state = .completed))
    (parked : data.activation = some activation) :
    Succeeds (resume.detach data.state) runtime { resume with phase := .body }
      (runtime.setAsyncGenerator id (data.detached .executing)) := by
  refine (succeeds_requireGenerator own).bind
    ((succeeds_beginAsyncGeneratorResume found open' parked).bind ?_)
  simp only [ne_eq, not_true_eq_false, if_false]
  exact succeeds_pure

theorem resumeBody_outcome (suspended : data.Suspended)
    (queued : data.queue = request :: rest) (served : Served runtime request) :
    Advances left (resume.resumeBody id data) runtime id data [] := by
  obtain ⟨activation, parked⟩ := Option.ne_none_iff_exists'.mp
    suspended.activation
  have front := succeeds_rootFrontAsyncGeneratorRequest found queued served
  have detached := detach_outcome own found suspended.open' parked
  unfold AsyncGeneratorResume.resumeBody
  rw [parked]
  exact ⟨_, _, _, front.bind (detached.bind succeeds_pure),
    rewrites_store found _, .running _ _ rfl ⟨rfl, rfl, rfl, by simp [queued]⟩,
    owned_pushed own, .nothing rfl (by simp)⟩

theorem pumpTurn_completed (completed : data.Completed)
    (queued : data.queue = request :: rest) (served : Served runtime request)
    (trailing : request.completion ≠ .return → rest = [] ∨ left rest) :
    ∃ step after changed, Succeeds resume.pumpTurn runtime (some step) after ∧
      Outcome left runtime id data step after changed [] := by
  obtain ⟨step, after, changed, runs, outcome⟩ :=
    serveCompleted_outcome own found completed queued served trailing
  refine ⟨step, after, changed, ?_, outcome⟩
  refine (succeeds_requireGenerator own).bind
    ((succeeds_asyncGeneratorData _ found).bind ?_)
  simp only [queued, completed.state]
  exact succeeds_map some runs

theorem pumpTurn_suspended (suspended : data.Suspended)
    (queued : data.queue = request :: rest)
    (resumes : data.state = .suspendedStart → request.completion = .next)
    (served : Served runtime request) : ∃ step after changed,
      Succeeds resume.pumpTurn runtime (some step) after ∧
      Outcome left runtime id data step after changed [] := by
  obtain ⟨step, after, changed, runs, outcome⟩ :=
    resumeBody_outcome own found suspended queued served
  refine ⟨step, after, changed, ?_, outcome⟩
  refine (succeeds_requireGenerator own).bind
    ((succeeds_asyncGeneratorData _ found).bind ?_)
  have turn := succeeds_map some runs
  rw [queued]
  rcases suspended.state with state | state | state
  · simp only [state, resumes state, ne_eq, not_true_eq_false, if_false]
    exact turn
  · simp only [state]
    exact turn
  · simp only [state]
    exact turn

theorem pumpTurn_abandoned (start : data.state = .suspendedStart)
    (queued : data.queue = request :: rest)
    (abrupt : request.completion ≠ .next) :
    Succeeds resume.pumpTurn runtime none
      (runtime.setAsyncGenerator id (data.detached .completed)) := by
  have completes := succeeds_completeAsyncGenerator found (by simp [start])
  refine (succeeds_requireGenerator own).bind
    ((succeeds_asyncGeneratorData _ found).bind ?_)
  rw [queued]
  simp only [start, if_pos abrupt]
  exact completes.bind succeeds_pure

section

variable (served : ∀ request ∈ data.queue, Served runtime request)

include served

/-- What is left behind when the front request of a completed generator is
settled. -/
abbrev AsyncGeneratorData.Trails (data : AsyncGeneratorData)
    (left : List AsyncGeneratorRequestData → Prop) : Prop :=
  ∀ request rest, data.queue = request :: rest →
    request.completion ≠ .return → rest = [] ∨ left rest

theorem pump_outcome (pumpable : data.Pumpable)
    (trailing : data.state = .completed → data.Trails left) :
    Advances left resume.pump runtime id data [] := by
  cases queued : data.queue with
  | nil =>
    refine ⟨resume.finish, runtime, data, succeeds_pump_stop ?_,
      .refl found, .idle pumpable (.inl queued), owned_finish,
      settles_finish rfl⟩
    refine (succeeds_requireGenerator own).bind
      ((succeeds_asyncGeneratorData _ found).bind ?_)
    rw [queued]
    exact succeeds_pure
  | cons request rest =>
    have front : Served runtime request :=
      served request (by simp [queued])
    cases pumpable with
    | completed completed =>
      obtain ⟨step, after, changed, turn, outcome⟩ := pumpTurn_completed own
        found completed queued front (trailing completed.state _ _ queued)
      exact ⟨step, after, changed, succeeds_pump_stop turn, outcome⟩
    | suspended suspended short =>
      by_cases abandoned :
          data.state = .suspendedStart ∧ request.completion ≠ .next
      · obtain ⟨start, abrupt⟩ := abandoned
        obtain rfl : rest = [] := by simpa [queued] using short start
        have first := rewrites_store found (data.detached .completed)
        obtain ⟨step, after, changed, turn, outcome⟩ :=
          pumpTurn_completed own first.self ⟨rfl, rfl, rfl⟩ queued
            (front.kept found first) fun _ => .inl rfl
        exact ⟨step, after, changed, succeeds_pump_again
          (pumpTurn_abandoned own found start queued abrupt) turn,
          outcome.after first rfl⟩
      · obtain ⟨step, after, changed, turn, outcome⟩ :=
          pumpTurn_suspended own found suspended queued
            (by simpa using abandoned) front
        exact ⟨step, after, changed, succeeds_pump_stop turn, outcome⟩

theorem settling_outcome (phase : resume.phase = .settled true)
    (pumpable : data.Pumpable)
    (trailing : data.state = .completed → data.Trails left)
    (completion : Completion) :
    Advances left (resume.resume completion) runtime id data [] := by
  unfold AsyncGeneratorResume.resume
  rw [phase]
  exact pump_outcome own found served pumpable trailing

theorem body_completed (phase : resume.phase = .body) (executes : data.Executes)
    (completion : Completion) :
    Advances left (resume.body (.complete completion)) runtime id data [] := by
  cases queued : data.queue with
  | nil => exact absurd queued executes.queue
  | cons request rest =>
    have first := rewrites_store found (data.detached .completed)
    have front : Served _ request :=
      (served request (by simp [queued])).kept found first
    have settles (settlement : AsyncGeneratorSettlement) :
        Advances left (resume.settle settlement true) _ id
          (data.detached .completed) [] :=
      settle_outcome own first.self queued front settlement true
        fun callable value => .settling callable value rfl
          (.completed ⟨rfl, rfl, rfl⟩)
    have completes := succeeds_completeAsyncGenerator found executes.open'
    unfold AsyncGeneratorResume.body
    simp only [if_neg (not_not.mpr phase)]
    cases completion with
    | «return» value =>
      exact .read (succeeds_requireGenerator own)
        (.bind completes first rfl (settles (.resolve value true)))
    | throw value =>
      exact .read (succeeds_requireGenerator own)
        (.bind completes first rfl (settles (.reject value)))

theorem body_yielded (executes : data.Executes)
    (yields : state = .suspendedYield ∨ state = .suspendedYieldStar)
    (value : JsValue) (activation : GeneratorActivationData) :
    Advances left (do
      suspendAsyncGenerator (← resume.requireGenerator) state activation none
      resume.settle (.resolve value false) true) runtime id data [] := by
  cases queued : data.queue with
  | nil => exact absurd queued executes.queue
  | cons request rest =>
    have first := rewrites_store found { data with
      state, activation := some activation, resumeRealm := none }
    have front : Served _ request :=
      (served request (by simp [queued])).kept found first
    have parked : AsyncGeneratorData.Pumpable { data with
        state, activation := some activation, resumeRealm := none
        queue := rest } := by
      refine .suspended ⟨.inr yields, by simp, rfl⟩ fun start => ?_
      rcases yields with rfl | rfl <;> cases start
    have legal : (state = .suspendedYield ∧ (none : Option ContextId) = none) ∨
        (state = .suspendedYieldStar ∧ (none : Option ContextId) = none) ∨
        (state = .executing ∧ (none : Option ContextId) ≠ none) := by
      rcases yields with rfl | rfl
      · exact .inl ⟨rfl, rfl⟩
      · exact .inr (.inl ⟨rfl, rfl⟩)
    have suspends := succeeds_suspendAsyncGenerator found executes legal
      activation
    exact .read (succeeds_requireGenerator own) (.bind suspends first rfl
      (settle_outcome own first.self queued front (.resolve value false) true
        fun callable value => .settling callable value rfl parked))

theorem body_outcome (phase : resume.phase = .body) (executes : data.Executes)
    (stopped : BodyOutcome) :
    Advances left (resume.body stopped.outcome) runtime id data [] := by
  cases stopped with
  | «return» value | throw value =>
    exact body_completed own found served phase executes _
  | yield _ delegating =>
    unfold AsyncGeneratorResume.body
    simp only [if_neg (not_not.mpr phase)]
    cases delegating with
    | false => exact body_yielded own found served executes (.inl rfl) _ _
    | true => exact body_yielded own found served executes (.inr rfl) _ _
  | await =>
    unfold AsyncGeneratorResume.body
    simp only [if_neg (not_not.mpr phase)]
    exact ⟨_, _, _, succeeds_pure, .refl found, .resolving _ _ rfl executes,
      owned_pushed own, .nothing rfl (by simp)⟩

end

theorem await_outcome (phase : resume.phase = .await activation)
    (executes : data.Executes) (resolution : Resolution) :
    ∃ added, Advances left (resume.resume resolution.completion) runtime id data
      added := by
  unfold AsyncGeneratorResume.resume
  rw [phase]
  cases resolution with
  | failed =>
    exact ⟨_, _, _, _, succeeds_pure, .refl found, .running _ _ rfl executes,
      owned_pushed own, .nothing rfl (by simp)⟩
  | promise =>
    have suspends := succeeds_suspendAsyncGenerator found executes
      (.inr (.inr ⟨rfl, Option.some_ne_none resume.realm⟩)) activation
    have first := rewrites_store found { data with
      state := .executing, activation := some activation
      resumeRealm := some resume.realm }
    have registered := Rewrites.register first.self ⟨id, .body⟩
    exact ⟨_, _, _, _, (succeeds_requireGenerator own).bind (suspends.bind
      (Succeeds.bind (succeeds_modify _) succeeds_pure)),
      first.trans registered, .awaiting ⟨rfl, by simp, by simp,
        executes.queue⟩, owned_finish, settles_finish rfl⟩

theorem completedReturn_outcome (phase : resume.phase = .completedReturn)
    (returns : data.Returns) (resolution : Resolution) :
    ∃ added, Advances left (resume.resume resolution.completion) runtime id data
      added := by
  unfold AsyncGeneratorResume.resume
  rw [phase]
  cases resolution with
  | failed =>
    have fresh := Rewrites.allocate found
      (rfl : HeapObject.promise.isGenerator = false)
    have registered := Rewrites.register fresh.self ⟨id, .completedReturn⟩
    exact ⟨_, _, _, _, Succeeds.bind rfl ((succeeds_requireGenerator own).bind
      (Succeeds.bind (succeeds_modify _) succeeds_pure)),
      fresh.trans registered, .awaitingReturn returns, owned_finish,
      settles_finish rfl⟩
  | promise =>
    exact ⟨_, _, _, _, (succeeds_requireGenerator own).bind
      (Succeeds.bind (succeeds_modify _) succeeds_pure),
      .register found ⟨id, .completedReturn⟩, .awaitingReturn returns,
      owned_finish, settles_finish rfl⟩

end

theorem settled_outcome (phase : resume.phase = .settled false)
    (found : runtime.asyncGenerator? id = some data)
    (completed : data.Completed) (rest : data.queue = [] ∨ left data.queue)
    (completion : Completion) :
    Advances left (resume.resume completion) runtime id data [] := by
  unfold AsyncGeneratorResume.resume
  rw [phase]
  exact ⟨_, _, _, succeeds_pure, .refl found,
    .idle (.completed completed) (rest.imp_right (⟨completed.state, ·⟩)),
    owned_finish, settles_finish rfl⟩

theorem awaiting_outcome (found : runtime.asyncGenerator? id = some data)
    (awaits : data.Awaits) (realm : ContextId) (fulfilled : Bool)
    (argument : JsValue) : Advances left (startContinuation realm id
        (Wait.callback ⟨id, .body⟩ fulfilled) argument) runtime id data [] := by
  obtain ⟨activation, parked⟩ := Option.ne_none_iff_exists'.mp
    awaits.activation
  have kind : Wait.callback ⟨id, .body⟩ fulfilled = .awaitFulfill ∨
      Wait.callback ⟨id, .body⟩ fulfilled = .awaitReject := by
    cases fulfilled <;> simp [Wait.callback]
  have detached := detach_outcome
    (rfl : (AsyncGeneratorResume.mk realm (some id) .undefined .body).generator =
      some id) found (by simp [awaits.state]) parked
  rw [awaits.state] at detached
  have runs : Succeeds (startContinuation realm id
      (Wait.callback ⟨id, .body⟩ fulfilled) argument) runtime
      (.run ⟨realm, some id, .undefined, .body⟩ ⟨.await, activation⟩
        (if Wait.callback ⟨id, .body⟩ fulfilled = .awaitFulfill then
          .awaitFulfill argument else .awaitReject argument))
      (runtime.setAsyncGenerator id (data.detached .executing)) := by
    refine (succeeds_asyncGeneratorData _ found).bind ?_
    simp only [if_pos kind, if_neg (not_not.mpr awaits.state),
      if_neg awaits.resumeRealm, parked]
    exact detached.bind succeeds_pure
  exact ⟨_, _, _, runs, rewrites_store found _,
    .running _ _ rfl ⟨rfl, rfl, rfl, awaits.queue⟩, owned_pushed rfl,
    .nothing rfl (by simp)⟩

theorem awaitingReturn_outcome (found : runtime.asyncGenerator? id = some data)
    (returns : data.Returns)
    (served : ∀ request ∈ data.queue, Served runtime request)
    (trailing : ∀ request rest, data.queue = request :: rest →
      rest = [] ∨ left rest) (realm : ContextId) (fulfilled : Bool)
    (argument : JsValue) :
    Advances left (startContinuation realm id
      (Wait.callback ⟨id, .completedReturn⟩ fulfilled) argument) runtime id data
      [] := by
  obtain ⟨request, rest, queued⟩ := exists_cons_of_ne_nil returns.queue
  have first := rewrites_store found { data with
    state := .completed, resumeRealm := none }
  have front : Served _ request :=
    (served request (by simp [queued])).kept found first
  have legal : ¬ (data.state ≠ .awaitingReturn ∨ data.activation ≠ none) := by
    simp [returns.state, returns.activation]
  have finishes : Succeeds (finishAsyncGeneratorCompletedReturn id) runtime ()
      (runtime.setAsyncGenerator id { data with
        state := .completed, resumeRealm := none }) := by
    refine (succeeds_asyncGeneratorData _ found).bind ?_
    simp only [if_neg legal]
    refine (succeeds_store _).bind ?_
    rw [if_neg returns.resumeRealm]
    exact succeeds_pure
  have settles := settle_outcome
    (rfl : (AsyncGeneratorResume.mk realm (some id) .undefined .body).generator =
      some id) first.self queued front
    (if Wait.callback ⟨id, .completedReturn⟩ fulfilled = .returnFulfill then
      .resolve argument true else .reject argument) false
    fun callable value => .settled callable value rfl
      ⟨rfl, returns.activation, rfl⟩ (trailing request rest queued)
  refine .read (succeeds_asyncGeneratorData _ found) ?_
  have kind : ¬ (Wait.callback ⟨id, .completedReturn⟩ fulfilled = .awaitFulfill ∨
      Wait.callback ⟨id, .completedReturn⟩ fulfilled = .awaitReject) := by
    cases fulfilled <;> simp [Wait.callback]
  simp only [if_neg kind, if_neg returns.resumeRealm, if_neg legal]
  exact .bind finishes first rfl settles

end

end QuickJsOxide.AsyncGenerators
