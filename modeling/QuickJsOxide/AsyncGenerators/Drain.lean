import QuickJsOxide.AsyncGenerators.Requests

namespace QuickJsOxide.AsyncGenerators

open Library List AsyncGenerators.Runtime
open Promises (JsValue Completion ObjectId ContextId PromiseResolvingKind)

section

variable {runtime : Runtime} {id : ObjectId} {data : AsyncGeneratorData}
  {request : AsyncGeneratorRequestData}

def Runtime.enqueued (runtime : Runtime) (id : ObjectId)
    (data : AsyncGeneratorData) (request : AsyncGeneratorRequestData) : Runtime :=
  { runtime.setAsyncGenerator id
      { data with queue := data.queue ++ [request] } with
    requested := runtime.requested ++ [(id, request.promise)] }

section

variable (found : runtime.asyncGenerator? id = some data)

include found

theorem succeeds_asyncGeneratorEnqueue :
    Succeeds (asyncGeneratorEnqueue id request) runtime ()
      (runtime.enqueued id data request) :=
  (succeeds_asyncGeneratorData _ found).bind
    ((succeeds_store _).bind (succeeds_modify _))

theorem located_enqueued (located :
      (runtime.enqueued id data request).asyncGenerator? other = some now) :
    other = id ∧ now = { data with queue := data.queue ++ [request] } ∨
      other ≠ id ∧ runtime.asyncGenerator? other = some now :=
  (rewrites_store found _).located rfl located

theorem isSome_enqueued (known : (runtime.asyncGenerator? other).isSome) :
    ((runtime.enqueued id data request).asyncGenerator? other).isSome :=
  (rewrites_store found _).present rfl known

end

theorem requestedOn_enqueued :
    (runtime.enqueued id data request).requestedOn id =
      runtime.requestedOn id ++ [request.promise] := by
  simp [requestedOn, enqueued]

theorem requestedOn_enqueued_other (apart : other ≠ id) :
    (runtime.enqueued id data request).requestedOn other =
      runtime.requestedOn other := by
  simp [requestedOn, enqueued, Ne.symm apart]

structure Fresh (runtime : Runtime) (promise : ObjectId) : Prop where
  requested : ∀ entry ∈ runtime.requested, entry.2 ≠ promise
  settled : ∀ settlement ∈ runtime.settlements, settlement.promise ≠ promise

theorem Accounts.fresh (accounts : Accounts runtime) :
    Fresh runtime.promised runtime.objects.length where
  requested entry member := Nat.ne_of_lt (accounts.counted entry member)
  settled settlement member := Nat.ne_of_lt (accounts.noted settlement member)

theorem AsyncGeneratorData.Pumpable.apart (pumpable : data.Pumpable) :
    data.state ≠ .executing ∧ data.state ≠ .awaitingReturn := by
  cases pumpable with
  | suspended suspended =>
    rcases suspended.state with state | state | state <;> simp [state]
  | completed completed => simp [completed.state]

theorem Stage.enqueue {waits : List Wait}
    (stage : Stage left id data steps waits)
    (busy : data.state = .executing ∨ data.state = .awaitingReturn) :
    Stage left id { data with queue := data.queue ++ [request] } steps
      waits := by
  have more : data.queue ++ [request] ≠ [] := by simp
  cases stage with
  | idle pumpable | settling _ _ _ pumpable =>
    exact absurd busy (not_or.mpr pumpable.apart)
  | settled _ _ _ completed => simp [completed.state] at busy
  | returning value realm phase returns =>
    exact .returning value realm phase { returns with queue := more }
  | awaitingReturn returns =>
    exact .awaitingReturn { returns with queue := more }
  | running activation input phase executes =>
    exact .running activation input phase { executes with queue := more }
  | resolving value realm phase executes =>
    exact .resolving value realm phase { executes with queue := more }
  | awaiting awaits => exact .awaiting { awaits with queue := more }

section

variable (found : runtime.asyncGenerator? id = some data)
  (served : Served runtime request) (fresh : Fresh runtime request.promise)
  (bound : request.promise < runtime.objects.length)

include found served fresh bound

theorem Accounts.enqueue (accounts : Accounts runtime) :
    Accounts (runtime.enqueued id data request) := by
  have stored := rewrites_store found
    { data with queue := data.queue ++ [request] }
  have stays {other : AsyncGeneratorRequestData}
      (served : Served runtime other) :
      Served (runtime.enqueued id data request) other :=
    ⟨stored.resolving found served.resolve, stored.resolving found served.reject⟩
  have length : (runtime.enqueued id data request).objects.length =
      runtime.objects.length := length_set
  constructor
  · intro other now located
    rcases located_enqueued found located with ⟨rfl, rfl⟩ | ⟨apart, old⟩
    · have settled : (runtime.enqueued other data request).settledOn other =
          runtime.settledOn other := by
        rw [settledOn, requestedOn_enqueued, settledOn]
        refine filter_congr fun promise member => ?_
        obtain ⟨settlement, noted, rfl⟩ := mem_map.mp member
        simp [fresh.settled settlement noted]
      rw [settled, requestedOn_enqueued, map_append, ← append_assoc,
        accounts.balanced other data found]
      rfl
    · rw [settledOn, requestedOn_enqueued_other apart]
      exact accounts.balanced other now old
  · intro other now located waiting member
    rcases located_enqueued found located with ⟨rfl, rfl⟩ | ⟨-, old⟩
    · rcases mem_append.mp member with old | new
      · exact stays (accounts.served other data found waiting old)
      · obtain rfl := mem_singleton.mp new
        exact stays served
    · exact stays (accounts.served other now old waiting member)
  · have distinct : (runtime.requested.map Prod.snd ++ [request.promise]).Nodup := by
      refine nodup_append.mpr ⟨accounts.distinct, nodup_singleton _, ?_⟩
      intro promise member other new
      obtain ⟨entry, listed, rfl⟩ := mem_map.mp member
      rw [mem_singleton.mp new]
      exact fresh.requested entry listed
    rw [enqueued, map_append]
    exact distinct
  · intro entry member
    rw [length]
    rcases mem_append.mp member with old | new
    · exact accounts.counted entry old
    · rw [mem_singleton.mp new]
      exact bound
  · intro settlement member
    rw [length]
    exact accounts.noted settlement member
  · intro entry member
    rcases mem_append.mp member with old | new
    · exact isSome_enqueued found (accounts.targets entry old)
    · rw [mem_singleton.mp new]
      exact isSome_enqueued found (found ▸ rfl)

theorem Attended.enqueue (attended : Attended runtime) :
    Attended (runtime.enqueued id data request) where
  accounts := attended.accounts.enqueue found served fresh bound
  operators step member other owner :=
    isSome_enqueued found (attended.operators step member other owner)
  strays := attended.strays
  waiters wait member := isSome_enqueued found (attended.waiters wait member)

theorem Sound.enqueue (sound : Sound left runtime)
    (busy : data.state = .executing ∨ data.state = .awaitingReturn) :
    Sound left (runtime.enqueued id data request) where
  toAttended := sound.toAttended.enqueue found served fresh bound
  stages other now located := by
    rcases located_enqueued found located with ⟨rfl, rfl⟩ | ⟨-, old⟩
    · exact (sound.stages other data found).enqueue busy
    · exact sound.stages other now old

theorem Sound.alone_enqueue (sound : Sound left runtime)
    (idle : runtime.operationsOn id = []) (unwaited : runtime.waitsOn id = []) :
    Alone left (runtime.enqueued id data request) id where
  toAttended := sound.toAttended.enqueue found served fresh bound
  stages other now apart located := sound.stages other now
    ((located_enqueued found located).resolve_left fun same => apart same.1).2
  operations := idle
  waits := unwaited

end

theorem Sound.stray (sound : Sound left runtime) {promise callable : ObjectId}
    (fresh : Fresh runtime promise) (bound : promise < runtime.objects.length)
    (object : runtime.objects[callable]? = some (.resolving promise kind))
    {resume : AsyncGeneratorResume} (ownerless : resume.generator = none)
    (phase : resume.phase = .settled false) (value : JsValue) :
    Sound left (final (drive (.call resume callable value)) runtime) := by
  rw [final_call resume value object]
  have accounts := sound.accounts
  refine ⟨⟨⟨?_, ?_, accounts.distinct, accounts.counted, ?_, accounts.targets⟩,
    ?_, ?_, sound.waiters⟩, ?_⟩
  · intro other data located
    have unclaimed : promise ∉ runtime.requestedOn other := fun claimed =>
      fresh.requested _ (mem_requestedOn.mp claimed) rfl
    rw [settledOn, map_append, filter_append, map_singleton,
      filter_cons_of_neg (by exact mt of_decide_eq_true unclaimed),
      filter_nil, append_nil]
    exact accounts.balanced other data located
  · intro other data located request member
    have served := accounts.served other data located request member
    exact ⟨served.resolve, served.reject⟩
  · intro settlement member
    rcases mem_append.mp member with old | new
    · exact accounts.noted settlement old
    · rw [mem_singleton.mp new]
      exact bound
  · intro step member other owner
    rcases mem_cons.mp member with rfl | old
    · exact absurd (ownerless.symm.trans owner) (by simp)
    · exact sound.operators step old other owner
  · intro step member owner
    rcases mem_cons.mp member with rfl | old
    · exact phase
    · exact sound.strays step old owner
  · intro other data located
    rw [operationsOn, filter_cons_of_neg (by
      simp [AsyncGeneratorStep.generator?, ownerless])]
    exact sound.stages other data located

end

def Runtime.resolving (runtime : Runtime) (id : ObjectId) : Bool :=
  runtime.operations.any fun
    | .call resume _ _ => resume.generator = some id
    | _ => false

/-- The resolving functions do not use their own generator. -/
def outside (runtime : Runtime) : Command → Bool
  | .request _ _ (.object id) _ => !runtime.resolving id
  | .react wait _ _ _ => !runtime.resolving wait.generator
  | _ => true

def Runtime.current? (runtime : Runtime) : Option AsyncGeneratorData := do
  let step ← runtime.operations.head?
  let id ← step.generator?
  runtime.asyncGenerator? id

/-- The entry settles no request of a completed generator while another one
waits behind it. -/
def prompt (runtime : Runtime) : Command → Bool
  | .react ⟨id, .completedReturn⟩ _ _ _ =>
    (runtime.asyncGenerator? id).all (·.queue.length ≤ 1)
  | .called _ => runtime.current?.all fun data => data.state ≠ .completed ∨
    data.queue.length ≤ 1 ∨ data.queue.head?.any (·.completion = .return)
  | _ => true

section

variable {runtime : Runtime} {id : ObjectId} {data : AsyncGeneratorData}

theorem final_reply {after : Runtime} (stack : runtime.operations = top :: rest)
    (runs : Succeeds operation { runtime with operations := rest } step after) :
    final (do
      popOperation
      drive (← operation)) runtime = final (drive step) after := by
  have popped : Succeeds popOperation runtime ()
      { runtime with operations := rest } := by
    have pops : Succeeds popOperation runtime () { runtime with
        operations := runtime.operations.tail } := succeeds_modify _
    rwa [stack] at pops
  rw [final_bind popped, final_bind runs]

variable {top : AsyncGeneratorStep}

section

variable (sound : Sound left runtime)

include sound

theorem Sound.owner (stack : runtime.operations = top :: rest)
    (attached : ¬ top.Stray) : ∃ id, top.generator? = some id := by
  cases owner : top.generator? with
  | none => exact absurd (sound.strays top (by simp [stack]) owner) attached
  | some id => exact ⟨id, rfl⟩

theorem Sound.drop (stack : runtime.operations = top :: rest)
    (ownerless : top.generator? = none) :
    Sound left { runtime with operations := rest } where
  toAttended := sound.popped stack
  stages other data found := by
    have stage := sound.stages other data found
    rwa [operationsOn, stack, filter_cons_of_neg (by
      simp [ownerless])] at stage

theorem Sound.body (outcome : BodyOutcome) :
    Sound left (runtime.run (.body outcome)) := by
  rw [run, perform, final_bind succeeds_get]
  split
  next stack =>
    obtain ⟨id, owner⟩ := sound.owner stack not_false
    obtain ⟨data, found, stage, alone⟩ := sound.pop stack owner
    cases stage with
    | running _ _ phase executes =>
      obtain ⟨_, _, _, runs, result⟩ :=
        body_outcome owner found (alone.accounts.served id data found) phase
          executes outcome
      rw [final_reply stack runs]
      exact alone.sound found result
  next => exact sound

theorem Sound.resolved (resolution : Resolution) :
    Sound left (runtime.run (.resolved resolution)) := by
  rw [run, perform, final_bind succeeds_get]
  split
  next stack =>
    obtain ⟨_, owner⟩ := sound.owner stack not_false
    obtain ⟨_, found, stage, alone⟩ := sound.pop stack owner
    cases stage with
    | resolving _ _ phase executes =>
      obtain ⟨step, after, changed, added, runs, result⟩ :=
        await_outcome owner found phase executes resolution
      rw [final_reply stack runs]
      exact alone.sound found result
    | returning _ _ phase returns =>
      obtain ⟨_, _, _, _, runs, result⟩ :=
        completedReturn_outcome owner found phase returns resolution
      rw [final_reply stack runs]
      exact alone.sound found result
  next => exact sound

omit sound in
theorem trails_of_prompt (stack : runtime.operations = top :: rest)
    (owner : top.generator? = some id)
    (found : asyncGenerator? { runtime with operations := rest } id =
      some data)
    (allowed : prompt runtime (.called completion) ∨ ∀ queue, left queue)
    (completed : data.state = .completed) : data.Trails left := by
  intro request rest queued settled
  refine allowed.imp (fun short => ?_) (· rest)
  have current : runtime.current? = some data := by
    simp only [current?, stack]
    rw [← found]
    simp [owner, asyncGenerator?]
  simpa [prompt, current, completed, queued, settled] using short

theorem Sound.called (completion : Completion)
    (allowed : prompt runtime (.called completion) ∨ ∀ queue, left queue) :
    Sound left (runtime.run (.called completion)) := by
  rw [run, perform, final_bind succeeds_get]
  split
  next resume callable value rest stack =>
    cases owner : resume.generator with
    | none =>
      have phase : resume.phase = .settled false :=
        sound.strays (.call resume callable value) (by simp [stack]) owner
      have runs : Succeeds (resume.resume completion)
          { runtime with operations := rest } resume.finish
          { runtime with operations := rest } := by
        unfold AsyncGeneratorResume.resume
        rw [phase]
        exact succeeds_pure
      rw [final_reply stack runs]
      exact sound.drop stack owner
    | some id =>
      obtain ⟨data, found, stage, alone⟩ := sound.pop stack owner
      cases stage with
      | settling _ _ phase pumpable =>
        obtain ⟨step, after, changed, runs, result⟩ :=
          settling_outcome owner found (alone.accounts.served id data found)
            phase pumpable (trails_of_prompt stack owner found allowed)
            completion
        rw [final_reply stack runs]
        exact alone.sound found result
      | settled _ _ phase completed rest =>
        obtain ⟨_, _, _, runs, result⟩ :=
          settled_outcome phase found completed rest completion
        rw [final_reply stack runs]
        exact alone.sound found result
  next => exact sound

theorem Sound.react (wait : Wait) (realm : ContextId) (fulfilled : Bool)
    (argument : JsValue)
    (allowed : prompt runtime (.react wait realm fulfilled argument) ∨
      ∀ queue, left queue) :
    Sound left (runtime.run (.react wait realm fulfilled argument)) := by
  rw [run, perform, final_bind succeeds_get]
  by_cases absent : wait ∉ runtime.waits
  · rw [if_pos absent]
    exact sound
  · simp only [if_neg absent]
    obtain ⟨data, found, stage, alone⟩ := sound.take (not_not.mp absent)
    rw [final_bind (succeeds_modify _)]
    obtain ⟨id, awaited⟩ := wait
    cases stage with
    | awaiting awaits =>
      obtain ⟨step, after, changed, runs, result⟩ :=
        awaiting_outcome found awaits realm fulfilled argument
      rw [final_bind runs]
      exact alone.sound found result
    | awaitingReturn returns =>
      have here : runtime.asyncGenerator? id = some data := found
      obtain ⟨_, _, _, runs, result⟩ :=
        awaitingReturn_outcome found returns
          (alone.accounts.served id data found) (fun request rest queued =>
            allowed.imp (fun short => by
              simpa [prompt, here, queued] using short) (· rest))
          realm fulfilled argument
      rw [final_bind runs]
      exact alone.sound found result

omit sound in
theorem Runtime.of_asyncGenerator?_promised
    (found : runtime.promised.asyncGenerator? id = some data) :
    runtime.asyncGenerator? id = some data := by
  rcases of_asyncGenerator?_allocated found with third | ⟨-, made⟩
  · rcases of_asyncGenerator?_allocated third with second | ⟨-, made⟩
    · rcases of_asyncGenerator?_allocated second with first | ⟨-, made⟩
      · exact first
      · cases made
    · cases made
  · cases made

theorem Sound.idle (found : runtime.asyncGenerator? id = some data)
    (unresolved : runtime.resolving id = false)
    (free : ¬ (data.state = .executing ∨ data.state = .awaitingReturn)) :
    data.Pumpable ∧
      (data.queue = [] ∨ data.state = .completed ∧ left data.queue) ∧
      runtime.operationsOn id = [] ∧ runtime.waitsOn id = [] := by
  have calls (resume : AsyncGeneratorResume) (callable : ObjectId)
      (value : JsValue) :
      runtime.operationsOn id ≠ [.call resume callable value] := by
    intro busy
    have member : .call resume callable value ∈ runtime.operationsOn id := by
      simp [busy]
    obtain ⟨listed, owner⟩ := mem_filter.mp member
    have resolving : runtime.resolving id = true :=
      any_eq_true.mpr ⟨_, listed, owner⟩
    rw [unresolved] at resolving
    cases resolving
  have stage := sound.stages id data found
  generalize operations : runtime.operationsOn id = steps at stage
  generalize registered : runtime.waitsOn id = waits at stage
  cases stage with
  | idle pumpable rest => exact ⟨pumpable, rest, rfl, rfl⟩
  | settling | settled => exact absurd operations (calls _ _ _)
  | running _ _ _ executes | resolving _ _ _ executes =>
    exact absurd (.inl executes.state) free
  | awaiting awaits => exact absurd (.inl awaits.state) free
  | returning _ _ _ returns | awaitingReturn returns =>
    exact absurd (.inr returns.state) free

omit sound in
theorem AsyncGeneratorData.Pumpable.more (pumpable : data.Pumpable)
    (rest : data.queue = [] ∨ data.state = .completed ∧ left data.queue)
    (request : AsyncGeneratorRequestData) :
    AsyncGeneratorData.Pumpable
      { data with queue := data.queue ++ [request] } := by
  cases pumpable with
  | suspended suspended =>
    have empty : data.queue = [] :=
      rest.resolve_right fun behind => suspended.open' (.inr behind.1)
    exact .suspended ⟨suspended.state, suspended.activation,
      suspended.resumeRealm⟩ fun _ => by simp [empty]
  | completed completed =>
    exact .completed ⟨completed.state, completed.activation,
      completed.resumeRealm⟩

omit sound in
theorem Outcome.pushed_ne_nil {before after : Runtime}
    (outcome : Outcome left before id data step after changed [])
    (shorter : ∀ queue, left queue → queue.length < data.queue.length)
    (asked : data.queue ≠ []) : step.pushed ≠ [] := by
  intro none
  have stage := outcome.stage
  rw [none] at stage
  cases outcome.settles with
  | front => cases none
  | nothing same =>
    cases stage with
    | idle _ rest =>
      rw [same] at rest
      rcases rest with empty | ⟨-, behind⟩
      · exact asked empty
      · exact Nat.lt_irrefl _ (shorter _ behind)

theorem Sound.ask (found : runtime.asyncGenerator? id = some data)
    (served : Served runtime request) (fresh : Fresh runtime request.promise)
    (bound : request.promise < runtime.objects.length)
    (unresolved : runtime.resolving id = false)
    (renews : ∀ before after, left before → left after)
    {resume : AsyncGeneratorResume} (own : resume.generator = some id) :
    ∃ step after, Succeeds (do
        asyncGeneratorEnqueue id request
        let snapshot ← asyncGeneratorSnapshot id
        if snapshot.state = .executing ∨ snapshot.state = .awaitingReturn then
          return resume.finish
        resume.pump) runtime step after ∧
      Sound left (final (drive step) after) ∧
      (¬ (data.state = .executing ∨ data.state = .awaitingReturn) →
        (final (drive step) after).operationsOn id ≠ []) := by
  have enqueues : Succeeds (asyncGeneratorEnqueue id request) runtime ()
      (runtime.enqueued id data request) := succeeds_asyncGeneratorEnqueue found
  have located : (runtime.enqueued id data request).asyncGenerator? id =
      some { data with queue := data.queue ++ [request] } :=
    (rewrites_store found _).self
  by_cases busy : data.state = .executing ∨ data.state = .awaitingReturn
  · refine ⟨resume.finish, _, enqueues.bind
      ((succeeds_asyncGeneratorData _ located).bind ?_),
      sound.enqueue found served fresh bound busy, fun free => (free busy).elim⟩
    simp only [if_pos busy]
    exact succeeds_pure
  · obtain ⟨pumpable, rest, unworked, unwaited⟩ :=
      sound.idle found unresolved busy
    have alone := sound.alone_enqueue found served fresh bound unworked unwaited
    -- Whatever the front request is, fewer requests are left than there were.
    have trailing : AsyncGeneratorData.Trails
        { data with queue := data.queue ++ [request] } fun queue =>
          left queue ∧ queue.length < (data.queue ++ [request]).length := by
      intro front behind queued _
      dsimp only at queued
      rcases rest with empty | ⟨-, trailing⟩
      · rw [empty] at queued
        exact .inl (cons.inj queued).2.symm
      · refine .inr ⟨renews _ _ trailing, ?_⟩
        rw [queued]
        exact Nat.lt_succ_self _
    obtain ⟨step, after, changed, runs, result⟩ := pump_outcome own located
      (alone.accounts.served id _ located) (pumpable.more rest request)
      fun _ => trailing
    have pushed := result.pushed_ne_nil (fun _ behind => behind.2) (by simp)
    have outcome : Outcome left _ _ _ _ _ _ _ :=
      { result with stage := result.stage.mono fun _ behind => behind.1 }
    refine ⟨step, after, enqueues.bind
      ((succeeds_asyncGeneratorData _ located).bind ?_),
      alone.sound located outcome, fun _ => ?_⟩
    · simp only [if_neg busy]
      exact runs
    · obtain ⟨_, driven, -⟩ := alone.driven located outcome
      rw [operationsOn, driven.operations, filter_append,
        filter_own outcome.owner]
      exact append_ne_nil_of_left_ne_nil pushed _

theorem Sound.refuse (realm : ContextId) :
    ∃ step after, Succeeds (do
        let reason ← AsyncGenerators.allocate .other
        return .call ⟨realm, none, .object runtime.objects.length,
          .settled false⟩ (runtime.objects.length + 2) (.object reason))
        runtime.promised step after ∧
      Sound left (final (drive step) after) := by
  have served : Served runtime.promised _ :=
    served_promised .next .undefined
  have fresh : Fresh (runtime.promised.allocated .other)
      runtime.objects.length :=
    ⟨sound.accounts.fresh.requested, sound.accounts.fresh.settled⟩
  have bound : runtime.objects.length <
      (runtime.promised.allocated .other).objects.length := by
    simp only [promised, length_allocated]
    omega
  exact ⟨_, _, (succeeds_allocate _).bind succeeds_pure,
    (sound.promise.allocate (by simp)).stray fresh bound
      (getElem?_allocated served.reject) rfl rfl _⟩

theorem Sound.request (realm : ContextId) (kind : GeneratorResumeKind)
    (thisValue argument : JsValue)
    (outer : outside runtime (.request realm kind thisValue argument))
    (renews : ∀ before after, left before → left after) :
    Sound left (runtime.run (.request realm kind thisValue argument)) ∧
      ∀ id data, thisValue = .object id →
        runtime.asyncGenerator? id = some data →
        ¬ (data.state = .executing ∨ data.state = .awaitingReturn) →
        (runtime.run (.request realm kind thisValue argument)).operationsOn id ≠
          [] := by
  have started : ∃ step after, Succeeds
      (startRequest realm kind thisValue argument) runtime step after ∧
      Sound left (final (drive step) after) ∧
      ∀ id data, thisValue = .object id →
        runtime.asyncGenerator? id = some data →
        ¬ (data.state = .executing ∨ data.state = .awaitingReturn) →
        (final (drive step) after).operationsOn id ≠ [] := by
    cases thisValue with
    | object id =>
      cases found : runtime.promised.asyncGenerator? id with
      | none =>
        obtain ⟨step, after, runs, result⟩ := sound.refuse realm
        refine ⟨step, after, succeeds_newDefaultPromiseCapability.bind
          (succeeds_get.bind ?_), result, ?_⟩
        · simp only [found]
          exact runs
        · rintro _ data ⟨⟩ old
          have kept : runtime.promised.asyncGenerator? id = some data :=
            asyncGenerator?_allocated (asyncGenerator?_allocated
              (asyncGenerator?_allocated old))
          exact absurd (found.symm.trans kept) (by simp)
      | some data =>
        have old := of_asyncGenerator?_promised found
        have unresolved : runtime.resolving id = false := by
          simpa [outside] using outer
        have bound : runtime.objects.length <
            runtime.promised.objects.length := by
          simp only [promised, length_allocated]
          omega
        obtain ⟨step, after, runs, result, works⟩ := sound.promise.ask found
          (served_promised kind argument) sound.accounts.fresh bound
          unresolved renews
          (rfl : (AsyncGeneratorResume.mk realm (some id)
            (.object runtime.objects.length) (.settled false)).generator =
            some id)
        refine ⟨step, after, succeeds_newDefaultPromiseCapability.bind
          (succeeds_get.bind ?_), result, ?_⟩
        · simp only [found]
          exact runs
        · rintro _ _ ⟨⟩ present
          obtain rfl := Option.some.inj (old.symm.trans present)
          exact works
    | undefined | null | bool | int | float | bigInt | shortBigInt | string
      | symbol =>
        obtain ⟨step, after, runs, result⟩ := sound.refuse realm
        exact ⟨step, after, succeeds_newDefaultPromiseCapability.bind
          (succeeds_get.bind runs), result, by simp⟩
  obtain ⟨_, _, runs, result⟩ := started
  rw [run, perform, final_bind runs]
  exact result

theorem Sound.run (command : Command) (outer : outside runtime command)
    (renews : ∀ before after, left before → left after)
    (allowed : prompt runtime command ∨ ∀ queue, left queue) :
    Sound left (runtime.run command) := by
  cases command with
  | newGenerator =>
    refine sound.allocate fun data made => ?_
    cases made
    exact ⟨.suspended ⟨.inl rfl, by simp [AsyncGeneratorData.new], rfl⟩
      (by simp [AsyncGeneratorData.new]), rfl⟩
  | newObject => exact sound.allocate (by simp)
  | request realm kind thisValue argument =>
    exact (sound.request realm kind thisValue argument outer renews).1
  | react wait realm fulfilled argument =>
    exact sound.react wait realm fulfilled argument allowed
  | body outcome => exact sound.body outcome
  | resolved resolution => exact sound.resolved resolution
  | called completion => exact sound.called completion allowed

end

end

theorem sound_new : Sound left .new where
  accounts :=
    { balanced := fun id data found => by cases found
      served := fun id data found => by cases found
      distinct := nodup_nil
      counted := fun entry member => by cases member
      noted := fun settlement member => by cases member
      targets := fun entry member => by cases member }
  stages id data found := by cases found
  operators step member := by cases member
  strays step member := by cases member
  waiters wait member := by cases member

theorem reachable_sound (reached : programs.Reachable admits runtime)
    (outer : ∀ runtime command, admits runtime command →
      outside runtime command)
    (renews : ∀ before after, left before → left after)
    (allowed : ∀ runtime command, admits runtime command →
      prompt runtime command ∨ ∀ queue, left queue) : Sound left runtime := by
  refine TransitionSystem.Reachable.invariant (Sound left) ?_ ?_ reached
  · rintro _ rfl
    exact sound_new
  · rintro before command _ sound admitted rfl
    exact sound.run command (outer _ _ admitted) renews (allowed _ _ admitted)

end QuickJsOxide.AsyncGenerators
