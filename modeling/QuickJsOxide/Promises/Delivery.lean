import QuickJsOxide.Promises.Operations

namespace QuickJsOxide.Promises

open Library Quiet List

theorem succeeds_takeActivation
    (waiting : runtime.activations = activation :: rest) :
    Succeeds takeActivation runtime activation
      { runtime with activations := rest } := by
  refine succeeds_get.bind ?_
  rw [waiting]
  rfl

structure Closed (holds : Runtime → Prop) : Prop where
  quiet : ∀ {before after}, Quiet before after → holds before → holds after
  settles : ∀ realm promise state result, state ≠ .pending →
    Keeps holds (settlePromise realm promise state result)
  registers : ∀ runtime realm promise fulfill reject capability,
    holds runtime → holds (final (performPromiseThen realm promise
      ⟨.fulfill, fulfill, capability, runtime.registrations⟩
      ⟨.reject, reject, capability, runtime.registrations⟩) runtime.counted)
  returns : ∀ {runtime realm registration result rest}, holds runtime →
    runtime.activations = .registering realm registration result :: rest →
    holds (final (do
      enqueuePromiseReactionJob realm registration.reject result
      returnRegistration registration) { runtime with activations := rest })
  publishes : ∀ {runtime jobs rest}, holds runtime →
    runtime.activations = .settling jobs :: rest →
    holds (final (publishPreparedJobs jobs)
      { runtime with activations := rest })

namespace Closed

section

variable (closed : Closed holds)

include closed

theorem suspend
    (plain : ∀ runtime, activation.number? = none ∧ activation.Waits runtime) :
    Keeps holds (suspend activation) :=
  fun _ => closed.quiet (of_suspended (plain _))

theorem allocate (fresh : ∀ data, object = .promise data → data = .new) :
    Keeps holds (allocate object) :=
  keeps_get fun _ held => closed.quiet (of_allocated fresh) held

theorem publish (unnumbered : ∀ job ∈ jobs, job.registration? = none) :
    Keeps holds (publishPreparedJobs jobs) :=
  fun _ => closed.quiet (of_published unnumbered)

theorem modify (quiet : ∀ runtime, Quiet runtime (change runtime)) :
    Keeps holds (modify change : Running PUnit) :=
  keeps_modify fun runtime => closed.quiet (quiet runtime)

theorem createPromiseResolvingFunctions (promise : ObjectId) :
    Keeps holds (createPromiseResolvingFunctions promise) := by
  refine keeps_get fun runtime held => ?_
  refine (closed.modify fun runtime => ?_).bind (fun _ => ?_) runtime held
  · exact of_ended rfl rfl rfl le_rfl (.refl _) (suffix_refl _)
  · exact (closed.allocate (by simp)).bind fun _ =>
      (closed.allocate (by simp)).bind fun _ => keeps_pure

section

variable (realm : ContextId)

include realm

theorem callResolving (promise : ObjectId) (alreadyResolved : Nat)
    (kind : PromiseResolvingKind) (resolution : JsValue) :
    Keeps holds (callResolving realm promise alreadyResolved kind
      resolution) := by
  refine keeps_get fun runtime held => ?_
  split
  · exact held
  · refine (closed.modify fun runtime => ?_).bind (fun _ => ?_) runtime held
    · exact of_ended rfl rfl rfl le_rfl (.refl _) (suffix_refl _)
    · split
      · exact closed.settles realm promise .rejected _ (by decide)
      · split
        · exact (closed.allocate (by simp)).bind fun reason =>
            closed.settles realm promise .rejected _ (by decide)
        · exact closed.suspend fun _ => ⟨rfl, trivial⟩
      · exact closed.settles realm promise .fulfilled _ (by decide)

theorem callFunction (function : ObjectId) (argument : JsValue) :
    Keeps holds (callFunction realm function argument) := by
  refine keeps_get fun runtime held => ?_
  split
  · exact closed.callResolving realm _ _ _ argument runtime held
  · exact closed.suspend (by exact fun _ => ⟨rfl, trivial⟩) runtime held
  · exact held

theorem finishReaction (targets : Option PromiseCapabilityData)
    (completion : Completion) :
    Keeps holds (finishReaction realm targets completion) := by
  unfold Promises.finishReaction
  split
  · exact keeps_pure
  · exact closed.callFunction realm _ _
  · exact closed.callFunction realm _ _

theorem executePromiseReactionJob (reaction : PromiseReaction)
    (argument : JsValue) :
    Keeps holds (executePromiseReactionJob realm reaction argument) := by
  unfold Promises.executePromiseReactionJob
  split
  · refine keeps_get fun runtime held => ?_
    split
    · exact closed.suspend (by exact fun _ => ⟨rfl, trivial⟩) runtime held
    · exact held
  · exact closed.finishReaction realm _ _

theorem executePromiseResolveThenableJob (promise action : ObjectId) :
    Keeps holds (executePromiseResolveThenableJob realm promise action) := by
  refine keeps_get fun runtime held => ?_
  split
  · exact (closed.createPromiseResolvingFunctions promise).bind
      (fun _ => closed.suspend (by exact fun _ => ⟨rfl, trivial⟩)) runtime held
  · exact held

omit realm in
theorem executePendingJob : Keeps holds executePendingJob := by
  refine keeps_get fun runtime held => ?_
  split
  next => exact held
  next job rest queued =>
    have popped : holds { runtime with pendingJobs := rest } := by
      refine closed.quiet ?_ held
      refine of_ended rfl rfl rfl le_rfl (.refl _) ?_
      rw [queued]
      exact suffix_cons job rest
    cases job with
    | promiseReaction realm reaction argument =>
      exact closed.executePromiseReactionJob realm reaction argument _ popped
    | promiseResolveThenable realm promise _ action =>
      exact closed.executePromiseResolveThenableJob realm promise action _
        popped
    | other => exact closed.suspend (by exact fun _ => ⟨rfl, trivial⟩) _ popped

omit realm in
theorem resume (completion : Completion) (boundary : Bool) :
    Keeps holds (resume completion boundary) := by
  intro runtime held
  cases waiting : runtime.activations with
  | nil =>
    have idle : Fails takeActivation runtime .idle runtime := by
      refine succeeds_get.fails ?_
      rw [waiting]
      exact fails_throw
    have stopped : Fails (Promises.resume completion boundary) runtime .idle
        runtime := idle.bind
    rw [final_of_fails stopped]
    exact held
  | cons activation rest =>
    have popped : holds { runtime with activations := rest } := by
      refine closed.quiet ?_ held
      refine of_ended rfl rfl rfl le_rfl ?_ (suffix_refl _)
      rw [waiting]
      exact sublist_cons_self ..
    unfold Promises.resume
    rw [final_bind (succeeds_takeActivation waiting)]
    cases activation with
    | settling =>
      cases boundary with
      | false => exact popped
      | true => exact closed.publishes held waiting
    | registering =>
      cases boundary with
      | false => exact popped
      | true => exact closed.returns held waiting
    | resolveThen realm promise =>
      refine (?_ : Keeps holds _) _ popped
      dsimp only
      split
      · exact closed.settles realm promise .rejected _ (by decide)
      · refine keeps_get fun runtime held => ?_
        split
        · exact closed.publish (by simp [PendingJob.registration?]) _ held
        · exact closed.settles realm promise .fulfilled _ (by decide) _ held
      · exact closed.settles realm promise .fulfilled _ (by decide)
    | reaction realm targets =>
      exact closed.finishReaction realm targets completion _ popped
    | thenable realm reject =>
      cases completion with
      | «return» value => exact popped
      | throw reason => exact closed.callFunction realm reject reason _ popped
    | call => exact popped

theorem finishPromiseThen (promise : ObjectId)
    (onFulfilled onRejected : JsValue) (capability : PromiseCapabilityData) :
    Keeps holds (finishPromiseThen realm promise onFulfilled onRejected
      capability) :=
  fun runtime held => closed.registers runtime realm promise _ _ _ held

theorem performPromiseThenInternal (promise : ObjectId)
    (fulfill reject : Option ObjectId)
    (capability : Option PromiseCapabilityData) :
    Keeps holds (performPromiseThenInternal realm promise fulfill reject
      capability) :=
  fun runtime held => closed.registers runtime realm promise _ _ _ held

end

theorem perform (command : Command) : Keeps holds (perform command) := by
  cases command with
  | newObject =>
    exact (closed.allocate (by simp)).bind fun _ => keeps_pure
  | newPromise =>
    refine Keeps.bind (Keeps.bind (closed.allocate (by simp)) fun promise => ?_)
      fun _ => keeps_pure
    exact (closed.createPromiseResolvingFunctions promise).bind
      fun _ => keeps_pure
  | setTracker =>
    exact closed.modify fun runtime => of_ended rfl rfl rfl le_rfl
      (.refl _) (suffix_refl _)
  | enqueueOther => exact closed.publish (by simp [PendingJob.registration?])
  | call realm function argument =>
    exact closed.callFunction realm function argument
  | finishThen realm promise onFulfilled onRejected capability =>
    exact closed.finishPromiseThen realm promise onFulfilled onRejected
      capability
  | internalThen realm promise fulfill reject capability =>
    exact closed.performPromiseThenInternal realm promise fulfill reject
      capability
  | executePendingJob => exact closed.executePendingJob
  | resume completion boundary => exact closed.resume completion boundary
  | unwind =>
    exact closed.modify fun runtime => of_ended rfl rfl rfl le_rfl
      (drop_sublist _ _) (suffix_refl _)

end

variable {runtime : Runtime}

theorem run (closed : Closed holds) (held : holds runtime) (command : Command) :
    holds (runtime.run command) :=
  closed.perform command runtime held

theorem runs (closed : Closed holds) (held : holds runtime)
    (commands : List Command) : holds (commands.foldl Runtime.run runtime) := by
  induction commands generalizing runtime with
  | nil => exact held
  | cons command _ ih => exact ih (closed.run held command)

end Closed

def Settled (origin runtime : Runtime) : Prop :=
  ∀ promise data, origin.promise? promise = some data →
    data.state ≠ .pending → ∃ later, runtime.promise? promise = some later ∧
      later.state = data.state ∧ later.result = data.result

namespace Settled

variable {before after : Runtime} {data update : PromiseData}

theorem refl : Settled origin origin :=
  fun _ data found _ => ⟨data, found, rfl, rfl⟩

theorem of_promises (settled : Settled origin before)
    (promises : ∀ promise data, before.promise? promise = some data →
      after.promise? promise = some data) : Settled origin after := by
  intro promise data found final
  obtain ⟨later, present, same⟩ := settled promise data found final
  exact ⟨later, promises promise later present, same⟩

theorem setPromise (settled : Settled origin before)
    (found : before.promise? promise = some data)
    (same : data.state ≠ .pending →
      update.state = data.state ∧ update.result = data.result) :
    Settled origin (before.setPromise promise update) := by
  intro id first present final
  obtain ⟨later, now, state, result⟩ := settled id first present final
  rw [Runtime.promise?_setPromise found]
  split
  next equal =>
    subst equal
    obtain rfl : later = data := Option.some.inj (now.symm.trans found)
    obtain ⟨sameState, sameResult⟩ := same (state ▸ final)
    exact ⟨update, rfl, sameState.trans state, sameResult.trans result⟩
  next => exact ⟨later, now, state, result⟩

theorem snapshot {rest : PromiseData → Running α}
    (keeps : ∀ runtime data, runtime.promise? promise = some data →
      holds runtime → holds (final (rest data) runtime)) :
    Keeps holds (promiseSnapshot promise >>= rest) := by
  intro runtime held
  cases found : runtime.promise? promise with
  | none =>
    rw [final_of_fails (fails_promiseSnapshot found).bind]
    exact held
  | some data =>
    rw [final_bind (succeeds_promiseSnapshot found)]
    exact keeps runtime data found held

theorem promiseAddReactions (fulfill reject : PromiseReaction) :
    Keeps (Settled origin) (promiseAddReactions promise fulfill reject) := by
  refine snapshot fun runtime data found settled => ?_
  by_cases misplaced : fulfill.kind ≠ .fulfill ∨ reject.kind ≠ .reject
  · simp only [if_pos misplaced]
    exact settled
  · simp only [if_neg misplaced]
    by_cases late : data.state ≠ .pending
    · simp only [if_pos late]
      exact settled
    · simp only [if_neg late]
      exact settled.setPromise found fun final => absurd final late

theorem promiseSettle (state : PromiseState) (result : JsValue) :
    Keeps (Settled origin) (promiseSettle promise state result) := by
  refine snapshot fun runtime data found settled => ?_
  by_cases pending : state = .pending
  · simp only [if_pos pending]
    exact settled
  · simp only [if_neg pending]
    by_cases late : data.state ≠ .pending
    · simp only [if_pos late]
      exact settled
    · simp only [if_neg late]
      exact settled.setPromise found fun final => absurd final late

theorem promiseMarkHandled :
    Keeps (Settled origin) (promiseMarkHandled promise) :=
  snapshot fun _ _ found settled => settled.setPromise found
    fun _ => ⟨rfl, rfl⟩

theorem modify (objects : ∀ runtime, (change runtime).objects = runtime.objects)
    : Keeps (Settled origin) (modify change : Running PUnit) :=
  keeps_modify fun runtime settled => settled.of_promises fun promise _ found =>
    (promise?_eq (objects runtime) promise).trans found

theorem publishPreparedJobs (jobs : List PendingJob) :
    Keeps (Settled origin) (publishPreparedJobs jobs) :=
  modify fun _ => rfl

theorem returnRegistration (registration : Registration) :
    Keeps (Settled origin) (returnRegistration registration) :=
  promiseMarkHandled.bind fun _ => modify fun _ => rfl

theorem answer (realm : ContextId) (reaction : PromiseReaction)
    (result : JsValue) (registration : Registration) :
    Keeps (Settled origin) (do
      enqueuePromiseReactionJob realm reaction result
      Promises.returnRegistration registration) :=
  (publishPreparedJobs _).bind fun _ => returnRegistration registration

theorem performPromiseThen (realm : ContextId)
    (fulfill reject : PromiseReaction) :
    Keeps (Settled origin) (performPromiseThen realm promise fulfill
      reject) := by
  refine keeps_attempt.bind fun data => ?_
  cases data.state with
  | pending =>
    exact (promiseAddReactions fulfill reject).bind
      fun _ => returnRegistration _
  | fulfilled => exact answer realm fulfill data.result _
  | rejected =>
    refine keeps_get fun runtime settled => ?_
    split
    · exact modify (fun _ => rfl) runtime settled
    · exact answer realm reject data.result _ runtime settled

theorem settlePromise (realm : ContextId) (state : PromiseState)
    (result : JsValue) :
    Keeps (Settled origin) (settlePromise realm promise state result) := by
  refine keeps_attempt.bind fun data => ?_
  by_cases late : data.state ≠ .pending
  · simp only [if_pos late]
    exact keeps_pure
  · simp only [if_neg late]
    have rest (jobs : List PendingJob) : Keeps (Settled origin) (do
        Promises.promiseSettle promise state result
        if state = .rejected ∧ data.isHandled = false ∧ (← get).tracker then
          suspend (.settling jobs)
        else
          Promises.publishPreparedJobs jobs) := by
      refine (promiseSettle state result).bind fun _ => ?_
      refine keeps_get fun runtime settled => ?_
      split
      · exact modify (fun _ => rfl) runtime settled
      · exact publishPreparedJobs jobs runtime settled
    cases state with
    | pending => exact keeps_throw
    | fulfilled | rejected => exact rest _

theorem closed : Closed (Settled origin) where
  quiet quiet settled := settled.of_promises quiet.promises
  settles realm promise state result _ := settlePromise realm state result
  registers runtime realm promise fulfill reject capability settled := by
    refine performPromiseThen realm _ _ _ ?_
    exact settled.of_promises fun _ _ found => found
  returns {runtime realm registration result rest} settled _ := by
    refine answer realm _ result registration _ ?_
    exact settled.of_promises fun _ _ found => found
  publishes settled _ := settled.of_promises fun _ _ found => found

end Settled

theorem sound_new : Sound .new where
  answered promise data found := by cases found
  listed promise data found := by cases found
  waits activation member := by cases member
  targets registration member := by cases member
  paired registration member := by cases member
  counted number member := by cases member
  distinct := nodup_nil
  known number member := by cases member
  queued := suffix_refl _

/-- The promise and the reactions of a `then` call. -/
def Command.reactions (runtime : Runtime) :
    Command → Option (ObjectId × PromiseReaction × PromiseReaction)
  | .finishThen _ promise onFulfilled onRejected capability =>
    let reaction kind handler := ⟨kind, handlerId runtime handler,
      some capability, runtime.registrations⟩
    some (promise, reaction .fulfill onFulfilled, reaction .reject onRejected)
  | .internalThen _ promise fulfill reject capability =>
    some (promise, ⟨.fulfill, fulfill, capability, runtime.registrations⟩,
      ⟨.reject, reject, capability, runtime.registrations⟩)
  | _ => none

section

variable {runtime after : Runtime} {fulfill reject : PromiseReaction}

end

end QuickJsOxide.Promises
