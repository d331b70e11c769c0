import QuickJsOxide.Promises.Settlement

namespace QuickJsOxide.Promises

open Library List

/-! What the operations do to the runtime. -/

section

variable {runtime : Runtime} {data : PromiseData}

section

variable (found : runtime.promise? promise = some data)

include found

theorem succeeds_promiseSnapshot :
    Succeeds (promiseSnapshot promise) runtime data runtime := by
  simp [Succeeds, promiseSnapshot, attempt, found]

omit found in
theorem fails_promiseSnapshot (absent : runtime.promise? promise = none) :
    Fails (promiseSnapshot promise) runtime (.invariant
      "Promise snapshot reached an object with the wrong class") runtime := by
  simp [Fails, promiseSnapshot, attempt, absent]

theorem succeeds_promiseSettle (pending : data.state = .pending)
    (settles : state ≠ .pending) :
    Succeeds (promiseSettle promise state result) runtime ⟨⟩
      (runtime.setPromise promise (data.settled state result)) := by
  refine (succeeds_promiseSnapshot found).bind ?_
  rw [if_neg settles]
  simp only [pending, ne_eq, not_true_eq_false, if_false]
  exact succeeds_modify _

omit found in
def PromiseData.selected (data : PromiseData) :
    PromiseState → List PromiseReaction
  | .rejected => data.rejectReactions
  | _ => data.fulfillReactions

omit found in
def PromiseData.prepared (data : PromiseData) (state : PromiseState)
    (realm : ContextId) (result : JsValue) : List PendingJob :=
  (data.selected state).map fun reaction => .promiseReaction realm reaction result

theorem succeeds_settlePromise_settled (settled : data.state ≠ .pending) :
    Succeeds (settlePromise realm promise state result) runtime () runtime := by
  refine (succeeds_promiseSnapshot found).bind ?_
  simp only [ne_eq, settled, not_false_eq_true, if_true]
  exact succeeds_pure

theorem succeeds_settlePromise (pending : data.state = .pending)
    (settles : state ≠ .pending) :
    Succeeds (settlePromise realm promise state result) runtime ()
      (if state = .rejected ∧ data.isHandled = false ∧ runtime.tracker then
        { runtime.setPromise promise (data.settled state result) with
          activations := .settling (data.prepared state realm result) ::
            runtime.activations }
      else
        { runtime.setPromise promise (data.settled state result) with
          pendingJobs := runtime.pendingJobs ++
            data.prepared state realm result
          published := runtime.published ++
            data.prepared state realm result }) := by
  refine (succeeds_promiseSnapshot found).bind ?_
  simp only [pending, ne_eq, not_true_eq_false, if_false]
  have published (jobs : List PendingJob) :
      Succeeds (do
        promiseSettle promise state result
        if state = .rejected ∧ data.isHandled = false ∧ (← get).tracker then
          suspend (.settling jobs)
        else
          publishPreparedJobs jobs) runtime ()
        (if state = .rejected ∧ data.isHandled = false ∧ runtime.tracker then
          { runtime.setPromise promise (data.settled state result) with
            activations := .settling jobs :: runtime.activations }
        else
          { runtime.setPromise promise (data.settled state result) with
            pendingJobs := runtime.pendingJobs ++ jobs
            published := runtime.published ++ jobs }) := by
    refine (succeeds_promiseSettle found pending settles).bind
      (succeeds_get.bind ?_)
    by_cases unhandled : state = .rejected ∧ data.isHandled = false ∧
        runtime.tracker = true
    · rw [if_pos unhandled, if_pos (by exact unhandled)]
      exact succeeds_modify _
    · rw [if_neg unhandled, if_neg (by exact unhandled)]
      exact succeeds_modify _
  cases state with
  | pending => exact absurd rfl settles
  | fulfilled | rejected => exact published _

end

theorem Sound.prepared_eq (sound : Sound runtime)
    (found : runtime.promise? promise = some data)
    (pending : data.state = .pending) (settles : state ≠ .pending) :
    data.prepared state realm result =
      settlementJobs runtime promise state realm result := by
  have listed := sound.listed promise data found
  cases state with
  | pending => exact absurd rfl settles
  | fulfilled =>
    rw [PromiseData.prepared, PromiseData.selected, listed.fulfill pending,
      map_map]
    · rfl
    · simp
  | rejected =>
    rw [PromiseData.prepared, PromiseData.selected, listed.reject pending,
      map_map]
    rfl

theorem Sound.settlePromise (settles : state ≠ .pending) :
    Keeps Sound (settlePromise realm promise state result) := by
  intro runtime sound
  cases found : runtime.promise? promise with
  | none =>
    have fails : Fails (Promises.settlePromise realm promise state result)
        runtime _ runtime := (fails_promiseSnapshot found).bind
    rw [final_of_fails fails]
    exact sound
  | some data =>
    by_cases pending : data.state = .pending
    · have settled := sound.settle realm result found pending settles
      rw [final_of_succeeds (succeeds_settlePromise found pending settles),
        sound.prepared_eq found pending settles]
      split
      · rename_i unhandled
        -- nobody has called `then`, so no job waits for the tracker
        have none : settlementJobs runtime promise state realm result =
            [] := by
          rw [settlementJobs, (sound.listed promise data found).handled
            unhandled.2.1, map_nil]
        rw [Runtime.afterSettlement, none, append_nil, append_nil] at settled
        rw [none]
        exact Quiet.sound (Quiet.of_suspended ⟨rfl, rfl⟩) settled
      · exact settled
    · rw [final_of_succeeds (succeeds_settlePromise_settled found pending)]
      exact sound

theorem succeeds_promiseMarkHandled
    (found : runtime.promise? promise = some data) :
    Succeeds (promiseMarkHandled promise) runtime ⟨⟩
      (runtime.setPromise promise { data with isHandled := true }) :=
  (succeeds_promiseSnapshot found).bind (succeeds_modify _)

theorem Runtime.setPromise_setPromise (first second : PromiseData) :
    (runtime.setPromise promise first).setPromise promise second =
      runtime.setPromise promise second := by
  simp [Runtime.setPromise]

theorem succeeds_answer (realm : ContextId) (registration : Registration)
    (reaction : PromiseReaction) (result : JsValue)
    (found : runtime.promise? registration.promise = some data) :
    Succeeds (do
      enqueuePromiseReactionJob realm reaction result
      returnRegistration registration) runtime ()
      (runtime.afterRegistration registration { data with isHandled := true }
        [.promiseReaction realm reaction result]) := by
  refine (succeeds_modify _).bind ?_
  exact (succeeds_promiseMarkHandled (by exact found)).bind (succeeds_modify _)

section

variable {fulfill reject : PromiseReaction}

section

variable (found : runtime.promise? promise = some data)

include found

theorem succeeds_performPromiseThen_pending (pending : data.state = .pending)
    (first : fulfill.kind = .fulfill) (second : reject.kind = .reject) :
    Succeeds (performPromiseThen realm promise fulfill reject) runtime ()
      (runtime.afterRegistration ⟨promise, fulfill, reject, true⟩ { data with
          fulfillReactions := data.fulfillReactions ++ [fulfill]
          rejectReactions := data.rejectReactions ++ [reject]
          isHandled := true } []) := by
  have added : Succeeds (promiseAddReactions promise fulfill reject) runtime ⟨⟩
      (runtime.setPromise promise { data with
        fulfillReactions := data.fulfillReactions ++ [fulfill]
        rejectReactions := data.rejectReactions ++ [reject] }) := by
    refine (succeeds_promiseSnapshot found).bind ?_
    simp only [first, second, pending, ne_eq, not_true_eq_false, or_self,
      if_false]
    exact succeeds_modify _
  refine (succeeds_promiseSnapshot found).bind ?_
  simp only [pending]
  refine added.bind ?_
  have marked := succeeds_promiseMarkHandled
    (Runtime.promise?_setPromise_self found { data with
      fulfillReactions := data.fulfillReactions ++ [fulfill]
      rejectReactions := data.rejectReactions ++ [reject] })
  rw [Runtime.setPromise_setPromise] at marked
  refine Succeeds.of_eq (marked.bind (succeeds_modify _)) rfl ?_
  simp only [Runtime.afterRegistration, append_nil]
  rw [pending]
  rfl

theorem succeeds_performPromiseThen_fulfilled
    (fulfilled : data.state = .fulfilled) :
    Succeeds (performPromiseThen realm promise fulfill reject) runtime ()
      (runtime.afterRegistration ⟨promise, fulfill, reject, false⟩
        { data with isHandled := true }
        [.promiseReaction realm fulfill data.result]) := by
  have answer := succeeds_answer realm ⟨promise, fulfill, reject, false⟩ fulfill
    data.result found
  refine (succeeds_promiseSnapshot found).bind ?_
  simp only [fulfilled] at answer ⊢
  exact answer

theorem succeeds_performPromiseThen_rejected (rejected : data.state = .rejected)
    (handled : ¬ (data.isHandled = false ∧ runtime.tracker = true)) :
    Succeeds (performPromiseThen realm promise fulfill reject) runtime ()
      (runtime.afterRegistration ⟨promise, fulfill, reject, false⟩
        { data with isHandled := true }
        [.promiseReaction realm reject data.result]) := by
  have answer := succeeds_answer realm ⟨promise, fulfill, reject, false⟩ reject
    data.result found
  refine (succeeds_promiseSnapshot found).bind ?_
  simp only [rejected] at answer ⊢
  refine succeeds_get.bind ?_
  rw [if_neg handled]
  exact answer

theorem succeeds_performPromiseThen_awaited (rejected : data.state = .rejected)
    (unhandled : data.isHandled = false ∧ runtime.tracker = true) :
    Succeeds (performPromiseThen realm promise fulfill reject) runtime ()
      { runtime with
        activations := .registering realm ⟨promise, fulfill, reject, false⟩
          data.result :: runtime.activations } := by
  refine (succeeds_promiseSnapshot found).bind ?_
  simp only [rejected]
  refine succeeds_get.bind ?_
  rw [if_pos unhandled]
  exact succeeds_modify _

end

end

theorem Sound.number_lt (sound : Sound runtime) :
    runtime.registrations ∉ runtime.numbers :=
  fun member => absurd (sound.counted _ member) (lt_irrefl _)

def Runtime.counted (runtime : Runtime) : Runtime :=
  { runtime with registrations := runtime.registrations + 1 }

theorem Sound.count (sound : Sound runtime) : Sound runtime.counted := by
  have quiet : Quiet runtime runtime.counted :=
    Quiet.of_ended rfl rfl rfl (Nat.le_succ _) (.refl _) (suffix_refl _)
  exact quiet.sound sound

variable {registration : Registration}

theorem Sound.await (sound : Sound runtime)
    (fresh : registration.number ∉ runtime.numbers)
    (counted : registration.number < runtime.registrations)
    (waits : (Activation.registering realm registration result).Waits runtime) :
    Sound { runtime with
      activations :=
        .registering realm registration result :: runtime.activations } := by
  have numbers : ({ runtime with
      activations :=
        .registering realm registration result :: runtime.activations } :
      Runtime).numbers.Perm (registration.number :: runtime.numbers) :=
    perm_middle
  refine ⟨fun id other seen => ?_, fun id other seen => ?_,
    fun activation member => ?_, sound.targets, sound.paired,
    fun number member => ?_, ?_, sound.known, sound.queued⟩
  · have answered := sound.answered id other seen
    exact ⟨answered.unanswered, answered.answered, answered.ordered⟩
  · have listed := sound.listed id other seen
    exact ⟨listed.fulfill, listed.reject, listed.early, listed.handled⟩
  · rcases mem_cons.mp member with rfl | old
    · exact waits
    · exact sound.waits activation old
  · rcases mem_cons.mp (numbers.mem_iff.mp member) with rfl | old
    · exact counted
    · exact sound.counted number old
  · exact numbers.nodup_iff.mpr (nodup_cons.mpr ⟨fresh, sound.distinct⟩)

theorem Sound.register (sound : Sound runtime) (realm : ContextId)
    (promise : ObjectId) (fulfill reject : Option ObjectId)
    (capability : Option PromiseCapabilityData) :
    Sound (final (performPromiseThen realm promise
      ⟨.fulfill, fulfill, capability, runtime.registrations⟩
      ⟨.reject, reject, capability, runtime.registrations⟩)
      runtime.counted) := by
  have counted := sound.count
  have fresh : runtime.registrations ∉ runtime.counted.numbers :=
    sound.number_lt
  cases found : runtime.counted.promise? promise with
  | none =>
    have fails : Fails (performPromiseThen realm promise
        ⟨.fulfill, fulfill, capability, runtime.registrations⟩
        ⟨.reject, reject, capability, runtime.registrations⟩)
        runtime.counted _ runtime.counted :=
      (fails_promiseSnapshot found).bind
    rw [final_of_fails fails]
    exact counted
  | some data =>
    cases state : data.state with
    | pending =>
      rw [final_of_succeeds (succeeds_performPromiseThen_pending found
        state rfl rfl)]
      refine Joins.sound ⟨found, fresh, Nat.lt_succ_self _, rfl, rfl, rfl,
        rfl, fun _ => ⟨rfl, rfl, rfl, rfl⟩, fun settled => ?_⟩ counted
      exact absurd state settled
    | fulfilled =>
      rw [final_of_succeeds (succeeds_performPromiseThen_fulfilled found
        state)]
      refine Joins.sound ⟨found, fresh, Nat.lt_succ_self _, rfl, rfl, rfl,
        rfl, fun pending => ?_, fun settled => ⟨rfl, realm, ?_⟩⟩ counted
      · rw [state] at pending
        cases pending
      · rw [state]
        rfl
    | rejected =>
      by_cases unhandled : data.isHandled = false ∧
          runtime.counted.tracker = true
      · rw [final_of_succeeds (succeeds_performPromiseThen_awaited found
          state unhandled)]
        exact counted.await fresh (Nat.lt_succ_self _)
          ⟨rfl, rfl, data, found, state, rfl⟩
      · rw [final_of_succeeds (succeeds_performPromiseThen_rejected found
          state unhandled)]
        refine Joins.sound ⟨found, fresh, Nat.lt_succ_self _, rfl, rfl,
          rfl, rfl, fun pending => ?_, fun settled => ⟨rfl, realm, ?_⟩⟩
          counted
        · rw [state] at pending
          cases pending
        · rw [state]
          rfl

theorem Sound.return (sound : Sound runtime) (waiting : runtime.activations =
      .registering realm registration result :: rest) :
    Sound (final (do
      enqueuePromiseReactionJob realm registration.reject result
      returnRegistration registration)
      { runtime with activations := rest }) := by
  have quiet : Quiet runtime { runtime with activations := rest } := by
    refine Quiet.of_ended rfl rfl rfl le_rfl ?_ (suffix_refl _)
    rw [waiting]
    exact sublist_cons_self ..
  obtain ⟨late, paired, data, found, rejected, same⟩ :=
    sound.waits (.registering realm registration result) (by simp [waiting])
  have numbers : runtime.numbers.Perm (registration.number ::
      Runtime.numbers { runtime with activations := rest }) := by
    rw [Runtime.numbers, waiting]
    exact perm_middle
  have distinct := numbers.nodup_iff.mp sound.distinct
  rw [final_of_succeeds (succeeds_answer realm registration registration.reject
    result (quiet.promises _ _ found))]
  refine Joins.sound ⟨quiet.promises _ _ found, (nodup_cons.mp distinct).1,
    sound.counted _ (numbers.mem_iff.mpr (mem_cons_self ..)), paired, rfl,
    rfl, rfl, fun pending => ?_, fun settled => ⟨late, realm, ?_⟩⟩
    (quiet.sound sound)
  · rw [rejected] at pending
    cases pending
  · rw [rejected, same]
    rfl

end

end QuickJsOxide.Promises
