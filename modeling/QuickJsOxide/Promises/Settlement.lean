import QuickJsOxide.Promises.Accounts

namespace QuickJsOxide.Promises

open Library List Promises.Runtime

/-! How the accounts change when a promise settles and when a `then` call
returns. -/

section

variable {runtime : Runtime} {data : PromiseData}

def PromiseData.settled (data : PromiseData) (state : PromiseState)
    (result : JsValue) : PromiseData :=
  { data with state, result, fulfillReactions := [], rejectReactions := [] }

def settlementJobs (runtime : Runtime) (promise : ObjectId)
    (state : PromiseState) (realm : ContextId) (result : JsValue) :
    List PendingJob :=
  (runtime.registered promise).map fun registration =>
    .promiseReaction realm (registration.chosen state) result

def Runtime.afterSettlement (runtime : Runtime) (promise : ObjectId)
    (data : PromiseData) (state : PromiseState) (realm : ContextId)
    (result : JsValue) : Runtime :=
  { runtime.setPromise promise (data.settled state result) with
    pendingJobs := runtime.pendingJobs ++
      settlementJobs runtime promise state realm result
    published := runtime.published ++
      settlementJobs runtime promise state realm result }

variable {registration : Registration}

theorem Registration.number_chosen (paired : registration.fulfill.registration =
      registration.reject.registration) (state : PromiseState) :
    (registration.chosen state).registration = registration.number := by
  cases state with
  | pending | fulfilled => rfl
  | rejected => exact paired.symm

section

variable (sound : Sound runtime)

include sound

theorem Sound.settlementJobs_numbers :
    numbersOf (settlementJobs runtime promise state realm result) =
      (runtime.registered promise).map Registration.number := by
  rw [numbersOf, settlementJobs, filterMap_map, ← filterMap_eq_map]
  refine filterMap_congr fun registration member => ?_
  exact congrArg some (Registration.number_chosen
    (sound.paired _ (mem_registered.mp member).1) state)

theorem Sound.jobsOf_settlement_other (member : registration ∈ runtime.returned)
    (apart : registration.promise ≠ promise) : jobsOf registration.number
      (settlementJobs runtime promise state realm result) = [] := by
  rw [jobsOf_eq_nil, sound.settlementJobs_numbers]
  intro inside
  obtain ⟨_, listed, same⟩ := mem_map.mp inside
  obtain ⟨returned, rfl⟩ := mem_registered.mp listed
  exact sound.number_ne member returned apart same.symm

omit sound in
theorem filter_key_eq_singleton [DecidableEq α] {key : α → Nat}
    {values : List α} (distinct : (values.map key).Nodup)
    (member : value ∈ values) :
    values.filter (fun other => key other = key value) = [value] := by
  have same : ∀ other ∈ values,
      decide (key other = key value) = (other == value) := by
    intro other inside
    rw [Bool.eq_iff_iff, decide_eq_true_iff, beq_iff_eq]
    exact ⟨inj_on_of_nodup_map distinct inside member, congrArg key⟩
  rw [filter_congr same, filter_beq,
    count_eq_one_of_mem distinct.of_map member]
  rfl

theorem Sound.jobsOf_settlement
    (member : registration ∈ runtime.registered promise) :
    jobsOf registration.number
      (settlementJobs runtime promise state realm result) =
      [.promiseReaction realm (registration.chosen state) result] := by
  have distinct : ((runtime.registered promise).map
      Registration.number).Nodup :=
    sound.distinct_returned.sublist
      (filter_sublist.map Registration.number)
  rw [← map_singleton (f := fun registration : Registration =>
      PendingJob.promiseReaction realm (registration.chosen state) result),
    ← filter_key_eq_singleton distinct member, jobsOf, settlementJobs,
    filter_map]
  congr 1
  refine filter_congr fun other inside => ?_
  have number := Registration.number_chosen
    (sound.paired _ (mem_registered.mp inside).1) state
  simp [PendingJob.registration?, number]

theorem Sound.early_eq (found : runtime.promise? promise = some data)
    (pending : data.state = .pending) : runtime.early promise =
      (runtime.registered promise).map Registration.number := by
  have all : (runtime.registered promise).filter (·.whilePending) =
      runtime.registered promise :=
    filter_eq_self.mpr
      ((sound.listed promise data found).early pending)
  rw [early, all]

omit sound in
theorem filter_mem_append {front back kept : List Nat}
    (none : ∀ number ∈ kept, number ∉ front) (all : back = kept) :
    (front ++ back).filter (· ∈ kept) = kept := by
  have first : front.filter (· ∈ kept) = [] :=
    filter_eq_nil_iff.mpr fun number inside same =>
      none number (of_decide_eq_true same) inside
  have second : kept.filter (· ∈ kept) = kept :=
    filter_eq_self.mpr fun number inside => decide_eq_true inside
  rw [filter_append, first, all, second, nil_append]

theorem Sound.answered_settled (found : runtime.promise? promise = some data)
    (pending : data.state = .pending) (final : state ≠ .pending) :
    Answered (runtime.afterSettlement promise data state realm result) promise
      (data.settled state result) where
  unanswered still := absurd still final
  answered _ registration member := by
    refine ⟨realm, ?_⟩
    have none := (sound.answered promise data found).unanswered pending
      registration member
    rw [afterSettlement, jobsOf_append, none,
      sound.jobsOf_settlement member]
    rfl
  ordered _ := by
    rw [afterSettlement, numbersOf_append]
    refine filter_mem_append ?_ ?_
    · intro number early
      obtain ⟨registration, member, target, -, rfl⟩ :=
        mem_early.mp early
      exact jobsOf_eq_nil.mp ((sound.answered promise data found).unanswered
        pending registration (mem_registered.mpr ⟨member, target⟩))
    · rw [sound.settlementJobs_numbers]
      exact (sound.early_eq found pending).symm

theorem Sound.answered_other {id : ObjectId}
    (found : runtime.promise? id = some other) (apart : id ≠ promise) :
    Answered (runtime.afterSettlement promise data state realm result) id
      other := by
  have answered := sound.answered id other found
  have same {registration : Registration}
      (member : registration ∈ runtime.registered id) :
      jobsOf registration.number (runtime.published ++
        settlementJobs runtime promise state realm result) =
      jobsOf registration.number runtime.published := by
    obtain ⟨returned, rfl⟩ := mem_registered.mp member
    rw [jobsOf_append, sound.jobsOf_settlement_other returned apart, append_nil]
  refine ⟨fun pending registration member => ?_,
    fun settled registration member => ?_, fun settled => ?_⟩
  · exact (same member).trans (answered.unanswered pending _ member)
  · obtain ⟨realm, job⟩ := answered.answered settled registration member
    exact ⟨realm, (same member).trans job⟩
  · have none : (numbersOf (settlementJobs runtime promise state realm
        result)).filter (· ∈ runtime.early id) = [] := by
      refine filter_eq_nil_iff.mpr fun number inside kept => ?_
      obtain ⟨_, member, rfl, -, rfl⟩ :=
        mem_early.mp (of_decide_eq_true kept)
      exact jobsOf_eq_nil.mp
        (sound.jobsOf_settlement_other member apart) inside
    rw [afterSettlement, numbersOf_append, filter_append]
    refine (congrArg₂ (· ++ ·) (answered.ordered settled) none).trans ?_
    exact append_nil _

theorem Sound.settle (realm : ContextId) (result : JsValue)
    (found : runtime.promise? promise = some data)
    (pending : data.state = .pending) (final : state ≠ .pending) :
    Sound (runtime.afterSettlement promise data state realm result) := by
  have lookup (id : ObjectId) :
      (runtime.afterSettlement promise data state realm result).promise? id =
        if id = promise then some (data.settled state result)
        else runtime.promise? id :=
    promise?_setPromise found _ id
  refine ⟨fun id other seen => ?_, fun id other seen => ?_,
    fun activation member => ?_, fun registration member => ?_, sound.paired,
    sound.counted, sound.distinct, fun number member => ?_, ?_⟩
  · rw [lookup] at seen
    split at seen
    · rename_i same
      subst same
      cases seen
      exact sound.answered_settled found pending final
    · rename_i apart
      exact sound.answered_other seen apart
  · rw [lookup] at seen
    split at seen
    · rename_i same
      subst same
      cases seen
      exact ⟨fun still => absurd still final, fun still => absurd still final,
        fun still => absurd still final,
        (sound.listed id data found).handled⟩
    · exact ⟨(sound.listed id other seen).fulfill,
        (sound.listed id other seen).reject,
        (sound.listed id other seen).early,
        (sound.listed id other seen).handled⟩
  · have waits := sound.waits activation member
    cases activation with
    | registering =>
      obtain ⟨late, paired, other, seen, rejected, same⟩ := waits
      refine ⟨late, paired, other, ?_, rejected, same⟩
      rw [lookup, if_neg]
      · exact seen
      · intro target
        rw [target, found] at seen
        cases seen
        rw [pending] at rejected
        cases rejected
    | settling => exact waits
    | resolveThen | reaction | thenable | call => trivial
  · rw [lookup]
    split
    · rfl
    · exact sound.targets registration member
  · rw [afterSettlement, numbersOf_append, mem_append] at member
    rcases member with old | new
    · exact sound.known number old
    · rw [sound.settlementJobs_numbers] at new
      obtain ⟨_, listed, rfl⟩ := mem_map.mp new
      exact mem_map_of_mem (mem_registered.mp listed).1
  · obtain ⟨executed, same⟩ := sound.queued
    refine ⟨executed, ?_⟩
    rw [afterSettlement, ← same, append_assoc]

end

end

section

variable {runtime : Runtime} {registration : Registration}
  {data changed : PromiseData}

/-- The runtime after a `then` call that returned; `jobs` is the job of a
promise that had settled already. -/
def Runtime.afterRegistration (runtime : Runtime)
    (registration : Registration) (changed : PromiseData)
    (jobs : List PendingJob) : Runtime :=
  { runtime.setPromise registration.promise changed with
    pendingJobs := runtime.pendingJobs ++ jobs
    published := runtime.published ++ jobs
    returned := runtime.returned ++ [registration] }

theorem registered_afterRegistration (promise : ObjectId) :
    (runtime.afterRegistration registration changed jobs).registered promise =
      runtime.registered promise ++
        if registration.promise = promise then [registration] else [] := by
  rw [registered, afterRegistration, filter_append]
  congr 1
  by_cases same : registration.promise = promise
  · simp [same]
  · simp [same]

variable {other : PromiseData} {id : ObjectId}

theorem Sound.listed_other (sound : Sound runtime)
    (found : runtime.promise? id = some other)
    (apart : id ≠ registration.promise) :
    Listed (runtime.afterRegistration registration changed jobs) id other := by
  have listed := sound.listed id other found
  constructor <;>
    rw [registered_afterRegistration, if_neg (Ne.symm apart), append_nil]
  · exact listed.fulfill
  · exact listed.reject
  · exact listed.early
  · exact listed.handled

structure Joins (runtime : Runtime) (registration : Registration)
    (data changed : PromiseData) (jobs : List PendingJob) : Prop where
  found : runtime.promise? registration.promise = some data
  fresh : registration.number ∉ runtime.numbers
  counted : registration.number < runtime.registrations
  paired :
    registration.fulfill.registration = registration.reject.registration
  state : changed.state = data.state
  result : changed.result = data.result
  handled : changed.isHandled = true
  pending : data.state = .pending → jobs = [] ∧
    registration.whilePending = true ∧
    changed.fulfillReactions = data.fulfillReactions ++
      [registration.fulfill] ∧
    changed.rejectReactions = data.rejectReactions ++ [registration.reject]
  settled : data.state ≠ .pending → registration.whilePending = false ∧
    ∃ realm, jobs = [.promiseReaction realm (registration.chosen data.state)
      data.result]

namespace Joins

variable (joins : Joins runtime registration data changed jobs)

include joins

theorem numbers (number : Nat) (member : number ∈ numbersOf jobs) :
    number = registration.number := by
  by_cases pending : data.state = .pending
  · rw [(joins.pending pending).1] at member
    cases member
  · obtain ⟨-, realm, rfl⟩ := joins.settled pending
    have same := Registration.number_chosen joins.paired data.state
    simpa [numbersOf, PendingJob.registration?, same] using member

theorem fresh_returned :
    registration.number ∉ runtime.returned.map Registration.number :=
  fun member => joins.fresh (mem_append_left _ member)

theorem jobsOf_other
    (member : earlier ∈ runtime.registered id) : jobsOf earlier.number
        (runtime.afterRegistration registration changed jobs).published =
      jobsOf earlier.number runtime.published := by
  have none : jobsOf earlier.number jobs = [] := by
    refine jobsOf_eq_nil.mpr fun inside => ?_
    have known := mem_map_of_mem (f := Registration.number)
      (mem_registered.mp member).1
    rw [joins.numbers _ inside] at known
    exact joins.fresh_returned known
  rw [afterRegistration, jobsOf_append, none, append_nil]

theorem lookup (id : ObjectId) :
    (runtime.afterRegistration registration changed jobs).promise? id =
      if id = registration.promise then some changed
      else runtime.promise? id :=
  promise?_setPromise joins.found _ id

theorem ordered (answered : Answered runtime id other)
    (settled : other.state ≠ .pending)
    (early : (runtime.afterRegistration registration changed jobs).early id =
      runtime.early id) : (numbersOf (runtime.published ++ jobs)).filter (· ∈
      (runtime.afterRegistration registration changed jobs).early id) =
      (runtime.afterRegistration registration changed jobs).early id := by
  have none : (numbersOf jobs).filter (· ∈ runtime.early id) = [] := by
    refine filter_eq_nil_iff.mpr fun number inside kept => ?_
    obtain ⟨_, member, -, -, same⟩ :=
      mem_early.mp (of_decide_eq_true kept)
    rw [joins.numbers number inside] at same
    exact joins.fresh_returned (same ▸ mem_map_of_mem member)
  rw [early, numbersOf_append, filter_append, answered.ordered settled,
    none, append_nil]

theorem answered_self (sound : Sound runtime) :
    Answered (runtime.afterRegistration registration changed jobs)
      registration.promise changed := by
  have answered := sound.answered _ _ joins.found
  have fresh := sound.jobsOf_fresh joins.fresh_returned
  have registered : (runtime.afterRegistration registration changed
      jobs).registered registration.promise =
      runtime.registered registration.promise ++ [registration] := by
    rw [registered_afterRegistration, if_pos rfl]
  have published : (runtime.afterRegistration registration changed
    jobs).published = runtime.published ++ jobs := rfl
  refine ⟨fun pending other member => ?_, fun settled other member => ?_,
    fun settled => ?_⟩
  · rw [joins.state] at pending
    rw [registered, mem_append] at member
    rcases member with old | new
    · rw [joins.jobsOf_other old]
      exact answered.unanswered pending other old
    · rw [mem_singleton.mp new, published, (joins.pending pending).1,
        append_nil]
      exact fresh
  · rw [joins.state] at settled
    rw [joins.state, joins.result]
    rw [registered, mem_append] at member
    rcases member with old | new
    · rw [joins.jobsOf_other old]
      exact answered.answered settled other old
    · obtain ⟨-, realm, same⟩ := joins.settled settled
      refine ⟨realm, ?_⟩
      rw [mem_singleton.mp new, published, jobsOf_append, fresh,
        nil_append, same]
      simp [jobsOf, PendingJob.registration?,
        Registration.number_chosen joins.paired]
  · rw [joins.state] at settled
    refine joins.ordered answered settled ?_
    rw [early, registered, filter_append]
    simp [(joins.settled settled).1, early]

theorem answered_other (sound : Sound runtime)
    (found : runtime.promise? id = some other)
    (apart : id ≠ registration.promise) :
    Answered (runtime.afterRegistration registration changed jobs) id
      other := by
  have answered := sound.answered id other found
  have registered : (runtime.afterRegistration registration changed
      jobs).registered id = runtime.registered id := by
    rw [registered_afterRegistration, if_neg (Ne.symm apart), append_nil]
  refine ⟨fun pending listed member => ?_, fun settled listed member => ?_,
    fun settled => ?_⟩
  · rw [registered] at member
    rw [joins.jobsOf_other member]
    exact answered.unanswered pending listed member
  · rw [registered] at member
    rw [joins.jobsOf_other member]
    exact answered.answered settled listed member
  · refine joins.ordered answered settled ?_
    rw [early, registered]
    rfl

theorem listed_self (sound : Sound runtime) :
    Listed (runtime.afterRegistration registration changed jobs)
      registration.promise changed := by
  have listed := sound.listed _ _ joins.found
  have state := joins.state
  constructor <;> rw [registered_afterRegistration, if_pos rfl]
  · intro pending
    rw [state] at pending
    rw [(joins.pending pending).2.2.1, listed.fulfill pending, map_append]
    rfl
  · intro pending
    rw [state] at pending
    rw [(joins.pending pending).2.2.2, listed.reject pending, map_append]
    rfl
  · intro pending other member
    rw [state] at pending
    rcases mem_append.mp member with old | new
    · exact listed.early pending other old
    · rw [mem_singleton.mp new]
      exact (joins.pending pending).2.1
  · intro unhandled
    rw [joins.handled] at unhandled
    cases unhandled

theorem sound (sound : Sound runtime) :
    Sound (runtime.afterRegistration registration changed jobs) := by
  have numbers : (runtime.afterRegistration registration changed
      jobs).numbers.Perm (registration.number :: runtime.numbers) := by
    rw [Runtime.numbers, Runtime.afterRegistration, map_append, append_assoc]
    exact perm_middle
  refine ⟨fun id other seen => ?_, fun id other seen => ?_,
    fun activation member => ?_, fun other member => ?_,
    fun other member => ?_, fun number member => ?_, ?_,
    fun number member => ?_, ?_⟩
  · rw [joins.lookup] at seen
    split at seen
    · rename_i same
      subst same
      cases seen
      exact joins.answered_self sound
    · rename_i apart
      exact joins.answered_other sound seen apart
  · rw [joins.lookup] at seen
    split at seen
    · rename_i same
      subst same
      cases seen
      exact joins.listed_self sound
    · rename_i apart
      exact sound.listed_other seen apart
  · have waits := sound.waits activation member
    cases activation with
    | registering _ waiting result =>
      obtain ⟨late, paired, other, seen, rejected, same⟩ := waits
      by_cases target : waiting.promise = registration.promise
      · rw [target, joins.found] at seen
        cases seen
        refine ⟨late, paired, changed, ?_, joins.state.trans rejected,
          joins.result.trans same⟩
        rw [joins.lookup, if_pos target]
      · refine ⟨late, paired, other, ?_, rejected, same⟩
        rw [joins.lookup, if_neg target, seen]
    | settling => exact waits
    | resolveThen | reaction | thenable | call => trivial
  · rw [joins.lookup]
    split
    · rfl
    · rename_i apart
      rcases mem_append.mp member with old | new
      · exact sound.targets other old
      · exact absurd (congrArg Registration.promise
          (mem_singleton.mp new)) apart
  · rcases mem_append.mp member with old | new
    · exact sound.paired other old
    · rw [mem_singleton.mp new]
      exact joins.paired
  · have inside := numbers.mem_iff.mp member
    rcases mem_cons.mp inside with rfl | old
    · exact joins.counted
    · exact sound.counted number old
  · exact numbers.nodup_iff.mpr
      (nodup_cons.mpr ⟨joins.fresh, sound.distinct⟩)
  · rw [Runtime.afterRegistration, map_append, mem_append]
    rw [Runtime.afterRegistration, numbersOf_append, mem_append] at member
    rcases member with old | new
    · exact .inl (sound.known number old)
    · right
      rw [joins.numbers number new]
      exact mem_singleton_self _
  · obtain ⟨executed, same⟩ := sound.queued
    refine ⟨executed, ?_⟩
    rw [Runtime.afterRegistration, ← same, append_assoc]

end Joins

end

end QuickJsOxide.Promises
