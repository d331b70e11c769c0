import Mathlib.Data.List.Nodup
import Mathlib.Data.List.Sublists
import QuickJsOxide.Promises.Reactions

namespace QuickJsOxide.Promises

open Library List

/-! Every `then` that returned is answered by exactly one job once its promise
has settled. The reason no job is lost when a tracker unwinds is that the
tracker is told of a settlement only while nobody has called `then`. -/

def PendingJob.registration? : PendingJob → Option Nat
  | .promiseReaction _ reaction _ => some reaction.registration
  | _ => none

def numbersOf (jobs : List PendingJob) : List Nat :=
  jobs.filterMap PendingJob.registration?

def jobsOf (number : Nat) (jobs : List PendingJob) : List PendingJob :=
  jobs.filter fun job => job.registration? = some number

def Registration.chosen (registration : Registration) :
    PromiseState → PromiseReaction
  | .rejected => registration.reject
  | _ => registration.fulfill

def Runtime.registered (runtime : Runtime) (promise : ObjectId) :
    List Registration :=
  runtime.returned.filter (·.promise = promise)

def Runtime.early (runtime : Runtime) (promise : ObjectId) : List Nat :=
  ((runtime.registered promise).filter (·.whilePending)).map
    Registration.number

structure Answered (runtime : Runtime) (promise : ObjectId)
    (data : PromiseData) : Prop where
  unanswered : data.state = .pending →
    ∀ registration ∈ runtime.registered promise,
      jobsOf registration.number runtime.published = []
  answered : data.state ≠ .pending →
    ∀ registration ∈ runtime.registered promise, ∃ realm,
      jobsOf registration.number runtime.published =
        [.promiseReaction realm (registration.chosen data.state) data.result]
  ordered : data.state ≠ .pending →
    (numbersOf runtime.published).filter (· ∈ runtime.early promise) =
      runtime.early promise

structure Listed (runtime : Runtime) (promise : ObjectId)
    (data : PromiseData) : Prop where
  fulfill : data.state = .pending → data.fulfillReactions =
    (runtime.registered promise).map Registration.fulfill
  reject : data.state = .pending → data.rejectReactions =
    (runtime.registered promise).map Registration.reject
  early : data.state = .pending →
    ∀ registration ∈ runtime.registered promise,
      registration.whilePending = true
  handled : data.isHandled = false → runtime.registered promise = []

def Activation.Waits (runtime : Runtime) : Activation → Prop
  | .settling jobs => jobs = []
  | .registering _ registration result =>
    registration.whilePending = false ∧
    registration.fulfill.registration = registration.reject.registration ∧
    ∃ data, runtime.promise? registration.promise = some data ∧
      data.state = .rejected ∧ data.result = result
  | _ => True

def Activation.number? : Activation → Option Nat
  | .registering _ registration _ => some registration.number
  | _ => none

def Runtime.numbers (runtime : Runtime) : List Nat :=
  runtime.returned.map Registration.number ++
    runtime.activations.filterMap Activation.number?

structure Sound (runtime : Runtime) : Prop where
  answered : ∀ promise data, runtime.promise? promise = some data →
    Answered runtime promise data
  listed : ∀ promise data, runtime.promise? promise = some data →
    Listed runtime promise data
  waits : ∀ activation ∈ runtime.activations, activation.Waits runtime
  targets : ∀ registration ∈ runtime.returned,
    (runtime.promise? registration.promise).isSome
  paired : ∀ registration ∈ runtime.returned,
    registration.fulfill.registration = registration.reject.registration
  counted : ∀ number ∈ runtime.numbers, number < runtime.registrations
  distinct : runtime.numbers.Nodup
  known : ∀ number ∈ numbersOf runtime.published,
    number ∈ runtime.returned.map Registration.number
  queued : runtime.pendingJobs <:+ runtime.published

theorem Sound.unregistered (sound : Sound runtime)
    (absent : runtime.promise? promise = none) :
    runtime.registered promise = [] := by
  refine filter_eq_nil_iff.mpr fun registration member same => ?_
  have present := sound.targets registration member
  rw [of_decide_eq_true same, absent] at present
  cases present

/-- Objects are added, activations end or begin, jobs are taken; no promise, no
`then` call and no published job changes. -/
structure Quiet (before after : Runtime) : Prop where
  promises : ∀ promise data, before.promise? promise = some data →
    after.promise? promise = some data
  created : ∀ promise data, after.promise? promise = some data →
    before.promise? promise = some data ∨
      before.promise? promise = none ∧ data = .new
  returned : after.returned = before.returned
  published : ∃ others, after.published = before.published ++ others ∧
    ∀ job ∈ others, job.registration? = none
  later : before.registrations ≤ after.registrations
  activations : ∀ activation ∈ after.activations,
    activation ∈ before.activations ∨ activation.number? = none ∧
      activation.Waits after
  numbers : (after.activations.filterMap Activation.number?).Sublist
    (before.activations.filterMap Activation.number?)
  queued : before.pendingJobs <:+ before.published →
    after.pendingJobs <:+ after.published

namespace Quiet

variable {before after : Runtime}

section

variable (quiet : Quiet before after)

include quiet

theorem registered (promise : ObjectId) :
    after.registered promise = before.registered promise := by
  rw [Runtime.registered, quiet.returned, Runtime.registered]

theorem early (promise : ObjectId) :
    after.early promise = before.early promise := by
  rw [Runtime.early, quiet.registered, Runtime.early]

theorem jobsOf (number : Nat) :
    jobsOf number after.published = Promises.jobsOf number before.published := by
  obtain ⟨others, published, unnumbered⟩ := quiet.published
  have none : Promises.jobsOf number others = [] := by
    refine filter_eq_nil_iff.mpr fun job member => ?_
    simp [unnumbered job member]
  rw [published, Promises.jobsOf, filter_append]
  rw [Promises.jobsOf] at none
  rw [none, append_nil]
  rfl

theorem published_numbers :
    numbersOf after.published = numbersOf before.published := by
  obtain ⟨_, published, unnumbered⟩ := quiet.published
  rw [published, numbersOf, filterMap_append,
    filterMap_eq_nil_iff.mpr unnumbered, append_nil]
  rfl

variable {activation : Activation}

theorem waits (waits : activation.Waits before) : activation.Waits after := by
  cases activation with
  | registering =>
    obtain ⟨late, paired, data, found, rejected, same⟩ := waits
    exact ⟨late, paired, data, quiet.promises _ _ found, rejected, same⟩
  | settling => exact waits
  | resolveThen | reaction | thenable | call => trivial

theorem answered (answered : Answered before promise data) :
    Answered after promise data where
  unanswered pending registration member := by
    rw [quiet.registered] at member
    rw [quiet.jobsOf]
    exact answered.unanswered pending registration member
  answered settled registration member := by
    rw [quiet.registered] at member
    rw [quiet.jobsOf]
    exact answered.answered settled registration member
  ordered settled := by
    rw [quiet.published_numbers, quiet.early]
    exact answered.ordered settled

theorem sound (sound : Sound before) : Sound after where
  answered promise data found := by
    rcases quiet.created promise data found with old | ⟨absent, rfl⟩
    · exact quiet.answered (sound.answered promise data old)
    · have none := sound.unregistered absent
      refine ⟨fun _ registration member => ?_, fun settled => absurd rfl settled,
        fun settled => absurd rfl settled⟩
      rw [quiet.registered, none] at member
      cases member
  listed promise data found := by
    rcases quiet.created promise data found with old | ⟨absent, rfl⟩
    · have listed := sound.listed promise data old
      constructor <;> rw [quiet.registered]
      · exact listed.fulfill
      · exact listed.reject
      · exact listed.early
      · exact listed.handled
    · have none := sound.unregistered absent
      constructor <;> rw [quiet.registered, none] <;> simp [PromiseData.new]
  waits activation member := by
    rcases quiet.activations activation member with old | ⟨-, waits⟩
    · exact quiet.waits (sound.waits activation old)
    · exact waits
  targets registration member := by
    rw [quiet.returned] at member
    obtain ⟨_, found⟩ := Option.isSome_iff_exists.mp
      (sound.targets registration member)
    rw [quiet.promises _ _ found]
    rfl
  paired registration member := by
    rw [quiet.returned] at member
    exact sound.paired registration member
  counted number member := by
    refine (sound.counted number ?_).trans_le quiet.later
    rw [Runtime.numbers, quiet.returned] at member
    exact (quiet.numbers.append_left _).subset member
  distinct := by
    rw [Runtime.numbers, quiet.returned]
    exact sound.distinct.sublist (quiet.numbers.append_left _)
  known number member := by
    rw [quiet.published_numbers] at member
    rw [quiet.returned]
    exact sound.known number member
  queued := quiet.queued sound.queued

end

theorem promise?_eq (objects : after.objects = before.objects)
    (promise : ObjectId) : after.promise? promise = before.promise? promise := by
  rw [Runtime.promise?, objects, Runtime.promise?]

theorem of_ended (objects : after.objects = before.objects)
    (returned : after.returned = before.returned)
    (published : after.published = before.published)
    (later : before.registrations ≤ after.registrations)
    (activations : after.activations.Sublist before.activations)
    (queued : after.pendingJobs <:+ before.pendingJobs) :
    Quiet before after where
  promises promise data found := by rwa [promise?_eq objects]
  created promise data found := by
    rw [promise?_eq objects] at found
    exact .inl found
  returned := returned
  published := ⟨[], by rw [published, append_nil], by simp⟩
  later := later
  activations activation member := .inl (activations.subset member)
  numbers := activations.filterMap _
  queued queue := by
    rw [published]
    exact queued.trans queue

theorem of_suspended (waits : activation.number? = none ∧ activation.Waits
      { before with activations := activation :: before.activations }) :
    Quiet before
      { before with activations := activation :: before.activations } where
  promises _ _ := id
  created _ _ := .inl
  returned := rfl
  published := ⟨[], (append_nil _).symm, by simp⟩
  later := le_rfl
  activations other member := by
    rcases mem_cons.mp member with rfl | old
    · exact .inr waits
    · exact .inl old
  numbers := by rw [filterMap_cons, waits.1]
  queued := id

theorem of_published (unnumbered : ∀ job ∈ jobs, job.registration? = none) :
    Quiet before { before with
      pendingJobs := before.pendingJobs ++ jobs
      published := before.published ++ jobs } where
  promises _ _ := id
  created _ _ := .inl
  returned := rfl
  published := ⟨jobs, rfl, unnumbered⟩
  later := le_rfl
  activations _ := .inl
  numbers := .refl _
  queued queue := by
    obtain ⟨executed, same⟩ := queue
    refine ⟨executed, ?_⟩
    rw [← same, append_assoc]

theorem of_allocated (fresh : ∀ data, object = .promise data → data = .new) :
    Quiet before { before with objects := before.objects ++ [object] } where
  promises promise data found := by
    unfold Runtime.promise? at found ⊢
    rw [getElem?_append_left]
    · exact found
    · by_contra outside
      rw [getElem?_eq_none (Nat.le_of_not_lt outside)] at found
      cases found
  created promise data found := by
    unfold Runtime.promise? at found ⊢
    rcases Nat.lt_or_ge promise before.objects.length with inside | outside
    · rw [getElem?_append_left inside] at found
      exact .inl found
    · right
      rw [getElem?_eq_none outside]
      refine ⟨rfl, ?_⟩
      rw [getElem?_append_right outside] at found
      cases shift : promise - before.objects.length with
      | zero =>
        rw [shift, getElem?_cons_zero] at found
        cases object with
        | promise =>
          cases found
          exact fresh _ rfl
        | resolving | other => cases found
      | succ =>
        rw [shift, getElem?_cons_succ, getElem?_nil] at found
        cases found
  returned := rfl
  published := ⟨[], (append_nil _).symm, by simp⟩
  later := le_rfl
  activations _ := .inl
  numbers := .refl _
  queued := id

end Quiet

section

variable {runtime : Runtime}

section

variable (found : runtime.promise? promise = some data) (changed : PromiseData)

include found

theorem Runtime.promise?_setPromise (id : ObjectId) :
    (runtime.setPromise promise changed).promise? id =
      if id = promise then some changed else runtime.promise? id := by
  have bound : promise < runtime.objects.length := by
    by_contra outside
    rw [Runtime.promise?, getElem?_eq_none (Nat.le_of_not_lt outside)] at found
    cases found
  unfold Runtime.promise? Runtime.setPromise
  by_cases same : id = promise
  · subst same
    rw [if_pos rfl, getElem?_set_self bound]
  · rw [if_neg same, getElem?_set_ne (Ne.symm same)]

theorem Runtime.promise?_setPromise_self :
    (runtime.setPromise promise changed).promise? promise = some changed := by
  rw [Runtime.promise?_setPromise found, if_pos rfl]

end

theorem jobsOf_append (number : Nat) (front back : List PendingJob) :
    jobsOf number (front ++ back) = jobsOf number front ++ jobsOf number back :=
  filter_append ..

theorem numbersOf_append (front back : List PendingJob) :
    numbersOf (front ++ back) = numbersOf front ++ numbersOf back :=
  filterMap_append ..

theorem jobsOf_eq_nil : jobsOf number jobs = [] ↔ number ∉ numbersOf jobs := by
  simp [jobsOf, numbersOf]

theorem Sound.jobsOf_fresh (sound : Sound runtime)
    (fresh : number ∉ runtime.returned.map Registration.number) :
    jobsOf number runtime.published = [] :=
  jobsOf_eq_nil.mpr fun member => fresh (sound.known number member)

theorem Sound.distinct_returned (sound : Sound runtime) :
    (runtime.returned.map Registration.number).Nodup :=
  sound.distinct.of_append_left

theorem Sound.number_ne (sound : Sound runtime)
    (left : first ∈ runtime.returned) (right : second ∈ runtime.returned)
    (apart : first.promise ≠ second.promise) :
    first.number ≠ second.number := by
  intro same
  have equal := inj_on_of_nodup_map sound.distinct_returned left right same
  exact apart (congrArg Registration.promise equal)

theorem Runtime.mem_registered : registration ∈ runtime.registered promise ↔
      registration ∈ runtime.returned ∧ registration.promise = promise := by
  simp [Runtime.registered]

theorem Runtime.mem_early :
    number ∈ runtime.early promise ↔ ∃ registration ∈ runtime.returned,
      registration.promise = promise ∧ registration.whilePending = true ∧
        registration.number = number := by
  simp [Runtime.early, Runtime.registered, and_assoc, and_left_comm]

end

end QuickJsOxide.Promises
