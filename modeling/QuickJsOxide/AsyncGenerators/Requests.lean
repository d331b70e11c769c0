import QuickJsOxide.AsyncGenerators.Turns
import Mathlib.Data.List.Nodup

namespace QuickJsOxide.AsyncGenerators

open Library AsyncGenerators.Runtime List
open Promises (JsValue Completion ObjectId ContextId PromiseResolvingKind)

/-! Requests are settled in the order in which they were made. -/

def Runtime.operationsOn (runtime : Runtime) (id : ObjectId) :
    List AsyncGeneratorStep :=
  runtime.operations.filter fun step => step.generator? = some id

def Runtime.waitsOn (runtime : Runtime) (id : ObjectId) : List Wait :=
  runtime.waits.filter fun wait => wait.generator = id

def Runtime.requestedOn (runtime : Runtime) (id : ObjectId) : List ObjectId :=
  (runtime.requested.filter fun entry => entry.1 = id).map Prod.snd

/-- Those of these promises whose resolving functions were called, once for
each call. -/
def Runtime.settledOn (runtime : Runtime) (id : ObjectId) : List ObjectId :=
  (runtime.settlements.map Settlement.promise).filter
    fun promise => promise ∈ runtime.requestedOn id

structure Accounts (runtime : Runtime) : Prop where
  balanced : ∀ id data, runtime.asyncGenerator? id = some data →
    runtime.settledOn id ++ data.queue.map AsyncGeneratorRequestData.promise =
      runtime.requestedOn id
  served : ∀ id data, runtime.asyncGenerator? id = some data →
    ∀ request ∈ data.queue, Served runtime request
  distinct : (runtime.requested.map Prod.snd).Nodup
  counted : ∀ entry ∈ runtime.requested, entry.2 < runtime.objects.length
  noted : ∀ settlement ∈ runtime.settlements,
    settlement.promise < runtime.objects.length
  targets : ∀ entry ∈ runtime.requested,
    (runtime.asyncGenerator? entry.1).isSome

section

variable {before after runtime : Runtime} {id : ObjectId}
  {data changed : AsyncGeneratorData}

theorem Runtime.mem_requestedOn :
    promise ∈ runtime.requestedOn id ↔ (id, promise) ∈ runtime.requested := by
  simp [requestedOn]

theorem Accounts.owner (accounts : Accounts runtime)
    (own : (id, promise) ∈ runtime.requested)
    (also : (other, promise) ∈ runtime.requested) : other = id := by
  have same := inj_on_of_nodup_map accounts.distinct also own rfl
  exact congrArg Prod.fst same

theorem Accounts.mem_requested (accounts : Accounts runtime)
    (found : runtime.asyncGenerator? id = some data)
    (queued : promise ∈ data.queue.map AsyncGeneratorRequestData.promise) :
    (id, promise) ∈ runtime.requested := by
  refine mem_requestedOn.mp ?_
  rw [← accounts.balanced id data found]
  exact mem_append_right _ queued

theorem Runtime.settledOn_append
    (requested : after.requested = before.requested)
    (settlements : after.settlements = before.settlements ++ taken) :
    after.settledOn id = before.settledOn id ++
      (taken.map Settlement.promise).filter
        fun promise => promise ∈ before.requestedOn id := by
  unfold settledOn requestedOn
  rw [settlements, requested, map_append, filter_append]

theorem Accounts.congr (accounts : Accounts before)
    (objects : after.objects = before.objects)
    (requested : after.requested = before.requested)
    (settlements : after.settlements = before.settlements) :
    Accounts after := by
  cases before
  cases after
  subst objects requested settlements
  refine ⟨accounts.balanced, fun id data found request member => ?_,
    accounts.distinct, accounts.counted, accounts.noted, accounts.targets⟩
  have served := accounts.served id data found request member
  exact ⟨served.resolve, served.reject⟩

theorem filter_own [DecidableEq β] {key : α → β} {mine : β} {items : List α}
    (own : ∀ item ∈ items, key item = mine) :
    items.filter (fun item => key item = mine) = items :=
  filter_eq_self.mpr fun item member => decide_eq_true (own item member)

theorem filter_others [DecidableEq β] {key : α → β} {mine other : β}
    {items : List α} (apart : other ≠ mine)
    (own : ∀ item ∈ items, key item = mine) :
    items.filter (fun item => key item = other) = [] := by
  refine filter_eq_nil_iff.mpr fun item member claimed => ?_
  exact apart ((of_decide_eq_true claimed).symm.trans (own item member))

/-- A generator changes, and resolving functions of requests that were taken
from the front of its queue are called. -/
theorem Accounts.advance (accounts : Accounts before)
    (found : before.asyncGenerator? id = some data)
    (rewrites : Rewrites before after id changed added)
    (kept : ∀ request ∈ changed.queue, request ∈ data.queue)
    (balance : taken.map Settlement.promise ++
      changed.queue.map AsyncGeneratorRequestData.promise =
        data.queue.map AsyncGeneratorRequestData.promise)
    (objects : last.objects = after.objects)
    (requested : last.requested = before.requested)
    (settlements : last.settlements = before.settlements ++ taken) :
    Accounts last := by
  have longer : before.objects.length ≤ last.objects.length :=
    objects ▸ rewrites.length
  have own (promise : ObjectId)
      (member : promise ∈ taken.map Settlement.promise) :
      (id, promise) ∈ before.requested :=
    accounts.mem_requested found (balance ▸ mem_append_left _ member)
  have unchanged (other : ObjectId) :
      last.requestedOn other = before.requestedOn other := by
    rw [requestedOn, requested, requestedOn]
  have stays {request : AsyncGeneratorRequestData}
      (served : Served before request) : Served last request := by
    have now := served.kept found rewrites
    exact ⟨objects ▸ now.resolve, objects ▸ now.reject⟩
  constructor
  · intro other now present
    rw [settledOn_append requested settlements, unchanged]
    rcases rewrites.located objects present with ⟨rfl, rfl⟩ | ⟨apart, old⟩
    · have all : (taken.map Settlement.promise).filter
          (fun promise => promise ∈ before.requestedOn other) =
          taken.map Settlement.promise :=
        filter_eq_self.mpr fun promise member =>
          decide_eq_true (mem_requestedOn.mpr (own promise member))
      rw [all, append_assoc, balance, accounts.balanced other data found]
    · have none : (taken.map Settlement.promise).filter
          (fun promise => promise ∈ before.requestedOn other) = [] := by
        refine filter_eq_nil_iff.mpr fun promise member claimed => ?_
        exact apart (accounts.owner (own promise member)
          (mem_requestedOn.mp (of_decide_eq_true claimed)))
      rw [none, append_nil]
      exact accounts.balanced other now old
  · intro other now present request member
    rcases rewrites.located objects present with ⟨rfl, rfl⟩ | ⟨-, old⟩
    · exact stays (accounts.served other data found request
        (kept request member))
    · exact stays (accounts.served other now old request member)
  · rw [requested]
    exact accounts.distinct
  · intro entry member
    rw [requested] at member
    exact Nat.lt_of_lt_of_le (accounts.counted entry member) longer
  · intro settlement member
    rw [settlements] at member
    rcases mem_append.mp member with old | new
    · exact Nat.lt_of_lt_of_le (accounts.noted settlement old) longer
    · exact Nat.lt_of_lt_of_le (accounts.counted _
        (own _ (mem_map_of_mem new))) longer
  · intro entry member
    rw [requested] at member
    exact rewrites.present objects (accounts.targets entry member)

end

def AsyncGeneratorStep.Stray : AsyncGeneratorStep → Prop
  | .call resume _ _ => resume.phase = .settled false
  | _ => False

structure Attended (runtime : Runtime) : Prop where
  accounts : Accounts runtime
  operators : ∀ step ∈ runtime.operations, ∀ id, step.generator? = some id →
    (runtime.asyncGenerator? id).isSome
  strays : ∀ step ∈ runtime.operations, step.generator? = none → step.Stray
  waiters : ∀ wait ∈ runtime.waits,
    (runtime.asyncGenerator? wait.generator).isSome

structure Sound (left : List AsyncGeneratorRequestData → Prop)
    (runtime : Runtime) : Prop extends Attended runtime where
  stages : ∀ id data, runtime.asyncGenerator? id = some data →
    Stage left id data (runtime.operationsOn id) (runtime.waitsOn id)

/-- Sound but for one generator, which nobody works on or waits for. -/
structure Alone (left : List AsyncGeneratorRequestData → Prop)
    (runtime : Runtime) (id : ObjectId) : Prop extends Attended runtime where
  stages : ∀ other data, other ≠ id →
    runtime.asyncGenerator? other = some data →
    Stage left other data (runtime.operationsOn other) (runtime.waitsOn other)
  operations : runtime.operationsOn id = []
  waits : runtime.waitsOn id = []

section

variable {runtime before after : Runtime} {id : ObjectId}

theorem Stage.own {waits : List Wait} (stage : Stage left id data steps waits) :
    ∀ wait ∈ waits, wait.generator = id := by
  cases stage <;> simp

theorem Stage.single {waits : List Wait}
    (stage : Stage left id data (step :: steps) waits) :
    steps = [] ∧ waits = [] := by
  cases stage <;> simp

theorem Stage.waiting {waits : List Wait}
    (stage : Stage left id data steps (wait :: waits)) :
    steps = [] ∧ waits = [] := by
  cases stage <;> simp

structure Driven (step : AsyncGeneratorStep) (taken : List Settlement)
    (before after : Runtime) : Prop where
  objects : after.objects = before.objects
  operations : after.operations = step.pushed ++ before.operations
  waits : after.waits = before.waits
  requested : after.requested = before.requested
  settlements : after.settlements = before.settlements ++ taken

theorem drive_quiet
    (quiet : ∀ resume callable value, step ≠ .call resume callable value) :
    Driven step [] runtime (final (drive step) runtime) := by
  cases step with
  | complete | run | resolve =>
    exact ⟨rfl, rfl, rfl, rfl, (append_nil _).symm⟩
  | call resume callable value => exact absurd rfl (quiet resume callable value)

variable (resume : AsyncGeneratorResume) (value : JsValue)

theorem final_call
    (object : runtime.objects[callable]? = some (.resolving promise kind)) :
    final (drive (.call resume callable value)) runtime = { runtime with
      operations := .call resume callable value :: runtime.operations
      settlements := runtime.settlements ++ [⟨promise, kind, value⟩] } := by
  have noted : Succeeds (noteCall callable value) runtime ()
      { runtime with settlements :=
        runtime.settlements ++ [⟨promise, kind, value⟩] } := by
    simp only [Succeeds, noteCall]
    exact congrArg (EStateM.Result.ok ()) (by simp only [object])
  rw [drive, final_bind noted]
  rfl

theorem drive_call
    (object : runtime.objects[callable]? = some (.resolving promise kind)) :
    Driven (.call resume callable value) [⟨promise, kind, value⟩] runtime
      (final (drive (.call resume callable value)) runtime) := by
  rw [final_call resume value object]
  exact ⟨rfl, rfl, rfl, rfl, rfl⟩

section

variable (rewrites : Rewrites before after id changed added)

include rewrites

theorem Rewrites.operations : after.operations = before.operations := by
  obtain ⟨-, fresh, -, rfl⟩ := rewrites
  rfl

theorem Rewrites.waits : after.waits = added ++ before.waits := by
  obtain ⟨-, fresh, -, rfl⟩ := rewrites
  rfl

theorem Rewrites.logs : after.requested = before.requested ∧
      after.settlements = before.settlements := by
  obtain ⟨-, fresh, -, rfl⟩ := rewrites
  exact ⟨rfl, rfl⟩

end

section

variable (alone : Alone left before id)
  (found : before.asyncGenerator? id = some data)
  (outcome : Outcome left before id data step after changed added)

include alone found outcome

theorem Alone.driven :
    ∃ taken, Driven step taken after (final (drive step) after) ∧
      Accounts (final (drive step) after) := by
  have rewrites := outcome.rewrites
  obtain ⟨requested, settlements⟩ := rewrites.logs
  have advances (taken : List Settlement)
      (balance : taken.map Settlement.promise ++
        changed.queue.map AsyncGeneratorRequestData.promise =
          data.queue.map AsyncGeneratorRequestData.promise)
      (kept : ∀ request ∈ changed.queue, request ∈ data.queue)
      (driven : Driven step taken after (final (drive step) after)) :
      ∃ taken, Driven step taken after (final (drive step) after) ∧
        Accounts (final (drive step) after) :=
    ⟨taken, driven, alone.accounts.advance found rewrites kept balance
      driven.objects (driven.requested.trans requested)
      (settlements ▸ driven.settlements)⟩
  cases outcome.settles with
  | nothing same quiet =>
    refine advances [] (by simp [same]) ?_ (drive_quiet quiet)
    rw [same]
    exact fun _ member => member
  | @front request resume _ value queued own =>
    have kept : ∀ other ∈ changed.queue, other ∈ data.queue := by
      rw [queued]
      exact fun _ member => mem_cons_of_mem _ member
    have served := alone.accounts.served id data found request
      (by simp [queued])
    have now := served.kept found rewrites
    rcases own with rfl | rfl
    · exact advances [⟨request.promise, .resolve, value⟩] (by simp [queued])
        kept (drive_call resume value now.resolve)
    · exact advances [⟨request.promise, .reject, value⟩] (by simp [queued])
        kept (drive_call resume value now.reject)

theorem Alone.sound : Sound left (final (drive step) after) := by
  obtain ⟨_, driven, accounts⟩ := alone.driven found outcome
  have rewrites := outcome.rewrites
  have self := rewrites.present driven.objects
    (Option.isSome_of_eq_some found)
  have operations : (final (drive step) after).operations =
      step.pushed ++ before.operations := by
    rw [driven.operations, rewrites.operations]
  have waits : (final (drive step) after).waits = added ++ before.waits := by
    rw [driven.waits, rewrites.waits]
  refine ⟨⟨accounts, fun pushed member => ?_, fun pushed member => ?_,
    fun wait member => ?_⟩, fun other now located => ?_⟩
  · intro other owner
    rw [operations] at member
    rcases mem_append.mp member with new | old
    · rw [outcome.owner pushed new] at owner
      exact Option.some.inj owner ▸ self
    · exact rewrites.present driven.objects
        (alone.operators pushed old other owner)
  · intro owner
    rw [operations] at member
    rcases mem_append.mp member with new | old
    · rw [outcome.owner pushed new] at owner
      cases owner
    · exact alone.strays pushed old owner
  · rw [waits] at member
    rcases mem_append.mp member with new | old
    · exact (outcome.stage.own wait new).symm ▸ self
    · exact rewrites.present driven.objects (alone.waiters wait old)
  · rw [operationsOn, operations, waitsOn, waits,
      filter_append, filter_append]
    rcases rewrites.located driven.objects located with
      ⟨rfl, rfl⟩ | ⟨apart, old⟩
    · have idle := alone.operations
      have unwaited := alone.waits
      rw [operationsOn] at idle
      rw [waitsOn] at unwaited
      rw [filter_own outcome.owner, filter_own outcome.stage.own, idle,
        unwaited, append_nil, append_nil]
      exact outcome.stage
    · rw [filter_others (by simpa using apart) outcome.owner,
        filter_others apart outcome.stage.own, nil_append, nil_append]
      exact alone.stages other now apart old

end

theorem Attended.popped (attended : Attended runtime)
    (top : runtime.operations = step :: rest) :
    Attended { runtime with operations := rest } where
  accounts := attended.accounts.congr rfl rfl rfl
  operators pushed member := attended.operators pushed (by simp [top, member])
  strays pushed member := attended.strays pushed (by simp [top, member])
  waiters := attended.waiters

theorem Sound.pop (sound : Sound left runtime)
    (top : runtime.operations = step :: rest)
    (owner : step.generator? = some id) :
    ∃ data, asyncGenerator? { runtime with operations := rest } id =
        some data ∧
      Stage left id data [step] [] ∧
      Alone left { runtime with operations := rest } id := by
  obtain ⟨data, found⟩ := Option.isSome_iff_exists.mp
    (sound.operators step (by simp [top]) id owner)
  have stage := sound.stages id data found
  have here : runtime.operationsOn id = step ::
      rest.filter fun step => step.generator? = some id := by
    rw [operationsOn, top, filter_cons_of_pos (by simp [owner])]
  rw [here] at stage
  obtain ⟨empty, unwaited⟩ := stage.single
  rw [empty, unwaited] at stage
  refine ⟨data, found, stage, sound.popped top, ?_, empty, unwaited⟩
  intro other now apart located
  have stage := sound.stages other now located
  rwa [operationsOn, top, filter_cons_of_neg (by
    simpa [owner] using Ne.symm apart)] at stage

theorem Sound.take (sound : Sound left runtime) (member : wait ∈ runtime.waits) :
    ∃ data, asyncGenerator?
        { runtime with waits := runtime.waits.erase wait } wait.generator =
        some data ∧ Stage left wait.generator data [] [wait] ∧
      Alone left { runtime with waits := runtime.waits.erase wait }
        wait.generator := by
  obtain ⟨data, found⟩ := Option.isSome_iff_exists.mp (sound.waiters wait member)
  have stage := sound.stages wait.generator data found
  have here : wait ∈ runtime.waitsOn wait.generator :=
    mem_filter.mpr ⟨member, decide_eq_true rfl⟩
  cases waits : runtime.waitsOn wait.generator with
  | nil =>
    rw [waits] at here
    cases here
  | cons =>
    rw [waits] at stage here
    obtain ⟨idle, rfl⟩ := stage.waiting
    obtain rfl := mem_singleton.mp here
    rw [idle] at stage
    refine ⟨data, found, stage, ⟨sound.accounts.congr rfl rfl rfl,
      sound.operators, sound.strays, fun other kept =>
        sound.waiters other (mem_of_mem_erase kept)⟩, ?_, idle, ?_⟩
    · intro other now apart located
      have stage := sound.stages other now located
      have absent : wait ∉ runtime.waitsOn other := fun claimed =>
        apart (of_decide_eq_true (mem_filter.mp claimed).2).symm
      have same : waitsOn
          { runtime with waits := runtime.waits.erase wait } other =
          runtime.waitsOn other := by
        rw [waitsOn, ← erase_filter]
        exact erase_of_not_mem absent
      rwa [same]
    · rw [waitsOn, ← erase_filter]
      rw [waitsOn] at waits
      rw [waits]
      exact erase_cons_head ..

def Runtime.allocated (runtime : Runtime) (object : HeapObject) : Runtime :=
  { runtime with objects := runtime.objects ++ [object] }

theorem succeeds_allocate (object : HeapObject) :
    Succeeds (allocate object) runtime runtime.objects.length
      (runtime.allocated object) := rfl

theorem Runtime.getElem?_allocated {index : Nat}
    (found : runtime.objects[index]? = some old) :
    (runtime.allocated object).objects[index]? = some old := by
  obtain ⟨inside, -⟩ := List.getElem?_eq_some_iff.mp found
  rw [allocated, List.getElem?_append_left inside]
  exact found

theorem Runtime.getElem?_allocated_self (object : HeapObject) :
    (runtime.allocated object).objects[runtime.objects.length]? =
      some object := by
  rw [allocated, getElem?_append_right (Nat.le_refl _), Nat.sub_self]
  rfl

theorem Runtime.length_allocated (object : HeapObject) :
    (runtime.allocated object).objects.length = runtime.objects.length + 1 := by
  simp [allocated]

theorem Runtime.asyncGenerator?_allocated
    (found : runtime.asyncGenerator? id = some data) :
    (runtime.allocated object).asyncGenerator? id = some data :=
  asyncGenerator?_eq_some.mpr
    (getElem?_allocated (asyncGenerator?_eq_some.mp found))

theorem Runtime.isSome_allocated (known : (runtime.asyncGenerator? id).isSome) :
    ((runtime.allocated object).asyncGenerator? id).isSome := by
  obtain ⟨_, found⟩ := Option.isSome_iff_exists.mp known
  rw [asyncGenerator?_allocated found]
  rfl

theorem Runtime.asyncGenerator?_length :
    runtime.asyncGenerator? runtime.objects.length = none := by
  rw [asyncGenerator?, getElem?_eq_none (Nat.le_refl _)]

theorem Runtime.of_asyncGenerator?_allocated
    (found : (runtime.allocated object).asyncGenerator? id = some data) :
    runtime.asyncGenerator? id = some data ∨
      id = runtime.objects.length ∧ object = .asyncGenerator data := by
  have here := asyncGenerator?_eq_some.mp found
  have bound := lt_of_asyncGenerator? found
  rw [length_allocated] at bound
  rcases Nat.lt_succ_iff_lt_or_eq.mp bound with old | rfl
  · rw [allocated, getElem?_append_left old] at here
    exact .inl (asyncGenerator?_eq_some.mpr here)
  · rw [getElem?_allocated_self] at here
    exact .inr ⟨rfl, Option.some.inj here⟩

theorem Accounts.allocate (accounts : Accounts runtime)
    (fresh : ∀ data, object = .asyncGenerator data → data.queue = []) :
    Accounts (runtime.allocated object) where
  balanced other data found := by
    rcases of_asyncGenerator?_allocated found with old | ⟨rfl, made⟩
    · exact accounts.balanced other data old
    · have unrequested :
          (runtime.allocated object).requestedOn runtime.objects.length = [] := by
        refine map_eq_nil_iff.mpr (filter_eq_nil_iff.mpr ?_)
        intro entry member claimed
        have target := accounts.targets entry member
        rw [of_decide_eq_true claimed, asyncGenerator?_length] at target
        cases target
      simp [settledOn, unrequested, fresh data made]
  served other data found request member := by
    rcases of_asyncGenerator?_allocated found with old | ⟨rfl, made⟩
    · have served := accounts.served other data old request member
      exact ⟨getElem?_allocated served.resolve,
        getElem?_allocated served.reject⟩
    · rw [fresh data made] at member
      cases member
  distinct := accounts.distinct
  counted entry member := by
    rw [length_allocated]
    exact Nat.lt_succ_of_lt (accounts.counted entry member)
  noted settlement member := by
    rw [length_allocated]
    exact Nat.lt_succ_of_lt (accounts.noted settlement member)
  targets entry member := isSome_allocated (accounts.targets entry member)

theorem Sound.allocate (sound : Sound left runtime)
    (fresh : ∀ data, object = .asyncGenerator data →
      data.Pumpable ∧ data.queue = []) : Sound left (runtime.allocated object) where
  accounts := sound.accounts.allocate fun data made => (fresh data made).2
  stages other data found := by
    rcases of_asyncGenerator?_allocated found with old | ⟨rfl, made⟩
    · exact sound.stages other data old
    · have idle : (runtime.allocated object).operationsOn
          runtime.objects.length = [] := by
        refine filter_eq_nil_iff.mpr fun step member claimed => ?_
        have known := sound.operators step member _ (of_decide_eq_true claimed)
        rw [asyncGenerator?_length] at known
        cases known
      have unwaited : (runtime.allocated object).waitsOn
          runtime.objects.length = [] := by
        refine filter_eq_nil_iff.mpr fun wait member claimed => ?_
        have known := sound.waiters wait member
        rw [of_decide_eq_true claimed, asyncGenerator?_length] at known
        cases known
      rw [idle, unwaited]
      obtain ⟨pumpable, empty⟩ := fresh data made
      exact .idle pumpable (.inl empty)
  operators step member other owner :=
    isSome_allocated (sound.operators step member other owner)
  strays := sound.strays
  waiters wait member := isSome_allocated (sound.waiters wait member)

def Runtime.promised (runtime : Runtime) : Runtime :=
  ((runtime.allocated .promise).allocated
    (.resolving runtime.objects.length .resolve)).allocated
    (.resolving runtime.objects.length .reject)

theorem Sound.promise (sound : Sound left runtime) : Sound left runtime.promised :=
  ((sound.allocate (by simp)).allocate (by simp)).allocate (by simp)

theorem succeeds_newDefaultPromiseCapability :
    Succeeds newDefaultPromiseCapability runtime
      ⟨runtime.objects.length, runtime.objects.length + 1,
        runtime.objects.length + 2⟩ runtime.promised := by
  refine (succeeds_allocate _).bind ((succeeds_allocate _).bind
    ((succeeds_allocate _).bind ?_))
  simp only [length_allocated]
  exact succeeds_pure

theorem Runtime.served_promised (completion : GeneratorResumeKind)
    (result : JsValue) :
    Served runtime.promised ⟨completion, result, runtime.objects.length,
      runtime.objects.length + 1, runtime.objects.length + 2⟩ := by
  constructor
  · refine getElem?_allocated ?_
    rw [← length_allocated .promise]
    exact getElem?_allocated_self _
  · have length : (((runtime.allocated .promise).allocated
        (.resolving runtime.objects.length .resolve)).objects.length) =
        runtime.objects.length + 2 := by
      rw [length_allocated, length_allocated]
    rw [promised, ← length]
    exact getElem?_allocated_self _

end

end QuickJsOxide.AsyncGenerators
