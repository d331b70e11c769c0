import Mathlib.Data.List.Nodup
import Mathlib.Data.List.Range
import QuickJsOxide.Atomics.Waiter

namespace QuickJsOxide.Atomics

open Library List Function

variable {Thread : Type}

/-! What is true of a thread at each of its points. -/

/-- The call is registered, and it is in the queue unless a notification has
taken it out. -/
structure Enrolled (world : World Thread) (thread : Thread) (call : CallId)
    (id : UInt64) : Prop where
  caller : (world.log call).caller = some thread
  equal : (world.log call).compared = some .equal
  waiter : (world.log call).waiter = some id
  pending : (world.log call).result = none
  begun : (world.log call).started ≤ world.now
  queued : (world.log call).removal = none ∧
      ⟨id, (world.log call).location, call⟩ ∈ world.coordinator.waiters ∨
    (world.log call).removal = some .notified

structure Unregistered (world : World Thread) (thread : Thread)
    (call : CallId) (compared : Option Comparison) : Prop where
  caller : (world.log call).caller = some thread
  compared : (world.log call).compared = compared
  waiter : (world.log call).waiter = none
  removal : (world.log call).removal = none
  pending : (world.log call).result = none

def CallLog.DueBy (log : CallLog Thread) (time : Nat) : Prop :=
  ∃ timeout, log.timeout = some timeout ∧ log.started + timeout ≤ time

/-- The entries before the scanned position have been looked at: those at the
location are out of the queue. -/
structure Scanned (world : World Thread) (scan : Scan) : Prop where
  ordered : (scan.found.map WaiterRegistration.signal).Sublist world.registered
  bounded : scan.removed.length ≤ scan.count
  progress : ∃ done rest, scan.found = done ++ rest ∧
    world.coordinator.waiters =
      done.filter (·.location ≠ scan.location) ++ rest ∧
    scan.index = (done.filter (·.location ≠ scan.location)).length ∧
    scan.removed = done.filter (·.location = scan.location)

def Fits (world : World Thread) (thread : Thread) : Phase → Prop
  | .idle | .notifyEntering _ _ | .gateEntering | .gate => True
  | .entering call | .comparing call => Unregistered world thread call none
  | .registering call => Unregistered world thread call (some .equal)
  | .checking call id =>
    Enrolled world thread call id ∧ (world.log call).timeout = none
  | .parking call id remaining =>
    Enrolled world thread call id ∧ (world.log call).removal = none ∧
      (world.log call).DueBy (world.now + remaining)
  | .asleep call id limit =>
    Enrolled world thread call id ∧ (world.log call).signalled = false ∧
      ∀ time ∈ limit, (world.log call).DueBy time
  | .woken call id expired =>
    Enrolled world thread call id ∧
      (expired = true → (world.log call).DueBy world.now)
  | .examining call id expired =>
    Enrolled world thread call id ∧ (world.log call).timeout ≠ none ∧
      (expired = true → (world.log call).DueBy world.now)
  | .notifying scan =>
    Scanned world scan ∧ scan.notified = scan.removed.length
  | .signalling scan waiter =>
    Scanned world scan ∧ scan.notified + 1 = scan.removed.length ∧
      (world.log waiter.signal).removal = some .notified

variable {phase : Phase}

theorem Fits.caller (fits : Fits world thread phase)
    (inside : phase.call? = some call) : (world.log call).caller = some thread ∧
      (world.log call).result = none := by
  cases phase <;> cases inside
  case entering | comparing | registering =>
    exact ⟨Unregistered.caller fits, Unregistered.pending fits⟩
  all_goals exact ⟨fits.1.caller, fits.1.pending⟩

theorem CallLog.DueBy.mono {log : CallLog Thread} (due : log.DueBy time)
    (after : time ≤ later) : log.DueBy later := by
  obtain ⟨timeout, limited, reached⟩ := due
  exact ⟨timeout, limited, reached.trans after⟩

structure Undisturbed (world after : World Thread) (phase : Phase) : Prop where
  log : ∀ call, phase.call? = some call → after.log call = world.log call
  queue : ∀ call, phase.call? = some call → ∀ waiter ∈
    world.coordinator.waiters, waiter.signal = call →
      waiter ∈ after.coordinator.waiters
  locked : phase.holdsLock = true →
    after.coordinator.waiters = world.coordinator.waiters
  clock : world.now ≤ after.now
  registered : world.registered.Sublist after.registered
  notified : ∀ call, (world.log call).removal = some .notified →
    (after.log call).removal = some .notified

variable {world after : World Thread} {id : UInt64}

theorem Enrolled.frame (enrolled : Enrolled world thread call id)
    (log : after.log call = world.log call)
    (queue : ∀ waiter ∈ world.coordinator.waiters, waiter.signal = call →
      waiter ∈ after.coordinator.waiters) (clock : world.now ≤ after.now) :
    Enrolled after thread call id := by
  refine ⟨log ▸ enrolled.caller, log ▸ enrolled.equal, log ▸ enrolled.waiter,
    log ▸ enrolled.pending, log ▸ enrolled.begun.trans clock, ?_⟩
  rw [log]
  apply enrolled.queued.imp_left
  intro waiting
  exact ⟨waiting.1, queue _ waiting.2 rfl⟩

theorem Unregistered.frame {compared : Option Comparison}
    (unregistered : Unregistered world thread call compared)
    (log : after.log call = world.log call) :
    Unregistered after thread call compared := by
  refine ⟨?_, ?_, ?_, ?_, ?_⟩ <;> rw [log]
  exacts [unregistered.caller, unregistered.compared, unregistered.waiter,
    unregistered.removal, unregistered.pending]

variable {scan : Scan}

theorem Scanned.frame (scanned : Scanned world scan)
    (waiters : after.coordinator.waiters = world.coordinator.waiters)
    (registered : world.registered.Sublist after.registered) :
    Scanned after scan :=
  ⟨scanned.ordered.trans registered, scanned.bounded,
    waiters ▸ scanned.progress⟩

theorem Fits.frame (fits : Fits world thread phase)
    (frame : Undisturbed world after phase) : Fits after thread phase := by
  cases phase
  case idle | notifyEntering | gateEntering | gate => trivial
  case entering call | comparing call | registering call =>
    exact Unregistered.frame fits (frame.log call rfl)
  case notifying =>
    exact ⟨fits.1.frame (frame.locked rfl) frame.registered, fits.2⟩
  case signalling =>
    exact ⟨fits.1.frame (frame.locked rfl) frame.registered, fits.2.1,
      frame.notified _ fits.2.2⟩
  -- the phases of a registered call
  all_goals
    have log := frame.log _ rfl
    refine ⟨fits.1.frame log (frame.queue _ rfl) frame.clock, ?_⟩
    rw [log]
  case checking | asleep => exact fits.2
  case parking =>
    exact ⟨fits.2.1, fits.2.2.mono (Nat.add_le_add_right frame.clock _)⟩
  case woken => exact fun late => (fits.2 late).mono frame.clock
  case examining =>
    exact ⟨fits.2.1, fun late => (fits.2.2 late).mono frame.clock⟩

theorem Fits.keep (fits : Fits world thread phase)
    (coordinator : after.coordinator = world.coordinator)
    (log : after.log = world.log)
    (registered : after.registered = world.registered)
    (clock : world.now ≤ after.now) : Fits after thread phase := by
  refine fits.frame ⟨?_, ?_, ?_, clock, registered ▸ .refl _, ?_⟩ <;>
    simp only [log, coordinator, implies_true, imp_self]
  exact fun _ _ waiter member _ => member

namespace Scanned

variable {world after : World Thread} {scan : Scan}
  {waiter : WaiterRegistration} (scanned : Scanned world scan)
  (inside : world.coordinator.waiters[scan.index]? = some waiter)

include scanned inside

theorem rest_cons : ∃ done rest, scan.found = done ++ waiter :: rest ∧
      world.coordinator.waiters =
        done.filter (·.location ≠ scan.location) ++ waiter :: rest ∧
      scan.index = (done.filter (·.location ≠ scan.location)).length ∧
      scan.removed = done.filter (·.location = scan.location) := by
  obtain ⟨done, rest, found, waiters, index, removed⟩ := scanned.progress
  rw [waiters, index, getElem?_append_right (Nat.le_refl _),
    Nat.sub_self] at inside
  cases rest with
  | nil => cases inside
  | cons _ rest =>
    cases inside
    exact ⟨done, rest, found, waiters, index, removed⟩

theorem skip (elsewhere : waiter.location ≠ scan.location) :
    Scanned world { scan with index := scan.index + 1 } := by
  obtain ⟨done, rest, found, waiters, index, removed⟩ :=
    scanned.rest_cons inside
  refine ⟨scanned.ordered, scanned.bounded, done ++ [waiter], rest, ?_⟩
  simp [found, waiters, index, removed, elsewhere]

theorem take (matched : waiter.location = scan.location)
    (wanted : scan.removed.length < scan.count)
    (registered : world.registered.Sublist after.registered)
    (taken : after.coordinator.waiters =
      world.coordinator.waiters.eraseIdx scan.index) :
    Scanned after { scan with removed := scan.removed ++ [waiter] } := by
  obtain ⟨done, rest, found, waiters, index, removed⟩ :=
    scanned.rest_cons inside
  refine ⟨scanned.ordered.trans registered, ?_, done ++ [waiter], rest, ?_⟩
  · rw [length_append, length_singleton]
    exact wanted
  · rw [taken, waiters, index, eraseIdx_append_of_length_le (Nat.le_refl _)]
    simp [found, removed, matched]

end Scanned

/-- A notification took the earliest waiters of its location, as many as it
was asked for, and counted them. -/
structure Notification.Exact (notification : Notification)
    (registered : List CallId) : Prop where
  ordered : (notification.found.map WaiterRegistration.signal).Sublist
    registered
  removed : notification.removed = (notification.found.filter
    (·.location = notification.location)).take notification.count
  split : notification.found.Perm (notification.removed ++ notification.left)
  kept : notification.left.Sublist notification.found
  answer : notification.answer = notification.removed.length

theorem Scanned.exact (scanned : Scanned world scan)
    (counted : scan.notified = scan.removed.length)
    (finished : ¬ (scan.notified < scan.count ∧
      scan.index < world.coordinator.waiters.length)) :
    Notification.Exact ⟨scan.location, scan.count, scan.found, scan.removed,
      world.coordinator.waiters, scan.notified⟩ world.registered := by
  obtain ⟨done, rest, found, waiters, index, removed⟩ := scanned.progress
  refine ⟨scanned.ordered, ?_, ?_, ?_, counted⟩
  · have bounded := scanned.bounded
    dsimp only
    rw [found, filter_append, ← removed]
    by_cases full : scan.notified < scan.count
    · have covered : rest = [] := by
        rw [waiters, length_append, index] at finished
        apply eq_nil_of_length_eq_zero
        omega
      rw [covered, filter_nil, append_nil, take_of_length_le bounded]
    · have reached : scan.removed.length = scan.count := by omega
      rw [← reached, take_left]
  · dsimp only
    rw [found, waiters, removed, ← append_assoc]
    apply Perm.append_right
    have parts := filter_append_perm
      (fun waiter : WaiterRegistration => waiter.location = scan.location) done
    simpa using parts.symm
  · dsimp only
    rw [found, waiters]
    exact filter_sublist.append_right rest

theorem Notification.Exact.mono {notification : Notification}
    (exact : notification.Exact registered) (grown : registered.Sublist later) :
    notification.Exact later :=
  { exact with ordered := exact.ordered.trans grown }

def CallLog.Settled (log : CallLog Thread) : Prop :=
  match log.result with
  | none => True
  | some (.returned .ok) =>
    log.compared = some .equal ∧ log.removal = some .notified
  | some (.returned .timedOut) =>
    log.compared = some .equal ∧
      ∃ time, log.removal = some (.expired time) ∧ log.DueBy time
  | some (.returned .notEqual) =>
    log.compared = some .different ∧ log.waiter = none ∧ log.removal = none
  | some .failed =>
    log.compared = some .failed ∧ log.waiter = none ∧ log.removal = none

structure Sound (world : World Thread) : Prop where
  mutex : ∀ thread,
    (world.phase thread).holdsLock = true ↔ world.owner = some thread
  fits : ∀ thread, Fits world thread (world.phase thread)
  carried : ∀ call < world.callCount, (world.log call).result = none →
    ∃ thread, (world.phase thread).call? = some call
  unused : ∀ call, world.callCount ≤ call → world.log call = .empty
  entries : ∀ waiter ∈ world.coordinator.waiters,
    (world.log waiter.signal).waiter = some waiter.id ∧
      (world.log waiter.signal).location = waiter.location ∧
      (world.log waiter.signal).removal = none
  order : (world.coordinator.waiters.map
    WaiterRegistration.signal).Sublist world.registered
  distinct : world.registered.Nodup
  issued : ∀ call ∈ world.registered, call < world.callCount
  clock : world.coordinator.nextWaiterId =
    UInt64.ofNat (world.registered.length + 1)
  numbered : ∀ call id, (world.log call).waiter = some id ↔
    ∃ position, world.registered[position]? = some call ∧
      id = UInt64.ofNat (position + 1)
  settled : ∀ call, (world.log call).Settled
  signalled : ∀ call, (world.log call).signalled = true →
    (world.log call).removal = some .notified
  announced : ∀ call, (world.log call).removal = some .notified →
    (world.log call).signalled = true ∨
      ∃ thread scan waiter, world.phase thread = .signalling scan waiter ∧
        waiter.signal = call
  notifications : ∀ notification ∈ world.notifications,
    notification.Exact world.registered

theorem sound_initial [DecidableEq Thread] :
    Sound (World.initial : World Thread) where
  mutex := by simp [World.initial, Phase.holdsLock]
  fits _ := trivial
  carried _ below := absurd below (Nat.not_lt_zero _)
  unused _ _ := rfl
  entries _ member := nomatch member
  order := .slnil
  distinct := .nil
  issued _ member := nomatch member
  clock := rfl
  numbered := by simp [World.initial, CallLog.empty]
  settled _ := trivial
  signalled _ signalled := nomatch signalled
  announced _ removed := nomatch removed
  notifications _ member := nomatch member

namespace Sound

variable {world after : World Thread}

section

variable (sound : Sound world)

include sound

theorem fits_at (here : world.phase thread = phase) :
    Fits world thread phase := by
  rw [← here]
  exact sound.fits thread

theorem call_ne (different : other ≠ thread)
    (inside : (world.phase thread).call? = some call) :
    (world.phase other).call? ≠ some call := by
  intro shared
  have mine := ((sound.fits thread).caller inside).1
  have theirs := ((sound.fits other).caller shared).1
  rw [mine] at theirs
  cases theirs
  exact different rfl

theorem holdsLock_eq_false (different : other ≠ thread)
    (here : world.phase thread = phase) (holds : phase.holdsLock = true) :
    (world.phase other).holdsLock = false := by
  subst here
  apply Bool.eq_false_iff.mpr
  intro shared
  have mine := (sound.mutex thread).mp holds
  have theirs := (sound.mutex other).mp shared
  rw [mine] at theirs
  cases theirs
  exact different rfl

theorem call_lt (inside : (world.phase thread).call? = some call) :
    call < world.callCount := by
  apply Nat.lt_of_not_le
  intro beyond
  have mine := ((sound.fits thread).caller inside).1
  rw [sound.unused call beyond] at mine
  cases mine

theorem unqueued
    (gone : (world.log call).waiter = none ∨ (world.log call).removal ≠ none) :
    ∀ waiter ∈ world.coordinator.waiters, waiter.signal ≠ call := by
  rintro waiter member rfl
  obtain ⟨known, _, waiting⟩ := sound.entries waiter member
  rcases gone with unregistered | removed
  · rw [unregistered] at known
    cases known
  · exact removed waiting

end

theorem field_log (field : CallLog Thread → α)
    (log : after.log = update world.log call entry)
    (same : field entry = field (world.log call)) (other : CallId) :
    field (after.log other) = field (world.log other) := by
  rw [log]
  by_cases here : other = call
  · rw [here, update_self]
    exact same
  · rw [update_of_ne here]

theorem record_record (first second : CallLog Thread → CallLog Thread) :
    (world.record call first).record call second =
      world.record call fun log => second (first log) := by
  simp [World.record]

section

variable [DecidableEq Thread] {thread : Thread} {phase old : Phase}

section

variable (sound : Sound world)

include sound

theorem announced_move
    (quiet : ∀ scan waiter, world.phase thread ≠ .signalling scan waiter)
    (removed : (world.log call).removal = some .notified) :
    (world.log call).signalled = true ∨
      ∃ other scan waiter, update world.phase thread phase other =
        .signalling scan waiter ∧ waiter.signal = call := by
  apply (sound.announced call removed).imp_right
  intro signaller
  obtain ⟨other, scan, waiter, signalling, same⟩ := signaller
  have different : other ≠ thread :=
    fun same => quiet scan waiter (same ▸ signalling)
  refine ⟨other, scan, waiter, ?_, same⟩
  rw [update_of_ne different]
  exact signalling

section

omit [DecidableEq Thread]

variable {entry : CallLog Thread}

theorem unused_write (issued : call < world.callCount) :
    ∀ other, world.callCount ≤ other →
      update world.log call entry other = .empty := by
  intro other beyond
  rw [update_of_ne (Nat.ne_of_gt (Nat.lt_of_lt_of_le issued beyond))]
  exact sound.unused other beyond

theorem settled_write (settled : entry.Settled) :
    ∀ other, (update world.log call entry other).Settled :=
  (forall_update_iff world.log fun _ log => log.Settled).mpr
    ⟨settled, fun other _ => sound.settled other⟩

theorem signalled_write
    (signalled : entry.signalled = true → entry.removal = some .notified) :
    ∀ other, (update world.log call entry other).signalled = true →
      (update world.log call entry other).removal = some .notified :=
  (forall_update_iff world.log fun _ log => log.signalled = true →
    log.removal = some .notified).mpr
      ⟨signalled, fun other _ => sound.signalled other⟩

end

section

variable (phases : after.phase = update world.phase thread phase)

include phases

theorem mutex_move (mine : phase.holdsLock = true ↔ after.owner = some thread)
    (others : ∀ other ≠ thread,
      after.owner = some other ↔ world.owner = some other) (other : Thread) :
    (after.phase other).holdsLock = true ↔ after.owner = some other := by
  rw [phases]
  by_cases same : other = thread
  · rw [same, update_self]
    exact mine
  · rw [update_of_ne same, others other same]
    exact sound.mutex other

omit sound in
theorem fits_move (mine : Fits after thread phase)
    (others : ∀ other ≠ thread, Fits after other (world.phase other)) :
    ∀ other, Fits after other (after.phase other) := by
  rw [phases]
  exact (forall_update_iff _ (Fits after)).mpr ⟨mine, others⟩

theorem carried_move (pending : ∀ call, (after.log call).result = none →
      (world.log call).result = none)
    (stays : ∀ call, (world.phase thread).call? = some call →
      (after.log call).result = none → phase.call? = some call) :
    ∀ call < world.callCount, (after.log call).result = none →
      ∃ thread, (after.phase thread).call? = some call := by
  intro call below unfinished
  obtain ⟨other, inside⟩ := sound.carried call below (pending call unfinished)
  refine ⟨other, ?_⟩
  rw [phases]
  by_cases same : other = thread
  · rw [same] at inside ⊢
    rw [update_self]
    exact stays call inside unfinished
  · rw [update_of_ne same]
    exact inside

end

theorem shift (mine : phase.holdsLock = true ↔ owner = some thread)
    (others : ∀ other ≠ thread,
      owner = some other ↔ world.owner = some other)
    (quiet : ∀ scan waiter, world.phase thread ≠ .signalling scan waiter)
    (stays : phase.call? = (world.phase thread).call?)
    (fits : Fits world thread phase) :
    Sound { world.goto thread phase with owner } :=
  { sound with
    mutex := sound.mutex_move rfl mine others
    fits := fits_move rfl (fits.keep rfl rfl rfl le_rfl)
      fun other _ => (sound.fits other).keep rfl rfl rfl le_rfl
    carried := sound.carried_move rfl (fun _ pending => pending)
      fun _ inside _ => stays.trans inside
    announced := fun _ => sound.announced_move quiet }

omit [DecidableEq Thread] in
theorem others_of_release (held : (world.phase thread).holdsLock = true) :
    ∀ other ≠ thread, (none : Option Thread) = some other ↔
      world.owner = some other := by
  intro other different
  rw [(sound.mutex thread).mp held]
  constructor
  · nofun
  · intro owned
    cases owned
    exact absurd rfl different

section

variable (here : world.phase thread = old)

include here

theorem goto (alike : phase.holdsLock = old.holdsLock)
    (quiet : ∀ scan waiter, old ≠ .signalling scan waiter)
    (stays : phase.call? = old.call?) (fits : Fits world thread phase) :
    Sound (world.goto thread phase) := by
  subst here
  refine sound.shift ?_ (fun _ _ => Iff.rfl) quiet stays fits
  rw [alike]
  exact sound.mutex thread

theorem acquire (free : world.owner = none) (holds : phase.holdsLock = true)
    (stays : phase.call? = old.call?) (fits : Fits world thread phase) :
    Sound (world.acquire thread phase) := by
  subst here
  have outside : ¬ (world.phase thread).holdsLock = true := by
    rw [sound.mutex thread, free]
    nofun
  refine sound.shift ⟨fun _ => rfl, fun _ => holds⟩ ?_ ?_ stays fits
  · intro other different
    rw [free]
    constructor
    · intro owned
      cases owned
      exact absurd rfl different
    · nofun
  · intro scan waiter here
    rw [here] at outside
    exact outside rfl

variable (held : old.holdsLock = true)

include held

theorem release (lets : phase.holdsLock = false)
    (quiet : ∀ scan waiter, old ≠ .signalling scan waiter)
    (stays : phase.call? = old.call?) (fits : Fits world thread phase) :
    Sound (world.release thread phase) := by
  subst here
  refine sound.shift ?_ (sound.others_of_release held) quiet stays fits
  rw [lets]
  exact ⟨nofun, nofun⟩

omit [DecidableEq Thread] in
theorem signalled_of_held (quiet : ∀ scan waiter,
      old = .signalling scan waiter → waiter.signal ≠ call)
    (removed : (world.log call).removal = some .notified) :
    (world.log call).signalled = true := by
  subst here
  rcases sound.announced call removed with
    signalled | ⟨other, scan, waiter, signalling, same⟩
  · exact signalled
  · by_cases mine : other = thread
    · rw [mine] at signalling
      exact absurd same (quiet scan waiter signalling)
    · have outside := sound.holdsLock_eq_false mine rfl held
      rw [signalling] at outside
      cases outside

/-- The holder of the lock moves on and writes to the log of one call, its own
or one that it notifies, which is not in the queue afterwards. -/
theorem act
    (made : after = { world with
      coordinator, owner, phase := update world.phase thread phase
      log := update world.log call entry })
    (lock : phase.holdsLock = true ∧ owner = world.owner ∨
      phase.holdsLock = false ∧ owner = none)
    (own : old.call? = none ∨ old.call? = some call)
    (quiet : ∀ scan waiter,
      old = .signalling scan waiter → waiter.signal = call)
    (issued : call < world.callCount)
    (nextWaiterId : coordinator.nextWaiterId = world.coordinator.nextWaiterId)
    (order : coordinator.waiters.Sublist world.coordinator.waiters)
    (queue : ∀ waiter, waiter ∈ coordinator.waiters ↔
      waiter ∈ world.coordinator.waiters ∧ waiter.signal ≠ call)
    (waiter : entry.waiter = (world.log call).waiter)
    (notified : (world.log call).removal = some .notified →
      entry.removal = some .notified)
    (unfinished : entry.result = none →
      (world.log call).result = none ∧ phase.call? = old.call?)
    (settled : entry.Settled)
    (signalled : entry.signalled = true → entry.removal = some .notified)
    (announced : entry.removal = some .notified → entry.signalled = true ∨
      ∃ scan waiter, phase = .signalling scan waiter ∧ waiter.signal = call)
    (fits : Fits after thread phase) (theirs : old.call? = none →
      ∀ other ≠ thread, (world.phase other).call? = some call →
        Fits after other (world.phase other)) : Sound after := by
  subst here made
  refine { sound with
    mutex := sound.mutex_move rfl ?mine ?others
    fits := fits_move rfl fits ?fits
    carried := sound.carried_move rfl ?pending ?stays
    unused := sound.unused_write issued, entries := ?entries
    order := (order.map _).trans sound.order
    clock := nextWaiterId.trans sound.clock, numbered := ?numbered
    settled := sound.settled_write settled
    signalled := sound.signalled_write signalled, announced := ?announced }
  case mine =>
    have owned := (sound.mutex thread).mp held
    rcases lock with ⟨holds, rfl⟩ | ⟨lets, rfl⟩
    · exact ⟨fun _ => owned, fun _ => holds⟩
    · rw [lets]
      exact ⟨nofun, nofun⟩
  case others =>
    rcases lock with ⟨_, rfl⟩ | ⟨_, rfl⟩
    · exact fun _ _ => Iff.rfl
    · exact sound.others_of_release held
  case fits =>
    intro other apart
    by_cases inside : (world.phase other).call? = some call
    · rcases own with away | mine
      · exact theirs away other apart inside
      · exact absurd inside (sound.call_ne apart mine)
    · have different : ∀ known, (world.phase other).call? = some known →
          known ≠ call := fun _ within same => inside (same ▸ within)
      refine (sound.fits other).frame ⟨?_, ?_, ?_, le_rfl, .refl _, ?_⟩
      · intro known within
        exact update_of_ne (different known within) ..
      · rintro known within entry member rfl
        exact (queue entry).mpr ⟨member, different _ within⟩
      · intro holds
        rw [sound.holdsLock_eq_false apart rfl held] at holds
        cases holds
      · exact (forall_update_iff world.log fun known log =>
          (world.log known).removal = some .notified →
            log.removal = some .notified).mpr
          ⟨notified, fun _ _ removed => removed⟩
  case pending =>
    exact (forall_update_iff world.log fun known log =>
      log.result = none → (world.log known).result = none).mpr
        ⟨fun pending => (unfinished pending).1, fun _ _ pending => pending⟩
  case stays =>
    intro known inside
    rcases own with away | mine
    · rw [away] at inside
      cases inside
    · rw [mine] at inside
      cases inside
      dsimp only
      rw [update_self]
      exact fun pending => (unfinished pending).2.trans mine
  case entries =>
    intro waiter member
    obtain ⟨known, apart⟩ := (queue waiter).mp member
    dsimp only
    rw [update_of_ne apart]
    exact sound.entries waiter known
  case numbered =>
    intro known id
    rw [field_log CallLog.waiter rfl waiter]
    exact sound.numbered known id
  case announced =>
    intro known
    dsimp only
    by_cases same : known = call
    · rw [same, update_self]
      intro removed
      apply (announced removed).imp_right
      rintro ⟨scan, waiter, rfl, signals⟩
      exact ⟨thread, scan, waiter, update_self .., signals⟩
    · rw [update_of_ne same]
      intro removed
      left
      apply sound.signalled_of_held rfl held ?_ removed
      intro scan waiter signalling
      rw [quiet scan waiter signalling]
      exact Ne.symm same

theorem relog
    (made : after = { world with
      owner, phase := update world.phase thread phase
      log := update world.log call
        { world.log call with compared, result } })
    (inside : old.call? = some call)
    (lock : phase.holdsLock = true ∧ owner = world.owner ∨
      phase.holdsLock = false ∧ owner = none)
    (gone : (world.log call).waiter = none ∨ (world.log call).removal ≠ none)
    (stays : result = none →
      (world.log call).result = none ∧ phase.call? = old.call?)
    (settled : CallLog.Settled { world.log call with compared, result })
    (fits : Fits after thread phase) : Sound after := by
  have quiet : ∀ scan waiter, old ≠ .signalling scan waiter := by
    rintro scan waiter rfl
    cases inside
  refine sound.act here held made lock (.inr inside)
    (fun scan waiter same => absurd same (quiet scan waiter)) ?_ rfl (.refl _)
    ?_ rfl (fun removed => removed) stays settled (sound.signalled call) ?_
    fits ?_
  · subst here
    exact sound.call_lt inside
  · intro waiter
    exact ⟨fun member => ⟨member, sound.unqueued gone waiter member⟩, And.left⟩
  · intro removed
    exact .inl (sound.signalled_of_held here held
      (fun scan waiter same => absurd same (quiet scan waiter)) removed)
  · rw [inside]
    rintro ⟨⟩

theorem returnOk (inside : old.call? = some call)
    (enrolled : Enrolled world thread call id)
    (removed : (world.log call).removal = some .notified) :
    Sound (world.finish thread call (.returned .ok)) := by
  refine sound.relog here held rfl inside (.inr ⟨rfl, rfl⟩) (.inr ?_)
    (by rintro ⟨⟩) ⟨enrolled.equal, removed⟩ trivial
  rw [removed]
  rintro ⟨⟩

end

omit [DecidableEq Thread] in
theorem unsignalled (waiting : (world.log call).removal = none) :
    (world.log call).signalled = false := by
  apply Bool.eq_false_iff.mpr
  intro signalled
  rw [sound.signalled call signalled] at waiting
  cases waiting

end

end

theorem position_eq_of_number (below : position + 1 < 2 ^ 64)
    (belowToo : elsewhere + 1 < 2 ^ 64)
    (same : UInt64.ofNat (position + 1) = UInt64.ofNat (elsewhere + 1)) :
    position = elsewhere := by
  have numbers := congrArg UInt64.toNat same
  rw [UInt64.toNat_ofNat', UInt64.toNat_ofNat', Nat.mod_eq_of_lt below,
    Nat.mod_eq_of_lt belowToo] at numbers
  omega

section

variable (sound : Sound world)

include sound

theorem waiter_inj (few : world.callCount < 2 ^ 64)
    (mine : (world.log call).waiter = some id)
    (theirs : (world.log other).waiter = some id) : call = other := by
  obtain ⟨_, here, rfl⟩ := (sound.numbered call id).mp mine
  obtain ⟨_, there, same⟩ := (sound.numbered other _).mp theirs
  have length : world.registered.length ≤ world.callCount := by
    have inside : world.registered ⊆ List.range world.callCount :=
      fun call member => mem_range.mpr (sound.issued call member)
    have short := (subperm_of_subset sound.distinct inside).length_le
    rwa [length_range] at short
  have below := (List.getElem?_eq_some_iff.mp here).1
  have belowToo := (List.getElem?_eq_some_iff.mp there).1
  have positions := position_eq_of_number (by omega) (by omega) same
  rw [positions, there] at here
  cases here
  rfl

theorem contains_iff (few : world.callCount < 2 ^ 64)
    (enrolled : Enrolled world thread call id) :
    world.coordinator.contains id = true ↔ (world.log call).removal = none := by
  rw [AtomicCoordinator.contains, any_eq_true]
  constructor
  · intro queued
    obtain ⟨waiter, member, same⟩ := queued
    rw [beq_iff_eq] at same
    obtain ⟨known, _, waiting⟩ := sound.entries waiter member
    rw [same] at known
    rw [sound.waiter_inj few enrolled.waiter known]
    exact waiting
  · intro waiting
    rcases enrolled.queued with queued | removed
    · exact ⟨_, queued.2, beq_self_eq_true id⟩
    · rw [waiting] at removed
      cases removed

theorem removal_of_not_contains (few : world.callCount < 2 ^ 64)
    (enrolled : Enrolled world thread call id)
    (gone : world.coordinator.contains id = false) :
    (world.log call).removal = some .notified := by
  rcases enrolled.queued with queued | removed
  · rw [(sound.contains_iff few enrolled).mpr queued.1] at gone
    cases gone
  · exact removed

theorem length_registered_lt (below : call < world.callCount)
    (unregistered : (world.log call).waiter = none) :
    call ∉ world.registered ∧ world.registered.length < world.callCount := by
  have absent : call ∉ world.registered := by
    intro member
    obtain ⟨position, here⟩ := mem_iff_getElem?.mp member
    have known := (sound.numbered call _).mpr ⟨position, here, rfl⟩
    rw [unregistered] at known
    cases known
  refine ⟨absent, ?_⟩
  have inside : call :: world.registered ⊆ range world.callCount := by
    intro other member
    rcases mem_cons.mp member with same | member
    · exact same ▸ mem_range.mpr below
    · exact mem_range.mpr (sound.issued other member)
  have distinct := nodup_cons.mpr ⟨absent, sound.distinct⟩
  have short := (subperm_of_subset distinct inside).length_le
  rwa [length_range] at short

theorem allocateWaiterId (room : world.registered.length + 1 < 2 ^ 64) :
    world.coordinator.allocateWaiterId = some (world.coordinator.nextWaiterId,
        { world.coordinator with
          nextWaiterId := world.coordinator.nextWaiterId + 1 }) := by
  have unused : world.coordinator.contains
      world.coordinator.nextWaiterId = false := by
    rw [AtomicCoordinator.contains, any_eq_false]
    intro waiter member same
    rw [beq_iff_eq] at same
    obtain ⟨known, _, _⟩ := sound.entries waiter member
    obtain ⟨_, here, numbered⟩ := (sound.numbered _ _).mp known
    have below := (List.getElem?_eq_some_iff.mp here).1
    rw [same, sound.clock] at numbered
    have positions := position_eq_of_number room (by omega) numbered
    omega
  simp [AtomicCoordinator.allocateWaiterId, AtomicCoordinator.unusedFrom,
    unused]

variable {waiter : WaiterRegistration}

theorem mem_eraseIdx (here : world.coordinator.waiters[index]? = some waiter)
    (other : WaiterRegistration) :
    other ∈ world.coordinator.waiters.eraseIdx index ↔
      other ∈ world.coordinator.waiters ∧ other.signal ≠ waiter.signal := by
  have distinct := sound.distinct.sublist sound.order
  rw [mem_eraseIdx_iff_getElem?]
  constructor
  · rintro ⟨position, apart, there⟩
    refine ⟨mem_of_getElem? there, fun same => apart ?_⟩
    have below := (List.getElem?_eq_some_iff.mp there).1
    refine (getElem?_inj (by rwa [length_map]) distinct).mp ?_
    rw [getElem?_map, getElem?_map, there, here, Option.map_some,
      Option.map_some, same]
  · rintro ⟨member, different⟩
    obtain ⟨position, there⟩ := mem_iff_getElem?.mp member
    refine ⟨position, ?_, there⟩
    rintro rfl
    rw [there] at here
    cases here
    exact different rfl

end

end Sound

theorem AtomicCoordinator.remove_eq_some {coordinator after : AtomicCoordinator}
    (removed : coordinator.remove id = some (waiter, after)) :
    ∃ index, coordinator.waiters[index]? = some waiter ∧ waiter.id = id ∧
      after = coordinator.removeAt index := by
  obtain ⟨_, here, same⟩ := Option.map_eq_some_iff.mp removed
  cases same
  refine ⟨_, here, ?_, rfl⟩
  obtain ⟨below, rfl⟩ := List.getElem?_eq_some_iff.mp here
  have holds := findIdx_getElem (w := below)
  exact beq_iff_eq.mp holds

end QuickJsOxide.Atomics
