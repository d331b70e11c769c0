import Mathlib.Data.UInt
import Mathlib.Logic.Function.Basic
import QuickJsOxide.Library.TransitionSystem

namespace QuickJsOxide.Atomics

open Library

/-! The coordinator of `wait` and `notify`. -/

structure WaitLocation where
  backingId : UInt64
  byteOffset : Nat
deriving Repr, DecidableEq

inductive WaitOutcome where
  | notEqual
  | ok
  | timedOut
deriving Repr, DecidableEq

/-- The number of a call of `wait`. Each call makes a condition variable of its
own, so the number also stands for that variable. -/
abbrev CallId := Nat

structure WaiterRegistration where
  id : UInt64
  location : WaitLocation
  signal : CallId
deriving Repr

structure AtomicCoordinator where
  nextWaiterId : UInt64
  waiters : List WaiterRegistration
deriving Repr

namespace AtomicCoordinator

def new : AtomicCoordinator := ⟨1, []⟩

variable (coordinator : AtomicCoordinator)

def contains (id : UInt64) : Bool :=
  coordinator.waiters.any fun waiter => waiter.id == id

/-- The loop of `allocate_waiter_id`: the first identity from `next` on that no
waiter has, and the identity after it. -/
def unusedFrom (coordinator : AtomicCoordinator) :
    Nat → UInt64 → Option (UInt64 × UInt64)
  | 0, _ => none
  | tries + 1, next =>
    if coordinator.contains next then
      coordinator.unusedFrom tries (next + 1)
    else some (next, next + 1)

/-- One of the first `waiters.len() + 1` identities is unused. -/
def allocateWaiterId : Option (UInt64 × AtomicCoordinator) :=
  (coordinator.unusedFrom (coordinator.waiters.length + 1)
    coordinator.nextWaiterId).map fun (id, next) =>
      (id, { coordinator with nextWaiterId := next })

def pushBack (waiter : WaiterRegistration) : AtomicCoordinator :=
  { coordinator with waiters := coordinator.waiters ++ [waiter] }

def removeAt (index : Nat) : AtomicCoordinator :=
  { coordinator with waiters := coordinator.waiters.eraseIdx index }

def remove (id : UInt64) : Option (WaiterRegistration × AtomicCoordinator) :=
  let index := coordinator.waiters.findIdx fun waiter => waiter.id == id
  (coordinator.waiters[index]?).map fun waiter =>
    (waiter, coordinator.removeAt index)

end AtomicCoordinator

/-! Threads. A thread that is inside `wait`, `notify` or `with_seq_cst` is at
one of the points below; the lock is held at some of them. -/

/-- The variables of the loop of `notify`, with the queue it found and the
waiters it took out of it. -/
structure Scan where
  location : WaitLocation
  count : Nat
  notified : Nat
  index : Nat
  found : List WaiterRegistration
  removed : List WaiterRegistration
deriving Repr

inductive Phase where
  /-- Outside the coordinator. -/
  | idle
  /-- `wait` asks for the lock. -/
  | entering (call : CallId)
  /-- `compare` runs. -/
  | comparing (call : CallId)
  /-- `compare` answered that the value is the expected one. -/
  | registering (call : CallId)
  /-- The condition of the loop without a timeout. -/
  | checking (call : CallId) (id : UInt64)
  /-- About to call `wait_timeout`. -/
  | parking (call : CallId) (id : UInt64) (remaining : Nat)
  /-- Inside the condition variable, until a given time if it has a timeout. -/
  | asleep (call : CallId) (id : UInt64) (limit : Option Nat)
  /-- Out of the condition variable and in need of the lock. -/
  | woken (call : CallId) (id : UInt64) (expired : Bool)
  /-- `wait_timeout` has returned. -/
  | examining (call : CallId) (id : UInt64) (expired : Bool)
  /-- `notify` asks for the lock. -/
  | notifyEntering (location : WaitLocation) (count : Nat)
  /-- The condition of the loop of `notify`. -/
  | notifying (scan : Scan)
  /-- About to signal a waiter that was taken out of the queue. -/
  | signalling (scan : Scan) (waiter : WaiterRegistration)
  /-- `with_seq_cst` asks for the lock. -/
  | gateEntering
  /-- The operation of `with_seq_cst` runs. -/
  | gate
deriving Repr

def Phase.call? : Phase → Option CallId
  | entering call | comparing call | registering call | checking call _ |
      parking call _ _ | asleep call _ _ | woken call _ _ |
      examining call _ _ => some call
  | _ => none

def Phase.holdsLock : Phase → Bool
  | comparing _ | registering _ | checking _ _ | parking _ _ _ |
      examining _ _ _ | notifying _ | signalling _ _ | gate => true
  | _ => false

/-- What `compare` answers. A failure is an error or a panic. -/
inductive Comparison where
  | equal
  | different
  | failed
deriving Repr, DecidableEq

inductive Removal where
  | notified
  | expired (time : Nat)
deriving Repr

inductive WaitResult where
  | returned (outcome : WaitOutcome)
  | failed
deriving Repr, DecidableEq

structure CallLog (Thread : Type) where
  caller : Option Thread
  location : WaitLocation
  timeout : Option Nat
  compared : Option Comparison
  waiter : Option UInt64
  started : Nat
  removal : Option Removal
  signalled : Bool
  result : Option WaitResult

def CallLog.empty {Thread : Type} : CallLog Thread :=
  ⟨none, ⟨0, 0⟩, none, none, none, 0, none, false, none⟩

def CallLog.opened {Thread : Type} (caller : Thread) (location : WaitLocation)
    (timeout : Option Nat) : CallLog Thread :=
  ⟨some caller, location, timeout, none, none, 0, none, false, none⟩

/-- A finished call of `notify`: the queue it found, the waiters it took out,
the queue it left and its answer. -/
structure Notification where
  location : WaitLocation
  count : Nat
  found : List WaiterRegistration
  removed : List WaiterRegistration
  left : List WaiterRegistration
  answer : Nat
deriving Repr

/-- The coordinator, its lock, the threads and the clock, with a log of the
calls and of the order in which they registered. -/
structure World (Thread : Type) where
  coordinator : AtomicCoordinator
  owner : Option Thread
  phase : Thread → Phase
  now : Nat
  callCount : Nat
  log : CallId → CallLog Thread
  registered : List CallId
  notifications : List Notification

namespace World

variable {Thread : Type} [DecidableEq Thread]

def initial : World Thread :=
  ⟨.new, none, fun _ => .idle, 0, 0, fun _ => .empty, [], []⟩

variable (world : World Thread) (thread : Thread)

def goto (phase : Phase) : World Thread :=
  { world with phase := Function.update world.phase thread phase }

def acquire (phase : Phase) : World Thread :=
  { world.goto thread phase with owner := some thread }

def release (phase : Phase) : World Thread :=
  { world.goto thread phase with owner := none }

def record (world : World Thread) (call : CallId)
    (change : CallLog Thread → CallLog Thread) : World Thread :=
  { world with
    log := Function.update world.log call (change (world.log call)) }

def finish (call : CallId) (result : WaitResult) : World Thread :=
  (world.record call fun log => { log with result := some result }).release
    thread .idle

def withCoordinator (world : World Thread) (coordinator : AtomicCoordinator) :
    World Thread :=
  { world with coordinator }

end World

inductive Action where
  | callWait (location : WaitLocation) (timeout : Option Nat)
  | enter
  | compare (comparison : Comparison)
  | register
  | check
  | park
  | wake (expired : Bool)
  | examine
  | callNotify (location : WaitLocation) (count : Nat)
  | scan
  | signal
  | callGate
  | leaveGate
deriving Repr

inductive Label (Thread : Type) where
  | act (thread : Thread) (action : Action)
  | tick

section

variable {Thread : Type} [DecidableEq Thread]

def Phase.ofTimeout (call : CallId) (id : UInt64) : Option Nat → Phase
  | none => .checking call id
  | some timeout => .parking call id timeout

def Phase.resumed (call : CallId) (id : UInt64) (expired : Bool) :
    Option Nat → Phase
  | none => .checking call id
  | some _ => .examining call id expired

inductive Step : World Thread → Label Thread → World Thread → Prop where
  | tick (world : World Thread) :
      Step world .tick { world with now := world.now + 1 }
  | callWait (world : World Thread) (thread : Thread)
      (location : WaitLocation) (timeout : Option Nat)
      (outside : world.phase thread = .idle) :
      Step world (.act thread (.callWait location timeout))
        { (world.record world.callCount fun _ =>
            .opened thread location timeout).goto thread
              (.entering world.callCount) with
          callCount := world.callCount + 1 }
  | enterWait (world : World Thread) (thread : Thread) (call : CallId)
      (here : world.phase thread = .entering call)
      (free : world.owner = none) :
      Step world (.act thread .enter)
        (world.acquire thread (.comparing call))
  | compareEqual (world : World Thread) (thread : Thread) (call : CallId)
      (here : world.phase thread = .comparing call) :
      Step world (.act thread (.compare .equal))
        ((world.record call fun log =>
          { log with compared := some .equal }).goto thread
            (.registering call))
  | compareDifferent (world : World Thread) (thread : Thread) (call : CallId)
      (here : world.phase thread = .comparing call) :
      Step world (.act thread (.compare .different))
        ((world.record call fun log =>
          { log with compared := some .different }).finish thread call
            (.returned .notEqual))
  | compareFailed (world : World Thread) (thread : Thread) (call : CallId)
      (here : world.phase thread = .comparing call) :
      Step world (.act thread (.compare .failed))
        ((world.record call fun log =>
          { log with compared := some .failed }).finish thread call .failed)
  -- the identity, the registration and, with a timeout, the start time
  | register (world : World Thread) (thread : Thread) (call : CallId)
      (id : UInt64) (coordinator : AtomicCoordinator)
      (here : world.phase thread = .registering call)
      (allocated : world.coordinator.allocateWaiterId =
        some (id, coordinator)) :
      Step world (.act thread .register)
        { ((world.record call fun log =>
            { log with waiter := some id, started := world.now }).goto thread
              (.ofTimeout call id (world.log call).timeout)) with
          coordinator :=
            coordinator.pushBack ⟨id, (world.log call).location, call⟩
          registered := world.registered ++ [call] }
  | checkWaiting (world : World Thread) (thread : Thread) (call : CallId)
      (id : UInt64) (here : world.phase thread = .checking call id)
      (queued : world.coordinator.contains id = true) :
      Step world (.act thread .check)
        (world.release thread (.asleep call id none))
  | checkDone (world : World Thread) (thread : Thread) (call : CallId)
      (id : UInt64) (here : world.phase thread = .checking call id)
      (gone : world.coordinator.contains id = false) :
      Step world (.act thread .check)
        (world.finish thread call (.returned .ok))
  | park (world : World Thread) (thread : Thread) (call : CallId)
      (id : UInt64) (remaining : Nat)
      (here : world.phase thread = .parking call id remaining) :
      Step world (.act thread .park)
        (world.release thread (.asleep call id (some (world.now + remaining))))
  -- a wakeup of no cause is always possible
  | wakeSpuriously (world : World Thread) (thread : Thread) (call : CallId)
      (id : UInt64) (limit : Option Nat)
      (here : world.phase thread = .asleep call id limit) :
      Step world (.act thread (.wake false))
        (world.goto thread (.woken call id false))
  | wakeExpired (world : World Thread) (thread : Thread) (call : CallId)
      (id : UInt64) (limit : Nat)
      (here : world.phase thread = .asleep call id (some limit))
      (late : limit ≤ world.now) :
      Step world (.act thread (.wake true))
        (world.goto thread (.woken call id true))
  | enterAgain (world : World Thread) (thread : Thread) (call : CallId)
      (id : UInt64) (expired : Bool)
      (here : world.phase thread = .woken call id expired)
      (free : world.owner = none) :
      Step world (.act thread .enter)
        (world.acquire thread
          (.resumed call id expired (world.log call).timeout))
  | examineDone (world : World Thread) (thread : Thread) (call : CallId)
      (id : UInt64) (expired : Bool)
      (here : world.phase thread = .examining call id expired)
      (gone : world.coordinator.contains id = false) :
      Step world (.act thread .examine)
        (world.finish thread call (.returned .ok))
  | examineExpired (world : World Thread) (thread : Thread) (call : CallId)
      (id : UInt64) (expired : Bool) (timeout : Nat)
      (waiter : WaiterRegistration) (coordinator : AtomicCoordinator)
      (here : world.phase thread = .examining call id expired)
      (queued : world.coordinator.contains id = true)
      (limited : (world.log call).timeout = some timeout)
      (late : expired = true ∨ timeout ≤ world.now - (world.log call).started)
      (removed : world.coordinator.remove id = some (waiter, coordinator)) :
      Step world (.act thread .examine)
        (((world.withCoordinator coordinator).record call fun log =>
          { log with removal := some (.expired world.now) }).finish thread
            call (.returned .timedOut))
  | examineAgain (world : World Thread) (thread : Thread) (call : CallId)
      (id : UInt64) (timeout : Nat)
      (here : world.phase thread = .examining call id false)
      (queued : world.coordinator.contains id = true)
      (limited : (world.log call).timeout = some timeout)
      (early : world.now - (world.log call).started < timeout) :
      Step world (.act thread .examine)
        (world.goto thread (.parking call id
          (timeout - (world.now - (world.log call).started))))
  | callNotify (world : World Thread) (thread : Thread)
      (location : WaitLocation) (count : Nat)
      (outside : world.phase thread = .idle) :
      Step world (.act thread (.callNotify location count))
        (world.goto thread (.notifyEntering location count))
  | enterNotify (world : World Thread) (thread : Thread)
      (location : WaitLocation) (count : Nat)
      (here : world.phase thread = .notifyEntering location count)
      (free : world.owner = none) :
      Step world (.act thread .enter)
        (world.acquire thread (.notifying
          ⟨location, count, 0, 0, world.coordinator.waiters, []⟩))
  | scanMatch (world : World Thread) (thread : Thread) (scan : Scan)
      (waiter : WaiterRegistration)
      (here : world.phase thread = .notifying scan)
      (wanted : scan.notified < scan.count)
      (inside : world.coordinator.waiters[scan.index]? = some waiter)
      (matched : waiter.location = scan.location) :
      Step world (.act thread .scan)
        (((world.withCoordinator
            (world.coordinator.removeAt scan.index)).record waiter.signal
              fun log => { log with removal := some .notified }).goto thread
                (.signalling
                  { scan with removed := scan.removed ++ [waiter] } waiter))
  | scanOther (world : World Thread) (thread : Thread) (scan : Scan)
      (waiter : WaiterRegistration)
      (here : world.phase thread = .notifying scan)
      (wanted : scan.notified < scan.count)
      (inside : world.coordinator.waiters[scan.index]? = some waiter)
      (elsewhere : waiter.location ≠ scan.location) :
      Step world (.act thread .scan)
        (world.goto thread (.notifying { scan with index := scan.index + 1 }))
  | scanDone (world : World Thread) (thread : Thread) (scan : Scan)
      (here : world.phase thread = .notifying scan)
      (finished : ¬ (scan.notified < scan.count ∧
        scan.index < world.coordinator.waiters.length)) :
      Step world (.act thread .scan)
        { world.release thread .idle with
          notifications := world.notifications ++
            [⟨scan.location, scan.count, scan.found, scan.removed,
              world.coordinator.waiters, scan.notified⟩] }
  -- `notify_one` wakes a thread that sleeps on the variable, if there is one
  | signalWaking (world : World Thread) (thread : Thread) (scan : Scan)
      (waiter : WaiterRegistration) (sleeper : Thread) (id : UInt64)
      (limit : Option Nat)
      (here : world.phase thread = .signalling scan waiter)
      (sleeping : world.phase sleeper = .asleep waiter.signal id limit) :
      Step world (.act thread .signal)
        (((world.record waiter.signal fun log =>
          { log with signalled := true }).goto sleeper
            (.woken waiter.signal id false)).goto thread
              (.notifying { scan with notified := scan.notified + 1 }))
  | signalNobody (world : World Thread) (thread : Thread) (scan : Scan)
      (waiter : WaiterRegistration)
      (here : world.phase thread = .signalling scan waiter)
      (nobody : ∀ sleeper id limit,
        world.phase sleeper ≠ .asleep waiter.signal id limit) :
      Step world (.act thread .signal)
        ((world.record waiter.signal fun log =>
          { log with signalled := true }).goto thread
            (.notifying { scan with notified := scan.notified + 1 }))
  | callGate (world : World Thread) (thread : Thread)
      (outside : world.phase thread = .idle) :
      Step world (.act thread .callGate) (world.goto thread .gateEntering)
  | enterGate (world : World Thread) (thread : Thread)
      (here : world.phase thread = .gateEntering)
      (free : world.owner = none) :
      Step world (.act thread .enter) (world.acquire thread .gate)
  -- the operation returned or panicked; the lock is recovered either way
  | leaveGate (world : World Thread) (thread : Thread)
      (here : world.phase thread = .gate) :
      Step world (.act thread .leaveGate) (world.release thread .idle)

def coordination (Thread : Type) [DecidableEq Thread] :
    TransitionSystem (World Thread) (Label Thread) where
  initial world := world = .initial
  step := Step

end

end QuickJsOxide.Atomics
