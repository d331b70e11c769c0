import QuickJsOxide.Atomics.WaiterInvariant

namespace QuickJsOxide.Atomics

open Library Function List

variable {Thread : Type}

theorem exists_getElem?_concat {holds : Nat → Prop} :
    (∃ position, (calls ++ [last])[position]? = some call ∧ holds position) ↔
      (∃ position, calls[position]? = some call ∧ holds position) ∨
        last = call ∧ holds calls.length := by
  constructor
  · intro ⟨position, located, held⟩
    rcases Nat.lt_trichotomy position calls.length with early | rfl | late
    · rw [List.getElem?_append_left early] at located
      exact .inl ⟨position, located, held⟩
    · rw [List.getElem?_concat_length] at located
      exact .inr ⟨Option.some.inj located, held⟩
    · rw [List.getElem?_eq_none (by rw [List.length_append]; exact late)] at located
      cases located
  · rintro (⟨position, located, held⟩ | ⟨rfl, held⟩)
    · have early := (List.getElem?_eq_some_iff.mp located).1
      exact ⟨position, (List.getElem?_append_left early).trans located, held⟩
    · exact ⟨calls.length, List.getElem?_concat_length, held⟩

namespace Sound

variable {world after : World Thread}

section

variable (sound : Sound world)

include sound

theorem tick : Sound { world with now := world.now + 1 } :=
  { sound with
    fits := fun thread =>
      (sound.fits thread).keep rfl rfl rfl (Nat.le_succ _) }

theorem notification {notification : Notification}
    (exact : notification.Exact world.registered) : Sound { world with
      notifications := world.notifications ++ [notification] } :=
  { sound with
    fits := fun thread => (sound.fits thread).keep rfl rfl rfl le_rfl
    notifications := by
      intro other member
      rcases mem_append.mp member with old | new
      · exact sound.notifications other old
      · rw [mem_singleton.mp new]
        exact exact }

variable [DecidableEq Thread]

theorem callWait (outside : world.phase thread = .idle) : Sound { world with
      phase := update world.phase thread (.entering world.callCount)
      log := update world.log world.callCount
        (.opened thread location timeout)
      callCount := world.callCount + 1 } := by
  have fresh := sound.unused world.callCount (Nat.le_refl _)
  refine { sound with
    mutex := ?mutex, fits := ?fits, carried := ?carried, unused := ?unused
    entries := ?entries, issued := ?issued, numbered := ?numbered
    settled := sound.settled_write trivial
    signalled := sound.signalled_write (by rintro ⟨⟩), announced := ?announced }
  case mutex =>
    refine sound.mutex_move rfl ?_ fun _ _ => Iff.rfl
    rw [← sound.mutex thread, outside]
    exact Iff.rfl
  case fits =>
    refine fits_move rfl ?_ fun elsewhere _ => (sound.fits elsewhere).frame
      ⟨?_, fun _ _ _ member _ => member, fun _ => rfl, le_rfl, .refl _, ?_⟩
    · refine ⟨?_, ?_, ?_, ?_, ?_⟩ <;> dsimp only <;>
        rw [update_self] <;> rfl
    · intro call inside
      exact update_of_ne (Nat.ne_of_lt (sound.call_lt inside)) ..
    · exact fun call => (field_log CallLog.removal rfl (by rw [fresh]; rfl)
        call).trans
  case carried =>
    intro call (below : call < world.callCount + 1)
    dsimp only
    by_cases new : call = world.callCount
    · refine fun _ => ⟨thread, ?_⟩
      rw [new, update_self]
      rfl
    · rw [update_of_ne new]
      intro pending
      obtain ⟨elsewhere, inside⟩ := sound.carried call (by omega) pending
      refine ⟨elsewhere, ?_⟩
      rw [update_of_ne]
      · exact inside
      · intro here
        rw [here, outside] at inside
        cases inside
  case unused =>
    intro call (beyond : world.callCount + 1 ≤ call)
    dsimp only
    rw [update_of_ne (Nat.ne_of_gt beyond)]
    exact sound.unused call (Nat.le_of_lt beyond)
  case entries =>
    intro entry member
    have known := sound.entries entry member
    dsimp only
    rw [update_of_ne]
    · exact known
    · intro new
      rw [new, fresh] at known
      cases known.1
  case issued =>
    intro call member
    exact Nat.lt_succ_of_lt (sound.issued call member)
  case numbered =>
    intro call id
    rw [field_log CallLog.waiter rfl (by rw [fresh]; rfl)]
    exact sound.numbered call id
  case announced =>
    intro call
    rw [field_log CallLog.removal rfl (by rw [fresh]; rfl),
      field_log CallLog.signalled rfl (by rw [fresh]; rfl)]
    apply sound.announced_move
    rw [outside]
    nofun

variable {coordinator : AtomicCoordinator} {id : UInt64}

theorem register (few : world.callCount < 2 ^ 64)
    (here : world.phase thread = .registering call)
    (allocated : world.coordinator.allocateWaiterId = some (id, coordinator)) :
    Sound { world with
      phase := update world.phase thread
        (.ofTimeout call id (world.log call).timeout)
      log := update world.log call
        { world.log call with waiter := some id, started := world.now }
      coordinator := coordinator.pushBack ⟨id, (world.log call).location, call⟩
      registered := world.registered ++ [call] } := by
  have inside : (world.phase thread).call? = some call := by
    rw [here]
    rfl
  have unregistered : Unregistered world thread call (some .equal) :=
    sound.fits_at here
  have below := sound.call_lt inside
  obtain ⟨absent, shorter⟩ :=
    sound.length_registered_lt below unregistered.waiter
  rw [sound.allocateWaiterId (by omega)] at allocated
  cases allocated
  refine { sound with
    mutex := ?mutex, fits := ?fits, carried := ?carried
    unused := sound.unused_write below
    entries := ?entries, order := ?order, distinct := ?distinct
    issued := ?issued, clock := ?clock, numbered := ?numbered
    settled := sound.settled_write ?settled
    signalled := sound.signalled_write (sound.signalled call)
    announced := ?announced, notifications := ?notifications }
  case mutex =>
    refine sound.mutex_move rfl ?_ fun _ _ => Iff.rfl
    rw [← sound.mutex thread, here]
    cases (world.log call).timeout <;> exact Iff.rfl
  case fits =>
    refine fits_move rfl ?_ fun elsewhere own =>
      (sound.fits elsewhere).frame ?_
    · cases limited : (world.log call).timeout with
      | none =>
        refine ⟨⟨?_, ?_, ?_, ?_, ?_, .inl ⟨?_, ?_⟩⟩, ?_⟩ <;> dsimp only <;>
          rw [update_self]
        exacts [unregistered.caller, unregistered.compared,
          unregistered.pending, unregistered.removal,
          mem_append_right _ mem_cons_self, limited]
      | some timeout =>
        refine ⟨⟨?_, ?_, ?_, ?_, ?_, .inl ⟨?_, ?_⟩⟩, ?_, timeout, ?_, ?_⟩ <;>
          dsimp only <;> rw [update_self]
        exacts [unregistered.caller, unregistered.compared,
          unregistered.pending, unregistered.removal,
          mem_append_right _ mem_cons_self, unregistered.removal,
          limited]
    · refine ⟨?_, ?_, ?_, le_rfl, sublist_append_left _ _, ?_⟩
      · intro theirs within
        apply update_of_ne
        rintro rfl
        exact sound.call_ne own inside within
      · intro _ _ waiter member _
        exact mem_append_left _ member
      · intro holds
        rw [sound.holdsLock_eq_false own here rfl] at holds
        cases holds
      · intro theirs removed
        rw [field_log CallLog.removal rfl (by rfl)]
        exact removed
  case carried =>
    apply sound.carried_move rfl
    · intro theirs unfinished
      rwa [field_log CallLog.result rfl (by rfl)] at unfinished
    · intro theirs within _
      rw [← within, inside]
      cases (world.log call).timeout <;> rfl
  case entries =>
    intro waiter member
    dsimp only
    rcases mem_append.mp member with old | new
    · have known := sound.entries waiter old
      rw [update_of_ne]
      · exact known
      · intro shared
        rw [shared, unregistered.waiter] at known
        cases known.1
    · rw [mem_singleton.mp new, update_self]
      exact ⟨rfl, rfl, unregistered.removal⟩
  case order =>
    dsimp only [AtomicCoordinator.pushBack]
    rw [map_append]
    exact sound.order.append_right _
  case distinct =>
    apply sound.distinct.append (nodup_singleton call)
    simpa using absent
  case issued =>
    intro theirs member
    rcases mem_append.mp member with old | new
    · exact sound.issued theirs old
    · rw [mem_singleton.mp new]
      exact below
  case clock =>
    dsimp only [AtomicCoordinator.pushBack]
    rw [length_append, length_singleton, sound.clock,
      UInt64.ofNat_add (world.registered.length + 1) 1]
    rfl
  case numbered =>
    intro theirs number
    dsimp only
    rw [exists_getElem?_concat, ← sound.numbered theirs number]
    by_cases new : theirs = call
    · rw [new, update_self, unregistered.waiter, sound.clock]
      simp [eq_comm]
    · rw [update_of_ne new]
      simp [Ne.symm new]
  case settled =>
    rw [CallLog.Settled, unregistered.pending]
    trivial
  case announced =>
    intro theirs
    rw [field_log CallLog.removal rfl (by rfl),
      field_log CallLog.signalled rfl (by rfl)]
    exact fun removed => .inl
      (sound.signalled_of_held here rfl (by rintro _ _ ⟨⟩) removed)
  case notifications =>
    intro notification member
    exact (sound.notifications notification member).mono
      (sublist_append_left _ _)

variable {waiter : WaiterRegistration}

theorem examineExpired (few : world.callCount < 2 ^ 64)
    (here : world.phase thread = .examining call id expired)
    (queued : world.coordinator.contains id = true)
    (limited : (world.log call).timeout = some timeout)
    (late : expired = true ∨ timeout ≤ world.now - (world.log call).started)
    (removed : world.coordinator.remove id = some (waiter, coordinator)) :
    Sound (((world.withCoordinator coordinator).record call fun log =>
      { log with removal := some (.expired world.now) }).finish thread call
        (.returned .timedOut)) := by
  obtain ⟨enrolled, _, due⟩ := sound.fits_at here
  have waiting := (sound.contains_iff few enrolled).mp queued
  obtain ⟨_, located, identity, rfl⟩ :=
    AtomicCoordinator.remove_eq_some removed
  have known := sound.entries waiter (mem_of_getElem? located)
  rw [identity] at known
  have signal : call = waiter.signal :=
    sound.waiter_inj few enrolled.waiter known.1
  have elapsed : (world.log call).DueBy world.now := by
    rcases late with expired | elapsed
    · exact due expired
    · refine ⟨timeout, limited, ?_⟩
      have begun := enrolled.begun
      omega
  rw [World.finish, record_record]
  refine sound.act here rfl rfl (.inr ⟨rfl, rfl⟩) (.inr rfl) (by rintro _ _ ⟨⟩) ?_
    rfl (eraseIdx_sublist _ _) (signal ▸ sound.mem_eraseIdx located) rfl ?_
    (by rintro ⟨⟩) ⟨enrolled.equal, world.now, rfl, elapsed⟩ ?_
    (by rintro ⟨⟩) trivial (by rintro ⟨⟩)
  · apply sound.call_lt
    rw [here]
    rfl
  · rw [waiting]
    rintro ⟨⟩
  · intro signalled
    cases (sound.unsignalled waiting).symm.trans signalled

omit [DecidableEq Thread] in
theorem fits_notified (flag : Bool)
    (outside : (world.phase elsewhere).holdsLock = false)
    (inside : (world.phase elsewhere).call? = some call)
    (registered : ¬ Unregistered world elsewhere call none)
    (asleep : ∀ id limit, world.phase elsewhere = .asleep call id limit →
      flag = (world.log call).signalled)
    (mine : after.log call = { world.log call with
      removal := some .notified, signalled := flag })
    (clock : after.now = world.now) :
    Fits after elsewhere (world.phase elsewhere) := by
  have fits := sound.fits elsewhere
  have carry : ∀ {id : UInt64}, Enrolled world elsewhere call id →
      Enrolled after elsewhere call id := by
    intro id enrolled
    refine ⟨?_, ?_, ?_, ?_, ?_, .inr ?_⟩ <;> rw [mine]
    exacts [enrolled.caller, enrolled.equal, enrolled.waiter,
      enrolled.pending, clock ▸ enrolled.begun]
  cases phase : world.phase elsewhere <;> rw [phase] at fits inside outside
  case entering =>
    cases inside
    exact absurd fits registered
  case asleep =>
    cases inside
    refine ⟨carry fits.1, ?_⟩
    rw [mine, asleep _ _ phase]
    exact fits.2
  case woken =>
    cases inside
    refine ⟨carry fits.1, ?_⟩
    rw [mine, clock]
    exact fits.2
  all_goals first | (cases inside; done) | cases outside

omit [DecidableEq Thread] in
theorem left (ended : (world.log call).result ≠ none) :
    ∀ waiter ∈ world.coordinator.waiters, waiter.signal ≠ call := by
  apply sound.unqueued
  have settled := sound.settled call
  obtain ⟨result, returned⟩ := Option.ne_none_iff_exists'.mp ended
  rw [CallLog.Settled, returned] at settled
  cases result with
  | failed => exact .inl settled.2.1
  | returned outcome =>
    cases outcome with
    | notEqual => exact .inl settled.2.1
    | ok =>
      rw [settled.2]
      exact .inr (by rintro ⟨⟩)
    | timedOut =>
      obtain ⟨_, _, removed, _⟩ := settled
      rw [removed]
      exact .inr (by rintro ⟨⟩)

variable {scan : Scan}

theorem scanMatch (here : world.phase thread = .notifying scan)
    (wanted : scan.notified < scan.count)
    (located : world.coordinator.waiters[scan.index]? = some waiter)
    (matched : waiter.location = scan.location) :
    Sound { world with
      coordinator := world.coordinator.removeAt scan.index
      phase := update world.phase thread (.signalling
        { scan with removed := scan.removed ++ [waiter] } waiter)
      log := update world.log waiter.signal
        { world.log waiter.signal with removal := some .notified } } := by
  have member := mem_of_getElem? located
  have known := sound.entries waiter member
  have fitting := sound.fits_at here
  have pending : (world.log waiter.signal).result = none := by
    by_contra ended
    exact sound.left ended waiter member rfl
  refine sound.act here rfl rfl (.inl ⟨rfl, rfl⟩) (.inl rfl) (by rintro _ _ ⟨⟩) ?_
    rfl (eraseIdx_sublist _ _) (sound.mem_eraseIdx located) rfl (fun _ => rfl)
    (fun _ => ⟨pending, rfl⟩) ?_ (fun _ => rfl)
    (fun _ => .inr ⟨_, waiter, rfl, rfl⟩)
    ⟨fitting.1.take located matched ?_ (.refl _) rfl, ?_, ?_⟩ ?_
  · apply Nat.lt_of_not_le
    intro beyond
    rw [sound.unused _ beyond] at known
    cases known.1
  · rw [CallLog.Settled, pending]
    trivial
  · rw [← fitting.2]
    exact wanted
  · rw [length_append, length_singleton, ← fitting.2]
  · dsimp only
    rw [update_self]
  · intro _ other apart inside
    refine sound.fits_notified _ (sound.holdsLock_eq_false apart here rfl)
      inside ?_ (fun _ _ _ => rfl) (update_self ..) rfl
    intro unregistered
    rw [unregistered.waiter] at known
    cases known.1

theorem signal (here : world.phase thread = .signalling scan waiter)
    (nobody : ∀ sleeper id limit,
      world.phase sleeper ≠ .asleep waiter.signal id limit) :
    Sound ((world.record waiter.signal fun log =>
      { log with signalled := true }).goto thread
        (.notifying { scan with notified := scan.notified + 1 })) := by
  obtain ⟨scanned, counted, notified⟩ := sound.fits_at here
  refine sound.act here rfl rfl (.inl ⟨rfl, rfl⟩) (.inl rfl) ?_ ?_ rfl (.refl _) ?_
    rfl (fun removed => removed) (fun pending => ⟨pending, rfl⟩)
    (sound.settled waiter.signal) (fun _ => notified) (fun _ => .inl rfl)
    ⟨⟨scanned.ordered, scanned.bounded, scanned.progress⟩, counted⟩ ?_
  · rintro _ _ ⟨⟩
    rfl
  · apply Nat.lt_of_not_le
    intro beyond
    rw [sound.unused _ beyond] at notified
    cases notified
  · have gone := sound.unqueued (.inr (by rw [notified]; rintro ⟨⟩))
    exact fun entry => ⟨fun member => ⟨member, gone entry member⟩, And.left⟩
  · intro _ other apart inside
    refine sound.fits_notified true (sound.holdsLock_eq_false apart here rfl)
      inside ?_ (fun id limit asleep => absurd asleep (nobody other id limit)) ?_ rfl
    · intro unregistered
      rw [unregistered.removal] at notified
      cases notified
    · rw [← notified]
      exact update_self ..

end

end Sound

section

variable [DecidableEq Thread] {world after : World Thread}

theorem callCount_le_of_step (taken : Step world label after) :
    world.callCount ≤ after.callCount := by
  cases taken <;> first | exact Nat.le_refl _ | exact Nat.le_succ _

theorem Sound.step (sound : Sound world) (few : world.callCount < 2 ^ 64)
    (taken : Step world label after) : Sound after := by
  cases taken with
  | tick => exact sound.tick
  | callWait _ _ _ outside =>
    exact sound.callWait outside
  | enterWait thread call here free =>
    have unregistered : Unregistered world thread call none := sound.fits_at here
    exact sound.acquire here free rfl rfl unregistered
  | compareEqual thread call here =>
    have unregistered : Unregistered world thread call none := sound.fits_at here
    refine sound.relog here rfl rfl rfl (.inl ⟨rfl, rfl⟩) (.inl unregistered.waiter)
      (fun pending => ⟨pending, rfl⟩) ?_ ?_
    · rw [CallLog.Settled, unregistered.pending]
      trivial
    · constructor <;> simp only [World.goto, World.record, update_self]
      exacts [unregistered.caller, unregistered.waiter, unregistered.removal,
        unregistered.pending]
  | compareDifferent thread call here | compareFailed thread call here =>
    have unregistered : Unregistered world thread call none := sound.fits_at here
    rw [World.finish, record_record]
    exact sound.relog here rfl rfl rfl (.inr ⟨rfl, rfl⟩) (.inl unregistered.waiter)
      (by rintro ⟨⟩) ⟨rfl, unregistered.waiter, unregistered.removal⟩ trivial
  | register _ _ _ _ here allocated =>
    exact sound.register few here allocated
  | checkWaiting _ _ _ here queued =>
    obtain ⟨enrolled, _⟩ := sound.fits_at here
    have waiting := (sound.contains_iff few enrolled).mp queued
    exact sound.release here rfl rfl (by rintro _ _ ⟨⟩) rfl
      ⟨enrolled, sound.unsignalled waiting, by rintro _ ⟨⟩⟩
  | checkDone _ _ _ here gone | examineDone _ _ _ _ here gone =>
    obtain ⟨enrolled, _⟩ := sound.fits_at here
    exact sound.returnOk here rfl rfl enrolled
      (sound.removal_of_not_contains few enrolled gone)
  | park _ _ _ _ here =>
    obtain ⟨enrolled, waiting, due⟩ := sound.fits_at here
    refine sound.release here rfl rfl (by rintro _ _ ⟨⟩) rfl
      ⟨enrolled, sound.unsignalled waiting, ?_⟩
    intro time same
    cases same
    exact due
  | wakeSpuriously _ _ _ _ here =>
    obtain ⟨enrolled, _, _⟩ := sound.fits_at here
    exact sound.goto here rfl (by rintro _ _ ⟨⟩) rfl
      ⟨enrolled, by rintro ⟨⟩⟩
  | wakeExpired _ _ _ limit here late =>
    obtain ⟨enrolled, _, due⟩ := sound.fits_at here
    exact sound.goto here rfl (by rintro _ _ ⟨⟩) rfl
      ⟨enrolled, fun _ => (due limit rfl).mono late⟩
  | enterAgain _ call _ _ here free =>
    obtain ⟨enrolled, due⟩ := sound.fits_at here
    cases limited : (world.log call).timeout with
    | none => exact sound.acquire here free rfl rfl ⟨enrolled, limited⟩
    | some =>
      refine sound.acquire here free rfl rfl ⟨enrolled, ?_, due⟩
      rw [limited]
      rintro ⟨⟩
  | examineExpired _ _ _ _ _ _ _ here queued limited late removed =>
    exact sound.examineExpired few here queued limited late removed
  | examineAgain _ _ _ timeout here queued limited =>
    obtain ⟨enrolled, _, _⟩ := sound.fits_at here
    have waiting := (sound.contains_iff few enrolled).mp queued
    refine sound.goto here rfl (by rintro _ _ ⟨⟩) rfl
      ⟨enrolled, waiting, timeout, limited, ?_⟩
    have begun := enrolled.begun
    omega
  | callNotify _ _ _ outside | callGate _ outside =>
    exact sound.goto outside rfl (by rintro _ _ ⟨⟩) rfl trivial
  | enterNotify _ _ _ here free =>
    exact sound.acquire here free rfl rfl
      ⟨⟨sound.order, Nat.zero_le _, [], _, rfl, rfl, rfl, rfl⟩, rfl⟩
  | scanMatch _ _ _ here wanted inside matched =>
    exact sound.scanMatch here wanted inside matched
  | scanOther _ _ _ here _ inside elsewhere =>
    obtain ⟨scanned, counted⟩ := sound.fits_at here
    exact sound.goto here rfl (by rintro _ _ ⟨⟩) rfl
      ⟨scanned.skip inside elsewhere, counted⟩
  | scanDone thread _ here finished =>
    obtain ⟨scanned, counted⟩ := sound.fits_at here
    have released : Sound (world.release thread .idle) :=
      sound.release here rfl rfl (by rintro _ _ ⟨⟩) rfl trivial
    exact released.notification (scanned.exact counted finished)
  | signalWaking thread scan waiter sleeper id limit here sleeping =>
    have apart : sleeper ≠ thread := by
      intro same
      rw [same, here] at sleeping
      cases sleeping
    -- the sleeper could also have woken without a cause
    have woken : Sound (world.goto sleeper (.woken waiter.signal id false)) :=
      sound.goto sleeping rfl (by rintro _ _ ⟨⟩) rfl
        ⟨(sound.fits_at sleeping).1, by rintro ⟨⟩⟩
    have other : (world.goto sleeper (.woken waiter.signal id false)).phase
        thread = .signalling scan waiter :=
      (update_of_ne (Ne.symm apart) ..).trans here
    have inside := congrArg Phase.call? (update_self sleeper
      (Phase.woken waiter.signal id false) world.phase)
    refine woken.signal other fun elsewhere id limit asleep => ?_
    by_cases same : elsewhere = sleeper
    · rw [same] at asleep
      cases (update_self ..).symm.trans asleep
    · exact woken.call_ne same inside (congrArg Phase.call? asleep)
  | signalNobody _ _ _ here nobody => exact sound.signal here nobody
  | enterGate _ here free =>
    exact sound.acquire here free rfl rfl trivial
  | leaveGate _ here =>
    exact sound.release here rfl rfl (by rintro _ _ ⟨⟩) rfl trivial

theorem sound_of_reachable
    (reached : (coordination Thread).Reachable admits world)
    (few : world.callCount < 2 ^ 64) : Sound world := by
  revert few
  apply reached.invariant fun world => world.callCount < 2 ^ 64 → Sound world
  · intro world start _
    rw [start]
    exact sound_initial
  · intro before label after sound _ taken few
    have fewBefore := Nat.lt_of_le_of_lt (callCount_le_of_step taken) few
    exact (sound fewBefore).step fewBefore taken

end

structure Coordinated [DecidableEq Thread] (world : World Thread) :
    Prop where
  /-- A notification answers with the number of waiters it took out, takes as
  many as it was asked for and can find, and takes the earliest ones. -/
  notified : ∀ notification ∈ world.notifications,
    notification.answer = notification.removed.length ∧
      notification.answer = min notification.count
        (notification.found.countP (·.location = notification.location)) ∧
      notification.removed = (notification.found.filter
        (·.location = notification.location)).take notification.count ∧
      notification.found.Perm (notification.removed ++ notification.left) ∧
      (notification.found.map WaiterRegistration.signal).Sublist
        world.registered
  outcome : ∀ call outcome,
    (world.log call).result = some (.returned outcome) →
      (outcome = .ok ↔ (world.log call).removal = some .notified) ∧
      (outcome = .timedOut ↔
        ∃ time, (world.log call).removal = some (.expired time)) ∧
      (∀ time, (world.log call).removal = some (.expired time) →
        (world.log call).DueBy time) ∧
      (outcome = .notEqual ↔ (world.log call).compared = some .different)
  different : ∀ call, (world.log call).compared = some .different →
    call ∉ world.registered
  /-- Once the lock is free a call that compared equal can be notified. -/
  reachable : world.owner = none → ∀ call < world.callCount,
    (world.log call).compared = some .equal →
      (world.log call).result = none →
        (world.log call).removal = some .notified ∨
          ∃ id, ⟨id, (world.log call).location, call⟩ ∈
            world.coordinator.waiters
  /-- A waiter that was taken out is signalled before the lock is free. -/
  signalled : ∀ call, (world.log call).removal = some .notified →
    (world.log call).signalled = true ∨
      ∃ notifier scan waiter, world.owner = some notifier ∧
        world.phase notifier = .signalling scan waiter ∧
        waiter.signal = call
  awake : ∀ thread call id limit,
    world.phase thread = .asleep call id limit →
      (world.log call).signalled = false
  /-- A woken waiter that was taken out needs the lock only. -/
  returns : world.owner = none → ∀ thread call id expired,
    world.phase thread = .woken call id expired →
      (world.log call).removal = some .notified →
        ∃ middle after next, Step world (.act thread .enter) middle ∧
          Step middle (.act thread next) after ∧
          (after.log call).result = some (.returned .ok)
  left : ∀ call, (world.log call).result ≠ none →
    ∀ waiter ∈ world.coordinator.waiters, waiter.signal ≠ call

namespace Sound

variable {world : World Thread}

theorem outcome (sound : Sound world) {outcome : WaitOutcome}
    (returned : (world.log call).result = some (.returned outcome)) :
    (outcome = .ok ↔ (world.log call).removal = some .notified) ∧
      (outcome = .timedOut ↔
        ∃ time, (world.log call).removal = some (.expired time)) ∧
      (∀ time, (world.log call).removal = some (.expired time) →
        (world.log call).DueBy time) ∧
      (outcome = .notEqual ↔ (world.log call).compared = some .different) := by
  have settled := sound.settled call
  rw [CallLog.Settled, returned] at settled
  cases outcome with
  | ok =>
    obtain ⟨compared, removal⟩ := settled
    simp [compared, removal]
  | timedOut =>
    obtain ⟨compared, time, removal, due⟩ := settled
    simpa [compared, removal] using due
  | notEqual =>
    obtain ⟨compared, _, removal⟩ := settled
    simp [compared, removal]

theorem waiter_of_different (sound : Sound world)
    (different : (world.log call).compared = some .different) :
    (world.log call).waiter = none := by
  cases result : (world.log call).result with
  | none =>
    have issued : call < world.callCount := by
      apply Nat.lt_of_not_le
      intro beyond
      rw [sound.unused call beyond] at different
      cases different
    obtain ⟨thread, inside⟩ := sound.carried call issued result
    have fits := sound.fits thread
    cases phase : world.phase thread <;> rw [phase] at fits inside <;>
      cases inside
    case entering.refl => exact Unregistered.waiter fits
    case comparing.refl => exact Unregistered.waiter fits
    case registering.refl => exact Unregistered.waiter fits
    all_goals
      rw [fits.1.equal] at different
      cases different
  | some ended =>
    have settled := sound.settled call
    rw [CallLog.Settled, result] at settled
    cases ended with
    | failed => exact settled.2.1
    | returned outcome =>
      cases outcome with
      | notEqual => exact settled.2.1
      | ok | timedOut =>
        rw [settled.1] at different
        cases different

theorem reachable (sound : Sound world) (free : world.owner = none)
    (issued : call < world.callCount)
    (equal : (world.log call).compared = some .equal)
    (pending : (world.log call).result = none) :
    (world.log call).removal = some .notified ∨
      ∃ id, ⟨id, (world.log call).location, call⟩ ∈
        world.coordinator.waiters := by
  obtain ⟨thread, inside⟩ := sound.carried call issued pending
  have fits := sound.fits thread
  have outside : ¬ (world.phase thread).holdsLock = true := by
    rw [sound.mutex thread, free]
    nofun
  have enrolled : ∃ id, Enrolled world thread call id := by
    cases phase : world.phase thread <;>
      rw [phase] at fits inside outside <;> cases inside
    case entering.refl =>
      rw [Unregistered.compared fits] at equal
      cases equal
    case asleep.refl => exact ⟨_, fits.1⟩
    case woken.refl => exact ⟨_, fits.1⟩
    all_goals exact absurd rfl outside
  obtain ⟨id, enrolled⟩ := enrolled
  rcases enrolled.queued with queued | removed
  · exact .inr ⟨id, queued.2⟩
  · exact .inl removed

theorem returns [DecidableEq Thread] (sound : Sound world)
    (few : world.callCount < 2 ^ 64) (free : world.owner = none) {id : UInt64}
    (woken : world.phase thread = .woken call id expired)
    (removed : (world.log call).removal = some .notified) :
    ∃ middle after next, Step world (.act thread .enter) middle ∧
      Step middle (.act thread next) after ∧
      (after.log call).result = some (.returned .ok) := by
  have fits := sound.fits_at woken
  have gone : world.coordinator.contains id = false := by
    apply Bool.eq_false_iff.mpr
    intro queued
    rw [(sound.contains_iff few fits.1).mp queued] at removed
    cases removed
  have entered := Step.enterAgain world thread call id expired woken free
  have ended : ∀ middle : World Thread,
      ((middle.finish thread call (.returned .ok)).log call).result =
        some (.returned .ok) := by
    intro middle
    simp [World.finish, World.release, World.goto, World.record]
  cases limited : (world.log call).timeout with
  | none =>
    rw [limited] at entered
    exact ⟨_, _, .check, entered,
      .checkDone _ thread call id (update_self ..) gone, ended _⟩
  | some =>
    rw [limited] at entered
    exact ⟨_, _, .examine, entered,
      .examineDone _ thread call id expired (update_self ..) gone,
      ended _⟩

end Sound

theorem Notification.Exact.answer_eq_min {notification : Notification}
    (exact : notification.Exact registered) :
    notification.answer = min notification.count (notification.found.countP
      (·.location = notification.location)) := by
  rw [exact.answer, exact.removed, length_take, countP_eq_length_filter]

section

variable [DecidableEq Thread] {world : World Thread}

/-- In every interleaving of fewer than `2 ^ 64` waits with notifications and
atomic operations, wakeups without a cause included. -/
theorem coordinated_of_reachable
    (reached : (coordination Thread).Reachable (fun _ _ => True) world)
    (few : world.callCount < 2 ^ 64) : Coordinated world := by
  have sound := sound_of_reachable reached few
  refine
    { notified := ?notified, outcome := ?outcome, different := ?different
      reachable := ?reachable, signalled := ?signalled, awake := ?awake
      returns := ?returns, left := ?left }
  case notified =>
    intro notification member
    have exact := sound.notifications notification member
    exact ⟨exact.answer, exact.answer_eq_min, exact.removed, exact.split,
      exact.ordered⟩
  case outcome =>
    intro call outcome returned
    exact sound.outcome returned
  case different =>
    intro call different member
    obtain ⟨position, located⟩ := mem_iff_getElem?.mp member
    have known := (sound.numbered call _).mpr ⟨position, located, rfl⟩
    rw [sound.waiter_of_different different] at known
    cases known
  case reachable =>
    intro free call issued equal pending
    exact sound.reachable free issued equal pending
  case signalled =>
    intro call removed
    apply (sound.announced call removed).imp_right
    intro signaller
    obtain ⟨notifier, scan, waiter, signalling, same⟩ := signaller
    refine ⟨notifier, scan, waiter, ?_, signalling, same⟩
    apply (sound.mutex notifier).mp
    rw [signalling]
    rfl
  case awake =>
    intro thread call id limit asleep
    exact (sound.fits_at asleep).2.1
  case returns =>
    intro free thread call id expired woken removed
    exact sound.returns few free woken removed
  case left => exact fun call => sound.left

theorem coordinated_wait_notify : ∃ world : World Nat,
      (coordination Nat).Reachable (fun _ _ => True) world ∧
      world.callCount < 2 ^ 64 ∧ (world.log 0).result = some (.returned .ok) ∧
      world.notifications.map Notification.answer = [1] ∧
      Coordinated world := by
  have r0 : (coordination Nat).Reachable (fun _ _ => True) .initial :=
    .initial _ rfl
  have r1 := r0.step _ _ _ trivial (.callWait _ 0 ⟨7, 4⟩ none rfl)
  have r2 := r1.step _ _ _ trivial (.enterWait _ 0 0 rfl rfl)
  have r3 := r2.step _ _ _ trivial (.compareEqual _ 0 0 rfl)
  have r4 := r3.step _ _ _ trivial (.register _ 0 0 1 ⟨2, []⟩ rfl rfl)
  have r5 := r4.step _ _ _ trivial (.checkWaiting _ 0 0 1 rfl rfl)
  have r6 := r5.step _ _ _ trivial (.callNotify _ 1 ⟨7, 4⟩ 3 rfl)
  have r7 := r6.step _ _ _ trivial (.enterNotify _ 1 ⟨7, 4⟩ 3 rfl rfl)
  have r8 := r7.step _ _ _ trivial
    (.scanMatch _ 1 _ ⟨1, ⟨7, 4⟩, 0⟩ rfl (by decide) rfl rfl)
  have r9 := r8.step _ _ _ trivial
    (.signalWaking _ 1 _ _ 0 1 none rfl rfl)
  have r10 := r9.step _ _ _ trivial (.scanDone _ 1 _ rfl (by decide))
  have r11 := r10.step _ _ _ trivial (.enterAgain _ 0 0 1 false rfl rfl)
  have r12 := r11.step _ _ _ trivial (.checkDone _ 0 0 1 rfl rfl)
  exact ⟨_, r12, by decide, rfl, rfl, coordinated_of_reachable r12 (by decide)⟩

end

end QuickJsOxide.Atomics
