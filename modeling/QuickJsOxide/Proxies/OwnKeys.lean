import Mathlib.Data.Finset.Insert
import QuickJsOxide.Atoms.Spelling

namespace QuickJsOxide.Proxies

open Atoms

/-! The own keys of a proxy, as a step that is resumed with one reply after
another. The replies come from user code and are arbitrary. -/

inductive PropertyKey where
  | string (text : Units)
  | symbol (id : Nat)
  | privateName (id : Nat)
deriving DecidableEq

inductive JsValue where
  | string (text : Units)
  | symbol (id : Nat)
  | other (id : Nat)

inductive Thrown where
  | typeError (message : String)
  | value (value : JsValue)

inductive NativeConversion (α : Type) where
  | value (value : α)
  | throw (thrown : JsValue)

inductive RuntimeError where
  | invariant (message : String)

structure Check where
  keys : List PropertyKey
  atoms : Finset PropertyKey
  extensible : Bool
  remaining : List PropertyKey

inductive Phase where
  | method
  | forward
  | trap
  | length
  | number
  | item (length : UInt32) (keys : List PropertyKey)
  | extensible (keys : List PropertyKey) (atoms : Finset PropertyKey)
  | targetKeys (keys : List PropertyKey) (atoms : Finset PropertyKey)
      (extensible : Bool)
  | descriptor (state : Check) (key : PropertyKey)

inductive KeysStep where
  | complete (keys : List PropertyKey)
  | throw (thrown : Thrown)
  | request (phase : Phase)

structure Descriptor where
  configurable : Bool

/-- A number is given by what it is as a `u32`. -/
inductive Reply where
  | completion (result : NativeConversion JsValue)
  | number (result : NativeConversion UInt32)
  | boolean (result : NativeConversion Bool)
  | keys (result : NativeConversion (List PropertyKey))
  | descriptor (result : NativeConversion (Option Descriptor))

/-- How far the lookup of the trap is; it ends with a trap or without one. -/
inductive MethodStep where
  | read
  | throw (thrown : JsValue)
  | complete (trapped : Bool)

/-- A reply, with what the runtime answers while the step handles it: what the
lookup of the trap makes of it, whether the proxy is revoked by now and whether
the vector or set can be allocated. -/
structure Turn where
  reply : Reply
  lookup : MethodStep
  revoked : Bool
  reserves : Bool

def propertyKeyFromPrimitive : JsValue → Option PropertyKey
  | .string text => some (.string text)
  | .symbol id => some (.symbol id)
  | .other _ => none

def method : MethodStep → KeysStep
  | .read => .request .method
  | .throw thrown => .throw (.value thrown)
  | .complete trapped => .request (if trapped then .trap else .forward)

def fail (message : String) : KeysStep := .throw (.typeError message)

def proxyRevokedThrow : KeysStep := fail "revoked proxy"

def insertAtoms : List PropertyKey → Finset PropertyKey →
    Option (Finset PropertyKey)
  | [], atoms => some atoms
  | key :: rest, atoms =>
    if key ∈ atoms then none else insertAtoms rest (insert key atoms)

def items (length : UInt32) (keys : List PropertyKey) (reserves : Bool) :
    Except RuntimeError KeysStep :=
  if keys.length < length.toNat then .ok (.request (.item length keys))
  else if !reserves then
    .error (.invariant "Proxy ownKeys set allocation failed")
  else
    match insertAtoms keys ∅ with
    | none => .ok (fail "proxy: duplicate property")
    | some atoms => .ok (.request (.extensible keys atoms))

def checkNext (state : Check) (revoked : Bool) : KeysStep :=
  match state.remaining with
  | key :: remaining =>
    if revoked then proxyRevokedThrow
    else .request (.descriptor { state with remaining } key)
  | [] =>
    if !state.extensible && state.atoms ≠ ∅ then
      fail ("proxy: property not present in target were returned by non " ++
        "extensible proxy")
    else .complete state.keys

/-- The keys of the list that no key of the target has accounted for yet,
unless this one is missing. -/
def account (state : Check) (key : PropertyKey) :
    Option Descriptor → Option (Finset PropertyKey)
  | none => some state.atoms
  | some descriptor =>
    if !state.extensible then
      if key ∈ state.atoms then some (state.atoms.erase key) else none
    else if !descriptor.configurable && key ∉ state.atoms then none
    else some state.atoms

/-- What is thrown completes the step. -/
def receive (result : NativeConversion α)
    (next : α → Except RuntimeError KeysStep) : Except RuntimeError KeysStep :=
  match result with
  | .value value => next value
  | .throw thrown => .ok (.throw (.value thrown))

namespace KeysResume

def resume (phase : Phase) (turn : Turn) (result : NativeConversion JsValue) :
    Except RuntimeError KeysStep :=
  match phase with
  | .method => receive result fun _ => .ok (method turn.lookup)
  | .trap => receive result fun _ => .ok (.request .length)
  | .length => receive result fun _ => .ok (.request .number)
  | .item length keys => receive result fun value =>
    match propertyKeyFromPrimitive value with
    | none => .ok (fail "proxy: properties must be strings or symbols")
    | some key => items length (keys ++ [key]) turn.reserves
  | _ => .error (.invariant "ownKeys received an unexpected resume reply")

def number (phase : Phase) (turn : Turn) (result : NativeConversion UInt32) :
    Except RuntimeError KeysStep :=
  match phase with
  | .number => receive result fun length =>
    if turn.reserves then items length [] turn.reserves
    else .error (.invariant "Proxy ownKeys list allocation failed")
  | _ => .error (.invariant "ownKeys received an unexpected number reply")

def boolean (phase : Phase) (turn : Turn) (result : NativeConversion Bool) :
    Except RuntimeError KeysStep :=
  match phase with
  | .extensible keys atoms => receive result fun extensible =>
    if turn.revoked then .ok proxyRevokedThrow
    else .ok (.request (.targetKeys keys atoms extensible))
  | _ => .error (.invariant "ownKeys received an unexpected boolean reply")

def keys (phase : Phase) (turn : Turn)
    (result : NativeConversion (List PropertyKey)) :
    Except RuntimeError KeysStep :=
  match phase with
  | .forward => receive result fun keys => .ok (.complete keys)
  | .targetKeys keys atoms extensible => receive result fun remaining =>
    .ok (checkNext { keys, atoms, extensible, remaining } turn.revoked)
  | _ => .error (.invariant "ownKeys received an unexpected keys reply")

def descriptor (phase : Phase) (turn : Turn)
    (result : NativeConversion (Option Descriptor)) :
    Except RuntimeError KeysStep :=
  match phase with
  | .descriptor state key => receive result fun descriptor =>
    match account state key descriptor with
    | none =>
      .ok (fail "proxy: target property must be present in proxy ownKeys")
    | some atoms => .ok (checkNext { state with atoms } turn.revoked)
  | _ => .error (.invariant "ownKeys received an unexpected descriptor reply")

def answer (phase : Phase) (turn : Turn) : Except RuntimeError KeysStep :=
  match turn.reply with
  | .completion result => resume phase turn result
  | .number result => number phase turn result
  | .boolean result => boolean phase turn result
  | .keys result => keys phase turn result
  | .descriptor result => descriptor phase turn result

end KeysResume

inductive Drives : KeysStep → List Turn → KeysStep → Prop
  | done : Drives step [] step
  | next (answers : KeysResume.answer phase turn = .ok step)
      (rest : Drives step turns last) :
      Drives (.request phase) (turn :: turns) last

def Reply.throws : Reply → Option JsValue
  | .completion (.throw value) | .number (.throw value)
  | .boolean (.throw value) | .keys (.throw value)
  | .descriptor (.throw value) => some value
  | _ => none

inductive Continues : Phase → Turn → KeysStep → Prop
  | looked (reply : turn.reply = .completion (.value value)) :
      Continues .method turn (method turn.lookup)
  | forwarded (reply : turn.reply = .keys (.value keys)) :
      Continues .forward turn (.complete keys)
  | called (reply : turn.reply = .completion (.value value)) :
      Continues .trap turn (.request .length)
  | measured (reply : turn.reply = .completion (.value value)) :
      Continues .length turn (.request .number)
  | counted (reply : turn.reply = .number (.value length))
      (starts : items length [] turn.reserves = .ok step) :
      Continues .number turn step
  | item (reply : turn.reply = .completion (.value value))
      (named : propertyKeyFromPrimitive value = some key)
      (starts : items length (keys ++ [key]) turn.reserves = .ok step) :
      Continues (.item length keys) turn step
  | extensible (reply : turn.reply = .boolean (.value extensible)) :
      Continues (.extensible keys atoms) turn
        (.request (.targetKeys keys atoms extensible))
  | listed (reply : turn.reply = .keys (.value remaining)) :
      Continues (.targetKeys keys atoms extensible) turn
        (checkNext { keys, atoms, extensible, remaining } turn.revoked)
  | described (reply : turn.reply = .descriptor (.value descriptor))
      (accounted : account state key descriptor = some atoms) :
      Continues (.descriptor state key) turn
        (checkNext { state with atoms } turn.revoked)

theorem answer_cases (answers : KeysResume.answer phase turn = .ok step) :
    (∃ value, turn.reply.throws = some value ∧ step = .throw (.value value)) ∨
      (∃ message, step = .throw (.typeError message)) ∨
      Continues phase turn step := by
  obtain ⟨reply, lookup, revoked, reserves⟩ := turn
  rcases reply with (value | value) | (value | value) | (value | value) |
    (value | value) | (value | value) <;> cases phase <;>
    simp only [KeysResume.answer, KeysResume.resume, KeysResume.number,
      KeysResume.boolean, KeysResume.keys, KeysResume.descriptor, receive,
      Except.ok.injEq, reduceCtorEq] at answers
  all_goals try (subst answers; exact .inl ⟨_, rfl, rfl⟩)
  all_goals try (subst answers; exact .inr (.inr (by constructor; rfl)))
  all_goals split at answers
  all_goals try (cases answers; done)
  all_goals try (cases answers; exact .inr (.inl ⟨_, rfl⟩))
  next named => exact .inr (.inr (.item rfl named answers))
  next => exact .inr (.inr (.counted rfl answers))
  next =>
    cases answers
    exact .inr (.inr (.extensible rfl))
  next accounted =>
    cases answers
    exact .inr (.inr (.described rfl accounted))

theorem items_cases (starts : items length found reserves = .ok step) :
    (found.length < length.toNat ∧ step = .request (.item length found)) ∨
      (∃ atoms, length.toNat ≤ found.length ∧
        insertAtoms found ∅ = some atoms ∧
        step = .request (.extensible found atoms)) ∨
      ∃ message, step = .throw (.typeError message) := by
  rw [items] at starts
  split at starts
  next few =>
    cases starts
    exact .inl ⟨few, rfl⟩
  next enough =>
    split at starts
    next => cases starts
    next =>
      split at starts <;> cases starts
      next => exact .inr (.inr ⟨_, rfl⟩)
      next inserted =>
        exact .inr (.inl ⟨_, Nat.le_of_not_lt enough, inserted, rfl⟩)

/-- Once the trap is found, what the step throws by itself is a `TypeError`. -/
theorem answer_throws (answers : KeysResume.answer phase turn = .ok step)
    (found : phase ≠ .method) : step ≠ .request .method ∧
      (step = .throw (.value value) → turn.reply.throws = some value) := by
  rcases answer_cases answers with ⟨_, throws, rfl⟩ | ⟨_, rfl⟩ | continues
  · refine ⟨?_, ?_⟩ <;> rintro ⟨⟩
    exact throws
  · constructor <;> rintro ⟨⟩
  cases continues with
  | looked => exact absurd rfl found
  | counted _ starts | item _ _ starts =>
      rcases items_cases starts with ⟨_, rfl⟩ | ⟨_, _, _, rfl⟩ | ⟨_, rfl⟩ <;>
        constructor <;> rintro ⟨⟩
  | listed | described =>
      unfold checkNext
      split <;> split <;> constructor <;> rintro ⟨⟩
  | forwarded | called | measured | extensible => constructor <;> rintro ⟨⟩

theorem Drives.throws (drives : Drives step turns last)
    (ends : last = .throw (.value value)) (found : step ≠ .request .method) :
    step = .throw (.value value) ∨
      ∃ turn ∈ turns, turn.reply.throws = some value := by
  induction drives with
  | done => exact .inl ends
  | next answers rest induction =>
      obtain ⟨later, throws⟩ :=
        answer_throws answers fun same => found (congrArg _ same)
      rcases induction ends later with thrown | ⟨turn, member, throws⟩
      · exact .inr ⟨_, .head _, throws thrown⟩
      · exact .inr ⟨turn, .tail _ member, throws⟩

theorem Drives.not_thrown :
    ¬ Drives (.throw error) turns (.complete listed) := by
  intro drives
  cases drives

theorem Drives.continues
    (drives : Drives (.request phase) turns (.complete listed)) :
    ∃ turn rest step, turns = turn :: rest ∧ Continues phase turn step ∧
      Drives step rest (.complete listed) := by
  cases drives with
  | next answers rest =>
      rcases answer_cases answers with ⟨_, _, rfl⟩ | ⟨_, rfl⟩ | continues
      · exact rest.not_thrown.elim
      · exact rest.not_thrown.elim
      · exact ⟨_, _, _, rfl, continues, rest⟩

theorem mem_insertAtoms (inserted : insertAtoms added atoms = some all) :
    added.Nodup ∧ (∀ key ∈ added, key ∉ atoms) ∧
      ∀ key, key ∈ all ↔ key ∈ atoms ∨ key ∈ added := by
  induction added generalizing atoms with
  | nil => simp_all [insertAtoms]
  | cons first rest induction =>
      rw [insertAtoms] at inserted
      split at inserted
      next => cases inserted
      next fresh =>
        obtain ⟨distinct, apart, members⟩ := induction inserted
        grind

theorem insertAtoms_of_nodup (distinct : added.Nodup)
    (apart : ∀ key ∈ added, key ∉ atoms) :
    ∃ all, insertAtoms added atoms = some all := by
  induction added generalizing atoms with
  | nil => exact ⟨atoms, rfl⟩
  | cons key rest induction =>
      rw [insertAtoms, if_neg (apart key (.head _))]
      apply induction <;> grind

theorem items_ok (length : UInt32) (found : List PropertyKey) :
    ∃ step, items length found true = .ok step := by
  unfold items
  split
  · exact ⟨_, rfl⟩
  · rw [if_neg (by decide)]
    split <;> exact ⟨_, rfl⟩

def Phase.Expects : Phase → Reply → Prop
  | .method, .completion _ | .trap, .completion _ | .length, .completion _
  | .item .., .completion _ | .number, .number _ | .extensible .., .boolean _
  | .forward, .keys _ | .targetKeys .., .keys _
  | .descriptor .., .descriptor _ => True
  | _, _ => False

theorem answer_ok (expects : phase.Expects turn.reply)
    (reserves : turn.reserves = true) :
    ∃ step, KeysResume.answer phase turn = .ok step := by
  obtain ⟨reply, lookup, revoked, _⟩ := turn
  subst reserves
  rcases reply with (value | value) | (value | value) | (value | value) |
    (value | value) | (value | value) <;> cases phase <;> cases expects
  all_goals try exact ⟨_, rfl⟩
  all_goals
    simp only [KeysResume.answer, KeysResume.resume, KeysResume.number,
      KeysResume.boolean, KeysResume.descriptor, receive, if_true]
  case number => exact items_ok ..
  all_goals split <;> first | exact ⟨_, rfl⟩ | exact items_ok ..

/-- What the descriptors of the target's keys demand of the list. The target of
a list that has to be exact names no present key twice. -/
structure Accounts (extensible : Bool)
    (described : List (PropertyKey × Option Descriptor))
    (listed : PropertyKey → Prop) : Prop where
  fixed : ∀ key, (key, some ⟨false⟩) ∈ described → listed key
  exact : extensible = false →
    ∀ key, listed key ↔ ∃ descriptor, (key, some descriptor) ∈ described
  once : extensible = false → described.Pairwise fun earlier later =>
    earlier.1 = later.1 → earlier.2.isSome → later.2 = none

theorem accounts_absent_iff :
    Accounts extensible ((key, none) :: described) listed ↔
      Accounts extensible described listed := by
  constructor <;> rintro ⟨fixed, exact, once⟩ <;> constructor
  all_goals simp_all [List.pairwise_cons]

theorem accounts_exact_iff {atoms : Finset PropertyKey} :
    Accounts false ((key, some descriptor) :: described) (· ∈ atoms) ↔
      key ∈ atoms ∧ Accounts false described (· ∈ atoms.erase key) := by
  constructor
  · rintro ⟨fixed, exact, once⟩
    have known := exact rfl
    have apart := (List.pairwise_cons.mp (once rfl)).1
    refine ⟨(known key).mpr ⟨_, .head _⟩, ?_, ?_, fun _ =>
      (List.pairwise_cons.mp (once rfl)).2⟩
    all_goals grind
  · rintro ⟨member, fixed, exact, once⟩
    have known := exact rfl
    have present : ∀ other read, (other, some read) ∈ described →
        other ≠ key ∧ other ∈ atoms := by
      intro other read inside
      exact Finset.mem_erase.mp ((known other).mpr ⟨read, inside⟩)
    refine ⟨?_, fun _ other => ⟨fun listed => ?_, ?_⟩,
      fun _ => List.pairwise_cons.mpr ⟨?_, once rfl⟩⟩
    · grind
    · by_cases same : other = key
      · exact ⟨descriptor, same ▸ .head _⟩
      · obtain ⟨read, inside⟩ :=
          (known other).mp (Finset.mem_erase.mpr ⟨same, listed⟩)
        exact ⟨read, .tail _ inside⟩
    · grind
    · rintro ⟨other, _ | read⟩ inside same _
      · rfl
      · exact absurd same.symm (present other read inside).1

theorem accounts_open_iff :
    Accounts true ((key, some descriptor) :: described) listed ↔
      (descriptor.configurable = false → listed key) ∧
        Accounts true described listed := by
  obtain ⟨configurable⟩ := descriptor
  constructor
  · rintro ⟨fixed, _, _⟩
    refine ⟨?_, ?_, nofun, nofun⟩
    all_goals grind
  · rintro ⟨here, fixed, _, _⟩
    refine ⟨?_, nofun, nofun⟩
    grind

/-- The check of one key demands what its descriptor does. -/
theorem accounts_cons_iff {state : Check} :
    Accounts state.extensible ((key, descriptor) :: described)
        (· ∈ state.atoms) ↔
      ∃ atoms, account state key descriptor = some atoms ∧
        Accounts state.extensible described (· ∈ atoms) := by
  obtain ⟨keys, atoms, extensible, remaining⟩ := state
  cases descriptor with
  | none => simp [account, accounts_absent_iff]
  | some descriptor =>
      cases extensible with
      | false => simp [account, accounts_exact_iff]
      | true =>
          rw [accounts_open_iff]
          by_cases missing : descriptor.configurable = false ∧ key ∉ atoms
          · simp [account, missing]
          · simp only [account, Bool.not_true, Bool.false_eq_true, if_false]
            rw [if_neg (by simpa using missing)]
            simp only [not_and, not_not] at missing
            simpa using fun _ => missing

/-- The check of the keys that remain: it ends with the list only after a
descriptor, or its absence, was reported for each of them. -/
theorem Drives.checked (drives : Drives
      (checkNext ⟨keys, atoms, extensible, remaining⟩ revoked) turns
      (.complete listed)) :
    ∃ descriptors : List (Option Descriptor),
      turns.map Turn.reply =
        descriptors.map (Reply.descriptor ∘ .value) ∧
      descriptors.length = remaining.length ∧ listed = keys ∧
      Accounts extensible (remaining.zip descriptors) (· ∈ atoms) := by
  induction remaining generalizing atoms revoked turns with
  | nil =>
      simp only [checkNext] at drives
      split at drives
      next => exact drives.not_thrown.elim
      next accounted =>
        cases drives
        refine ⟨[], rfl, rfl, rfl, by simp, fun closed key => ?_, by simp⟩
        simp_all
  | cons key rest induction =>
      simp only [checkNext] at drives
      split at drives
      next => exact drives.not_thrown.elim
      next =>
        obtain ⟨_, _, _, rfl, continues, drives⟩ := drives.continues
        cases continues with
        | @described _ _ descriptor _ _ reply accounted =>
            obtain ⟨descriptors, replies, every, rfl, accounts⟩ :=
              induction drives
            exact ⟨descriptor :: descriptors, by simp [reply, replies],
              by simp [every], rfl,
              accounts_cons_iff.mpr ⟨_, accounted, accounts⟩⟩

theorem Drives.itemised (drives : Drives step turns (.complete listed))
    (starts : items length found reserves = .ok step)
    (bound : found.length ≤ length.toNat) :
    ∃ (values : List JsValue) (rest : List Turn) (added atoms : _),
      turns.map Turn.reply =
        values.map (Reply.completion ∘ .value) ++ rest.map Turn.reply ∧
      values.map propertyKeyFromPrimitive = added.map some ∧
      found.length + values.length = length.toNat ∧
      insertAtoms (found ++ added) ∅ = some atoms ∧
      Drives (.request (.extensible (found ++ added) atoms)) rest
        (.complete listed) := by
  induction size : turns.length using Nat.strong_induction_on
    generalizing turns found reserves step with
  | _ size induction =>
      rcases items_cases starts with
        ⟨few, rfl⟩ | ⟨atoms, enough, inserted, rfl⟩ | ⟨_, rfl⟩
      · obtain ⟨_, turns, _, rfl, continues, drives⟩ := drives.continues
        cases continues with
        | @item value key _ _ _ _ reply named starts =>
            obtain ⟨values, rest, added, atoms, replies, keys, counted,
              inserted, ends⟩ :=
                induction turns.length (by simp [← size]) drives starts
                  (by rw [List.length_append]; exact few) rfl
            refine ⟨value :: values, rest, key :: added, atoms, ?_, ?_, ?_,
              ?_, ?_⟩
            · simp [reply, replies]
            · simp [named, keys]
            · rw [← counted]
              simp only [List.length_append, List.length_cons, List.length_nil]
              omega
            · simpa using inserted
            · simpa using ends
      · exact ⟨[], turns, [], atoms, rfl, rfl, Nat.le_antisymm bound enough,
          by simpa, by simpa⟩
      · exact drives.not_thrown.elim

structure Report where
  list : JsValue
  lengthValue : JsValue
  length : UInt32
  items : List JsValue
  extensible : Bool
  targetKeys : List PropertyKey
  descriptors : List (Option Descriptor)

namespace Report

def replies (report : Report) : List Reply :=
  .completion (.value report.list) ::
    .completion (.value report.lengthValue) ::
    .number (.value report.length) ::
    report.items.map (Reply.completion ∘ .value) ++
    .boolean (.value report.extensible) ::
    .keys (.value report.targetKeys) ::
    report.descriptors.map (Reply.descriptor ∘ .value)

/-- There is an item for every index and a descriptor, or its absence, for
every key of the target. -/
structure Full (report : Report) : Prop where
  counted : report.items.length = report.length.toNat
  every : report.descriptors.length = report.targetKeys.length

structure Allows (report : Report) (keys : List PropertyKey) : Prop where
  items : report.items.map propertyKeyFromPrimitive = keys.map some
  named : ∀ id, .privateName id ∉ keys
  distinct : keys.Nodup
  accounts : Accounts report.extensible
    (report.targetKeys.zip report.descriptors) (· ∈ keys)

end Report

theorem not_privateName {values : List JsValue} {keys : List PropertyKey}
    (named : values.map propertyKeyFromPrimitive = keys.map some)
    {id : Nat} (member : .privateName id ∈ keys) : False := by
  have named := named ▸ List.mem_map_of_mem member
  obtain ⟨value, -, named⟩ := List.mem_map.mp named
  cases value <;> cases named

theorem Drives.trapped
    (drives : Drives (.request .trap) turns (.complete listed)) :
    ∃ report : Report, turns.map Turn.reply = report.replies ∧ report.Full ∧
      report.Allows listed := by
  obtain ⟨_, _, _, rfl, ⟨⟩, drives⟩ := drives.continues
  rename_i list trapped
  obtain ⟨_, _, _, rfl, ⟨⟩, drives⟩ := drives.continues
  rename_i size measured
  obtain ⟨_, _, _, rfl, ⟨⟩, drives⟩ := drives.continues
  rename_i length counted starts
  obtain ⟨values, _, keys, atoms, replies, named, filled, inserted, drives⟩ :=
    drives.itemised starts (Nat.zero_le _)
  obtain ⟨_, _, _, rfl, ⟨⟩, drives⟩ := drives.continues
  rename_i extensible asked
  obtain ⟨_, _, _, rfl, ⟨⟩, drives⟩ := drives.continues
  rename_i targetKeys reported
  obtain ⟨descriptors, described, every, rfl, accounts⟩ := drives.checked
  obtain ⟨distinct, -, members⟩ := mem_insertAtoms inserted
  refine ⟨⟨list, size, length, values, extensible, targetKeys, descriptors⟩,
    ?_, ⟨(Nat.zero_add _).symm.trans filled, every⟩, named,
    fun id member => ?_, distinct, by simpa [members] using accounts⟩
  · simp [trapped, measured, counted, replies, asked, reported, described,
      Report.replies]
  · exact not_privateName named member

/-! A report leads to an end. -/

/-- The reply comes while the proxy is not revoked and there is memory. -/
def calm (reply : Reply) : Turn := ⟨reply, .read, false, true⟩

/-- The replies lead to the list that is accepted, or to a `TypeError` when
there is none. -/
def Settles (step : KeysStep) (replies : List Reply)
    (accepts : List PropertyKey → Prop) : Prop :=
  ∃ used last, used <+: replies ∧ Drives step (used.map calm) last ∧
    ((∃ keys, last = .complete keys ∧ accepts keys) ∨
      (∀ keys, ¬ accepts keys) ∧ ∃ message, last = .throw (.typeError message))

namespace Settles

variable {accepts : List PropertyKey → Prop}

theorem thrown (message : String) (replies : List Reply)
    (none : ∀ keys, ¬ accepts keys) :
    Settles (fail message) replies accepts :=
  ⟨[], _, List.nil_prefix, .done, .inr ⟨none, message, rfl⟩⟩

theorem next (answers : KeysResume.answer phase (calm reply) = .ok step)
    (settles : Settles step replies accepts) :
    Settles (.request phase) (reply :: replies) accepts := by
  obtain ⟨used, last, inside, drives, ends⟩ := settles
  exact ⟨reply :: used, last, List.cons_prefix_cons.mpr ⟨rfl, inside⟩,
    .next answers drives, ends⟩

theorem congr (settles : Settles step replies accepts)
    (same : ∀ keys, accepts keys ↔ others keys) :
    Settles step replies others := by
  obtain rfl : accepts = others := funext fun keys => propext (same keys)
  exact settles

theorem checked (every : descriptors.length = remaining.length) :
    Settles (checkNext ⟨keys, atoms, extensible, remaining⟩ false)
      (descriptors.map (Reply.descriptor ∘ .value)) fun listed =>
        listed = keys ∧
          Accounts extensible (remaining.zip descriptors) (· ∈ atoms) := by
  induction remaining generalizing descriptors atoms with
  | nil =>
      obtain rfl := List.length_eq_zero_iff.mp every
      simp only [checkNext]
      split
      next left =>
        apply thrown
        rintro _ ⟨_, _, exact, _⟩
        simp_all [Finset.eq_empty_iff_forall_notMem]
      next left =>
        refine ⟨[], _, List.nil_prefix, .done, .inl ⟨keys, rfl, rfl, ?_⟩⟩
        constructor <;> simp_all
  | cons key rest induction =>
      obtain ⟨descriptor, descriptors, rfl⟩ :=
        List.exists_cons_of_length_eq_add_one every
      let state : Check := ⟨keys, atoms, extensible, rest⟩
      have demands : Accounts extensible
            ((key, descriptor) :: rest.zip descriptors) (· ∈ atoms) ↔ _ :=
        @accounts_cons_iff key descriptor (rest.zip descriptors) state
      simp only [List.zip_cons_cons, demands]
      cases accounted : account state key descriptor with
      | none =>
          have answers : ∃ message, KeysResume.answer (.descriptor state key)
              (calm (.descriptor (.value descriptor))) = .ok (fail message) := by
            simp only [calm, KeysResume.answer, KeysResume.descriptor, receive,
              accounted]
            exact ⟨_, rfl⟩
          obtain ⟨message, answers⟩ := answers
          exact next answers (thrown message _ (by simp))
      | some left =>
          have answers : KeysResume.answer (.descriptor state key)
              (calm (.descriptor (.value descriptor))) =
                .ok (checkNext ⟨keys, left, extensible, rest⟩ false) := by
            simp only [calm, KeysResume.answer, KeysResume.descriptor, receive,
              accounted, state]
          refine next answers ?_
          simpa [state] using induction (Nat.succ.inj every)

/-- All items are read, and the list is searched for duplicates. -/
theorem listed (length : UInt32) (full : found.length = length.toNat)
    (rest : ∀ atoms, insertAtoms found ∅ = some atoms →
      Settles (.request (.extensible found atoms)) replies
        fun keys => keys = found ∧ accepts keys) :
    ∃ step, items length found true = .ok step ∧ Settles step replies
      fun keys => keys = found ∧ keys.Nodup ∧ accepts keys := by
  simp only [items, if_neg full.not_lt]
  cases inserted : insertAtoms found ∅ with
  | none =>
      refine ⟨_, rfl, thrown _ _ ?_⟩
      rintro _ ⟨rfl, distinct, _⟩
      have all : ∃ all, insertAtoms _ ∅ = some all :=
        insertAtoms_of_nodup distinct (by simp)
      rw [inserted] at all
      obtain ⟨_, ⟨⟩⟩ := all
  | some atoms =>
      refine ⟨_, rfl, (rest atoms inserted).congr fun keys => ?_⟩
      have distinct := (mem_insertAtoms inserted).1
      constructor
      · rintro ⟨rfl, accepted⟩
        exact ⟨rfl, distinct, accepted⟩
      · rintro ⟨rfl, _, accepted⟩
        exact ⟨rfl, accepted⟩

theorem itemised (length : UInt32) (found : List PropertyKey)
    (values : List JsValue)
    (counted : found.length + values.length = length.toNat)
    (rest : ∀ added atoms, values.map propertyKeyFromPrimitive =
        added.map some → insertAtoms (found ++ added) ∅ = some atoms →
      Settles (.request (.extensible (found ++ added) atoms)) replies
        fun keys => keys = found ++ added ∧ accepts keys) :
    ∃ step, items length found true = .ok step ∧
      Settles step (values.map (Reply.completion ∘ .value) ++ replies)
        fun keys => (∃ added, values.map propertyKeyFromPrimitive =
          added.map some ∧ keys = found ++ added) ∧ keys.Nodup ∧
            accepts keys := by
  induction values generalizing found with
  | nil =>
      obtain ⟨step, starts, settles⟩ := listed length counted
        fun atoms inserted => by
          simpa using rest [] atoms rfl (by rwa [List.append_nil])
      refine ⟨step, starts, settles.congr fun keys => ?_⟩
      simp
  | cons value values induction =>
      have few : found.length < length.toNat := by
        rw [← counted, List.length_cons]
        omega
      refine ⟨_, if_pos few, ?_⟩
      cases named : propertyKeyFromPrimitive value with
      | none =>
          have answers : ∃ message, KeysResume.answer (.item length found)
              (calm (.completion (.value value))) = .ok (fail message) := by
            simp only [calm, KeysResume.answer, KeysResume.resume, receive,
              named]
            exact ⟨_, rfl⟩
          obtain ⟨message, answers⟩ := answers
          apply next answers (thrown message _ _)
          rintro _ ⟨⟨added, listed, _⟩, _⟩
          cases added with
          | nil => cases listed
          | cons => simp [named] at listed
      | some key =>
          obtain ⟨step, starts, settles⟩ := induction (found ++ [key])
            (by simp only [List.length_append, List.length_cons,
                  List.length_nil] at counted ⊢; omega)
            (by
              intro added atoms listed inserted
              rw [List.append_assoc] at inserted ⊢
              exact rest (key :: added) atoms (by simp [named, listed])
                inserted)
          have answers : KeysResume.answer (.item length found)
              (calm (.completion (.value value))) = .ok step := by
            simp only [calm, KeysResume.answer, KeysResume.resume, receive,
              named, starts]
          apply next answers (settles.congr _)
          intro keys
          constructor
          · rintro ⟨⟨added, listed, rfl⟩, accepted⟩
            exact ⟨⟨key :: added, by simp [named, listed], by simp⟩, accepted⟩
          · rintro ⟨⟨added, listed, rfl⟩, accepted⟩
            cases added with
            | nil => cases listed
            | cons first added =>
                simp only [List.map_cons, named, List.cons.injEq,
                  Option.some.injEq] at listed
                obtain ⟨rfl, listed⟩ := listed
                exact ⟨⟨added, listed, by simp⟩, accepted⟩

end Settles

theorem Report.Full.settles {report : Report} (full : report.Full) :
    Settles (method (.complete true)) report.replies report.Allows := by
  have tail : ∀ keys atoms, report.items.map propertyKeyFromPrimitive =
        keys.map some → insertAtoms ([] ++ keys) ∅ = some atoms →
      Settles (.request (.extensible ([] ++ keys) atoms))
        (.boolean (.value report.extensible) ::
          .keys (.value report.targetKeys) ::
          report.descriptors.map (Reply.descriptor ∘ .value))
        fun listed => listed = [] ++ keys ∧ Accounts report.extensible
          (report.targetKeys.zip report.descriptors) (· ∈ listed) := by
    intro keys atoms _ inserted
    have members := (mem_insertAtoms inserted).2.2
    refine .next rfl (.next rfl ((Settles.checked full.every).congr ?_))
    intro listed
    constructor <;> rintro ⟨rfl, accounts⟩
    · exact ⟨rfl, by simpa [members] using accounts⟩
    · exact ⟨rfl, by simpa [members] using accounts⟩
  obtain ⟨step, starts, settles⟩ := Settles.itemised report.length []
    report.items ((Nat.zero_add _).trans full.counted) tail
  refine .next rfl (.next rfl (.next starts (settles.congr ?_)))
  intro keys
  constructor
  · rintro ⟨⟨_, named, rfl⟩, distinct, accounts⟩
    exact ⟨named, fun _ => not_privateName named, distinct, accounts⟩
  · rintro ⟨items, _, distinct, accounts⟩
    exact ⟨⟨keys, items, rfl⟩, distinct, accounts⟩

/-- A key list from a trap is one that the report allows, and any other end is
a `TypeError`, unless a reply threw. Every phase takes the replies of its kind
as long as there is memory, and a full report leads to the key list it allows
or to a `TypeError` when it allows none. -/
theorem ownKeys_invariants :
    (∀ turns keys, Drives (method (.complete true)) turns (.complete keys) →
      ∃ report : Report, turns.map Turn.reply = report.replies ∧
        report.Full ∧ report.Allows keys) ∧
    (∀ turns value,
      Drives (method (.complete true)) turns (.throw (.value value)) →
        ∃ turn ∈ turns, turn.reply.throws = some value) ∧
    (∀ (phase : Phase) (turn : Turn), phase.Expects turn.reply →
      turn.reserves = true →
      ∃ step, KeysResume.answer phase turn = .ok step) ∧
    ∀ report : Report, report.Full →
      Settles (method (.complete true)) report.replies report.Allows := by
  refine ⟨fun turns keys drives => drives.trapped, ?_,
    fun phase turn => answer_ok, fun report full => full.settles⟩
  intro turns value drives
  apply (drives.throws rfl _).resolve_left
  all_goals rintro ⟨⟩

/-- The trap lists one key for a target that is not extensible. The target had
the keys `a`, which is gone by the time it is looked at, and `b`. -/
def oneListed (text : Units) : Report where
  list := .other 0
  lengthValue := .other 1
  length := 1
  items := [.string text]
  extensible := false
  targetKeys := [.string [0x61], .string [0x62]]
  descriptors := [none, some ⟨false⟩]

theorem ownKeys_invariants_oneListed :
    (∃ report : Report,
      ((oneListed [0x62]).replies.map calm).map Turn.reply =
        report.replies ∧ report.Full ∧ report.Allows [.string [0x62]]) ∧
    Settles (method (.complete true)) (oneListed [0x61]).replies
      (oneListed [0x61]).Allows :=
  ⟨ownKeys_invariants.1 _ _ (.next rfl (.next rfl (.next rfl (.next rfl
      (.next rfl (.next rfl (.next rfl (.next rfl .done)))))))),
    ownKeys_invariants.2.2.2 _ ⟨rfl, rfl⟩⟩

end QuickJsOxide.Proxies
