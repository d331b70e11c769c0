import QuickJsOxide.Library.Checks

namespace QuickJsOxide.Objects

open Library

/-! Definition of an ordinary property, over any values and any notion of
sameness of values. -/

/-- The outer option says whether a field is present; a getter or setter that is
`undefined` is `some none`. -/
structure PropertyDescriptor (V : Type) where
  value : Option V
  writable : Option Bool
  get : Option (Option V)
  set : Option (Option V)
  enumerable : Option Bool
  configurable : Option Bool
deriving Repr, DecidableEq

namespace PropertyDescriptor

variable (self : PropertyDescriptor V)

def isEmpty : Bool :=
  self.value.isNone && self.writable.isNone && self.get.isNone &&
    self.set.isNone && self.enumerable.isNone && self.configurable.isNone

def isDataDescriptor : Bool := self.value.isSome || self.writable.isSome

def isAccessorDescriptor : Bool := self.get.isSome || self.set.isSome

end PropertyDescriptor

inductive CompletePropertyDescriptor (V : Type) where
  | data (value : V) (writable enumerable configurable : Bool)
  | accessor (get set : Option V) (enumerable configurable : Bool)
deriving Repr, DecidableEq

namespace CompletePropertyDescriptor

@[simp] def enumerable : CompletePropertyDescriptor V → Bool
  | data _ _ enumerable _ | accessor _ _ enumerable _ => enumerable

@[simp] def configurable : CompletePropertyDescriptor V → Bool
  | data _ _ _ configurable | accessor _ _ _ configurable => configurable

@[simp] def isDataDescriptor : CompletePropertyDescriptor V → Bool
  | data .. => true
  | accessor .. => false

end CompletePropertyDescriptor

inductive PropertyDefinitionError where
  | invalidDescriptor
  | notExtensible
  | configurableOnNonConfigurable
  | enumerableOnNonConfigurable
  | kindOnNonConfigurable
  | writableOnNonWritable
  | valueOnNonWritable
  | getterOnNonConfigurable
  | setterOnNonConfigurable
deriving Repr, DecidableEq

section

variable (undefined : V) (sameValue : V → V → Bool)

def dataValueUpdateAllowed (configurable writable : Bool) (old new : V) : Bool :=
  configurable || writable || sameValue new old

def sameOptionalValue : Option V → Option V → Bool
  | none, none => true
  | some left, some right => sameValue left right
  | _, _ => false

variable (descriptor : PropertyDescriptor V)
  (current : CompletePropertyDescriptor V)

def createdProperty : CompletePropertyDescriptor V :=
  let enumerable := descriptor.enumerable.getD false
  let configurable := descriptor.configurable.getD false
  if descriptor.isAccessorDescriptor then
    .accessor (descriptor.get.getD none) (descriptor.set.getD none) enumerable
      configurable
  else
    .data (descriptor.value.getD undefined) (descriptor.writable.getD false)
      enumerable configurable

def validateChange : Except PropertyDefinitionError Unit := do
  let isData := descriptor.isDataDescriptor
  let isAccessor := descriptor.isAccessorDescriptor
  let configurable := current.configurable
  let changesKind := isData && !current.isDataDescriptor ||
    isAccessor && current.isDataDescriptor
  if !configurable then
    ensure (descriptor.configurable ≠ some true) .configurableOnNonConfigurable
    ensure (!descriptor.enumerable.any (· != current.enumerable))
      .enumerableOnNonConfigurable
  ensure (!(changesKind && !configurable)) .kindOnNonConfigurable
  match current with
  | .data value writable _ _ =>
    if isData && !configurable && !writable then
      ensure (descriptor.writable ≠ some true) .writableOnNonWritable
      ensure (!descriptor.value.any
          (!dataValueUpdateAllowed sameValue configurable writable value ·))
        .valueOnNonWritable
  | .accessor get set _ _ =>
    if isAccessor && !configurable then
      ensure (!descriptor.get.any (!sameOptionalValue sameValue · get))
        .getterOnNonConfigurable
      ensure (!descriptor.set.any (!sameOptionalValue sameValue · set))
        .setterOnNonConfigurable

/-- A property of the other kind is converted before its fields are set. -/
def convertedProperty : CompletePropertyDescriptor V :=
  if descriptor.isAccessorDescriptor && current.isDataDescriptor then
    .accessor none none current.enumerable current.configurable
  else if descriptor.isDataDescriptor && !current.isDataDescriptor then
    .data undefined false current.enumerable current.configurable
  else
    current

def changedProperty : CompletePropertyDescriptor V :=
  -- Fields that the converted property does not have are absent.
  match convertedProperty undefined descriptor current with
  | .data value writable enumerable configurable =>
    .data (descriptor.value.getD value) (descriptor.writable.getD writable)
      (descriptor.enumerable.getD enumerable)
      (descriptor.configurable.getD configurable)
  | .accessor get set enumerable configurable =>
    .accessor (descriptor.get.getD get) (descriptor.set.getD set)
      (descriptor.enumerable.getD enumerable)
      (descriptor.configurable.getD configurable)

def validateAndApplyPropertyDescriptor (extensible : Bool)
    (current : Option (CompletePropertyDescriptor V)) :
    Except PropertyDefinitionError (CompletePropertyDescriptor V) := do
  ensure (!(descriptor.isDataDescriptor && descriptor.isAccessorDescriptor))
    .invalidDescriptor
  match current with
  | none =>
    ensure extensible .notExtensible
    return createdProperty undefined descriptor
  | some current =>
    if descriptor.isEmpty then
      return current
    validateChange sameValue descriptor current
    return changedProperty undefined descriptor current

end

/-! The algorithm of the ECMAScript specification. A property is a fully
populated record there, and a refusal is `none`. -/

namespace EcmaScript

/-- Where a record has no field, that of the base is taken. -/
def overlay (descriptor base : PropertyDescriptor V) : PropertyDescriptor V where
  value := descriptor.value.or base.value
  writable := descriptor.writable.or base.writable
  get := descriptor.get.or base.get
  set := descriptor.set.or base.set
  enumerable := descriptor.enumerable.or base.enumerable
  configurable := descriptor.configurable.or base.configurable

def changes (same : α → α → Bool) (new old : Option α) : Bool :=
  new.any fun new => old.any fun old => !same new old

variable (undefined : V) (sameValue : V → V → Bool)

def defaults (accessor : Bool) (enumerable configurable : Option Bool) :
    PropertyDescriptor V :=
  if accessor then ⟨none, none, some none, some none, enumerable, configurable⟩
  else ⟨some undefined, some false, none, none, enumerable, configurable⟩

def forbids (descriptor current : PropertyDescriptor V) : Bool :=
  current.configurable == some false &&
    (descriptor.configurable == some true ||
      changes (· == ·) descriptor.enumerable current.enumerable ||
      (descriptor.isDataDescriptor || descriptor.isAccessorDescriptor) &&
        descriptor.isAccessorDescriptor != current.isAccessorDescriptor ||
      if current.isAccessorDescriptor then
        changes (sameOptionalValue sameValue) descriptor.get current.get ||
          changes (sameOptionalValue sameValue) descriptor.set current.set
      else
        current.writable == some false &&
          (descriptor.writable == some true ||
            changes sameValue descriptor.value current.value))

/-- A record with fields of both kinds is no Property Descriptor. -/
def validateAndApply (extensible : Bool) (descriptor : PropertyDescriptor V)
    (current : Option (PropertyDescriptor V)) : Option (PropertyDescriptor V) :=
  let accessor := descriptor.isAccessorDescriptor
  if descriptor.isDataDescriptor && accessor then none
  else
    match current with
    | none =>
      if extensible then
        some (overlay descriptor
          (defaults undefined accessor (some false) (some false)))
      else none
    | some current =>
      if descriptor.isEmpty then some current
      else if forbids sameValue descriptor current then none
      else
        some (overlay descriptor
          (if accessor && current.isDataDescriptor ||
              descriptor.isDataDescriptor && current.isAccessorDescriptor then
            defaults undefined accessor current.enumerable current.configurable
          else current))

end EcmaScript

namespace CompletePropertyDescriptor

def record : CompletePropertyDescriptor V → PropertyDescriptor V
  | data value writable enumerable configurable =>
    ⟨some value, some writable, none, none, some enumerable, some configurable⟩
  | accessor get set enumerable configurable =>
    ⟨none, none, some get, some set, some enumerable, some configurable⟩

variable {current : CompletePropertyDescriptor V}

@[simp] theorem record_isDataDescriptor :
    current.record.isDataDescriptor = current.isDataDescriptor := by
  cases current <;> rfl

@[simp] theorem record_isAccessorDescriptor :
    current.record.isAccessorDescriptor = !current.isDataDescriptor := by
  cases current <;> rfl

@[simp] theorem record_enumerable :
    current.record.enumerable = some current.enumerable := by
  cases current <;> rfl

@[simp] theorem record_configurable :
    current.record.configurable = some current.configurable := by
  cases current <;> rfl

end CompletePropertyDescriptor

open EcmaScript CompletePropertyDescriptor

variable {descriptor : PropertyDescriptor V}
  {current : CompletePropertyDescriptor V} (undefined : V)
  {sameValue : V → V → Bool}

section

variable (plain : descriptor.isDataDescriptor = false ∨
  descriptor.isAccessorDescriptor = false)

include plain

theorem createdProperty_record :
    (createdProperty undefined descriptor).record = overlay descriptor
      (defaults undefined descriptor.isAccessorDescriptor (some false)
        (some false)) := by
  unfold createdProperty defaults
  split
  · simp_all [overlay, record, PropertyDescriptor.isDataDescriptor]
  · simp_all [overlay, record, PropertyDescriptor.isAccessorDescriptor]

theorem changedProperty_record :
    (changedProperty undefined descriptor current).record = overlay descriptor
      (if descriptor.isAccessorDescriptor && current.isDataDescriptor ||
          descriptor.isDataDescriptor && !current.isDataDescriptor then
        defaults undefined descriptor.isAccessorDescriptor
          (some current.enumerable) (some current.configurable)
      else current.record) := by
  unfold changedProperty convertedProperty defaults
  cases current with
  | data =>
    by_cases accessor : descriptor.isAccessorDescriptor
    · simp_all [overlay, record, PropertyDescriptor.isDataDescriptor]
    · simp_all [overlay, record, PropertyDescriptor.isAccessorDescriptor]
  | accessor =>
    by_cases data : descriptor.isDataDescriptor
    · simp_all [overlay, record, PropertyDescriptor.isAccessorDescriptor]
    · simp_all [overlay, record, PropertyDescriptor.isDataDescriptor]

theorem validateChange_eq_ok :
    validateChange sameValue descriptor current = .ok () ↔
      forbids sameValue descriptor current.record = false := by
  unfold validateChange forbids
  rw [record_isAccessorDescriptor]
  by_cases configurable : current.configurable
  · cases current <;> simp_all [ensure]
  cases current with
  | data _ writable =>
    by_cases data : descriptor.isDataDescriptor
    · cases writable <;>
        simp_all [ensure_bind_eq_ok, changes, dataValueUpdateAllowed, bne,
          and_assoc, record]
    · simp_all [ensure_bind_eq_ok, changes, bne, and_assoc, record,
        PropertyDescriptor.isDataDescriptor]
  | accessor =>
    by_cases accessor : descriptor.isAccessorDescriptor
    · simp_all [ensure_bind_eq_ok, changes, bne, and_assoc, record]
    · simp_all [ensure_bind_eq_ok, changes, bne, and_assoc, record,
        PropertyDescriptor.isAccessorDescriptor]

end

theorem validateAndApply_record (extensible : Bool)
    (current : Option (CompletePropertyDescriptor V)) :
    (validateAndApplyPropertyDescriptor undefined sameValue descriptor extensible
      current).toOption.map record =
      validateAndApply undefined sameValue extensible descriptor
        (current.map record) := by
  unfold validateAndApplyPropertyDescriptor validateAndApply
  cases mixed : descriptor.isDataDescriptor && descriptor.isAccessorDescriptor with
  | true => simp [mixed, ensure, Bind.bind, Except.bind, Except.toOption]
  | false =>
    have plain := Bool.and_eq_false_iff.mp mixed
    cases current with
    | none =>
      cases extensible <;>
        simp [mixed, ensure, Bind.bind, Except.bind, Except.toOption, pure,
          Except.pure, createdProperty_record undefined plain]
    | some current =>
      have agrees := @validateChange_eq_ok _ _ current sameValue plain
      cases empty : descriptor.isEmpty with
      | true =>
        simp [mixed, ensure, Bind.bind, Except.bind, Except.toOption, pure,
          Except.pure]
      | false =>
        cases checked : validateChange sameValue descriptor current with
        | error =>
          simp [checked] at agrees
          simp [mixed, checked, agrees, ensure, Bind.bind, Except.bind,
            Except.toOption]
        | ok =>
          simp [checked] at agrees
          simp [mixed, checked, agrees, ensure, Bind.bind, Except.bind,
            Except.toOption, pure, Except.pure,
            changedProperty_record undefined plain]

/-- What no definition may change of a property that is not configurable. -/
def Frozen (sameValue : V → V → Bool) :
    CompletePropertyDescriptor V → CompletePropertyDescriptor V → Prop
  | .data value writable enumerable false, after =>
    ∃ value' writable', after = .data value' writable' enumerable false ∧
      (writable = false → writable' = false ∧ sameValue value' value)
  | .accessor get set enumerable false, after =>
    ∃ get' set', after = .accessor get' set' enumerable false ∧
      sameOptionalValue sameValue get' get ∧
      sameOptionalValue sameValue set' set
  | _, _ => True

def defineRepeatedly (undefined : V) (sameValue : V → V → Bool) :
    CompletePropertyDescriptor V → List (Bool × PropertyDescriptor V) →
    CompletePropertyDescriptor V :=
  List.foldl fun current (extensible, descriptor) =>
    (validateAndApplyPropertyDescriptor undefined sameValue descriptor extensible
      (some current)).toOption.getD current

section

theorem same_getD (same : α → α → Bool) (refl : ∀ value, same value value)
    (unchanged : changes same new (some old) = false) :
    same (new.getD old) old := by
  cases new with
  | none => exact refl old
  | some new => simpa [changes] using unchanged

theorem getD_false (unset : field ≠ some true) : field.getD false = false := by
  cases field with
  | none => rfl
  | some field => simp_all

variable (equivalence : Equivalence fun left right => sameValue left right = true)
include equivalence

theorem sameOptionalValue_refl (value : Option V) :
    sameOptionalValue sameValue value value := by
  cases value with
  | none => rfl
  | some value => exact equivalence.refl value

theorem sameOptionalValue_trans
    (first : sameOptionalValue sameValue newest newer)
    (second : sameOptionalValue sameValue newer old) :
    sameOptionalValue sameValue newest old := by
  cases newest <;> cases newer <;> cases old <;>
    first
    | rfl
    | contradiction
    | exact equivalence.trans first second

theorem Frozen.refl (current : CompletePropertyDescriptor V) :
    Frozen sameValue current current := by
  unfold Frozen
  split
  · exact ⟨_, _, rfl, fun fixed => ⟨fixed, equivalence.refl _⟩⟩
  · exact ⟨_, _, rfl, sameOptionalValue_refl equivalence _,
      sameOptionalValue_refl equivalence _⟩
  · trivial

theorem Frozen.trans (first : Frozen sameValue before middle)
    (second : Frozen sameValue middle after) : Frozen sameValue before after := by
  unfold Frozen at first ⊢
  split at first
  · obtain ⟨newer, writable, rfl, kept⟩ := first
    obtain ⟨newest, writable', rfl, keeps⟩ := second
    refine ⟨newest, writable', rfl, fun fixed => ?_⟩
    obtain ⟨still, same⟩ := kept fixed
    obtain ⟨again, equal⟩ := keeps still
    exact ⟨again, equivalence.trans equal same⟩
  · obtain ⟨get, set, rfl, sameGet, sameSet⟩ := first
    obtain ⟨get', set', rfl, equalGet, equalSet⟩ := second
    exact ⟨get', set', rfl,
      sameOptionalValue_trans equivalence equalGet sameGet,
      sameOptionalValue_trans equivalence equalSet sameSet⟩
  · trivial

theorem Frozen.changedProperty (plain : descriptor.isDataDescriptor = false ∨
      descriptor.isAccessorDescriptor = false)
    (allowed : forbids sameValue descriptor current.record = false) :
    Frozen sameValue current (changedProperty undefined descriptor current) := by
  unfold forbids at allowed
  rw [record_isAccessorDescriptor] at allowed
  cases current with
  | data value writable enumerable configurable =>
    cases configurable with
    | true => trivial
    | false =>
      simp [record] at allowed
      obtain ⟨⟨⟨locked, listed⟩, kind⟩, fixed⟩ := allowed
      have enumerable := eq_of_beq (same_getD _ (fun _ => BEq.rfl) listed)
      have same : descriptor.isAccessorDescriptor = false := by grind
      refine ⟨descriptor.value.getD value, descriptor.writable.getD writable, ?_,
        ?_⟩
      · simp [changedProperty, convertedProperty, same, enumerable,
          getD_false locked]
      · rintro rfl
        obtain ⟨unwritable, unchanged⟩ := fixed rfl
        exact ⟨getD_false unwritable,
          same_getD sameValue equivalence.refl unchanged⟩
  | accessor get set enumerable configurable =>
    cases configurable with
    | true => trivial
    | false =>
      simp [record] at allowed
      obtain ⟨⟨⟨locked, listed⟩, kind⟩, sameGet, sameSet⟩ := allowed
      have enumerable := eq_of_beq (same_getD _ (fun _ => BEq.rfl) listed)
      have same : descriptor.isDataDescriptor = false := by grind
      refine ⟨descriptor.get.getD get, descriptor.set.getD set, ?_,
        same_getD _ (sameOptionalValue_refl equivalence) sameGet,
        same_getD _ (sameOptionalValue_refl equivalence) sameSet⟩
      simp [changedProperty, convertedProperty, same, enumerable,
        getD_false locked]

theorem Frozen.validateAndApply
    (defined : validateAndApplyPropertyDescriptor undefined sameValue descriptor
      extensible (some current) = .ok result) :
    Frozen sameValue current result := by
  unfold validateAndApplyPropertyDescriptor at defined
  obtain ⟨plain, defined⟩ := ensure_bind_eq_ok.mp defined
  have plain := Bool.and_eq_false_iff.mp (Bool.not_eq_true' _ ▸ plain)
  dsimp only at defined
  split at defined
  · obtain rfl := pure_eq_ok.mp defined
    exact Frozen.refl equivalence current
  · obtain ⟨_, checked, applied⟩ := bind_eq_ok.mp defined
    obtain rfl := pure_eq_ok.mp applied
    exact Frozen.changedProperty undefined equivalence plain
      ((validateChange_eq_ok plain).mp checked)

theorem Frozen.defineRepeatedly (start : CompletePropertyDescriptor V) (requests) :
    Frozen sameValue start (defineRepeatedly undefined sameValue start requests) := by
  induction requests generalizing start with
  | nil => exact Frozen.refl equivalence start
  | cons request _ ih =>
    refine Frozen.trans equivalence ?_ (ih _)
    cases defined : validateAndApplyPropertyDescriptor undefined sameValue
      request.2 request.1 (some start) with
    | error => simpa [defined, Except.toOption] using Frozen.refl equivalence start
    | ok result =>
      simpa [defined, Except.toOption]
        using Frozen.validateAndApply undefined equivalence defined

end

/-- Along any definitions a property that is not configurable stays as it is, and
each definition is that of the ECMAScript algorithm. -/
theorem definition_conforms
    (equivalence : Equivalence fun left right => sameValue left right = true)
    (start : CompletePropertyDescriptor V)
    (earlier later : List (Bool × PropertyDescriptor V)) :
    Frozen sameValue (defineRepeatedly undefined sameValue start earlier)
      (defineRepeatedly undefined sameValue start (earlier ++ later)) ∧
    ∀ extensible descriptor current,
      (validateAndApplyPropertyDescriptor undefined sameValue descriptor
        extensible current).toOption.map record =
      validateAndApply undefined sameValue extensible descriptor
        (current.map record) := by
  refine ⟨?_, fun _ _ _ => validateAndApply_record ..⟩
  rw [defineRepeatedly, List.foldl_append]
  exact Frozen.defineRepeatedly undefined equivalence _ later

theorem definition_conforms_frozen : Frozen (· == ·) (.data 1 false true false)
    (defineRepeatedly 0 (· == ·) (.data 1 false true false)
      [(true, ⟨some 2, none, none, none, none, none⟩)]) :=
  (definition_conforms 0 ⟨by simp, by simp +contextual, by simp +contextual⟩ _
    [] _).1

end QuickJsOxide.Objects
