import QuickJsOxide.Strings.DepthSafety
import QuickJsOxide.Strings.Export

namespace QuickJsOxide.Strings

open Library
open List hiding modify

/-! Exported bytes decode to the string they came from. Both directions are
compared with the list of code points an export emits. -/

theorem or_eq_add (width : Nat) (aligned : 2 ^ width ∣ high)
    (small : low < 2 ^ width) : high ||| low = high + low := by
  obtain ⟨multiple, rfl⟩ := aligned
  exact (Nat.two_pow_add_eq_or_of_lt small multiple).symm

theorem leadingBits_toNat (width : Nat) (inside : shift.toNat < 32)
    (aligned : 2 ^ width ∣ marker.toNat)
    (small : codePoint.toNat / 2 ^ shift.toNat < 2 ^ width)
    (fits : marker.toNat + 2 ^ width ≤ 256) :
    (leadingBits marker codePoint shift).toNat =
      marker.toNat + codePoint.toNat / 2 ^ shift.toNat := by
  simp only [leadingBits, UInt32.toNat_toUInt8, UInt32.toNat_or,
    UInt32.toNat_shiftRight, Nat.mod_eq_of_lt inside,
    Nat.shiftRight_eq_div_pow]
  rw [or_eq_add width aligned small, Nat.mod_eq_of_lt (by omega)]

theorem continuationBits_toNat (inside : shift.toNat < 32) :
    (continuationBits codePoint shift).toNat =
      0x80 + codePoint.toNat / 2 ^ shift.toNat % 64 := by
  have small : codePoint.toNat / 2 ^ shift.toNat % 64 < 2 ^ 6 :=
    Nat.mod_lt _ (by decide)
  have masked : codePoint.toNat / 2 ^ shift.toNat &&& 63 =
      codePoint.toNat / 2 ^ shift.toNat % 64 :=
    Nat.and_two_pow_sub_one_eq_mod _ 6
  simp only [continuationBits, UInt32.toNat_toUInt8, UInt32.toNat_or,
    UInt32.toNat_and, UInt32.toNat_shiftRight, Nat.mod_eq_of_lt inside,
    Nat.shiftRight_eq_div_pow, UInt32.reduceToNat, masked]
  rw [or_eq_add 6 (by decide) small, Nat.mod_eq_of_lt (by omega)]

theorem foldContinuation_cons {codePoint shift sum : UInt32}
    (inside : shift.toNat < 32) (short : sum.toNat < 2 ^ 26) :
    foldContinuation (continuationBits codePoint shift :: bytes) sum =
      foldContinuation bytes (UInt32.ofNat (sum.toNat * 64 +
          codePoint.toNat / 2 ^ shift.toNat % 64)) := by
  have continuation :
      isContinuation (continuationBits codePoint shift) = true := by
    simp only [isContinuation, Bool.and_eq_true, decide_eq_true_eq,
      UInt8.le_iff_toNat_le, continuationBits_toNat inside, UInt8.reduceToNat]
    omega
  have masked : ∀ byte : UInt8, byte.toNat &&& 63 = byte.toNat % 64 :=
    fun byte => Nat.and_two_pow_sub_one_eq_mod _ 6
  have appended : sum <<< 6 |||
      (continuationBits codePoint shift &&& 0x3f).toUInt32 =
        UInt32.ofNat (sum.toNat * 64 +
          codePoint.toNat / 2 ^ shift.toNat % 64) := by
    apply UInt32.toNat_inj.mp
    simp only [UInt32.toNat_or, UInt32.toNat_shiftLeft, UInt8.toNat_toUInt32,
      UInt8.toNat_and, UInt32.reduceToNat, UInt8.reduceToNat, masked,
      Nat.shiftLeft_eq, Nat.reduceMod, UInt32.toNat_ofNat']
    have small : (continuationBits codePoint shift).toNat % 64 < 2 ^ 6 :=
      Nat.mod_lt _ (by decide)
    rw [Nat.mod_eq_of_lt (by omega), or_eq_add 6 (Nat.dvd_mul_left _ _) small,
      continuationBits_toNat inside]
    omega
  rw [foldContinuation, if_pos continuation, appended]

def continuations (codePoint : UInt32) : Nat → List UInt8
  | 0 => []
  | count + 1 =>
    continuationBits codePoint (UInt32.ofNat (6 * count)) ::
      continuations codePoint count

@[simp] theorem length_continuations (codePoint : UInt32) (count : Nat) :
    (continuations codePoint count).length = count := by
  induction count with
  | zero => rfl
  | succ _ ih => simp [continuations, ih]

theorem foldContinuation_continuations (codePoint : UInt32) {count : Nat}
    (few : count ≤ 5) : foldContinuation (continuations codePoint count)
      (UInt32.ofNat (codePoint.toNat / 2 ^ (6 * count))) = some codePoint := by
  induction count with
  | zero => simp [continuations, foldContinuation]
  | succ count ih =>
    have shift : (UInt32.ofNat (6 * count)).toNat = 6 * count := by
      rw [UInt32.toNat_ofNat', Nat.mod_eq_of_lt (by omega)]
    have split : codePoint.toNat / 2 ^ (6 * (count + 1)) =
        codePoint.toNat / 2 ^ (6 * count) / 64 := by
      rw [Nat.mul_succ, Nat.pow_add, Nat.div_div_eq_div_mul]
    have bound : codePoint.toNat / 2 ^ (6 * count) < 2 ^ 32 :=
      (Nat.div_le_self _ _).trans_lt codePoint.toNat_lt
    have sum : (UInt32.ofNat
        (codePoint.toNat / 2 ^ (6 * (count + 1)))).toNat =
        codePoint.toNat / 2 ^ (6 * count) / 64 := by
      rw [UInt32.toNat_ofNat', split, Nat.mod_eq_of_lt (by omega)]
    rw [continuations, foldContinuation_cons (by omega) (by omega), sum,
      shift, Nat.div_add_mod']
    exact ih (by omega)

def encodedBytes (codePoint : UInt32) : List UInt8 :=
  if codePoint ≤ 0x7f then
    [codePoint.toUInt8]
  else if codePoint ≤ 0x7ff then
    leadingBits 0xc0 codePoint 6 :: continuations codePoint 1
  else if codePoint ≤ 0xffff then
    leadingBits 0xe0 codePoint 12 :: continuations codePoint 2
  else
    leadingBits 0xf0 codePoint 18 :: continuations codePoint 3

variable {codePoint : UInt32}

theorem encodeQuickjsUtf8_eq (buffer : output.length = 4)
    (valid : codePoint ≤ 0x10ffff) : encodeQuickjsUtf8 output codePoint =
      .ok (encodedBytes codePoint ++
          output.drop (encodedBytes codePoint).length,
        (encodedBytes codePoint).length) := by
  match output, buffer with
  | [first, second, third, fourth], _ =>
    unfold encodeQuickjsUtf8 encodedBytes
    split
    · rfl
    · split
      · rfl
      · split <;> rfl

theorem encodedBytes_ne_nil (codePoint : UInt32) :
    encodedBytes codePoint ≠ [] := by
  unfold encodedBytes
  split <;> [skip; split <;> [skip; split]] <;> simp

theorem encodedBytes_length_le (codePoint : UInt32) :
    (encodedBytes codePoint).length ≤ 4 := by
  unfold encodedBytes
  split <;> [skip; split <;> [skip; split]] <;> simp

theorem decodeQuickjsUtf8_leadingBits (count width : Nat)
    (marker minimum : UInt32) (mask : UInt8) (few : count ≤ 3)
    (aligned : 2 ^ width ∣ marker.toNat) (marked : 0x80 ≤ marker.toNat)
    (fits : marker.toNat + 2 ^ width ≤ 256)
    (small : codePoint.toNat / 2 ^ (6 * count) < 2 ^ width)
    (leading : ∀ first : UInt8,
      first.toNat = marker.toNat + codePoint.toNat / 2 ^ (6 * count) →
      leadingByte first = some (count, mask, minimum))
    (bits : mask.toNat = 2 ^ width - 1) (least : minimum ≤ codePoint)
    (rest : List UInt8) : decodeQuickjsUtf8
      (leadingBits marker codePoint (UInt32.ofNat (6 * count)) ::
        (continuations codePoint count ++ rest)) =
      some (codePoint, count + 1) := by
  have shift : (UInt32.ofNat (6 * count)).toNat = 6 * count := by
    rw [UInt32.toNat_ofNat', Nat.mod_eq_of_lt (by omega)]
  have value : (leadingBits marker codePoint (UInt32.ofNat (6 * count))).toNat =
      marker.toNat + codePoint.toNat / 2 ^ (6 * count) := by
    rw [leadingBits_toNat width (by omega) aligned (by rwa [shift]) fits, shift]
  generalize leadingBits marker codePoint (UInt32.ofNat (6 * count)) = first
    at value ⊢
  have notAscii : ¬ first < 0x80 := by
    rw [UInt8.lt_iff_toNat_lt, value]
    exact Nat.not_lt.mpr (marked.trans (Nat.le_add_right ..))
  have masked : (first &&& mask).toUInt32 =
      UInt32.ofNat (codePoint.toNat / 2 ^ (6 * count)) := by
    apply UInt32.toNat_inj.mp
    obtain ⟨_, aligned⟩ := aligned
    rw [UInt8.toNat_toUInt32, UInt8.toNat_and, bits,
      Nat.and_two_pow_sub_one_eq_mod, UInt32.toNat_ofNat', value, aligned,
      Nat.mul_add_mod_self_left, Nat.mod_eq_of_lt small,
      Nat.mod_eq_of_lt (by omega)]
  have inside : ¬ (continuations codePoint count ++ rest).length < count := by
    simp
  have taken : (continuations codePoint count ++ rest).take count =
      continuations codePoint count := by
    simp
  simp only [decodeQuickjsUtf8, if_neg notAscii, leading first value,
    Option.bind_eq_bind, Option.bind_some, if_neg inside, masked, taken,
    foldContinuation_continuations codePoint (show count ≤ 5 by omega),
    if_pos least]

theorem decodeQuickjsUtf8_encodedBytes (wide : 0x7f < codePoint)
    (valid : codePoint ≤ 0x10ffff) (rest : List UInt8) :
    decodeQuickjsUtf8 (encodedBytes codePoint ++ rest) =
      some (codePoint, (encodedBytes codePoint).length) := by
  simp only [UInt32.lt_iff_toNat_lt, UInt32.reduceToNat] at wide
  simp only [UInt32.le_iff_toNat_le, UInt32.reduceToNat] at valid
  unfold encodedBytes
  simp only [UInt32.le_iff_toNat_le, UInt32.reduceToNat]
  rw [if_neg (by omega)]
  split
  · refine decodeQuickjsUtf8_leadingBits 1 5 0xc0 0x80 0x1f (by decide)
      (by decide) (by decide) (by decide) (by omega) ?_ rfl ?_ rest
    · intro first value
      simp only [leadingByte, UInt8.le_iff_toNat_le, UInt8.reduceToNat,
        UInt32.reduceToNat] at value ⊢
      rw [if_pos (by omega)]
    · rw [UInt32.le_iff_toNat_le]
      exact wide
  · split
    · refine decodeQuickjsUtf8_leadingBits 2 4 0xe0 0x800 0x0f (by decide)
        (by decide) (by decide) (by decide) (by omega) ?_ rfl ?_ rest
      · intro first value
        simp only [leadingByte, UInt8.le_iff_toNat_le, UInt8.reduceToNat,
          UInt32.reduceToNat] at value ⊢
        rw [if_neg (by omega), if_pos (by omega)]
      · simp only [UInt32.le_iff_toNat_le, UInt32.reduceToNat]
        omega
    · refine decodeQuickjsUtf8_leadingBits 3 3 0xf0 0x10000 0x07 (by decide)
        (by decide) (by decide) (by decide) (by omega) ?_ rfl ?_ rest
      · intro first value
        simp only [leadingByte, UInt8.le_iff_toNat_le, UInt8.reduceToNat,
          UInt32.reduceToNat] at value ⊢
        rw [if_neg (by omega), if_neg (by omega), if_pos (by omega)]
      · simp only [UInt32.le_iff_toNat_le, UInt32.reduceToNat]
        omega

theorem encodedBytes_wide (wide : 0x7f < codePoint)
    (valid : codePoint ≤ 0x10ffff) :
    ∃ first bytes, encodedBytes codePoint = first :: bytes ∧
      ¬ first < 0x80 := by
  obtain ⟨first, bytes, encoded⟩ :=
    exists_cons_of_ne_nil (encodedBytes_ne_nil codePoint)
  refine ⟨first, bytes, encoded, fun low => ?_⟩
  have decoded := decodeQuickjsUtf8_encodedBytes wide valid []
  rw [encoded] at decoded
  simp only [append_nil, decodeQuickjsUtf8, if_pos low,
    Option.some.injEq, Prod.mk.injEq] at decoded
  have same := congrArg UInt32.toNat decoded.1
  simp only [UInt32.lt_iff_toNat_lt, UInt32.reduceToNat] at wide
  simp only [UInt8.lt_iff_toNat_lt, UInt8.reduceToNat] at low
  rw [UInt8.toNat_toUInt32] at same
  omega

theorem encodedBytes_ascii (ascii : codePoint ≤ 0x7f) :
    encodedBytes codePoint = [codePoint.toUInt8] ∧
      codePoint.toUInt8 < 0x80 ∧ codePoint.toUInt8.toUInt32 = codePoint ∧
      codePoint.toUInt8.toUInt16 = codePoint.toUInt16 := by
  refine ⟨if_pos ascii, ?_⟩
  simp only [UInt32.le_iff_toNat_le, UInt32.reduceToNat] at ascii
  refine ⟨?_, UInt32.toNat_inj.mp ?_, UInt16.toNat_inj.mp ?_⟩
  · simp only [UInt8.lt_iff_toNat_lt, UInt32.toNat_toUInt8, UInt8.reduceToNat]
    omega
  · rw [UInt8.toNat_toUInt32, UInt32.toNat_toUInt8]
    omega
  · rw [UInt8.toNat_toUInt16, UInt32.toNat_toUInt8, UInt32.toNat_toUInt16]
    omega

theorem decodeNext_encodedBytes (valid : codePoint ≤ 0x10ffff)
    (rest : List UInt8) :
    decodeNext (encodedBytes codePoint ++ rest) = some (codePoint, rest) := by
  rcases UInt32.le_or_lt codePoint 0x7f with ascii | wide
  · obtain ⟨encoded, low, same, -⟩ := encodedBytes_ascii ascii
    simp [encoded, decodeNext, low, same]
  · have decoded := decodeQuickjsUtf8_encodedBytes wide valid rest
    obtain ⟨_, _, encoded, high⟩ := encodedBytes_wide wide valid
    rw [encoded] at decoded ⊢
    rw [cons_append] at decoded ⊢
    simp [decodeNext, high, decoded, valid]

open QuickJsUtf8Bytes (takeCodePoint)
open JsStringBuilder (codePointUnits)

theorem startsPair_iff {unit next : UInt16} :
    startsPair cesu8 unit (some next) = true ↔
      cesu8 = false ∧ isHighSurrogate unit = true ∧
        isLowSurrogate next = true := by
  simp [startsPair, and_assoc]

def pairedCodePoint (high low : UInt16) : UInt32 :=
  (0x10000 : UInt32) + (high.toUInt32 - 0xd800) <<< 10 +
    (low.toUInt32 - 0xdc00)

theorem pairedCodePoint_spec (hhigh : isHighSurrogate high = true)
    (hlow : isLowSurrogate low = true) : pairedCodePoint high low ≤ 0x10ffff ∧
      codePointUnits (pairedCodePoint high low) = [high, low] ∧
      (encodedBytes (pairedCodePoint high low)).length = 4 := by
  simp only [isHighSurrogate, isLowSurrogate, Bool.and_eq_true,
    decide_eq_true_eq, UInt16.le_iff_toNat_le, UInt16.reduceToNat]
    at hhigh hlow
  have value : (pairedCodePoint high low).toNat =
      0x10000 + (high.toNat - 0xd800) * 1024 + (low.toNat - 0xdc00) := by
    have first : (high.toUInt32 - 0xd800).toNat = high.toNat - 0xd800 :=
      UInt32.toNat_sub_of_le _ _ (UInt32.le_iff_toNat_le.mpr hhigh.1)
    have second : (low.toUInt32 - 0xdc00).toNat = low.toNat - 0xdc00 :=
      UInt32.toNat_sub_of_le _ _ (UInt32.le_iff_toNat_le.mpr hlow.1)
    simp only [pairedCodePoint, UInt32.toNat_add, UInt32.toNat_shiftLeft,
      first, second, UInt32.reduceToNat, Nat.shiftLeft_eq, Nat.reduceMod,
      Nat.reducePow]
    omega
  generalize pairedCodePoint high low = codePoint at value ⊢
  have wide : ¬ codePoint ≤ 0xffff := by
    simp only [UInt32.le_iff_toNat_le, UInt32.reduceToNat]
    omega
  have least : 0x10000 ≤ codePoint.toNat := by omega
  have offset : (codePoint - 0x10000).toNat = codePoint.toNat - 0x10000 :=
    UInt32.toNat_sub_of_le _ _ (UInt32.le_iff_toNat_le.mpr least)
  have masked : (codePoint - 0x10000).toNat &&& 1023 =
      (codePoint - 0x10000).toNat % 1024 :=
    Nat.and_two_pow_sub_one_eq_mod _ 10
  refine ⟨?_, ?_, ?_⟩
  · simp only [UInt32.le_iff_toNat_le, UInt32.reduceToNat]
    omega
  · rw [codePointUnits, if_neg wide]
    congr 1
    · apply UInt16.toNat_inj.mp
      simp only [UInt16.toNat_or, UInt32.toNat_toUInt16,
        UInt32.toNat_shiftRight, UInt32.reduceToNat, UInt16.reduceToNat,
        Nat.reduceMod, Nat.shiftRight_eq_div_pow, offset]
      rw [or_eq_add 10 (by decide) (by omega)]
      omega
    · congr 1
      apply UInt16.toNat_inj.mp
      simp only [UInt16.toNat_or, UInt32.toNat_toUInt16, UInt32.toNat_and,
        UInt32.reduceToNat, UInt16.reduceToNat, masked]
      rw [offset, or_eq_add 10 (by decide) (by omega)]
      omega
  · have above : ¬ codePoint ≤ 0x7f ∧ ¬ codePoint ≤ 0x7ff := by
      simp only [UInt32.le_iff_toNat_le, UInt32.reduceToNat]
      omega
    rw [encodedBytes, if_neg above.1, if_neg above.2, if_neg wide]
    rfl

theorem unit_spec (unit : UInt16) :
    unit.toUInt32 ≤ 0x10ffff ∧ codePointUnits unit.toUInt32 = [unit] ∧
      (encodedBytes unit.toUInt32).length =
        quickjsUtf8Length.unitLength unit := by
  have bound := unit.toNat_lt
  have narrow : unit.toUInt32 ≤ 0xffff := by
    simp only [UInt32.le_iff_toNat_le, UInt16.toNat_toUInt32,
      UInt32.reduceToNat]
    omega
  refine ⟨UInt32.le_trans narrow (by decide), ?_, ?_⟩
  · simp [codePointUnits, narrow]
  · have compare : ∀ limit : UInt16,
        unit.toUInt32 ≤ limit.toUInt32 ↔ unit ≤ limit := by
      intro limit
      simp only [UInt32.le_iff_toNat_le, UInt16.le_iff_toNat_le,
        UInt16.toNat_toUInt32]
    have ascii : unit.toUInt32 ≤ 0x7f ↔ unit ≤ 0x7f := compare 0x7f
    have latin : unit.toUInt32 ≤ 0x7ff ↔ unit ≤ 0x7ff := compare 0x7ff
    simp only [encodedBytes, quickjsUtf8Length.unitLength, ascii, latin,
      if_pos narrow]
    split
    · rfl
    · split
      · rfl
      · rfl

def codePoints (cesu8 : Bool) : List UInt16 → List UInt32
  | [] => []
  | [unit] => [unit.toUInt32]
  | unit :: next :: units =>
    if startsPair cesu8 unit (some next) then
      pairedCodePoint unit next :: codePoints cesu8 units
    else
      unit.toUInt32 :: codePoints cesu8 (next :: units)

theorem codePoints_spec (cesu8 : Bool) (units : List UInt16) :
    (∀ codePoint ∈ codePoints cesu8 units, codePoint ≤ 0x10ffff) ∧
      (codePoints cesu8 units).flatMap codePointUnits = units := by
  induction units using codePoints.induct cesu8 with
  | case1 => simp [codePoints]
  | case2 => simp [codePoints, unit_spec]
  | case3 _ _ _ pair ih =>
    obtain ⟨-, high, low⟩ := startsPair_iff.mp pair
    obtain ⟨valid, written, -⟩ := pairedCodePoint_spec high low
    rw [codePoints, if_pos pair]
    exact ⟨forall_mem_cons.mpr ⟨valid, ih.1⟩, by
      rw [flatMap_cons, written, ih.2]
      rfl⟩
  | case4 unit _ _ alone ih =>
    obtain ⟨valid, written, -⟩ := unit_spec unit
    rw [codePoints, if_neg alone]
    exact ⟨forall_mem_cons.mpr ⟨valid, ih.1⟩, by
      rw [flatMap_cons, written, ih.2]
      rfl⟩

theorem quickjsUtf8Length_eq (cesu8 : Bool) (units : List UInt16)
    (length : Nat) : quickjsUtf8Length cesu8 units length =
      length + ((codePoints cesu8 units).flatMap encodedBytes).length := by
  induction units, length using quickjsUtf8Length.induct cesu8 with
  | case1 => simp [quickjsUtf8Length, codePoints]
  | case2 => simp [quickjsUtf8Length, codePoints, unit_spec]
  | case3 _ _ _ _ pair ih =>
    obtain ⟨-, high, low⟩ := startsPair_iff.mp pair
    obtain ⟨-, -, four⟩ := pairedCodePoint_spec high low
    rw [quickjsUtf8Length, if_pos pair, ih, codePoints, if_pos pair,
      flatMap_cons, length_append, four]
    omega
  | case4 unit _ _ _ alone ih =>
    obtain ⟨-, -, bytes⟩ := unit_spec unit
    rw [quickjsUtf8Length, if_neg alone, ih, codePoints, if_neg alone,
      flatMap_cons, length_append, bytes]
    omega

theorem takeCodePoint_spec (cesu8 : Bool) (units : List UInt16) :
    match codePoints cesu8 units with
    | [] => takeCodePoint cesu8 units = none
    | codePoint :: later => ∃ rest,
        takeCodePoint cesu8 units = some (codePoint, rest) ∧
          codePoints cesu8 rest = later := by
  cases units using codePoints.induct cesu8 with
  | case1 => rfl
  | case2 => exact ⟨[], by simp [takeCodePoint, startsPair], rfl⟩
  | case3 _ _ units pair =>
    rw [codePoints, if_pos pair]
    exact ⟨units, by simp [takeCodePoint, pair, pairedCodePoint], rfl⟩
  | case4 _ next units alone =>
    rw [codePoints, if_neg alone]
    exact ⟨next :: units, by simp [takeCodePoint, alone], rfl⟩

def QuickJsUtf8Bytes.rest (iterator : QuickJsUtf8Bytes) : List UInt8 :=
  (iterator.pending.take iterator.pendingLen).drop iterator.pendingIndex ++
    (codePoints iterator.cesu8 iterator.units).flatMap encodedBytes

theorem QuickJsUtf8Bytes.next_spec (iterator : QuickJsUtf8Bytes)
    (buffer : iterator.pending.length = 4) (bounded : iterator.pendingLen ≤ 4) :
    (iterator.rest = [] ∧ iterator.next = .ok (none, iterator)) ∨
    ∃ byte after, iterator.next = .ok (some byte, after) ∧
      iterator.rest = byte :: after.rest ∧ after.pending.length = 4 ∧
      after.pendingLen ≤ 4 := by
  unfold next
  split
  · rename_i waiting
    right
    have inside : iterator.pendingIndex < iterator.pending.length := by omega
    rw [getElem?_eq_getElem inside]
    refine ⟨_, _, rfl, ?_, buffer, bounded⟩
    have taken : iterator.pendingIndex <
        (iterator.pending.take iterator.pendingLen).length := by
      rw [length_take]
      omega
    simp only [rest]
    rw [drop_eq_getElem_cons taken, getElem_take, cons_append]
  · rename_i spent
    have drained : (iterator.pending.take iterator.pendingLen).drop
        iterator.pendingIndex = [] := by
      apply drop_eq_nil_of_le
      rw [length_take]
      omega
    have spec := takeCodePoint_spec iterator.cesu8 iterator.units
    have valid := (codePoints_spec iterator.cesu8 iterator.units).1
    cases points : codePoints iterator.cesu8 iterator.units with
    | nil =>
      rw [points] at spec
      refine .inl ⟨by simp [rest, drained, points], ?_⟩
      simp only [show takeCodePoint _ _ = none from spec]
    | cons codePoint =>
      rw [points] at spec valid
      obtain ⟨_, taken, remaining⟩ := spec
      right
      obtain ⟨first, bytes, encoded⟩ :=
        exists_cons_of_ne_nil (encodedBytes_ne_nil codePoint)
      have length := encodedBytes_length_le codePoint
      have written := encodeQuickjsUtf8_eq buffer
        (valid codePoint (mem_cons_self ..))
      rw [encoded] at length written
      rw [taken]
      refine ⟨first, _, by simp [written, Bind.bind, Except.bind]; rfl, ?_,
        ?_, length⟩
      · simp [rest, drained, points, remaining, encoded]
      · simp only [length_cons, length_append, length_drop,
          buffer] at length ⊢
        omega

theorem QuickJsUtf8Bytes.collect_eq {iterator : QuickJsUtf8Bytes}
    (enough : iterator.rest.length < steps)
    (buffer : iterator.pending.length = 4) (bounded : iterator.pendingLen ≤ 4) :
    iterator.collect steps = .ok iterator.rest := by
  induction steps generalizing iterator with
  | zero => omega
  | succ _ ih =>
    rw [collect]
    rcases iterator.next_spec buffer bounded with
      ⟨done, ended⟩ | ⟨byte, after, yielded, more, buffer, bounded⟩
    · rw [ended, done]
      rfl
    · rw [more, length_cons] at enough
      rw [yielded, more]
      simp only [Bind.bind, Except.bind]
      rw [ih (by omega) buffer bounded]
      rfl

variable {units : List UInt16}

theorem pushed_eq (sound : builder.failed = false)
    (count : units.length = additional)
    (room : builder.units.length + units.length ≤ builder.limit) :
    (do
      JsStringBuilder.ensureAdditional additional
      JsStringBuilder.append units : Building Unit) builder =
      .ok () { builder with units := builder.units ++ units } := by
  subst count
  have ensured : JsStringBuilder.ensureAdditional units.length builder =
      .ok () builder := by
    simp [JsStringBuilder.ensureAdditional, sound, checkedLengthWithLimit, room]
  simp only [Bind.bind, EStateM.bind, ensured]
  rfl

theorem codePointUnits_length (codePoint : UInt32) :
    (codePointUnits codePoint).length =
      if codePoint ≤ 0xffff then 1 else 2 := by
  unfold codePointUnits
  split <;> rfl

variable {points : List UInt32}

theorem decodeBytes_eq (steps : Nat) (builder : JsStringBuilder)
    (valid : ∀ codePoint ∈ points, codePoint ≤ 0x10ffff)
    (enough : points.length ≤ steps) (sound : builder.failed = false)
    (room : builder.units.length +
      (points.flatMap codePointUnits).length ≤ builder.limit) :
    decodeBytes steps (points.flatMap encodedBytes) builder =
      .ok () { builder with
        units := builder.units ++ points.flatMap codePointUnits } := by
  induction points generalizing steps builder with
  | nil =>
    cases steps <;> simp [decodeBytes, decodeNext, pure, EStateM.pure]
  | cons codePoint _ ih =>
    obtain ⟨steps, rfl⟩ : ∃ fewer, steps = fewer + 1 :=
      ⟨steps - 1, by simp only [length_cons] at enough; omega⟩
    rw [flatMap_cons, length_append] at room
    have pushed : JsStringBuilder.pushCodePoint codePoint builder = _ :=
      pushed_eq sound (codePointUnits_length codePoint) (by omega)
    simp only [flatMap_cons, decodeBytes,
      decodeNext_encodedBytes (valid codePoint (mem_cons_self ..)),
      Bind.bind, EStateM.bind, pushed]
    have decoded := ih steps { builder with
        units := builder.units ++ codePointUnits codePoint }
      (fun _ member => valid _ (mem_cons_of_mem _ member))
      (Nat.le_of_succ_le_succ enough) sound
      (by simp only [length_append]; omega)
    rw [append_assoc] at decoded
    exact decoded

theorem ascii_split (valid : ∀ codePoint ∈ points, codePoint ≤ 0x10ffff) :
    ∃ front back, points = front ++ back ∧
      (points.flatMap encodedBytes).takeWhile (· < 0x80) =
        front.flatMap encodedBytes ∧
      (front.flatMap encodedBytes).map UInt8.toUInt16 =
        front.flatMap codePointUnits := by
  induction points with
  | nil => exact ⟨[], [], rfl, rfl, rfl⟩
  | cons codePoint points ih =>
    rcases UInt32.le_or_lt codePoint 0x7f with ascii | wide
    · obtain ⟨encoded, low, -, same⟩ := encodedBytes_ascii ascii
      obtain ⟨front, back, split, taken, written⟩ :=
        ih fun _ member => valid _ (mem_cons_of_mem _ member)
      refine ⟨codePoint :: front, back, by rw [split]; rfl, ?_, ?_⟩
      · simp [encoded, low, taken]
      · have narrow : codePoint ≤ 0xffff :=
          UInt32.le_trans ascii (by decide)
        simp [encoded, same, written, codePointUnits, narrow]
    · obtain ⟨_, _, encoded, high⟩ :=
        encodedBytes_wide wide (valid _ (mem_cons_self ..))
      exact ⟨[], codePoint :: points, rfl, by simp [encoded, high], rfl⟩

theorem length_flatMap_encodedBytes (points : List UInt32) :
    points.length ≤ (points.flatMap encodedBytes).length ∧
      (points.flatMap encodedBytes).length ≤
        4 * (points.flatMap codePointUnits).length := by
  induction points with
  | nil => exact ⟨le_rfl, le_rfl⟩
  | cons codePoint =>
    have positive := length_pos_of_ne_nil (encodedBytes_ne_nil codePoint)
    have bounded := encodedBytes_length_le codePoint
    have written := codePointUnits_length codePoint
    simp only [flatMap_cons, length_append, length_cons]
    split at written <;> omega

theorem fromValidatedUtf16_spec (units : List UInt16) (store : Store) :
    ∃ string flat after, fromValidatedUtf16 units store = .ok string after ∧
      Denotes after string (.leaf flat) ∧ flat.units = units := by
  unfold fromValidatedUtf16
  split
  · rename_i narrow
    obtain ⟨string, after, ran, -, denotes⟩ := (allocate_runs
      (.latin1 (units.map UInt16.toUInt8)) store).total trivial
    exact ⟨string, _, after, ran, denotes, narrowed_units narrow⟩
  · obtain ⟨string, after, ran, -, denotes⟩ :=
      (allocate_runs (.utf16 units) store).total trivial
    exact ⟨string, _, after, ran, denotes, rfl⟩

theorem tryFromBytes_codePoints (cesu8 : Bool) (short : units.length ≤ maxLen)
    (store : Store) : ∃ string flat after,
      tryFromBytes ((codePoints cesu8 units).flatMap encodedBytes) store =
        .ok string after ∧
      Denotes after string (.leaf flat) ∧ flat.units = units := by
  obtain ⟨valid, written⟩ := codePoints_spec cesu8 units
  have counted := (length_flatMap_encodedBytes (codePoints cesu8 units)).1
  obtain ⟨front, back, split, taken, ascii⟩ := ascii_split valid
  generalize codePoints cesu8 units = points at *
  subst split
  rw [flatMap_append] at written taken counted ⊢
  have total := congrArg length written
  rw [length_append] at total
  have frontLength : (front.flatMap encodedBytes).length =
      (front.flatMap codePointUnits).length := by
    rw [← ascii, length_map]
  have pushed : JsStringBuilder.pushLatin1 (front.flatMap encodedBytes)
      (.withLimit (min maxLen maxLen)) = _ :=
    pushed_eq rfl (length_map _) (by
      rw [length_map, frontLength]
      simp only [JsStringBuilder.withLimit, length_nil, min_self]
      omega)
  rw [ascii] at pushed
  have decoded := decodeBytes_eq
    (front.flatMap encodedBytes ++ back.flatMap encodedBytes).length
    { JsStringBuilder.withLimit (min maxLen maxLen) with
      units := front.flatMap codePointUnits }
    (fun _ member => valid _ (mem_append_right _ member))
    ((by rw [length_append]; omega : back.length ≤
      (front ++ back).length).trans counted) rfl (by
      simp only [JsStringBuilder.withLimit, min_self]
      omega)
  simp only [written] at decoded
  have fits : ¬ min maxLen maxLen < (front.flatMap encodedBytes).length := by
    rw [min_self]
    omega
  have built := fromValidatedUtf16_spec units store
  simp only [tryFromBytes, tryFromBytesWithLimit, taken, if_neg fits,
    Bind.bind, EStateM.bind, pushed, drop_left]
  simp only [JsStringBuilder.withLimit, nil_append] at decoded ⊢
  simp only [decoded]
  exact built

/-- The export of a string succeeds, takes the bytes its length promised, and
decodes to a string with the same units. -/
def RoundTrips (store : Store) (string : JsString) (cesu8 : Bool) : Prop :=
  ∃ bytes length middle decoded after,
    tryToQuickjsUtf8Bytes cesu8 string store = .ok (bytes, length) middle ∧
    length = bytes.length ∧
    tryFromBytes bytes middle = .ok decoded after ∧
    after.content decoded = store.content string

/-- The most left turns on a path from a string to a leaf, descending at most
`levels` ropes. A linearized rope has no path of its own left. -/
def Store.leftTurnsWithin (store : Store) : Nat → JsString → Nat
  | 0, _ => 0
  | levels + 1, string =>
    match store.data string with
    | .latin1 _ | .utf16 _ => 0
    | .rope rope =>
      match rope.state with
      | .tree left right =>
        max (leftTurnsWithin store levels left + 1)
          (leftTurnsWithin store levels right)
      | .linearized _ => 0

def Store.leftTurns (store : Store) (string : JsString) : Nat :=
  store.leftTurnsWithin (store.depth string + 1) string

variable {tree : StringTree} {store : Store}

section

variable (denotes : Denotes store string tree)

include denotes

theorem Denotes.leftTurnsWithin (enough : tree.depth < levels) :
    store.leftTurnsWithin levels string = tree.leftTurns := by
  induction denotes generalizing levels with
  | @flat _ flat _ data =>
    obtain ⟨levels, rfl⟩ := Nat.exists_eq_add_of_lt enough
    cases flat <;>
      simp [Store.leftTurnsWithin, data, Flat.data, Rope.leftTurns]
  | tree _ data _ _ ihLeft ihRight =>
    rw [Rope.depth_node] at enough
    obtain ⟨levels, rfl⟩ := Nat.exists_eq_add_of_lt enough
    simp only [Store.leftTurnsWithin, data, ropeRepr, Rope.leftTurns]
    rw [ihLeft (by omega), ihRight (by omega)]
  | linearized _ data =>
    obtain ⟨_, rfl⟩ := Nat.exists_eq_add_of_lt enough
    simp only [Store.leftTurnsWithin, data, ropeRepr, Rope.leftTurns]

theorem Denotes.leftTurns : store.leftTurns string = tree.leftTurns :=
  denotes.leftTurnsWithin (by rw [denotes.depth]; omega)

theorem tryToQuickjsUtf8Bytes_eq (sound : Sound tree)
    (turns : tree.leftTurns ≤ ropeMaxDepth) (cesu8 : Bool) :
    ∃ middle, tryToQuickjsUtf8Bytes cesu8 string store =
      .ok ((codePoints cesu8 tree.content).flatMap encodedBytes,
        ((codePoints cesu8 tree.content).flatMap encodedBytes).length)
        middle := by
  rcases linearize_spec denotes sound with
    ⟨value, flat, middle, ran, -, hvalue, hunits, -⟩ | ⟨deep, -⟩
  · have short : StringTree.len (.leaf flat) ≤ maxLen := by
      rw [StringTree.len_leaf, Flat.len, hunits,
        ← StringTree.len_eq_content_length]
      exact sound.short
    have text : StringTree.content (.leaf flat) = tree.content := by
      rw [StringTree.content_leaf, hunits]
    obtain ⟨_, units, rfl, -⟩ := (hvalue.utf16Units trivial short
      (Nat.zero_le _)).total (Nat.zero_le _)
    obtain ⟨_, collected, rfl, -⟩ := (hvalue.collectUnits trivial short
      (Nat.zero_le _)).total (Nat.zero_le _)
    rw [text] at units collected
    have started : QuickJsUtf8Bytes.new middle value cesu8 =
        .ok ⟨tree.content, cesu8, [0, 0, 0, 0], 0, 0⟩ := by
      simp only [QuickJsUtf8Bytes.new]
      rw [← bind_assoc, collected]
      rfl
    have bytes : QuickJsUtf8Bytes.collect traversalSteps
        ⟨tree.content, cesu8, [0, 0, 0, 0], 0, 0⟩ =
        .ok ((codePoints cesu8 tree.content).flatMap encodedBytes) := by
      refine QuickJsUtf8Bytes.collect_eq ?_ rfl (Nat.zero_le _)
      have few :=
        (length_flatMap_encodedBytes (codePoints cesu8 tree.content)).2
      rw [(codePoints_spec cesu8 tree.content).2] at few
      have length := sound.short
      rw [StringTree.len_eq_content_length] at length
      calc _ ≤ 4 * tree.content.length := few
        _ ≤ 4 * maxLen := Nat.mul_le_mul_left 4 length
        _ < traversalSteps := by decide
    refine ⟨middle, ?_⟩
    simp [tryToQuickjsUtf8Bytes, tryAppendQuickjsUtf8Bytes, Bind.bind,
      EStateM.bind, ran, liftRead, units, started, bytes, Except.bind, pure,
      EStateM.pure, quickjsUtf8Length_eq]
  · omega

theorem tryToQuickjsUtf8Bytes_overflows (sound : Sound tree)
    (deep : ropeMaxDepth < tree.leftTurns) (cesu8 : Bool) :
    tryToQuickjsUtf8Bytes cesu8 string store =
      .error (.panic iteratorOverflow) store := by
  rcases linearize_spec denotes sound with
    ⟨value, flat, middle, -, -, -, -, turns⟩ | ⟨-, failed⟩
  · omega
  · simp [tryToQuickjsUtf8Bytes, tryAppendQuickjsUtf8Bytes, Bind.bind,
      EStateM.bind, failed]

end

/-- In both modes the export of a string of any program round-trips, exactly if
no path to a leaf of its rope turns left more than `ropeMaxDepth` times. -/
theorem roundTrips_iff {world : World}
    (reached : programs.Reachable (fun _ _ => True) world)
    {string : JsString} (live : string ∈ world.live) (cesu8 : Bool) :
    RoundTrips world.store string cesu8 ↔
      world.store.leftTurns string ≤ ropeMaxDepth := by
  obtain ⟨_, denotes, sound⟩ := reachable_sound reached string live
  rw [denotes.leftTurns]
  constructor
  · rintro ⟨bytes, length, middle, decoded, after, ran, -⟩
    by_contra deep
    rw [tryToQuickjsUtf8Bytes_overflows denotes sound
      (Nat.lt_of_not_le deep) cesu8] at ran
    cases ran
  · intro turns
    have short := sound.short
    rw [StringTree.len_eq_content_length] at short
    obtain ⟨middle, ran⟩ := tryToQuickjsUtf8Bytes_eq denotes sound turns cesu8
    obtain ⟨decoded, flat, after, read, hdecoded, units⟩ :=
      tryFromBytes_codePoints cesu8 short middle
    refine ⟨_, _, middle, decoded, after, ran, rfl, read, ?_⟩
    rw [hdecoded.content trivial, denotes.content sound.heighted,
      StringTree.content_leaf, units]

theorem roundTrips_splitPair : RoundTrips splitPair.store 2 false ∧
      RoundTrips splitPair.store 2 true :=
  have reached : programs.Reachable (fun _ _ => True) splitPair :=
    splitPair_reachable.weaken fun _ _ _ => trivial
  have low : splitPair.store.leftTurns 2 ≤ ropeMaxDepth := by decide
  have live : 2 ∈ splitPair.live := by decide
  ⟨(roundTrips_iff reached live false).mpr low,
    (roundTrips_iff reached live true).mpr low⟩

/-- A program can build a rope that it cannot export in either mode. -/
theorem deep_rope_not_exported :
    ∃ world string, programs.Reachable (fun _ _ => True) world ∧
      string ∈ world.live ∧ ∀ cesu8, ¬ RoundTrips world.store string cesu8 := by
  obtain ⟨world, string, tree, reached, live, denotes, sound, -, turns, -⟩ :=
    exists_deep_rope
  refine ⟨world, string, reached, live, ?_⟩
  rintro cesu8 ⟨bytes, length, middle, decoded, after, ran, -⟩
  rw [tryToQuickjsUtf8Bytes_overflows denotes sound turns cesu8] at ran
  cases ran

end QuickJsOxide.Strings
