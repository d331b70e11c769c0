import QuickJsOxide.Strings.Store

namespace QuickJsOxide.Strings

/-! Export of a string as WTF-8 or CESU-8 bytes, and the decoder that reads
such bytes back. -/

def isHighSurrogate (unit : UInt16) : Bool :=
  0xd800 ≤ unit && unit ≤ 0xdbff

def isLowSurrogate (unit : UInt16) : Bool :=
  0xdc00 ≤ unit && unit ≤ 0xdfff

/-- The test with which both export loops decide whether a unit is the first
half of a pair; `next` is the unit they peek at. -/
def startsPair (cesu8 : Bool) (unit : UInt16) (next : Option UInt16) : Bool :=
  !cesu8 && isHighSurrogate unit && next.any isLowSurrogate

def leadingBits (marker codePoint shift : UInt32) : UInt8 :=
  (marker ||| codePoint >>> shift).toUInt8

def continuationBits (codePoint shift : UInt32) : UInt8 :=
  ((0x80 : UInt32) ||| (codePoint >>> shift &&& 0x3f)).toUInt8

/-- Write the encoding of a code point to the front of a four-byte buffer and
return its length. -/
def encodeQuickjsUtf8 (output : List UInt8) (codePoint : UInt32) :
    Except Fault (List UInt8 × Nat) :=
  if codePoint ≤ 0x7f then
    .ok (output.set 0 codePoint.toUInt8, 1)
  else if codePoint ≤ 0x7ff then
    .ok ((output.set 0 (leadingBits 0xc0 codePoint 6)).set 1
      (continuationBits codePoint 0), 2)
  else if codePoint ≤ 0xffff then
    .ok (((output.set 0 (leadingBits 0xe0 codePoint 12)).set 1
      (continuationBits codePoint 6)).set 2 (continuationBits codePoint 0), 3)
  else if codePoint ≤ 0x10ffff then
    .ok ((((output.set 0 (leadingBits 0xf0 codePoint 18)).set 1
      (continuationBits codePoint 12)).set 2 (continuationBits codePoint 6)).set
      3 (continuationBits codePoint 0), 4)
  else
    .error (.panic "QuickJS byte encoder received an invalid code point")

def quickjsUtf8Length (cesu8 : Bool) : List UInt16 → Nat → Nat
  | [], length => length
  | [unit], length => length + unitLength unit
  | unit :: next :: units, length =>
    if startsPair cesu8 unit (some next) then
      quickjsUtf8Length cesu8 units (length + 4)
    else
      quickjsUtf8Length cesu8 (next :: units) (length + unitLength unit)
where
  unitLength (unit : UInt16) : Nat :=
    if unit ≤ 0x7f then 1 else if unit ≤ 0x7ff then 2 else 3

/-- The byte iterator. Its unit iterator is given by the units it has yet to
yield; the string cannot change while it is read. -/
structure QuickJsUtf8Bytes where
  units : List UInt16
  cesu8 : Bool
  pending : List UInt8
  pendingIndex : Nat
  pendingLen : Nat
deriving Repr

namespace QuickJsUtf8Bytes

def new (store : Store) (string : JsString) (cesu8 : Bool) :
    Except Fault QuickJsUtf8Bytes := do
  let units ← Utf16Units.new store string
  let units ← units.collect store traversalSteps
  return {
    units
    cesu8
    pending := [0, 0, 0, 0]
    pendingIndex := 0
    pendingLen := 0 }

def takeCodePoint (cesu8 : Bool) :
    List UInt16 → Option (UInt32 × List UInt16)
  | [] => none
  | unit :: units =>
    if startsPair cesu8 unit units.head? then
      match units with
      | low :: units =>
        some ((0x10000 : UInt32) + (unit.toUInt32 - 0xd800) <<< 10 +
          (low.toUInt32 - 0xdc00), units)
      | [] => none
    else
      some (unit.toUInt32, units)

def next (iterator : QuickJsUtf8Bytes) :
    Except Fault (Option UInt8 × QuickJsUtf8Bytes) :=
  if iterator.pendingIndex < iterator.pendingLen then
    match iterator.pending[iterator.pendingIndex]? with
    | some byte => .ok (some byte,
        { iterator with pendingIndex := iterator.pendingIndex + 1 })
    | none => .error (.panic "index out of bounds")
  else
    match takeCodePoint iterator.cesu8 iterator.units with
    | none => .ok (none, iterator)
    | some (codePoint, units) => do
      let (pending, pendingLen) ← encodeQuickjsUtf8 iterator.pending codePoint
      match pending[0]? with
      | some byte => return (some byte,
          { iterator with units, pending, pendingLen, pendingIndex := 1 })
      | none => .error (.panic "index out of bounds")

/-- What `extend` appends: all bytes of the iterator. -/
def collect : Nat → QuickJsUtf8Bytes → Except Fault (List UInt8)
  | 0, _ => .error .exhausted
  | steps + 1, iterator => do
    let (byte, iterator) ← iterator.next
    match byte with
    | none => return []
    | some byte => do
      let bytes ← collect steps iterator
      return byte :: bytes

end QuickJsUtf8Bytes

/-- Append the export of a string to a buffer. The exact reservation of
`quickjs_utf8_length` bytes is taken to succeed; the answer keeps it beside the
buffer. -/
def tryAppendQuickjsUtf8Bytes (output : List UInt8) (cesu8 : Bool)
    (string : JsString) : Operation (List UInt8 × Nat) := do
  let value ← linearize string
  let units ← liftRead fun store => store.utf16Units value
  let encodedLen := quickjsUtf8Length cesu8 units 0
  let bytes ← liftRead fun store => do
    let iterator ← QuickJsUtf8Bytes.new store value cesu8
    iterator.collect traversalSteps
  return (output ++ bytes, encodedLen)

def tryToQuickjsUtf8Bytes (cesu8 : Bool) (string : JsString) :
    Operation (List UInt8 × Nat) :=
  tryAppendQuickjsUtf8Bytes [] cesu8 string

def isContinuation (byte : UInt8) : Bool :=
  0x80 ≤ byte && byte ≤ 0xbf

/-- How many continuation bytes follow a leading byte, the bits of the code
point the leading byte carries, and the least code point of that length. -/
def leadingByte (first : UInt8) : Option (Nat × UInt8 × UInt32) :=
  if 0xc0 ≤ first ∧ first ≤ 0xdf then
    some (1, 0x1f, 0x80)
  else if 0xe0 ≤ first ∧ first ≤ 0xef then
    some (2, 0x0f, 0x800)
  else if 0xf0 ≤ first ∧ first ≤ 0xf7 then
    some (3, 0x07, 0x10000)
  else if 0xf8 ≤ first ∧ first ≤ 0xfb then
    some (4, 0x03, 0x200000)
  else if 0xfc ≤ first ∧ first ≤ 0xfd then
    some (5, 0x01, 0x4000000)
  else
    none

def foldContinuation : List UInt8 → UInt32 → Option UInt32
  | [], codePoint => some codePoint
  | byte :: bytes, codePoint =>
    if isContinuation byte then
      foldContinuation bytes (codePoint <<< 6 ||| (byte &&& 0x3f).toUInt32)
    else
      none

def decodeQuickjsUtf8 : List UInt8 → Option (UInt32 × Nat)
  | [] => none
  | first :: rest =>
    if first < 0x80 then
      some (first.toUInt32, 1)
    else do
      let (continuationCount, mask, minimum) ← leadingByte first
      if rest.length < continuationCount then
        none
      else do
        let codePoint ← foldContinuation (rest.take continuationCount)
          (first &&& mask).toUInt32
        if minimum ≤ codePoint then
          some (codePoint, continuationCount + 1)
        else
          none

/-- The bytes a skip over an invalid sequence leaves: it drops continuation
bytes, one more byte, and the continuation bytes behind that. -/
def skipQuickjsInvalidUtf8 (value : List UInt8) : List UInt8 :=
  ((value.dropWhile isContinuation).drop 1).dropWhile isContinuation

structure JsStringBuilder where
  units : List UInt16
  limit : Nat
  failed : Bool
deriving Repr

/-- Steps of a builder; a builder that hit its limit stays failed. -/
abbrev Building := EStateM JsStringError JsStringBuilder

namespace JsStringBuilder

def withLimit (limit : Nat) : JsStringBuilder where
  units := []
  limit := min limit maxLen
  failed := false

def ensureAdditional (additional : Nat) : Building Unit := fun builder =>
  if builder.failed then
    .error .tooLong builder
  else
    match checkedLengthWithLimit builder.units.length additional
        builder.limit with
    | .error _ => .error .tooLong { builder with units := [], failed := true }
    | .ok _ => .ok () builder

def append (units : List UInt16) : Building Unit :=
  modify fun builder => { builder with units := builder.units ++ units }

def pushLatin1 (value : List UInt8) : Building Unit := do
  ensureAdditional value.length
  append (value.map UInt8.toUInt16)

/-- The units `push_code_point` writes. -/
def codePointUnits (value : UInt32) : List UInt16 :=
  if value ≤ 0xffff then
    [value.toUInt16]
  else
    [(0xd800 : UInt16) ||| ((value - 0x10000) >>> 10).toUInt16,
      (0xdc00 : UInt16) ||| ((value - 0x10000) &&& 0x3ff).toUInt16]

def pushCodePoint (value : UInt32) : Building Unit := do
  ensureAdditional (if value ≤ 0xffff then 1 else 2)
  append (codePointUnits value)

end JsStringBuilder

/-- One turn of the decoding loop: the code point to push and the bytes behind
it. -/
def decodeNext (value : List UInt8) : Option (UInt32 × List UInt8) :=
  match value with
  | [] => none
  | first :: rest =>
    if first < 0x80 then
      some (first.toUInt32, rest)
    else
      match decodeQuickjsUtf8 value with
      | some (codePoint, consumed) =>
        if codePoint ≤ 0x10ffff then
          some (codePoint, value.drop consumed)
        else
          some (0xfffd, skipQuickjsInvalidUtf8 value)
      | none => some (0xfffd, skipQuickjsInvalidUtf8 value)

/-- The decoding loop. Every turn consumes a byte, so as many steps as there
are bytes suffice. -/
def decodeBytes : Nat → List UInt8 → Building Unit
  | 0, _ => pure ()
  | steps + 1, value =>
    match decodeNext value with
    | none => pure ()
    | some (codePoint, rest) => do
      JsStringBuilder.pushCodePoint codePoint
      decodeBytes steps rest

def fromValidatedUtf16 (units : List UInt16) : Operation JsString :=
  if units.all (· ≤ 0xff) then
    allocate (.latin1 (units.map UInt16.toUInt8))
  else
    allocate (.utf16 units)

def JsStringBuilder.finish (builder : JsStringBuilder) : Operation JsString :=
  if builder.failed then
    throw (.error .tooLong)
  else
    fromValidatedUtf16 builder.units

def tryFromBytesWithLimit (value : List UInt8) (limit : Nat) :
    Operation JsString :=
  let limit := min limit maxLen
  let ascii := value.takeWhile (· < 0x80)
  if limit < ascii.length then
    throw (.error .tooLong)
  else
    let building : Building Unit := do
      JsStringBuilder.pushLatin1 ascii
      decodeBytes value.length (value.drop ascii.length)
    match building (.withLimit limit) with
    | .error error _ => throw (.error error)
    | .ok _ builder => builder.finish

def tryFromBytes (value : List UInt8) : Operation JsString :=
  tryFromBytesWithLimit value maxLen

end QuickJsOxide.Strings
