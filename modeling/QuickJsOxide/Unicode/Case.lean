import QuickJsOxide.Unicode.Ranges

namespace QuickJsOxide.Unicode

/-! Case conversion for regular expressions, with the generated tables. Reading
a table out of range is a panic, which is `none` here. -/

def caseConvTable1 : List Nat :=
  [0x209a30, 0x309a00, 0x5a8173, 0x601730, 0x6c0730, 0x6f81b3, 0x701700,
    0x7c0700, 0x7f8100, 0x803040, 0x9801c3, 0x988190, 0x990640, 0x9c9040,
    0xa481b4, 0xa52e40, 0xbc0130, 0xbc8640, 0xbf8170, 0xc00100, 0xc08130,
    0xc10440, 0xc30130, 0xc38240, 0xc48230, 0xc58240, 0xc70130, 0xc78130,
    0xc80130, 0xc88240, 0xc98130, 0xca0130, 0xca8100, 0xcb0130, 0xcb8130,
    0xcc0240, 0xcd0100, 0xcd8101, 0xce0130, 0xce8130, 0xcf0100, 0xcf8130,
    0xd00640, 0xd30130, 0xd38240, 0xd48130, 0xd60240, 0xd70130, 0xd78240,
    0xd88230, 0xd98440, 0xdb8130, 0xdc0240, 0xde0240, 0xdf8100, 0xe20350,
    0xe38350, 0xe50350, 0xe69040, 0xee8100, 0xef1240, 0xf801b4, 0xf88350,
    0xfa0240, 0xfb0130, 0xfb8130, 0xfc2840, 0x1100130, 0x1111240, 0x11d0131,
    0x11d8240, 0x11e8130, 0x11f0131, 0x11f8201, 0x1208240, 0x1218130,
    0x1220130, 0x1228130, 0x1230a40, 0x1280101, 0x1288101, 0x1290101,
    0x1298100, 0x12a0100, 0x12b0200, 0x12c8100, 0x12d8100, 0x12e0101,
    0x1300100, 0x1308101, 0x1318100, 0x1320101, 0x1328101, 0x1330101,
    0x1340100, 0x1348100, 0x1350101, 0x1358101, 0x1360101, 0x1378100,
    0x1388101, 0x1390100, 0x13a8100, 0x13e8101, 0x1400100, 0x1410101,
    0x1418100, 0x1438101, 0x1440100, 0x1448100, 0x1450200, 0x1460100,
    0x1490100, 0x14e8101, 0x14f0101, 0x1a28173, 0x1b80440, 0x1bb0240,
    0x1bd8300, 0x1bf8130, 0x1c30130, 0x1c40330, 0x1c60130, 0x1c70230,
    0x1c801d0, 0x1c89130, 0x1d18930, 0x1d60100, 0x1d68300, 0x1d801d3,
    0x1d89100, 0x1e10173, 0x1e18900, 0x1e60100, 0x1e68200, 0x1e78130,
    0x1e80173, 0x1e88173, 0x1ea8173, 0x1eb0173, 0x1eb8100, 0x1ec1840,
    0x1f80173, 0x1f88173, 0x1f90100, 0x1f98100, 0x1fa01a0, 0x1fa8173,
    0x1fb8240, 0x1fc8130, 0x1fd0240, 0x1fe8330, 0x2001030, 0x2082030,
    0x2182000, 0x2281000, 0x2302240, 0x2453640, 0x2600130, 0x2608e40,
    0x2678100, 0x2686040, 0x298a630, 0x2b0a600, 0x2c381b5, 0x8502631,
    0x8638131, 0x8668131, 0x8682b00, 0x87e8300, 0x9d05011, 0x9f80610,
    0x9fc0620, 0xe400174, 0xe408174, 0xe410174, 0xe418174, 0xe420174,
    0xe428174, 0xe430174, 0xe438180, 0xe440180, 0xe448240, 0xe482b30,
    0xe5e8330, 0xebc8101, 0xebe8101, 0xec70101, 0xf007e40, 0xf3f1840,
    0xf4b01b5, 0xf4b81b6, 0xf4c01b6, 0xf4c81b6, 0xf4d01b7, 0xf4d8180,
    0xf4f0130, 0xf506040, 0xf800800, 0xf840830, 0xf880600, 0xf8c0630,
    0xf900800, 0xf940830, 0xf980800, 0xf9c0830, 0xfa00600, 0xfa40630,
    0xfa801b0, 0xfa88100, 0xfa901d3, 0xfa98100, 0xfaa01d3, 0xfaa8100,
    0xfab01d3, 0xfab8100, 0xfac8130, 0xfad8130, 0xfae8130, 0xfaf8130,
    0xfb00800, 0xfb40830, 0xfb80200, 0xfb90400, 0xfbb0201, 0xfbc0201,
    0xfbd0201, 0xfbe0201, 0xfc008b7, 0xfc40867, 0xfc808b8, 0xfcc0868,
    0xfd008b8, 0xfd40868, 0xfd80200, 0xfd901b9, 0xfd981b1, 0xfda01b9,
    0xfdb01b1, 0xfdb81d7, 0xfdc0230, 0xfdd0230, 0xfde0161, 0xfdf0173,
    0xfe101b9, 0xfe181b2, 0xfe201ba, 0xfe301b2, 0xfe381d8, 0xfe40430,
    0xfe60162, 0xfe80201, 0xfe901d0, 0xfe981d0, 0xfeb01b0, 0xfeb81d0,
    0xfec0230, 0xfed0230, 0xff00201, 0xff101d3, 0xff181d3, 0xff201ba,
    0xff28101, 0xff301b0, 0xff381d3, 0xff40231, 0xff50230, 0xff60131,
    0xff901ba, 0xff981b2, 0xffa01bb, 0xffb01b2, 0xffb81d9, 0xffc0230,
    0xffd0230, 0xffe0162, 0x109301a0, 0x109501a0, 0x109581a0, 0x10990131,
    0x10a70101, 0x10b01031, 0x10b81001, 0x10c18240, 0x125b1a31, 0x12681a01,
    0x16003031, 0x16183001, 0x16300240, 0x16310130, 0x16318130, 0x16320130,
    0x16328100, 0x16330100, 0x16338640, 0x16368130, 0x16370130, 0x16378130,
    0x16380130, 0x16390240, 0x163a8240, 0x163f0230, 0x16406440, 0x16758440,
    0x16790240, 0x16802600, 0x16938100, 0x16968100, 0x53202e40, 0x53401c40,
    0x53910e40, 0x53993e40, 0x53bc8440, 0x53be8130, 0x53bf0a40, 0x53c58240,
    0x53c68130, 0x53c80440, 0x53ca0101, 0x53cb1440, 0x53d50130, 0x53d58130,
    0x53d60130, 0x53d68130, 0x53d70130, 0x53d80130, 0x53d88130, 0x53d90130,
    0x53d98131, 0x53da1040, 0x53e20131, 0x53e28130, 0x53e30130, 0x53e38440,
    0x53e58130, 0x53e61040, 0x53ee0130, 0x53fa8240, 0x55a98101, 0x55b85020,
    0x7d8001b2, 0x7d8081b2, 0x7d8101b2, 0x7d8181da, 0x7d8201da, 0x7d8281b3,
    0x7d8301b3, 0x7d8981bb, 0x7d8a01bb, 0x7d8a81bb, 0x7d8b01bc, 0x7d8b81bb,
    0x7f909a31, 0x7fa09a01, 0x82002831, 0x82142801, 0x82582431, 0x826c2401,
    0x82b80b31, 0x82be0f31, 0x82c60731, 0x82ca0231, 0x82cb8b01, 0x82d18f01,
    0x82d98701, 0x82dd8201, 0x86403331, 0x86603301, 0x86a81631, 0x86b81601,
    0x8c502031, 0x8c602001, 0xb7202031, 0xb7302001, 0xb7501931, 0xb75d9901,
    0xf4802231, 0xf4912201]

def caseConvTable2 : List Nat :=
  [0x1, 0x0, 0x9c, 0x6, 0x7, 0x4d, 0x3, 0x4, 0x10, 0x0, 0x8f, 0xb, 0x0, 0x0,
    0x11, 0x0, 0x8, 0x0, 0x53, 0x4b, 0x52, 0x0, 0x53, 0x0, 0x54, 0x0, 0x3b,
    0x55, 0x56, 0x0, 0x58, 0x5a, 0x40, 0x5f, 0x5e, 0x0, 0x47, 0x50, 0x63, 0x65,
    0x43, 0x66, 0x0, 0x68, 0x0, 0x6a, 0x0, 0x6c, 0x0, 0x6e, 0x0, 0x70, 0x0,
    0x0, 0x41, 0x0, 0x0, 0x0, 0x0, 0x1a, 0x0, 0x93, 0x0, 0x0, 0x20, 0x36, 0x0,
    0x28, 0x0, 0x24, 0x0, 0x24, 0x25, 0x2d, 0x0, 0x13, 0x6d, 0x6f, 0x0, 0x29,
    0x27, 0x2a, 0x14, 0x16, 0x18, 0x1b, 0x1c, 0x41, 0x1e, 0x42, 0x1f, 0x4e,
    0x3c, 0x40, 0x22, 0x21, 0x44, 0x21, 0x43, 0x26, 0x28, 0x27, 0x29, 0x23,
    0x2b, 0x4b, 0x2d, 0x46, 0x2f, 0x4c, 0x31, 0x4d, 0x33, 0x47, 0x45, 0x99,
    0x0, 0x0, 0x97, 0x91, 0x7f, 0x80, 0x85, 0x86, 0x12, 0x82, 0x84, 0x78, 0x79,
    0x12, 0x7d, 0xa3, 0x7e, 0x7a, 0x7b, 0x8c, 0x92, 0x98, 0xa6, 0xa0, 0x87,
    0x0, 0x9a, 0xa1, 0x95, 0x77, 0x33, 0x95, 0x0, 0x90, 0x0, 0x76, 0x9b, 0x9a,
    0x99, 0x98, 0x0, 0x0, 0xa0, 0x0, 0x9e, 0x0, 0xa3, 0xa2, 0x15, 0x31, 0x32,
    0x33, 0xb7, 0xb8, 0x53, 0xac, 0xab, 0x12, 0x14, 0x1e, 0x21, 0x22, 0x22,
    0x2a, 0x34, 0x35, 0x0, 0xa8, 0xa9, 0x39, 0x22, 0x4c, 0x0, 0x0, 0x97, 0x1,
    0x5a, 0xda, 0x1d, 0x36, 0x5, 0x0, 0xc7, 0xc6, 0xc9, 0xc8, 0xcb, 0xca, 0xcd,
    0xcc, 0xcf, 0xce, 0xc4, 0xd8, 0x45, 0xd9, 0x42, 0xda, 0x46, 0xdb, 0xd1,
    0xd3, 0xd5, 0xd7, 0xdd, 0xdc, 0xf1, 0xf9, 0x1, 0x11, 0xa, 0x12, 0x80, 0x9f,
    0x0, 0x21, 0x80, 0xa3, 0xf0, 0x0, 0xc0, 0x40, 0xc6, 0x60, 0xea, 0xde, 0xe6,
    0x99, 0xc0, 0x0, 0x0, 0x6, 0x60, 0xdf, 0x29, 0x0, 0x15, 0x12, 0x6, 0x16,
    0xfb, 0xe0, 0x9, 0x15, 0x12, 0x84, 0xb, 0xc6, 0x16, 0x2, 0xe2, 0x6, 0xc0,
    0x40, 0x0, 0x46, 0x60, 0xe1, 0xe3, 0x6d, 0x37, 0x38, 0x39, 0x18, 0x17,
    0x1a, 0x19, 0x0, 0x1d, 0x1c, 0x1f, 0x1e, 0x0, 0x61, 0xba, 0x67, 0x45, 0x48,
    0x0, 0x50, 0x64, 0x4f, 0x51, 0x0, 0x0, 0x49, 0x0, 0x0, 0x0, 0xa5, 0xa6,
    0xa7, 0x0, 0x0, 0x0, 0x0, 0x0, 0xb9, 0x0, 0x0, 0x5c, 0x0, 0x4a, 0x0, 0x5d,
    0x57, 0x59, 0x62, 0x60, 0x72, 0x6b, 0x71, 0x52, 0x0, 0x3e, 0x69, 0xbb, 0x0,
    0x5b, 0x0, 0x25, 0x0, 0x48, 0xaa, 0x8a, 0x8b, 0x8c, 0xab, 0xac, 0x58, 0x58,
    0xaf, 0x94, 0xb0, 0x6f, 0xb2, 0x61, 0x60, 0x63, 0x62, 0x65, 0x64, 0x6a,
    0x6b, 0x6c, 0x6d, 0x66, 0x67, 0x68, 0x69, 0x6f, 0x6e, 0x71, 0x70, 0x73,
    0x72, 0x75, 0x74, 0x77, 0x76, 0x79, 0x78]

def caseConvExt : List Nat :=
  [0x399, 0x308, 0x301, 0x3a5, 0x313, 0x300, 0x342, 0x391, 0x397, 0x3a9, 0x46,
    0x49, 0x4c, 0x53, 0x69, 0x307, 0x2bc, 0x4e, 0x4a, 0x30c, 0x535, 0x552,
    0x48, 0x331, 0x54, 0x57, 0x30a, 0x59, 0x41, 0x2be, 0x1f08, 0x1f80, 0x1f28,
    0x1f90, 0x1f68, 0x1fa0, 0x1fba, 0x386, 0x1fb3, 0x1fca, 0x389, 0x1fc3,
    0x3a1, 0x1ffa, 0x38f, 0x1ff3, 0x544, 0x546, 0x53b, 0x54e, 0x53d, 0x3b8,
    0x462, 0xa64a, 0x1e60, 0x3c9, 0x6b, 0xe5]

@[match_pattern] abbrev runTypeU : Nat := 0
@[match_pattern] abbrev runTypeL : Nat := 1
@[match_pattern] abbrev runTypeUF : Nat := 2
@[match_pattern] abbrev runTypeLF : Nat := 3
@[match_pattern] abbrev runTypeUL : Nat := 4
@[match_pattern] abbrev runTypeLSU : Nat := 5
@[match_pattern] abbrev runTypeU2L399Ext2 : Nat := 6
@[match_pattern] abbrev runTypeUFD20 : Nat := 7
@[match_pattern] abbrev runTypeUFD1Ext : Nat := 8
@[match_pattern] abbrev runTypeUExt : Nat := 9
@[match_pattern] abbrev runTypeLFExt : Nat := 10
@[match_pattern] abbrev runTypeUFExt2 : Nat := 11
@[match_pattern] abbrev runTypeLFExt2 : Nat := 12
@[match_pattern] abbrev runTypeUFExt3 : Nat := 13

def runStart (entry : Nat) : Nat := entry >>> 15

def runLen (entry : Nat) : Nat := (entry >>> 8) &&& 0x7f

def runType (entry : Nat) : Nat := (entry >>> 4) &&& 0xf

/-- The code points a code point of the run becomes, with the data word of the
entry. -/
def convertRun (codePoint conversion runStart data runType : Nat) :
    Option (List Nat) :=
  match runType with
  | runTypeU | runTypeL | runTypeUF | runTypeLF =>
    if conversion = runType &&& 1 ∨ runTypeUF ≤ runType ∧ conversion = 2 then do
      let mapped ← caseConvTable1[data]?
      return [codePoint - runStart + mapped >>> 15]
    else
      return [codePoint]
  | runTypeUL =>
    let offset := codePoint - runStart
    if offset &&& 1 = if conversion ≠ 0 then 0 else 1 then
      return [(offset ^^^ 1) + runStart]
    else
      return [codePoint]
  | runTypeLSU =>
    let offset := codePoint - runStart
    if offset = 1 then
      return [if conversion ≠ 0 then codePoint + 1 else codePoint - 1]
    else if offset = if conversion ≠ 0 then 0 else 2 then
      return [if conversion ≠ 0 then codePoint + 2 else codePoint - 2]
    else
      return [codePoint]
  | runTypeU2L399Ext2 =>
    if conversion ≠ 0 then do
      let first ← caseConvExt[data &&& 0x3f]?
      return [codePoint - runStart + first]
    else do
      let first ← caseConvExt[data >>> 6]?
      return [codePoint - runStart + first, 0x399]
  | runTypeUFD20 =>
    if conversion ≠ 1 then
      return [data + if conversion = 2 then 0x20 else 0]
    else
      return [codePoint]
  | runTypeUFD1Ext =>
    if conversion ≠ 1 then do
      let first ← caseConvExt[data]?
      return [first + if conversion = 2 then 1 else 0]
    else
      return [codePoint]
  | runTypeUExt | runTypeLFExt =>
    if (if conversion ≠ 0 then 1 else 0) = runType - runTypeUExt then do
      let first ← caseConvExt[data]?
      return [first]
    else
      return [codePoint]
  | runTypeUFExt2 =>
    if conversion ≠ 1 then do
      let first ← caseConvExt[data >>> 6]?
      let second ← caseConvExt[data &&& 0x3f]?
      return [codePoint - runStart + first, second]
    else
      return [codePoint]
  | runTypeLFExt2 =>
    if conversion ≠ 0 then do
      let first ← caseConvExt[data >>> 6]?
      let second ← caseConvExt[data &&& 0x3f]?
      return [codePoint - runStart + first, second]
    else
      return [codePoint]
  | runTypeUFExt3 =>
    if conversion ≠ 1 then do
      let first ← caseConvExt[data >>> 8]?
      let second ← caseConvExt[(data >>> 4) &&& 0xf]?
      let third ← caseConvExt[data &&& 0xf]?
      return [first, second, third]
    else
      return [codePoint]
  | _ => none

def caseConversionEntry (codePoint conversion index entry : Nat) :
    Option (List Nat) := do
  let low ← caseConvTable2[index]?
  convertRun codePoint conversion (runStart entry)
    (((entry &&& 0xf) <<< 8) ||| low) (runType entry)

/-- The entry whose run the code point is in. Each step shortens the range, so
as many steps as there are entries are enough. -/
def findRun (codePoint : Nat) : Nat → Nat → Nat → Option (Nat × Nat)
  | 0, _, _ => none
  | steps + 1, lower, upper =>
    if lower < upper then
      let middle := (lower + upper) / 2
      let entry := caseConvTable1.getD middle 0
      if codePoint < runStart entry then
        findRun codePoint steps lower middle
      else if runStart entry + runLen entry ≤ codePoint then
        findRun codePoint steps (middle + 1) upper
      else
        some (middle, entry)
    else
      none

def regexpCanonicalize (codePoint : Nat) (unicode : Bool) : Option Nat :=
  if codePoint < 128 then
    if unicode ∧ 0x41 ≤ codePoint ∧ codePoint ≤ 0x5a then
      some (codePoint + 0x20)
    else if ¬ unicode ∧ 0x61 ≤ codePoint ∧ codePoint ≤ 0x7a then
      some (codePoint - 0x20)
    else
      some codePoint
  else
    match findRun codePoint caseConvTable1.length 0 caseConvTable1.length with
    | none => some codePoint
    | some (index, entry) => do
      let mapping ← caseConversionEntry codePoint (if unicode then 2 else 0)
        index entry
      match mapping with
      | [mapped] =>
        return if unicode ∨ 128 ≤ mapped then mapped else codePoint
      | _ =>
        return match unicode, codePoint with
          | true, 0xfb06 => 0xfb05
          | true, 0x1fd3 => 0x390
          | true, 0x1fe3 => 0x3b0
          | _, _ => codePoint

def caseURunMask : List Nat :=
  [runTypeU, runTypeUF, runTypeUL, runTypeLSU, runTypeU2L399Ext2, runTypeUFD20,
    runTypeUFD1Ext, runTypeUExt, runTypeUFExt2, runTypeUFExt3]

def caseFRunMask : List Nat :=
  [runTypeUF, runTypeLF, runTypeUL, runTypeLSU, runTypeU2L399Ext2, runTypeLFExt,
    runTypeLFExt2, runTypeUFD20, runTypeUFD1Ext, runTypeUFExt2, runTypeUFExt3]

def runMask (unicode : Bool) (entry : Nat) : List HalfOpenRange :=
  if runType entry ∉ if unicode then caseFRunMask else caseURunMask then
    []
  else
    let start := runStart entry
    match runType entry with
    | runTypeUL =>
      let start := if unicode then start else start + 1
      (List.range ((runLen entry + 1) / 2)).map fun half =>
        (start + 2 * half, start + 2 * half + 1)
    | runTypeLSU =>
      (if unicode then [(start, start + 1)] else []) ++
        [(start + 1, start + 2)] ++
        if unicode then [] else [(start + 2, start + 3)]
    | _ => [(start, start + runLen entry)]

def regexpCaseChangeMask (unicode : Bool) : List HalfOpenRange :=
  normalizeHalfOpenRanges (caseConvTable1.flatMap (runMask unicode))

def regexpCanonicalizeRangePairs (ranges : List (Nat × Nat)) (unicode : Bool) :
    Option (List (Nat × Nat)) := do
  let ranges := normalizeHalfOpenRanges
    ((ranges.filter fun range => range.1 ≤ range.2).map fun range =>
      (range.1, saturatingSucc range.2))
  let mask := regexpCaseChangeMask unicode
  let affected := intersectHalfOpenRanges ranges mask
  let unaffected := subtractHalfOpenRanges ranges mask
  let canonicalized ← (affected.flatMap fun range =>
    List.range' range.1 (range.2 - range.1)).mapM fun codePoint => do
      let mapped ← regexpCanonicalize codePoint unicode
      return (mapped, mapped + 1)
  return (normalizeHalfOpenRanges (canonicalized ++ unaffected)).map
    fun range => (range.1, range.2 - 1)

end QuickJsOxide.Unicode
