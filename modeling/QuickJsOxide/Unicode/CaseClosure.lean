import Mathlib.Tactic.IntervalCases
import QuickJsOxide.Unicode.Case

namespace QuickJsOxide.Unicode

open List

theorem findRun_spec (steps : Nat) :
    ∀ {lower upper : Nat}, upper ≤ caseConvTable1.length →
      findRun codePoint steps lower upper = some (index, entry) →
      caseConvTable1[index]? = some entry ∧ runStart entry ≤ codePoint ∧
        codePoint < runStart entry + runLen entry := by
  induction steps with
  | zero =>
    intro lower upper _ found
    cases found
  | succ _ ih =>
    intro lower upper within found
    unfold findRun at found
    split at found
    case isTrue =>
        have inside : (lower + upper) / 2 < caseConvTable1.length := by omega
        dsimp only at found
        split at found
        · exact ih (by omega) found
        · split at found
          · exact ih within found
          · obtain ⟨rfl, rfl⟩ := Prod.mk.inj (Option.some.inj found)
            rw [getD_eq_getElem?_getD, getElem?_eq_getElem inside]
            exact ⟨rfl, by simp_all, by simp_all⟩
    case isFalse => cases found

def dataFits (data : Nat) : Nat → Bool
  | runTypeU | runTypeL | runTypeUF | runTypeLF =>
    data < caseConvTable1.length
  | runTypeUFD1Ext | runTypeUExt | runTypeLFExt => data < caseConvExt.length
  | runTypeU2L399Ext2 | runTypeUFExt2 | runTypeLFExt2 =>
    data >>> 6 < caseConvExt.length ∧ data &&& 0x3f < caseConvExt.length
  | runTypeUFExt3 =>
    data >>> 8 < caseConvExt.length ∧
      (data >>> 4) &&& 0xf < caseConvExt.length ∧
      data &&& 0xf < caseConvExt.length
  | type => type = runTypeUL ∨ type = runTypeLSU ∨ type = runTypeUFD20

theorem isSome_convertRun (fits : dataFits data type)
    (codePoint conversion start : Nat) :
    (convertRun codePoint conversion start data type).isSome := by
  unfold dataFits at fits
  unfold convertRun
  split at fits <;> grind

theorem dataFits_table : (caseConvTable1.zip caseConvTable2).all
    (fun (entry, low) =>
      dataFits (((entry &&& 0xf) <<< 8) ||| low) (runType entry)) = true := by
  decide +kernel

theorem length_caseConvTable2 :
    caseConvTable2.length = caseConvTable1.length := by
  decide +kernel

theorem isSome_caseConversionEntry (found : caseConvTable1[index]? = some entry)
    (codePoint conversion : Nat) :
    (caseConversionEntry codePoint conversion index entry).isSome := by
  obtain ⟨inside, -⟩ := List.getElem?_eq_some_iff.mp found
  have within := inside.trans_eq length_caseConvTable2.symm
  have low := List.getElem?_eq_getElem within
  have fits := List.all_eq_true.mp dataFits_table (entry, caseConvTable2[index])
    (List.mem_of_getElem? (List.getElem?_zip_eq_some.mpr ⟨found, low⟩))
  rw [caseConversionEntry, low]
  exact isSome_convertRun fits codePoint conversion _

theorem runType_lt : ∀ entry ∈ caseConvTable1, runType entry < 14 := by
  decide +kernel

theorem convertRun_of_not_mem (unicode : Bool) (small : type < 14)
    (unmasked : type ∉ if unicode then caseFRunMask else caseURunMask)
    (codePoint start data : Nat) :
    convertRun codePoint (if unicode then 2 else 0) start data type =
      some [codePoint] := by
  cases unicode <;> interval_cases type <;>
    first | rfl | exact absurd (by decide) unmasked

theorem convertRun_alternating (unicode : Bool) (above : start ≤ codePoint)
    (below : codePoint < start + len)
    (unmasked : ¬ Covers ((range ((len + 1) / 2)).map fun half =>
      ((if unicode then start else start + 1) + 2 * half,
        (if unicode then start else start + 1) + 2 * half + 1)) codePoint)
    (data : Nat) :
    convertRun codePoint (if unicode then 2 else 0) start data runTypeUL =
      some [codePoint] := by
  have parity : ¬ (codePoint - start) &&& 1 = if unicode then 0 else 1 := by
    rw [Nat.and_one_is_mod]
    intro even
    apply unmasked
    refine ⟨_, mem_map.mpr ⟨(codePoint - start) / 2, ?_, rfl⟩, ?_⟩
    · rw [mem_range]
      omega
    · cases unicode <;> simp at even ⊢ <;> omega
  cases unicode <;> exact if_neg parity

theorem convertRun_triple (unicode : Bool) (above : start ≤ codePoint)
    (unmasked : ¬ Covers ((if unicode then [(start, start + 1)] else []) ++
      [(start + 1, start + 2)] ++
      if unicode then [] else [(start + 2, start + 3)]) codePoint) (data : Nat)
    :
    convertRun codePoint (if unicode then 2 else 0) start data runTypeLSU =
      some [codePoint] := by
  cases unicode <;> simp [convertRun] at unmasked ⊢ <;> grind

theorem convertRun_unmasked (data : Nat) (above : runStart entry ≤ codePoint)
    (below : codePoint < runStart entry + runLen entry)
    (unmasked : ¬ Covers (runMask unicode entry) codePoint)
    (small : runType entry < 14) :
    convertRun codePoint (if unicode then 2 else 0) (runStart entry) data
      (runType entry) = some [codePoint] := by
  unfold runMask at unmasked
  by_cases masked : runType entry ∈ if unicode then caseFRunMask else caseURunMask
  · rw [if_neg (not_not_intro masked)] at unmasked
    dsimp only at unmasked
    split at unmasked
    case h_1 type =>
        rw [type]
        exact convertRun_alternating unicode above below unmasked data
    case h_2 type =>
        rw [type]
        exact convertRun_triple unicode above unmasked data
    case h_3 => exact (unmasked (by simp [above, below])).elim
  · exact convertRun_of_not_mem unicode small masked _ _ _

theorem covers_mask (entry : Nat) (member : entry ∈ caseConvTable1)
    (covers : Covers (runMask unicode entry) codePoint) :
    Covers (regexpCaseChangeMask unicode) codePoint := by
  rw [regexpCaseChangeMask, (normalizeHalfOpenRanges_spec _).2]
  obtain ⟨range, inside, within⟩ := covers
  exact ⟨range, mem_flatMap.mpr ⟨entry, member, inside⟩, within⟩

theorem regexpCanonicalize_unmasked
    (unmasked : ¬ Covers (regexpCaseChangeMask unicode) codePoint) :
    regexpCanonicalize codePoint unicode = some codePoint := by
  unfold regexpCanonicalize
  split
  case isTrue =>
      -- the letters of ASCII are the first two runs of the table
      have upper : ¬ (unicode ∧ 0x41 ≤ codePoint ∧ codePoint ≤ 0x5a) := by
        rintro ⟨rfl, above, below⟩
        refine unmasked (covers_mask 0x209a30 (by decide) ?_)
        refine ⟨(0x41, 0x5b), by decide, above, by omega⟩
      have lower : ¬ (¬ unicode ∧ 0x61 ≤ codePoint ∧ codePoint ≤ 0x7a) := by
        rintro ⟨legacy, above, below⟩
        obtain rfl := Bool.eq_false_iff.mpr legacy
        refine unmasked (covers_mask 0x309a00 (by decide) ?_)
        refine ⟨(0x61, 0x7b), by decide, above, by omega⟩
      rw [if_neg upper, if_neg lower]
  case isFalse =>
      split
      case h_1 => rfl
      case h_2 index entry found =>
          obtain ⟨inTable, above, below⟩ := findRun_spec _ le_rfl found
          have member := mem_of_getElem? inTable
          have total := isSome_caseConversionEntry inTable codePoint
            (if unicode then 2 else 0)
          unfold caseConversionEntry at total ⊢
          cases read : caseConvTable2[index]? with
          | none => simp [read] at total
          | some low =>
            have converts := convertRun_unmasked
              (((entry &&& 0xf) <<< 8) ||| low) above below
              (fun covers => unmasked (covers_mask entry member covers))
              (runType_lt entry member)
            simp [converts]

theorem isSome_regexpCanonicalize (codePoint : Nat) (unicode : Bool) :
    (regexpCanonicalize codePoint unicode).isSome := by
  unfold regexpCanonicalize
  split
  case isTrue =>
      split
      · rfl
      · split <;> rfl
  case isFalse =>
      split
      case h_1 => rfl
      case h_2 found =>
          obtain ⟨inTable, -, -⟩ := findRun_spec _ le_rfl found
          have total := isSome_caseConversionEntry inTable codePoint
            (if unicode then 2 else 0)
          obtain ⟨_, converts⟩ := Option.isSome_iff_exists.mp total
          rw [converts]
          simp only [Option.bind_eq_bind, Option.bind_some]
          split <;> rfl

def Within (ranges : List (Nat × Nat)) (codePoint : Nat) : Prop :=
  ∃ range ∈ ranges, range.1 ≤ codePoint ∧ codePoint ≤ range.2

variable {ranges : List (Nat × Nat)}

theorem covers_halfOpen
    (codePoints : ∀ range ∈ ranges, range.2 ≤ 0x10ffff) (codePoint : Nat) :
    Covers (normalizeHalfOpenRanges ((ranges.filter fun range =>
      range.1 ≤ range.2).map fun range => (range.1, saturatingSucc range.2)))
        codePoint ↔ Within ranges codePoint := by
  rw [(normalizeHalfOpenRanges_spec _).2]
  constructor
  · rintro ⟨halfOpen, member, above, below⟩
    obtain ⟨range, inside, rfl⟩ := mem_map.mp member
    have bound := codePoints range (mem_of_mem_filter inside)
    refine ⟨range, mem_of_mem_filter inside, above, ?_⟩
    grind [saturatingSucc]
  · rintro ⟨range, member, above, below⟩
    have bound := codePoints range member
    refine ⟨_, mem_map.mpr ⟨range, mem_filter.mpr ⟨member, ?_⟩, rfl⟩, above, ?_⟩
    · simpa using above.trans below
    · grind [saturatingSucc]

theorem within_closed (separated : Separated ranges) (codePoint : Nat) :
    Within (ranges.map fun range => (range.1, range.2 - 1)) codePoint ↔
      Covers ranges codePoint := by
  simp only [Within, Covers, mem_map, exists_exists_and_eq_and]
  refine exists_congr fun range => and_congr_right fun member => ?_
  have := separated.nonempty range member
  omega

theorem covers_images (ranges : List HalfOpenRange) (image : Nat → Nat)
    (codePoint : Nat) : Covers ((ranges.flatMap fun range =>
        range' range.1 (range.2 - range.1)).map fun origin =>
          (image origin, image origin + 1)) codePoint ↔
      ∃ origin, Covers ranges origin ∧ image origin = codePoint := by
  simp only [Covers, mem_map, mem_flatMap, mem_range'_1,
    exists_exists_and_eq_and]
  refine exists_congr fun origin => and_congr (exists_congr fun range =>
    and_congr_right fun _ => ?_) ?_ <;> omega

/-- The ranges of the result are those of the image under canonicalization. -/
theorem regexpCanonicalizeRangePairs_image (ranges : List (Nat × Nat))
    (codePoints : ∀ range ∈ ranges, range.2 ≤ 0x10ffff) (unicode : Bool) :
    ∃ result, regexpCanonicalizeRangePairs ranges unicode = some result ∧
      ∀ codePoint, Within result codePoint ↔ ∃ origin, Within ranges origin ∧
          regexpCanonicalize origin unicode = some codePoint := by
  obtain ⟨canonical, defined⟩ : ∃ canonical : Nat → Nat, ∀ codePoint,
      regexpCanonicalize codePoint unicode = some (canonical codePoint) :=
    ⟨fun codePoint => (regexpCanonicalize codePoint unicode).get
      (isSome_regexpCanonicalize codePoint unicode), by simp⟩
  have hranges := covers_halfOpen codePoints
  have normal := (normalizeHalfOpenRanges_spec ((ranges.filter fun range =>
    range.1 ≤ range.2).map fun range => (range.1, saturatingSucc range.2))).1
  have hmask : Separated (regexpCaseChangeMask unicode) :=
    (normalizeHalfOpenRanges_spec _).1
  have unmasked : ∀ codePoint, ¬ Covers (regexpCaseChangeMask unicode)
      codePoint → canonical codePoint = codePoint := by
    intro codePoint outside
    have same := regexpCanonicalize_unmasked outside
    rw [defined] at same
    exact Option.some.inj same
  unfold regexpCanonicalizeRangePairs
  generalize normalizeHalfOpenRanges _ = inputs at hranges normal
  obtain ⟨-, affected⟩ := intersectHalfOpenRanges_spec normal hmask
  obtain ⟨-, -, unaffected⟩ := subtractHalfOpenRanges_spec normal hmask
  have maps : ∀ origins : List Nat, (origins.mapM fun origin => do
      let mapped ← regexpCanonicalize origin unicode
      return (mapped, mapped + 1)) =
      some (origins.map fun origin => (canonical origin, canonical origin + 1)) := by
    intro origins
    simp only [defined, Option.bind_eq_bind, Option.bind_some]
    exact mapM_pure
  dsimp only
  rw [maps]
  refine ⟨_, rfl, fun codePoint => ?_⟩
  rw [within_closed (normalizeHalfOpenRanges_spec _).1,
    (normalizeHalfOpenRanges_spec _).2, covers_append, covers_images,
    unaffected]
  simp only [affected, hranges, defined, Option.some.injEq]
  constructor
  · rintro (⟨origin, ⟨inside, -⟩, same⟩ | ⟨inside, outside⟩)
    · exact ⟨origin, inside, same⟩
    · exact ⟨codePoint, inside, unmasked codePoint outside⟩
  · rintro ⟨origin, inside, rfl⟩
    by_cases masked : Covers (regexpCaseChangeMask unicode) origin
    · exact .inl ⟨origin, ⟨inside, masked⟩, rfl⟩
    · rw [unmasked origin masked]
      exact .inr ⟨inside, masked⟩

theorem regexpCanonicalizeRangePairs_image_ascii :
    ∃ result, regexpCanonicalizeRangePairs [(0x41, 0x7a)] true = some result ∧
      ∀ codePoint, Within result codePoint ↔
        ∃ origin, Within [(0x41, 0x7a)] origin ∧
          regexpCanonicalize origin true = some codePoint :=
  regexpCanonicalizeRangePairs_image [(0x41, 0x7a)] (by decide) true

end QuickJsOxide.Unicode
