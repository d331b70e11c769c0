import QuickJsOxide.Strings.Balance
import QuickJsOxide.Strings.Traversal

namespace QuickJsOxide.Strings

open Library StringTree

/-! Operations that write to a representation: linearization rewrites a shared
rope, and an exclusive flat buffer grows in place. -/

structure Equivalent (before after : StringTree) : Prop where
  content : after.content = before.content
  depth : after.depth = before.depth
  isWide : after.isWide = before.isWide
  heighted : after.WellHeighted

namespace Equivalent

theorem refl (heighted : tree.WellHeighted) : Equivalent tree tree :=
  ⟨rfl, rfl, rfl, heighted⟩

theorem len (same : Equivalent before after) : after.len = before.len := by
  rw [len_eq_content_length, len_eq_content_length, same.content]

theorem sound (same : Equivalent before after) (sound : Sound before) :
    Sound after :=
  ⟨same.heighted, same.len.le.trans sound.short, same.depth.le.trans sound.shallow⟩

theorem node (hleft : Equivalent left left') (hright : Equivalent right right')
    : Equivalent (.node left right) (.node left' right') where
  content := by simp [hleft.content, hright.content]
  depth := by simp [hleft.depth, hright.depth]
  isWide := by simp [hleft.isWide, hright.isWide]
  heighted := ⟨hleft.heighted, hright.heighted⟩

theorem trans (left : Equivalent first second) (right : Equivalent second third)
    : Equivalent first third :=
  ⟨right.content.trans left.content, right.depth.trans left.depth,
    right.isWide.trans left.isWide, right.heighted⟩

end Equivalent

def Store.Keeps (before after : Store) : Prop :=
  ∀ string tree, Denotes before string tree → tree.WellHeighted →
    ∃ same, Denotes after string same ∧ Equivalent tree same

variable {before after : Store}

theorem Store.Extends.keeps (grown : before.Extends after) :
    before.Keeps after :=
  fun _ tree denotes heighted =>
    ⟨tree, denotes.extend grown, .refl heighted⟩

theorem Store.Keeps.trans {first second third : Store}
    (left : first.Keeps second) (right : second.Keeps third) :
    first.Keeps third := by
  intro string tree denotes heighted
  obtain ⟨middle, hmiddle, same⟩ := left string tree denotes heighted
  obtain ⟨last, hlast, again⟩ := right string middle hmiddle same.heighted
  exact ⟨last, hlast, same.trans again⟩

namespace Store

@[simp] theorem setData_length (store : Store) (string : JsString)
    (data : StringData) :
    (store.setData string data).reprs.length = store.reprs.length := by
  simp [setData]

variable {store : Store}

theorem setData_data_self (valid : string < store.reprs.length)
    (data : StringData) : (store.setData string data).data string = data := by
  simp [setData, Store.data, List.getElem?_eq_getElem valid]

theorem setData_data_ne (different : other ≠ string) (data : StringData) :
    (store.setData string data).data other = store.data other := by
  simp [setData, Store.data, Ne.symm different]

@[simp] theorem setContentHash_length (store : Store) (string : JsString)
    (hash : Option UInt32) :
    (store.setContentHash string hash).reprs.length = store.reprs.length := by
  simp [setContentHash]

@[simp] theorem setContentHash_data (store : Store) (string other : JsString)
    (hash : Option UInt32) :
    (store.setContentHash string hash).data other = store.data other := by
  simp only [setContentHash, data, List.getElem?_modify]
  by_cases same : string = other
  · cases store.reprs[other]? <;> simp [same]
  · simp [same]

end Store

variable {tree : StringTree}

variable {flat : Flat}

theorem Denotes.leaf_setData (isRope : store.data string = .rope rope)
    (denotes : Denotes store other (.leaf flat)) (data : StringData) :
    Denotes (store.setData string data) other (.leaf flat) := by
  have different : other ≠ string := by
    rintro rfl
    rw [denotes.leaf_data] at isRope
    cases flat <;> cases isRope
  exact .flat (by simpa using denotes.valid)
    ((Store.setData_data_ne different _).trans denotes.leaf_data)

theorem Denotes.keeps_setData (valid : string < store.reprs.length)
    (data : store.data string = .rope (ropeRepr tree (.tree left right)))
    (hflat : Denotes store flatString (.leaf flat))
    (content : flat.units = tree.content) (isWide : flat.isWide = tree.isWide)
    (positive : 1 ≤ tree.depth) (denotes : Denotes store string tree) :
    store.Keeps (store.setData string
      (.rope (ropeRepr tree (.linearized flatString)))) := by
  have rewritten : Denotes (store.setData string
      (.rope (ropeRepr tree (.linearized flatString)))) string
      (.collapsed tree.depth flat) := by
    refine .linearized (by simpa using valid) ?_ (hflat.leaf_setData data _)
    rw [Store.setData_data_self valid]
    congr 1
    simp only [ropeRepr, RopeRepr.mk.injEq, len_collapsed,
      isWide_collapsed, Rope.depth_collapsed, isWide, and_true]
    rw [len_eq_content_length, ← content]
    rfl
  have atString : ∀ otherTree, Denotes store string otherTree →
      ∃ same, Denotes (store.setData string
        (.rope (ropeRepr tree (.linearized flatString)))) string same ∧
        Equivalent otherTree same := by
    intro otherTree hother
    obtain rfl := denotes.unique hother
    exact ⟨_, rewritten, by simp [content], rfl, by simp [isWide], positive⟩
  intro other otherTree hother heighted
  induction hother with
  | flat valid flatData =>
    exact ⟨_, leaf_setData data (.flat valid flatData) _, .refl trivial⟩
  | @tree other _ _ _ _ valid otherData hleft hright ihLeft ihRight =>
      by_cases here : other = string
      · subst here
        exact atString _ (.tree valid otherData hleft hright)
      · obtain ⟨_, leftDenotes, leftEquivalent⟩ := ihLeft heighted.1
        obtain ⟨_, rightDenotes, rightEquivalent⟩ := ihRight heighted.2
        have equivalent := leftEquivalent.node rightEquivalent
        refine ⟨_, .tree (by simpa using valid) ?_ leftDenotes rightDenotes,
          equivalent⟩
        rw [Store.setData_data_ne here, otherData]
        simp only [ropeRepr, equivalent.len, equivalent.isWide,
          equivalent.depth]
  | @linearized other _ _ _ valid otherData htarget =>
    by_cases here : other = string
    · subst here
      exact atString _ (.linearized valid otherData htarget)
    · refine ⟨_, .linearized (by simpa using valid) ?_
        (htarget.leaf_setData data _), .refl heighted⟩
      rw [Store.setData_data_ne here, otherData]

theorem get_bind (next : Store → Operation α) (store : Store) :
    (get >>= next) store = next store store :=
  rfl

theorem toUInt8_toUInt16 {unit : UInt16} (low : unit ≤ 0xff) :
    unit.toUInt8.toUInt16 = unit := by
  apply UInt16.toNat_inj.mp
  have := UInt16.le_iff_toNat_le.mp low
  simp at this ⊢
  omega

variable {units : List UInt16}

theorem narrowUnits_spec (narrow : ∀ unit ∈ units, unit ≤ 0xff) :
    ∃ bytes, narrowUnits units = .ok bytes ∧
      bytes.map UInt8.toUInt16 = units := by
  induction units with
  | nil => exact ⟨[], rfl, rfl⟩
  | cons unit _ ih =>
    obtain ⟨bytes, hbytes, hunits⟩ :=
      ih fun other member => narrow other (List.mem_cons_of_mem _ member)
    have low := narrow unit List.mem_cons_self
    refine ⟨unit.toUInt8 :: bytes, ?_, ?_⟩
    · simp [narrowUnits, low, hbytes, Bind.bind, Except.bind, Pure.pure,
        Except.pure]
    · simp [toUInt8_toUInt16 low, hunits]

variable {store : Store}

theorem flatten_runs (tree : StringTree) :
    Runs (flatten tree.isWide tree.content) store safe fun string after =>
      ∃ flat : Flat, Denotes after string (.leaf flat) ∧
        flat.units = tree.content ∧ flat.isWide = tree.isWide := by
  unfold flatten
  cases wide : tree.isWide with
  | true =>
    rw [if_pos rfl]
    exact (allocate_runs (.utf16 tree.content) store).weaken
      fun _ _ denotes => ⟨_, denotes, rfl, rfl⟩
  | false =>
    rw [if_neg (by simp)]
    obtain ⟨bytes, hbytes, hunits⟩ :=
      narrowUnits_spec fun _ member => narrow wide member
    refine .liftRead hbytes ?_
    exact (allocate_runs (.latin1 bytes) store).weaken
      fun _ _ denotes => ⟨_, denotes, hunits, rfl⟩

theorem linearize_flat (data : store.data string = flat.data) :
    linearize string store = .ok string store := by
  unfold linearize
  rw [get_bind]
  cases flat <;> simp only [data, Flat.data] <;> rfl

theorem linearize_linearized
    (data : store.data string = .rope (ropeRepr tree (.linearized target))) :
    linearize string store = .ok target store := by
  unfold linearize
  rw [get_bind]
  simp only [data, ropeRepr]
  rfl

theorem linearize_tree
    (data : store.data string = .rope (ropeRepr tree (.tree left right))) :
    linearize string store = (do
      let units ← liftRead fun store => store.utf16Units string
      let flattened ← flatten tree.isWide units
      modify fun store => store.setData string
        (.rope (ropeRepr tree (.linearized flattened)))
      return flattened : Operation JsString) store := by
  unfold linearize
  rw [get_bind]
  simp only [data, ropeRepr]

/-- `linearize` returns a flat string with the same text and keeps every
string; it panics exactly when the traversal of a deep rope does. -/
theorem linearize_spec (denotes : Denotes store string tree)
    (sound : Sound tree) :
    (∃ flatString flat after, linearize string store = .ok flatString after ∧
      store.Keeps after ∧ Denotes after flatString (.leaf flat) ∧
      flat.units = tree.content ∧ tree.leftTurns ≤ ropeMaxDepth) ∨
    (ropeMaxDepth < tree.leftTurns ∧
      linearize string store = .error (.panic iteratorOverflow) store) := by
  have shallow : tree.depth ≤ 254 :=
    sound.shallow.trans (by decide)
  have reading := denotes.utf16Units sound.heighted sound.short shallow
  cases denotes with
  | @flat _ flat valid data =>
    refine .inl ⟨string, flat, store, ?_, (Store.Extends.refl store).keeps,
      .flat valid data, by simp, Nat.zero_le _⟩
    exact linearize_flat data
  | @tree _ leftTree rightTree _ _ valid data hleft hright =>
    have denotes := Denotes.tree valid data hleft hright
    rw [linearize_tree data]
    rcases reading with ⟨units, hunits, rfl, turns⟩ | ⟨deep, failed⟩
    · obtain ⟨flatString, allocated, hrun, hgrown, flat, hflat, hcontent,
          hwide⟩ := (flatten_runs (.node leftTree rightTree)).total trivial
      refine .inl ⟨flatString, flat, allocated.setData string (.rope
        (ropeRepr (.node leftTree rightTree) (.linearized flatString))),
        ?_, hgrown.keeps.trans ?_, ?_, hcontent, turns⟩
      · simp only [Bind.bind, EStateM.bind, liftRead, hunits, hrun]
        rfl
      · exact Denotes.keeps_setData (denotes.extend hgrown).valid
          ((hgrown.data_eq valid).trans data) hflat hcontent hwide
          (by simp) (denotes.extend hgrown)
      · exact hflat.leaf_setData ((hgrown.data_eq valid).trans data) _
    · refine .inr ⟨Nat.lt_of_not_le deep, ?_⟩
      simp [Bind.bind, EStateM.bind, liftRead, failed]
  | @linearized _ _ flat target _ data htarget =>
    exact .inl ⟨target, flat, store, linearize_linearized data,
      (Store.Extends.refl store).keeps, htarget, by simp, Nat.zero_le _⟩

theorem narrowed_units (narrow : units.all (· ≤ 0xff) = true) :
    (units.map UInt16.toUInt8).map UInt8.toUInt16 = units := by
  rw [List.map_map]
  calc units.map (UInt8.toUInt16 ∘ UInt16.toUInt8)
      = units.map id := List.map_congr_left fun unit member =>
        toUInt8_toUInt16 (by simpa using List.all_eq_true.mp narrow unit member)
    _ = units := List.map_id units

theorem copyRange_runs (start stop : Nat)
    (hsource : Denotes store source (.leaf flat)) :
    Runs (copyRange source start stop) store safe fun string after =>
      ∃ copy : Flat, Denotes after string (.leaf copy) ∧
        copy.units = (flat.units.drop start).take (stop - start) := by
  refine .get ?_
  rw [hsource.leaf_data]
  cases flat with
  | latin1 units =>
    refine (allocate_runs (.latin1 ((units.drop start).take (stop - start)))
      store).weaken fun _ _ denotes => ⟨_, denotes, ?_⟩
    simp [Flat.units, List.map_take, List.map_drop]
  | utf16 units =>
    simp only [Flat.data]
    split
    · rename_i narrow
      refine (allocate_runs (.latin1 (((units.drop start).take
        (stop - start)).map UInt16.toUInt8)) store).weaken
          fun _ _ denotes => ⟨_, denotes, narrowed_units narrow⟩
    · exact (allocate_runs (.utf16 ((units.drop start).take (stop - start)))
        store).weaken fun _ _ denotes => ⟨_, denotes, rfl⟩

theorem subString_spec {start stop : Nat} (denotes : Denotes store string tree)
    (sound : Sound tree) (ordered : start ≤ stop) (inside : stop ≤ tree.len) :
    (∃ result flat after, subString string start stop store = .ok result after ∧
      store.Keeps after ∧ Denotes after result (.leaf flat) ∧
      flat.units = (tree.content.drop start).take (stop - start)) ∨
    (ropeMaxDepth < tree.depth ∧ subString string start stop store =
      .error (.panic iteratorOverflow) store) := by
  rcases linearize_spec denotes sound with
    ⟨source, flat, after, hrun, hkeeps, hsource, hcontent, -⟩ | ⟨deep, failed⟩
  · left
    have len : after.len source = tree.len := by
      rw [hsource.len, len_leaf, Flat.len, hcontent, len_eq_content_length]
    have unfolded : subString string start stop store =
        (if start = 0 ∧ stop = after.len source then pure source
          else copyRange source start stop : Operation JsString) after := by
      unfold subString
      simp only [Bind.bind, EStateM.bind, hrun]
      rw [show (get : Operation Store) after = .ok after after from rfl]
      simp only [if_neg (Nat.not_lt.mpr ordered),
        if_neg (Nat.not_lt.mpr (len ▸ inside))]
    rw [unfolded]
    split
    · rename_i whole
      refine ⟨source, flat, after, rfl, hkeeps, hsource, ?_⟩
      rw [hcontent, whole.1, whole.2, len, len_eq_content_length]
      simp
    · obtain ⟨result, last, hcopy, hgrown, copy, hresult, hunits⟩ :=
        (copyRange_runs start stop hsource).total trivial
      exact ⟨result, copy, last, hcopy, hkeeps.trans hgrown.keeps, hresult,
        by rw [hunits, hcontent]⟩
  · right
    refine ⟨deep.trans_le tree.leftTurns_le_depth, ?_⟩
    simp [subString, Bind.bind, EStateM.bind, failed]

structure Store.SameData (before after : Store) : Prop where
  length : after.reprs.length = before.reprs.length
  data : ∀ string, after.data string = before.data string

theorem Store.SameData.denotes (same : before.SameData after)
    (denotes : Denotes before string tree) : Denotes after string tree :=
  denotes.transport same.length.ge fun node _ => same.data node

theorem Store.SameData.keeps (same : before.SameData after) :
    before.Keeps after :=
  fun _ tree denotes heighted => ⟨tree, same.denotes denotes, .refl heighted⟩

theorem Store.sameData_setContentHash (store : Store) (string : JsString)
    (hash : Option UInt32) :
    store.SameData (store.setContentHash string hash) :=
  ⟨by simp, by simp⟩

structure Store.Grown (before after : Store) (string : JsString)
    (flat : Flat) : Prop where
  length : after.reprs.length = before.reprs.length
  data : after.data string = flat.data
  others : ∀ other, other ≠ string → after.data other = before.data other

theorem Store.Grown.denotes_self (grown : before.Grown after string flat)
    (valid : string < before.reprs.length) :
    Denotes after string (.leaf flat) :=
  .flat (grown.length ▸ valid) grown.data

theorem Store.Grown.denotes_other (grown : before.Grown after string flat)
    (apart : ¬ before.Reaches other string)
    (denotes : Denotes before other tree) : Denotes after other tree :=
  denotes.transport grown.length.ge fun node reached =>
    grown.others node fun same => apart (same ▸ reached)

inductive AppendOutcome (answers : AppendAnswers) (store : Store)
    (self : JsString) (selfTree otherTree : StringTree) :
    EStateM.Result Fault Store Bool → Prop where
  | tooLong (long : maxLen < selfTree.len + otherTree.len) :
      AppendOutcome answers store self selfTree otherTree
        (.error (.error .tooLong) store)
  | declined (after : Store) (same : store.SameData after)
      (short : selfTree.len + otherTree.len ≤ maxLen) :
      AppendOutcome answers store self selfTree otherTree (.ok false after)
  | unreserved (after : Store) (same : store.SameData after)
      (failed : answers.reserved = false) :
      AppendOutcome answers store self selfTree otherTree
        (.error (.error .outOfMemory) after)
  | appended (after : Store) (left right : Flat)
      (exclusive : answers.exclusive = true)
      (selfFlat : selfTree = .leaf left) (otherFlat : otherTree = .leaf right)
      (short : selfTree.len + otherTree.len ≤ maxLen)
      (grown : store.Grown after self (left.append right)) :
      AppendOutcome answers store self selfTree otherTree (.ok true after)

theorem checkedLength_eq_error (long : maxLen < current + additional) :
    checkedLength current additional = .error (.error .tooLong) :=
  if_neg (Nat.not_le.mpr long)

variable {answers : AppendAnswers}

theorem extendBuffer_outcome (exclusive : answers.exclusive = true)
    (valid : self < store.reprs.length) (short : left.len + right.len ≤ maxLen)
    : AppendOutcome answers store self (.leaf left) (.leaf right)
      (extendBuffer self (left.append right).data answers.reserved
        (store.setContentHash self none)) := by
  unfold extendBuffer
  cases reserved : answers.reserved with
  | false =>
    exact .unreserved _ (store.sameData_setContentHash self none) reserved
  | true =>
    refine .appended _ left right exclusive rfl rfl (by simpa using short)
      ⟨?_, ?_, ?_⟩
    · simp
    · exact Store.setData_data_self (by simpa using valid) _
    · intro other different
      rw [Store.setData_data_ne different, Store.setContentHash_data]

variable {selfTree otherTree : StringTree}

theorem appendExclusive_outcome (exclusive : answers.exclusive = true)
    (hself : Denotes store self selfTree)
    (hother : Denotes store other otherTree)
    (short : selfTree.len + otherTree.len ≤ maxLen) :
    AppendOutcome answers store self selfTree otherTree
      (appendExclusive self other answers.reserved store) := by
  have declined : AppendOutcome answers store self selfTree otherTree
      (.ok false (store.setContentHash self none)) :=
    .declined _ (store.sameData_setContentHash self none) short
  unfold appendExclusive
  rw [get_bind]
  cases hself with
  | @flat _ left valid data =>
    cases hother with
    | @flat _ right _ otherData =>
      simp only [len_leaf] at short
      have extended := extendBuffer_outcome exclusive valid short
      rw [data, otherData]
      cases left <;> cases right
      · exact extended
      · exact declined
      · exact extended
      · exact extended
    | tree _ otherData | linearized _ otherData =>
      rw [data, otherData]
      cases left <;> exact declined
  | tree _ data | linearized _ data =>
    rw [data]
    exact declined

theorem tryConcatInPlace_outcome (answers : AppendAnswers)
    (hself : Denotes store self selfTree)
    (hother : Denotes store other otherTree) :
    AppendOutcome answers store self selfTree otherTree
      (tryConcatInPlace answers self other store) := by
  have lengths : store.len self + store.len other =
      selfTree.len + otherTree.len := by
    rw [hself.len, hother.len]
  unfold tryConcatInPlace
  rw [get_bind]
  rcases Nat.lt_or_ge maxLen (selfTree.len + otherTree.len) with long | short
  · simp only [Bind.bind, EStateM.bind, liftRead,
      checkedLength_eq_error (lengths ▸ long)]
    exact .tooLong long
  · simp only [Bind.bind, EStateM.bind, liftRead,
      checkedLength_eq_ok (lengths ▸ short)]
    have declined : AppendOutcome answers store self selfTree otherTree
        (.ok false store) := .declined _ ⟨rfl, fun _ => rfl⟩ short
    split
    · exact declined
    · split
      · rename_i exclusive
        exact appendExclusive_outcome exclusive hself hother short
      · exact declined

inductive ConcatOutcome (store : Store) (selfTree otherTree : StringTree) :
    EStateM.Result Fault Store JsString → Prop where
  | tooLong (long : maxLen < selfTree.len + otherTree.len) :
      ConcatOutcome store selfTree otherTree (.error (.error .tooLong) store)
  | concatenated (string : JsString) (after : Store) (tree : StringTree)
      (short : selfTree.len + otherTree.len ≤ maxLen)
      (grown : store.Extends after) (denotes : Denotes after string tree)
      (concatenates : Concatenates selfTree otherTree tree) :
      ConcatOutcome store selfTree otherTree (.ok string after)
  | panicked (message : String) (after : Store) (grown : store.Extends after)
      (deep : ¬ (selfTree.depth ≤ ropeMaxDepth ∧
        otherTree.depth ≤ ropeMaxDepth)) :
      ConcatOutcome store selfTree otherTree (.error (.panic message) after)

theorem tryConcat_outcome (hself : Denotes store self selfTree)
    (hother : Denotes store other otherTree) (selfSound : Sound selfTree)
    (otherSound : Sound otherTree) :
    ConcatOutcome store selfTree otherTree (tryConcat self other store) := by
  rcases Nat.lt_or_ge maxLen (selfTree.len + otherTree.len) with long | short
  · have lengths : maxLen < store.len self + store.len other := by
      rw [hself.len, hother.len]
      exact long
    unfold tryConcat
    rw [get_bind]
    simp only [Bind.bind, EStateM.bind, liftRead,
      checkedLength_eq_error lengths]
    exact .tooLong long
  · obtain ⟨tree, hconcat, concatenates⟩ :=
      concat?_concatenates selfSound otherSound short
    rcases tryConcat_runs hself hother selfSound.heighted otherSound.heighted
      short hconcat with
      ⟨string, after, hrun, grown, denotes⟩ | ⟨deep, message, after, hrun, grown⟩
    · rw [hrun]
      exact .concatenated string after tree short grown denotes concatenates
    · rw [hrun]
      exact .panicked message after grown deep

/-- The outcomes of `concat_owned`: an operand itself, an append in place, or
what `try_concat` does. -/
inductive OwnedOutcome (answers : AppendAnswers) (store : Store)
    (self other : JsString) (selfTree otherTree : StringTree) :
    EStateM.Result Fault Store JsString → Prop where
  | tooLong (long : maxLen < selfTree.len + otherTree.len) :
      OwnedOutcome answers store self other selfTree otherTree
        (.error (.error .tooLong) store)
  | unreserved (after : Store) (same : store.SameData after)
      (failed : answers.reserved = false) :
      OwnedOutcome answers store self other selfTree otherTree
        (.error (.error .outOfMemory) after)
  | left (empty : otherTree.len = 0) :
      OwnedOutcome answers store self other selfTree otherTree (.ok self store)
  | right (empty : selfTree.len = 0) :
      OwnedOutcome answers store self other selfTree otherTree (.ok other store)
  | appended (after : Store) (first second : Flat)
      (exclusive : answers.exclusive = true)
      (selfFlat : selfTree = .leaf first) (otherFlat : otherTree = .leaf second)
      (short : selfTree.len + otherTree.len ≤ maxLen)
      (grown : store.Grown after self (first.append second)) :
      OwnedOutcome answers store self other selfTree otherTree (.ok self after)
  | concatenated (middle : Store) (same : store.SameData middle)
      (short : selfTree.len + otherTree.len ≤ maxLen) :
      OwnedOutcome answers store self other selfTree otherTree
        (tryConcat self other middle)

theorem concatOwned_outcome (answers : AppendAnswers)
    (hself : Denotes store self selfTree)
    (hother : Denotes store other otherTree) :
    OwnedOutcome answers store self other selfTree otherTree
      (concatOwned answers self other store) := by
  have lengths : store.len self + store.len other =
      selfTree.len + otherTree.len := by
    rw [hself.len, hother.len]
  unfold concatOwned
  rw [get_bind]
  rcases Nat.lt_or_ge maxLen (selfTree.len + otherTree.len) with long | short
  · simp only [Bind.bind, EStateM.bind, liftRead,
      checkedLength_eq_error (lengths ▸ long)]
    exact .tooLong long
  · simp only [Bind.bind, EStateM.bind, liftRead,
      checkedLength_eq_ok (lengths ▸ short)]
    split
    · rename_i empty
      rw [hother.isEmpty] at empty
      exact .left (by simpa using (Bool.and_eq_true_iff.mp empty).1)
    · split
      · rename_i empty
        rw [hself.isEmpty] at empty
        exact .right (by simpa using (Bool.and_eq_true_iff.mp empty).1)
      · have outcome := tryConcatInPlace_outcome answers hself hother
        simp only [EStateM.bind]
        revert outcome
        generalize tryConcatInPlace answers self other store = result
        intro outcome
        cases outcome with
        | tooLong => omega
        | declined after same short => exact .concatenated after same short
        | unreserved after same failed => exact .unreserved after same failed
        | appended after first second exclusive selfFlat otherFlat short grown =>
          exact .appended after first second exclusive selfFlat otherFlat short
            grown

end QuickJsOxide.Strings
