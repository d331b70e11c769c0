import QuickJsOxide.Strings.Denotation

namespace QuickJsOxide.Strings

open Library

/-! Concatenation on the store computes concatenation on trees. -/

/-- A computation that only allocates. It returns a value with `result`, or it
panics, and the latter only where `safe` fails. -/
def Runs (operation : Operation α) (store : Store) (safe : Prop)
    (result : α → Store → Prop) : Prop :=
  (∃ value after, operation store = .ok value after ∧
    store.Extends after ∧ result value after) ∨
  (¬ safe ∧ ∃ message after,
    operation store = .error (.panic message) after ∧ store.Extends after)

namespace Runs

theorem pure (holds : result value store) :
    Runs (Pure.pure value) store safe result :=
  .inl ⟨value, store, rfl, .refl store, holds⟩

theorem bind (start : Runs first store safe middle)
    (continuation : ∀ value after, store.Extends after → middle value after →
      Runs (next value) after safe result) :
    Runs (first >>= next) store safe result := by
  rcases start with
    ⟨value, after, hrun, hgrown, hmiddle⟩ | ⟨excuse, message, after, hrun, hgrown⟩
  · have unfolded : (first >>= next) store = next value after := by
      simp [Bind.bind, EStateM.bind, hrun]
    rcases continuation value after hgrown hmiddle with
      ⟨final, last, hnext, hlast, hresult⟩ |
        ⟨excuse, message, last, hnext, hlast⟩
    · exact .inl ⟨final, last, unfolded.trans hnext, hgrown.trans hlast, hresult⟩
    · exact .inr ⟨excuse, message, last, unfolded.trans hnext,
        hgrown.trans hlast⟩
  · refine .inr ⟨excuse, message, after, ?_, hgrown⟩
    simp [Bind.bind, EStateM.bind, hrun]

theorem get (continuation : Runs (next store) store safe result) :
    Runs (MonadState.get >>= next) store safe result :=
  continuation

theorem liftRead {read : Store → Except Fault α}
    (succeeds : read store = .ok value)
    (continuation : Runs (next value) store safe result) :
    Runs (Strings.liftRead read >>= next) store safe result := by
  have unfolded : (Strings.liftRead read >>= next) store = next value store := by
    simp [Bind.bind, EStateM.bind, Strings.liftRead, succeeds]
  unfold Runs
  rw [unfolded]
  exact continuation

theorem panic (excuse : ¬ safe) :
    Runs (throw (.panic message)) store safe result :=
  .inr ⟨excuse, message, store, rfl, .refl store⟩

theorem total (runs : Runs operation store safe result) (holds : safe) :
    ∃ value after, operation store = .ok value after ∧ store.Extends after ∧
      result value after := by
  rcases runs with success | ⟨excuse, -⟩
  · exact success
  · exact (excuse holds).elim

theorem safer (runs : Runs operation store safe result)
    (implies : weaker → safe) : Runs operation store weaker result :=
  runs.imp_right fun panics => ⟨mt implies panics.1, panics.2⟩

theorem weaken (runs : Runs operation store safe result)
    (consequence : ∀ value after, result value after → other value after) :
    Runs operation store safe other := by
  apply runs.imp_left
  rintro ⟨value, after, hrun, hgrown, hresult⟩
  exact ⟨value, after, hrun, hgrown, consequence value after hresult⟩

theorem ite [Decidable condition] [Decidable known]
    (same : condition ↔ known)
    (exact : (if known then yes else no) = some tree)
    (positive : yes = some tree → Runs first store safe result)
    (negative : no = some tree → Runs second store safe result) :
    Runs (if condition then first else second) store safe result := by
  by_cases holds : known
  · rw [if_pos holds] at exact
    rw [if_pos (same.mpr holds)]
    exact positive exact
  · rw [if_neg holds] at exact
    rw [if_neg fun wrong => holds (same.mp wrong)]
    exact negative exact

end Runs

abbrev Makes (operation : Operation JsString) (store : Store) (safe : Prop)
    (tree : StringTree) : Prop :=
  Runs operation store safe fun string after => Denotes after string tree

theorem allocate_runs (flat : Flat) (store : Store) :
    Makes (allocate flat.data) store safe (.leaf flat) := by
  obtain ⟨after, hrun, hgrown, hvalid, hdata⟩ := allocate_spec flat.data store
  exact .inl ⟨_, after, hrun, hgrown, .flat hvalid hdata⟩

theorem checkedLength_eq_ok (short : current + additional ≤ maxLen) :
    checkedLength current additional = .ok (current + additional) :=
  if_pos short

theorem newRopeUnbalanced_runs (hleft : Denotes store left leftTree)
    (hright : Denotes store right rightTree)
    (joined : Rope.join? Flat.ops.limits leftTree rightTree = some tree) :
    Makes (newRopeUnbalanced left right) store safe tree := by
  obtain ⟨rfl, short, shallow⟩ := Rope.join?_eq_some joined
  have hlen : leftTree.len + rightTree.len ≤ maxLen := short
  refine .get (.liftRead
    (checkedLength_eq_ok (by rw [hleft.len, hright.len]; exact hlen)) ?_)
  have hdepth : max (store.depth left) (store.depth right) < 255 := by
    rw [hleft.depth, hright.depth]
    exact shallow
  rw [if_pos hdepth]
  have hrepr : RopeRepr.mk (store.len left + store.len right)
      (store.isWide left || store.isWide right)
      (max (store.depth left) (store.depth right) + 1) (.tree left right) =
      ropeRepr (.node leftTree rightTree) (.tree left right) := by
    simp [ropeRepr, hleft.len, hright.len, hleft.isWide, hright.isWide,
      hleft.depth, hright.depth]
  rw [hrepr]
  obtain ⟨after, hrun, hgrown, hvalid, hdata⟩ := allocate_spec
    (.rope (ropeRepr (.node leftTree rightTree) (.tree left right))) store
  exact .inl ⟨_, after, hrun, hgrown,
    .tree hvalid hdata (hleft.extend hgrown) (hright.extend hgrown)⟩

abbrev DenotesBucket (store : Store) :
    Option JsString → Option StringTree → Prop :=
  Option.Rel (Denotes store)

abbrev DenotesBuckets (store : Store) :
    List (Option JsString) → List (Option StringTree) → Prop :=
  List.Forall₂ (DenotesBucket store)

theorem DenotesBucket.extend
    (denotes : DenotesBucket before bucket tree) (grown : before.Extends after) :
    DenotesBucket after bucket tree := by
  cases denotes with
  | some denotes => exact .some (denotes.extend grown)
  | none => exact .none

theorem DenotesBuckets.extend (denotes : DenotesBuckets before buckets trees)
    (grown : before.Extends after) : DenotesBuckets after buckets trees :=
  denotes.imp fun _ _ bucket => bucket.extend grown

theorem prependBucket_runs (hbucket : DenotesBucket store bucket bucketTree)
    (hgathered : DenotesBucket store gathered gatheredTree)
    (exact : Rope.prepend? Flat.ops.limits bucketTree gatheredTree =
      some tree) : Runs (prependBucket bucket gathered) store safe
      fun result after => DenotesBucket after result tree := by
  cases hbucket with
  | none =>
    cases exact
    exact .pure hgathered
  | some hbucket =>
    cases hgathered with
    | none =>
      cases exact
      exact .pure (.some hbucket)
    | some hgathered =>
      obtain ⟨_, hjoin, rfl⟩ := Option.map_eq_some_iff.mp exact
      refine .bind (newRopeUnbalanced_runs hbucket hgathered hjoin) ?_
      intro string after _ hstring
      exact .pure (.some hstring)

theorem attachLeaf_runs (hgathered : DenotesBucket store gathered gatheredTree)
    (hnode : Denotes store node nodeTree)
    (exact : Rope.attach? Flat.ops.limits gatheredTree nodeTree = some tree) :
    Makes (attachLeaf gathered node) store safe tree := by
  cases hgathered with
  | none =>
    cases exact
    exact .pure hnode
  | some hgathered => exact newRopeUnbalanced_runs hgathered hnode exact

theorem carryBuckets_runs (enough : rest.length < steps)
    (hrest : DenotesBuckets store rest trees)
    (hvalue : Denotes store value tree)
    (exact : Rope.carry? Flat.ops.limits tree trees = some result) :
    Runs (carryBuckets steps front.length (front ++ rest) value) store safe
      fun buckets after => ∃ carried, buckets = front ++ carried ∧
        DenotesBuckets after carried result := by
  induction rest generalizing steps front trees result value tree store with
  | nil =>
    cases hrest
    cases exact
  | cons bucket rest ih =>
    obtain ⟨steps, rfl⟩ : ∃ fewer, steps = fewer + 1 :=
      ⟨steps - 1, by omega⟩
    obtain ⟨_, _, hbucket, htail, rfl⟩ :=
      List.forall₂_cons_left_iff.mp hrest
    have here : (front ++ bucket :: rest)[front.length]? = some bucket := by
      simp
    have update : ∀ entry, (front ++ bucket :: rest).set front.length entry =
        front ++ entry :: rest := by
      simp
    simp only [carryBuckets, here]
    cases hbucket with
    | none =>
      cases exact
      rw [update]
      exact .pure ⟨_, rfl, .cons (.some hvalue) htail⟩
    | some hbucket =>
      simp only [Rope.carry?, Option.bind_eq_bind, Option.bind_eq_some_iff,
        Option.pure_def, Option.some.injEq] at exact
      obtain ⟨_, hjoin, carried, hcarry, rfl⟩ := exact
      refine .bind (newRopeUnbalanced_runs hbucket hvalue hjoin) ?_
      intro string after hgrown hstring
      rw [update]
      have moved : front ++ none :: rest = (front ++ [none]) ++ rest := by
        simp
      have next : front.length + 1 = (front ++ [none]).length := by simp
      rw [moved, next]
      refine (ih (by simp only [List.length_cons] at enough; omega)
        (DenotesBuckets.extend htail hgrown) hstring hcarry).weaken ?_
      rintro buckets last ⟨carried, rfl, hcarried⟩
      exact ⟨none :: carried, by simp, .cons .none hcarried⟩

def insertFrom (node : JsString) (len steps index : Nat)
    (buckets : List (Option JsString)) (gathered : Option JsString) :
    Operation (List (Option JsString)) := do
  let (index, buckets, gathered) ←
    sweepBuckets len steps index buckets gathered
  let value ← attachLeaf gathered node
  carryBuckets (ropeBucketLengths.length + 1) index buckets value

theorem insertLeaf_eq (node : JsString) (buckets : List (Option JsString))
    (store : Store) : insertLeaf node buckets store =
      insertFrom node (store.len node) ropeBucketLengths.length 0 buckets none
        store :=
  rfl

theorem insertFrom_stop (here : ropeBucketLengths[index + 1]? = some bound)
    (smaller : ¬ bound ≤ len) :
    insertFrom node len (steps + 1) index buckets gathered = (do
      let value ← attachLeaf gathered node
      carryBuckets (ropeBucketLengths.length + 1) index buckets value) := by
  simp only [insertFrom, sweepBuckets, here, if_neg smaller, pure_bind]

theorem insertFrom_sweep (here : ropeBucketLengths[index + 1]? = some bound)
    (reaches : bound ≤ len) (present : buckets[index]? = some bucket) :
    insertFrom node len (steps + 1) index buckets gathered = (do
      let gathered ← prependBucket bucket gathered
      insertFrom node len steps (index + 1) (buckets.set index none)
        gathered) := by
  simp only [insertFrom, sweepBuckets, here, if_pos reaches, present,
    bind_assoc]

theorem insertFrom_runs (front : List (Option JsString))
    (count : front.length + rest.length = ropeBucketLengths.length)
    (enough : rest.length ≤ steps) (hnode : Denotes store node (.leaf flat))
    (hrest : DenotesBuckets store rest trees)
    (hgathered : DenotesBucket store gathered gatheredTree)
    (exact : Rope.insert? Flat.ops.limits flat.len (.leaf flat)
      (ropeBucketLengths.tail.drop front.length) trees gatheredTree =
      some result) :
    Runs (insertFrom node flat.len steps front.length (front ++ rest) gathered)
      store safe fun buckets after => ∃ inserted, buckets = front ++ inserted ∧
          DenotesBuckets after inserted result := by
  induction rest generalizing steps front trees result gathered gatheredTree
      store with
  | nil =>
    cases hrest
    simp [Rope.insert?] at exact
  | cons bucket rest ih =>
    obtain ⟨steps, rfl⟩ : ∃ fewer, steps = fewer + 1 := by
      simp only [List.length_cons] at enough
      exact ⟨steps - 1, by omega⟩
    obtain ⟨bucketTree, restTrees, hbucket, htail, rfl⟩ :=
      List.forall₂_cons_left_iff.mp hrest
    obtain ⟨bound, bounds, hbounds⟩ : ∃ bound bounds,
        ropeBucketLengths.tail.drop front.length = bound :: bounds := by
      cases hdrop : ropeBucketLengths.tail.drop front.length with
      | nil =>
        rw [hdrop] at exact
        simp [Rope.insert?] at exact
      | cons bound bounds => exact ⟨bound, bounds, rfl⟩
    have here : ropeBucketLengths[front.length + 1]? = some bound := by
      have := congrArg (fun list => list[0]?) hbounds
      simpa using this
    have following : bounds =
        ropeBucketLengths.tail.drop (front.length + 1) := by
      have := congrArg List.tail hbounds
      simpa using this.symm
    have present : (front ++ bucket :: rest)[front.length]? = some bucket := by
      simp
    rw [hbounds] at exact
    simp only [Rope.insert?] at exact
    split at exact
    · rename_i reaches
      simp only [Option.bind_eq_bind, Option.bind_eq_some_iff,
        Option.pure_def, Option.some.injEq] at exact
      obtain ⟨combined, hprepend, inserted, hinsert, rfl⟩ := exact
      rw [insertFrom_sweep here reaches present]
      refine .bind (prependBucket_runs hbucket hgathered hprepend) ?_
      intro collected after hgrown hcollected
      have moved : (front ++ bucket :: rest).set front.length none =
          (front ++ [none]) ++ rest := by
        simp
      have next : front.length + 1 = (front ++ [none]).length := by simp
      rw [moved, next]
      rw [following, next] at hinsert
      refine (ih _ (by simp only [List.length_cons] at count; simp; omega)
        (by simp only [List.length_cons] at enough; omega)
        (hnode.extend hgrown) (DenotesBuckets.extend htail hgrown)
        hcollected hinsert).weaken ?_
      rintro buckets last ⟨tail, rfl, hinserted⟩
      exact ⟨none :: tail, by simp, .cons .none hinserted⟩
    · rename_i smaller
      simp only [Option.bind_eq_bind, Option.bind_eq_some_iff] at exact
      obtain ⟨_, hattach, hcarry⟩ := exact
      rw [insertFrom_stop here smaller]
      refine .bind (attachLeaf_runs hgathered hnode hattach) ?_
      intro string after hgrown hstring
      exact carryBuckets_runs (by omega) (hrest.extend hgrown) hstring hcarry

theorem insertLeaf_runs (count : buckets.length = ropeBucketLengths.length)
    (hnode : Denotes store node (.leaf flat))
    (hbuckets : DenotesBuckets store buckets trees)
    (exact : Rope.insert? Flat.ops.limits flat.len (.leaf flat)
      ropeBucketLengths.tail trees none = some result) :
    Runs (insertLeaf node buckets) store safe
      fun inserted after => DenotesBuckets after inserted result := by
  unfold Runs
  rw [insertLeaf_eq, hnode.len, StringTree.len_leaf]
  refine Runs.weaken (insertFrom_runs [] (by simpa using count) count.le
    hnode hbuckets .none (by simpa using exact)) ?_
  rintro inserted after ⟨_, rfl, hinserted⟩
  exact hinserted

abbrev DenotesStack (store : Store) : List JsString → List StringTree → Prop :=
  List.Forall₂ (Denotes store)

theorem DenotesStack.extend
    (denotes : DenotesStack before stack trees) (grown : before.Extends after) :
    DenotesStack after stack trees :=
  denotes.imp fun _ _ entry => entry.extend grown

theorem fillBuckets_runs (enough : Forest.work stack < steps)
    (count : buckets.length = ropeBucketLengths.length)
    (hpending : DenotesStack store pending stack)
    (hbuckets : DenotesBuckets store buckets trees)
    (exact : Rope.insertAll? Flat.ops.limits ropeBucketLengths.tail
      (Forest.leaves stack) trees = some result) :
    Runs (fillBuckets steps pending buckets) store
      (Forest.Fits ropeMaxDepth.succ stack)
      fun filled after => DenotesBuckets after filled result := by
  induction steps generalizing pending buckets stack trees store with
  | zero => omega
  | succ steps ih =>
    cases hpending with
    | nil =>
      cases exact
      exact .pure hbuckets
    | @cons node top pending rest hnode hrest =>
      have hcount := hrest.length_eq
      rw [Forest.work_cons] at enough
      rw [Forest.leaves_cons] at exact
      refine .get ?_
      cases hnode with
      | @flat _ flat valid data =>
        have hnode : Denotes store node (.leaf flat) := .flat valid data
        have isEmpty : store.isEmpty node = (flat.len == 0) := by
          rw [hnode.isEmpty, StringTree.len_leaf]
        simp only [Rope.leaves_leaf, List.singleton_append,
          Rope.insertAll?] at exact
        change (if flat.len = 0 then _ else _) = _ at exact
        simp only [Rope.work] at enough
        have visit : Runs (if store.isEmpty node then
            fillBuckets steps pending buckets
          else do
            let buckets ← insertLeaf node buckets
            fillBuckets steps pending buckets) store
            (Forest.Fits ropeMaxDepth.succ (.leaf flat :: rest))
            fun filled after => DenotesBuckets after filled result := by
          rw [isEmpty]
          refine .safer (.ite beq_iff_eq exact
            (ih (by omega) count hrest hbuckets) fun chosen => ?_)
            fun fits => fits.rest
          simp only [Option.bind_eq_bind, Option.bind_eq_some_iff] at chosen
          obtain ⟨inserted, hinsert, hremaining⟩ := chosen
          refine .bind (insertLeaf_runs count hnode hbuckets hinsert) ?_
          intro added after hgrown hadded
          have kept : added.length = ropeBucketLengths.length := by
            rw [hadded.length_eq, (Buckets.insert?_keeps hinsert).2,
              ← hbuckets.length_eq, count]
          exact ih (by omega) kept (DenotesStack.extend hrest hgrown) hadded
            hremaining
        rw [data]
        cases flat <;> exact visit
      | @tree _ leftTree rightTree left right valid data hleft hright =>
        simp only [data, ropeRepr]
        split
        · refine (ih ?_ count (.cons hleft (.cons hright hrest)) hbuckets
            ?_).safer fun fits => fits.expand.2
          · simp only [Forest.work_cons, Rope.work] at enough ⊢
            omega
          · simpa using exact
        · rename_i full
          refine .panic fun fits => full ?_
          have := fits.expand.1
          simp only [rebalanceCapacity, ropeMaxDepth] at this ⊢
          omega
      | @linearized _ height flat target valid data htarget =>
        simp only [data, ropeRepr]
        split
        · refine (ih ?_ count (.cons htarget hrest) hbuckets
            ?_).safer fun fits => fits.settle.2
          · simp only [Forest.work_cons, Rope.work] at enough ⊢
            omega
          · simpa using exact
        · rename_i full
          refine .panic fun fits => full ?_
          have := fits.settle.1
          simp only [rebalanceCapacity, ropeMaxDepth] at this ⊢
          omega

theorem mergeBuckets_runs (hbuckets : DenotesBuckets store buckets trees)
    (hmerged : DenotesBucket store merged mergedTree)
    (exact : Rope.merge? Flat.ops.limits trees mergedTree = some result) :
    Runs (mergeBuckets buckets merged) store safe
      fun final after => DenotesBucket after final result := by
  induction buckets generalizing trees merged mergedTree store with
  | nil =>
    cases hbuckets
    cases exact
    exact .pure hmerged
  | cons _ _ ih =>
    obtain ⟨_, _, hbucket, htail, rfl⟩ :=
      List.forall₂_cons_left_iff.mp hbuckets
    simp only [Rope.merge?, Option.bind_eq_bind, Option.bind_eq_some_iff]
      at exact
    obtain ⟨_, hprepend, hmerge⟩ := exact
    refine .bind (prependBucket_runs hbucket hmerged hprepend) ?_
    intro collected after hgrown hcollected
    exact ih (DenotesBuckets.extend htail hgrown) hcollected hmerge

theorem denotesBuckets_replicate_none (store : Store) (count : Nat) :
    DenotesBuckets store (List.replicate count none)
      (List.replicate count none) := by
  induction count with
  | zero => exact .nil
  | succ _ ih => exact .cons .none ih

theorem rebalance_runs
    (hstring : Denotes store string tree) (heighted : tree.WellHeighted)
    (shallow : tree.depth ≤ 255)
    (exact : Rope.rebalance? Flat.ops.limits ropeBucketLengths.tail
      tree.leaves = some result) :
    Makes (rebalance string) store (tree.depth ≤ ropeMaxDepth + 1)
      (result.getD (.leaf Flat.ops.empty)) := by
  simp only [Rope.rebalance?, Option.bind_eq_bind, Option.bind_eq_some_iff]
    at exact
  obtain ⟨_, hinsert, hmerge⟩ := exact
  have enough : Forest.work [tree] < traversalSteps := by
    have hpow : 2 ^ (tree.depth + 1) ≤ 2 ^ 256 :=
      Nat.pow_le_pow_right (by decide) (by omega)
    rw [Forest.work_cons, Forest.work_nil, traversalSteps]
    exact lt_of_lt_of_le (tree.work_lt_two_pow heighted) hpow
  have filled := (fillBuckets_runs enough List.length_replicate
    (.cons hstring .nil) (denotesBuckets_replicate_none store _)
    (by rw [Forest.leaves_cons, Forest.leaves_nil, List.append_nil]
        exact hinsert)).safer (Forest.Fits.singleton tree heighted)
  refine .bind filled ?_
  intro buckets after _ hbuckets
  refine .bind (mergeBuckets_runs hbuckets .none hmerge) ?_
  intro final last _ hfinal
  cases hfinal with
  | none => exact allocate_runs Flat.ops.empty last
  | some hfinal => exact .pure hfinal

theorem newRope_runs (hleft : Denotes store left leftTree)
    (hright : Denotes store right rightTree)
    (leftHeighted : leftTree.WellHeighted)
    (rightHeighted : rightTree.WellHeighted)
    (exact : Flat.ops.newRope? leftTree rightTree = some tree) :
    Makes (newRope left right) store
      (leftTree.depth ≤ ropeMaxDepth ∧ rightTree.depth ≤ ropeMaxDepth)
      tree := by
  simp only [LeafOps.newRope?, Option.bind_eq_bind, Option.bind_eq_some_iff]
    at exact
  obtain ⟨_, hjoin, hrest⟩ := exact
  refine .bind (newRopeUnbalanced_runs hleft hright hjoin) ?_
  intro rope after _ hrope
  refine .get ?_
  rw [hrope.depth]
  obtain ⟨rfl, -, shallow⟩ := Rope.join?_eq_some hjoin
  by_cases deep : ropeMaxDepth < (Rope.node leftTree rightTree).depth
  · rw [if_pos deep] at hrest ⊢
    obtain ⟨_, hbalance, hresult⟩ := Option.bind_eq_some_iff.mp hrest
    cases hresult
    refine (rebalance_runs hrope ⟨leftHeighted, rightHeighted⟩
      (Nat.succ_le_of_lt shallow) hbalance).safer ?_
    rintro ⟨leftLow, rightLow⟩
    rw [Rope.depth_node]
    omega
  · rw [if_neg deep] at hrest ⊢
    cases hrest
    exact .pure hrope

theorem flatConcat_runs (hleft : Denotes store left (.leaf leftFlat))
    (hright : Denotes store right (.leaf rightFlat)) :
    Makes (flatConcat left right) store safe
      (.leaf (leftFlat.append rightFlat)) := by
  have allocated : Makes (allocate (leftFlat.append rightFlat).data) store safe
      (.leaf (leftFlat.append rightFlat)) :=
    allocate_runs _ store
  refine .get ?_
  rw [hleft.leaf_data, hright.leaf_data]
  cases leftFlat <;> cases rightFlat <;> exact allocated

theorem ropeChildren_tree (tree : StringTree) (left right : JsString) :
    ropeChildren (ropeRepr tree (.tree left right)) = pure (left, right) :=
  rfl

theorem ropeChildren_linearized_runs (tree : StringTree) (flat : JsString) :
    Runs (ropeChildren (ropeRepr tree (.linearized flat))) store safe
      fun children after => children.1 = flat ∧
        Denotes after children.2 (.leaf Flat.ops.empty) := by
  refine .bind (allocate_runs Flat.ops.empty store) ?_
  intro empty after _ hempty
  exact .pure ⟨rfl, hempty⟩

theorem appendShort_runs (hself : Denotes store self selfTree)
    (hother : Denotes store other (.leaf flat))
    (heighted : selfTree.WellHeighted)
    (exact : Flat.ops.appendShort? selfTree flat = some tree) :
    Makes (appendShort self other) store (selfTree.depth ≤ ropeMaxDepth)
      tree := by
  have ordinary : Flat.ops.newRope? selfTree (.leaf flat) = some tree →
      Makes (newRope self other) store (selfTree.depth ≤ ropeMaxDepth)
        tree := by
    intro hnew
    exact (newRope_runs hself hother heighted trivial hnew).safer
      fun low => ⟨low, Nat.zero_le _⟩
  refine .get ?_
  cases hself with
  | @flat _ selfFlat valid data =>
    have hself : Denotes store self (.leaf selfFlat) := .flat valid data
    have chosen : Makes (if store.len self ≤ ropeShort2Len then
          flatConcat self other
        else
          newRope self other) store
        ((Rope.leaf selfFlat).depth ≤ ropeMaxDepth) tree := by
      rw [hself.len, StringTree.len_leaf]
      refine .ite Iff.rfl exact (fun chosen => ?_) ordinary
      cases chosen
      exact flatConcat_runs hself hother
    rw [data]
    cases selfFlat <;> exact chosen
  | @tree _ _ rightTree _ _ _ data hleft hright =>
    simp only [data, ropeChildren_tree, pure_bind]
    refine .get ?_
    rw [hright.isFlat, hright.len]
    cases rightTree with
    | leaf =>
      refine .ite (by simp [Rope.isLeaf]) exact (fun chosen => ?_) ordinary
      refine .bind (flatConcat_runs hright hother) ?_
      intro tail after hgrown htail
      refine (newRope_runs (hleft.extend hgrown) htail heighted.1 trivial
        chosen).safer fun bound => ?_
      simp only [Rope.depth_node, Rope.depth_leaf] at bound ⊢
      omega
    | node | collapsed =>
      rw [if_neg (by simp [Rope.isLeaf])]
      exact ordinary exact
  | @linearized _ _ _ flatHandle _ data htarget =>
    simp only [data]
    refine .bind (ropeChildren_linearized_runs _ flatHandle) ?_
    rintro ⟨_, empty⟩ after hgrown ⟨rfl, hempty⟩
    refine .get ?_
    rw [hempty.isFlat, hempty.len]
    rw [if_pos (by simp [Rope.isLeaf])]
    refine .bind (flatConcat_runs hempty (hother.extend hgrown)) ?_
    intro tail last hlast htail
    exact (newRope_runs ((htarget.extend hgrown).extend hlast) htail trivial
      trivial exact).safer fun _ => ⟨Nat.zero_le _, Nat.zero_le _⟩

theorem prependFlat_runs (hself : Denotes store self (.leaf flat))
    (hother : Denotes store other otherTree) (heighted : otherTree.WellHeighted)
    (exact : Flat.ops.prependFlat? flat otherTree = some tree) :
    Makes (prependFlat self other) store (otherTree.depth ≤ ropeMaxDepth)
      tree := by
  -- Joining the operands as they are, in any store reached meanwhile.
  have ordinary : ∀ after, store.Extends after →
      Flat.ops.newRope? (.leaf flat) otherTree = some tree →
      Makes (newRope self other) after (otherTree.depth ≤ ropeMaxDepth)
        tree := by
    intro after hgrown hnew
    exact (newRope_runs (hself.extend hgrown) (hother.extend hgrown) trivial
      heighted hnew).safer fun low => ⟨Nat.zero_le _, low⟩
  refine .get ?_
  cases hother with
  | @flat _ otherFlat _ data =>
    rw [data]
    cases otherFlat <;> exact ordinary store (.refl store) exact
  | @tree _ leftTree _ _ _ _ data hleft hright =>
    simp only [data, ropeChildren_tree, pure_bind]
    refine .get ?_
    rw [hleft.isFlat, hleft.len]
    cases leftTree with
    | leaf =>
      refine .ite (by simp [Rope.isLeaf]) exact (fun chosen => ?_)
        (ordinary _ (.refl _))
      refine .bind (flatConcat_runs hself hleft) ?_
      intro head after hgrown hhead
      refine (newRope_runs hhead (hright.extend hgrown) trivial heighted.2
        chosen).safer fun bound => ?_
      simp only [Rope.depth_node, Rope.depth_leaf] at bound ⊢
      omega
    | node | collapsed =>
      rw [if_neg (by simp [Rope.isLeaf])]
      exact ordinary _ (.refl _) exact
  | @linearized _ _ _ flatHandle _ data htarget =>
    simp only [data]
    refine .bind (ropeChildren_linearized_runs _ flatHandle) ?_
    rintro ⟨_, empty⟩ after hgrown ⟨rfl, hempty⟩
    refine .get ?_
    have htarget := htarget.extend hgrown
    rw [htarget.isFlat, htarget.len]
    refine .ite (by simp [Rope.isLeaf]) exact (fun chosen => ?_)
      (ordinary _ hgrown)
    refine .bind (flatConcat_runs (hself.extend hgrown) htarget) ?_
    intro head last hlast hhead
    exact (newRope_runs hhead (hempty.extend hlast) trivial trivial
      chosen).safer fun _ => ⟨Nat.zero_le _, Nat.zero_le _⟩

theorem tryConcat_runs (hself : Denotes store self selfTree)
    (hother : Denotes store other otherTree)
    (selfHeighted : selfTree.WellHeighted)
    (otherHeighted : otherTree.WellHeighted)
    (short : selfTree.len + otherTree.len ≤ maxLen)
    (exact : Flat.ops.concat? selfTree otherTree = some tree) :
    Makes (tryConcat self other) store
      (selfTree.depth ≤ ropeMaxDepth ∧ otherTree.depth ≤ ropeMaxDepth)
      tree := by
  refine .get (.liftRead
    (checkedLength_eq_ok (by rw [hself.len, hother.len]; exact short)) ?_)
  rw [hself.isFlat, hother.isFlat, hself.isEmpty, hother.isEmpty, hother.len]
  -- A flat left operand in front of a rope.
  have fromFlat : ∀ flat, selfTree = .leaf flat →
      (if Flat.ops.size flat = 0 then some otherTree
        else Flat.ops.prependFlat? flat otherTree) = some tree →
      Makes (if (selfTree.len == 0) = true then pure other
          else prependFlat self other) store
        (selfTree.depth ≤ ropeMaxDepth ∧ otherTree.depth ≤ ropeMaxDepth)
        tree := by
    rintro flat rfl chosen
    refine .ite (by simp) chosen (fun same => ?_) fun chosen =>
      (prependFlat_runs hself hother otherHeighted chosen).safer And.right
    cases same
    exact .pure hother
  cases otherTree with
  | leaf =>
    rw [if_pos (by simp [Rope.isLeaf])]
    refine .ite (by simp) exact (fun same => ?_) fun exact =>
      .ite (by simp [StringTree.len, and_comm]) exact
        (fun same => ?_) fun exact => .ite (by simp) exact
          (fun chosen => (appendShort_runs hself hother selfHeighted
            chosen).safer And.left)
          (newRope_runs hself hother selfHeighted otherHeighted)
    · cases same
      exact .pure hself
    · cases same
      exact .pure hother
  | node | collapsed height flat =>
    rw [if_neg (by simp [Rope.isLeaf])]
    cases selfTree with
    | leaf flat =>
      rw [if_pos (by simp [Rope.isLeaf])]
      exact fromFlat flat rfl exact
    | node | collapsed =>
      rw [if_neg (by simp [Rope.isLeaf])]
      exact newRope_runs hself hother selfHeighted otherHeighted exact

end QuickJsOxide.Strings
