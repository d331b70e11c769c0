import QuickJsOxide.Library.RopeBuckets

namespace QuickJsOxide.Library

open Rope List

/-! The least length a rebalanced rope of a given depth can have. The costs of
one bucket are computed from those of the bucket before it, so a depth is paid
for by the lengths of the leaves that had to be inserted to reach it. -/

/-- Lower bounds on lengths, indexed by depth: of what has been gathered from
the buckets before a given one, and of a tree stored in that bucket. -/
structure RopeCosts where
  gathered : Nat → Nat
  bucket : Nat → Nat

namespace RopeCosts

def placed (capacity : Nat) (gathered : Nat → Nat) : Nat → Nat
  | 0 => capacity
  | depth + 1 => gathered depth + capacity

def gatheredStep (capacity : Nat) (costs : RopeCosts) : Nat → Nat
  | 0 => min (costs.gathered 0) (costs.bucket 0)
  | depth + 1 =>
    min (min (costs.gathered (depth + 1)) (costs.bucket (depth + 1)))
      (min (costs.bucket depth + costs.gathered 0)
        (capacity + costs.gathered depth))

def bucketStep (capacity next : Nat) (costs : RopeCosts) : Nat → Nat
  | 0 => next
  | depth + 1 =>
    min (placed next (gatheredStep capacity costs) (depth + 1))
      (costs.bucket depth + capacity)

/-- Costs at bucket `index`; `unreachable` prices the depths no tree in front
of the first bucket has. -/
def forBucket (capacity : Nat → Nat) (unreachable : Nat) : Nat → RopeCosts
  | 0 =>
    { gathered := fun _ => unreachable
      bucket := placed (capacity 0) fun _ => unreachable }
  | index + 1 =>
    let previous := forBucket capacity unreachable index
    { gathered := gatheredStep (capacity index) previous
      bucket :=
        bucketStep (capacity index) (capacity (index + 1)) previous }

variable (capacity : Nat → Nat) (unreachable : Nat)

theorem bucket_zero (index : Nat) :
    (forBucket capacity unreachable index).bucket 0 = capacity index := by
  cases index <;> rfl

theorem bucket_succ_le_placed (index depth : Nat) :
    (forBucket capacity unreachable index).bucket (depth + 1) ≤
      (forBucket capacity unreachable index).gathered depth +
        capacity index := by
  cases index with
  | zero => exact le_rfl
  | succ => exact min_le_left _ _

theorem bucket_succ_le_carried (index depth : Nat) :
    (forBucket capacity unreachable (index + 1)).bucket (depth + 1) ≤
      (forBucket capacity unreachable index).bucket depth +
        capacity index :=
  min_le_right _ _

theorem gathered_succ_le_gathered (index depth : Nat) :
    (forBucket capacity unreachable (index + 1)).gathered depth ≤
      (forBucket capacity unreachable index).gathered depth := by
  cases depth with
  | zero => exact min_le_left _ _
  | succ => exact (min_le_left _ _).trans (min_le_left _ _)

theorem gathered_succ_le_bucket (index depth : Nat) :
    (forBucket capacity unreachable (index + 1)).gathered depth ≤
      (forBucket capacity unreachable index).bucket depth := by
  cases depth with
  | zero => exact min_le_right _ _
  | succ => exact (min_le_left _ _).trans (min_le_right _ _)

theorem gathered_succ_le_deep_bucket (index depth : Nat) :
    (forBucket capacity unreachable (index + 1)).gathered (depth + 1) ≤
      (forBucket capacity unreachable index).bucket depth +
        (forBucket capacity unreachable index).gathered 0 :=
  (min_le_right _ _).trans (min_le_left _ _)

theorem gathered_succ_le_deep_gathered (index depth : Nat) :
    (forBucket capacity unreachable (index + 1)).gathered (depth + 1) ≤
      capacity index +
        (forBucket capacity unreachable index).gathered depth :=
  (min_le_right _ _).trans (min_le_right _ _)

theorem monotone_forBucket (doubling : ∀ index, capacity (index + 1) ≤
    2 * capacity index) (index : Nat) :
    Monotone (forBucket capacity unreachable index).gathered ∧
      Monotone (forBucket capacity unreachable index).bucket := by
  induction index with
  | zero =>
    refine ⟨monotone_const, monotone_nat_of_le_succ fun depth => ?_⟩
    cases depth with
    | zero => exact Nat.le_add_left _ _
    | succ => exact le_rfl
  | succ index ih =>
    obtain ⟨ihGathered, ihBucket⟩ := ih
    have gathered : Monotone
        (forBucket capacity unreachable (index + 1)).gathered := by
      refine monotone_nat_of_le_succ fun depth => ?_
      have hg := ihGathered (Nat.le_succ depth)
      have hb := ihBucket (Nat.le_succ depth)
      have hkeep :=
        gathered_succ_le_gathered capacity unreachable index depth
      have htake :=
        gathered_succ_le_bucket capacity unreachable index depth
      refine le_min (le_min (hkeep.trans hg) (htake.trans hb)) (le_min ?_ ?_)
      · exact htake.trans (Nat.le_add_right _ _)
      · exact hkeep.trans (Nat.le_add_left _ _)
    refine ⟨gathered, monotone_nat_of_le_succ fun depth => ?_⟩
    cases depth with
    | zero =>
      refine le_min (Nat.le_add_left _ _) ?_
      rw [bucket_zero, bucket_zero]
      have := doubling index
      omega
    | succ depth =>
      refine le_min ?_ ?_
      · exact (bucket_succ_le_placed capacity unreachable (index + 1)
          depth).trans (Nat.add_le_add_right (gathered (Nat.le_succ depth)) _)
      · exact (bucket_succ_le_carried capacity unreachable index depth).trans
          (Nat.add_le_add_right (ihBucket (Nat.le_succ depth)) _)

/-! Evaluating a cost row by row instead of through nested functions. -/

/-- A finite table of the costs at one bucket, for depths below `width`. -/
structure Row where
  gathered : List Nat
  bucket : List Nat

def Row.costs (row : Row) : RopeCosts where
  gathered depth := row.gathered.getD depth 0
  bucket depth := row.bucket.getD depth 0

def tabulate (width : Nat) (costs : RopeCosts) : Row where
  gathered := (range width).map costs.gathered
  bucket := (range width).map costs.bucket

def step (capacity next : Nat) (costs : RopeCosts) : RopeCosts where
  gathered := gatheredStep capacity costs
  bucket := bucketStep capacity next costs

def rows (width : Nat) : List Nat → Nat → Row → Row
  | [], _, row => row
  | next :: rest, capacity, row =>
    rows width rest next (tabulate width (step capacity next row.costs))

def Row.Agrees (width : Nat) (row : Row) (costs : RopeCosts) : Prop :=
  ∀ depth, depth < width →
    row.costs.gathered depth = costs.gathered depth ∧
      row.costs.bucket depth = costs.bucket depth

theorem tabulate_agrees (width : Nat) (costs : RopeCosts) :
    (tabulate width costs).Agrees width costs := by
  intro depth bounded
  simp [tabulate, Row.costs, getD_eq_getElem?_getD, bounded]

theorem step_agrees {row : Row} (agrees : row.Agrees width costs)
    (capacity next : Nat) :
    (tabulate width (step capacity next row.costs)).Agrees width
      (step capacity next costs) := by
  have gathered : ∀ depth, depth < width →
      gatheredStep capacity row.costs depth =
        gatheredStep capacity costs depth := by
    intro depth bounded
    cases depth with
    | zero =>
      obtain ⟨hg, hb⟩ := agrees 0 bounded
      simp only [gatheredStep, hg, hb]
    | succ depth =>
      obtain ⟨hg, hb⟩ := agrees (depth + 1) bounded
      obtain ⟨hg', hb'⟩ := agrees depth (by omega)
      obtain ⟨hzero, -⟩ := agrees 0 (by omega)
      simp only [gatheredStep, hg, hb, hg', hb', hzero]
  intro depth bounded
  obtain ⟨tableGathered, tableBucket⟩ :=
    tabulate_agrees width (step capacity next row.costs) depth bounded
  refine ⟨tableGathered.trans (gathered depth bounded), tableBucket.trans ?_⟩
  cases depth with
  | zero => rfl
  | succ depth =>
    obtain ⟨-, hb⟩ := agrees depth (by omega)
    simp only [step, bucketStep, placed, gathered depth (by omega), hb]

theorem rows_agrees (following : List Nat)
    (agrees : row.Agrees width (forBucket capacity unreachable index))
    (exact : ∀ offset bound, following[offset]? = some bound →
      bound = capacity (index + 1 + offset)) :
    (rows width following (capacity index) row).Agrees width
      (forBucket capacity unreachable (index + following.length)) := by
  induction following generalizing index row with
  | nil => exact agrees
  | cons next rest ih =>
    obtain rfl : next = capacity (index + 1) := exact 0 next rfl
    have tail : ∀ offset bound, rest[offset]? = some bound →
        bound = capacity (index + 1 + 1 + offset) := by
      intro offset bound found
      rw [exact (offset + 1) bound found]
      congr 1
      omega
    have advanced := ih (step_agrees agrees (capacity index)
      (capacity (index + 1))) tail
    simpa [rows, Nat.add_assoc, Nat.add_comm 1] using advanced

end RopeCosts

/-! Every tree in the buckets is paid for, and insertion always finds room. -/

/-- Capacities of the buckets of a rebalancing run. The last capacity exceeds
every length that can occur, and no capacity is more than twice the one before
it. -/
structure BucketPlan (limits : RopeLimits α) where
  capacity : Nat → Nat
  following : List Nat
  first : capacity 0 = 1
  exact : ∀ offset bound, following[offset]? = some bound →
    bound = capacity (1 + offset)
  doubling : ∀ index, capacity (index + 1) ≤ 2 * capacity index
  beyond : limits.maxLength < capacity following.length
  shallow : 2 * following.length + 2 < limits.maxDepth

namespace BucketPlan

variable {limits : RopeLimits α} (plan : BucketPlan limits) (unreachable : Nat)

structure Stored (index : Nat) (tree : Rope α) : Prop where
  heighted : tree.WellHeighted
  depth : tree.depth ≤ 2 * index + 1
  long : plan.capacity index ≤ tree.length limits.size
  paid : (RopeCosts.forBucket plan.capacity unreachable index).bucket
    tree.depth ≤ tree.length limits.size

structure Gathered (index : Nat) (tree : Rope α) : Prop where
  heighted : tree.WellHeighted
  depth : tree.depth ≤ 2 * index
  present : (RopeCosts.forBucket plan.capacity unreachable index).gathered
    0 ≤ tree.length limits.size
  paid : (RopeCosts.forBucket plan.capacity unreachable index).gathered
    tree.depth ≤ tree.length limits.size

def Holds : Nat → List (Option (Rope α)) → Prop
  | _, [] => True
  | index, bucket :: rest =>
    (∀ tree ∈ bucket, plan.Stored unreachable index tree) ∧
      Holds (index + 1) rest

def total (limits : RopeLimits α) (buckets : List (Option (Rope α))) : Nat :=
  ((Buckets.leaves buckets).map limits.size).sum

def gatheredLength (limits : RopeLimits α) (gathered : Option (Rope α)) : Nat :=
  ((Buckets.gatheredLeaves gathered).map limits.size).sum

@[simp] theorem total_none (rest : List (Option (Rope α))) :
    total limits (none :: rest) = total limits rest := by
  simp [total]

@[simp] theorem total_some (tree : Rope α) (rest : List (Option (Rope α))) :
    total limits (some tree :: rest) =
      total limits rest + tree.length limits.size := by
  simp [total, Rope.length]

@[simp] theorem gatheredLength_none :
    gatheredLength limits (none : Option (Rope α)) = 0 := rfl

@[simp] theorem gatheredLength_some (tree : Rope α) :
    gatheredLength limits (some tree) = tree.length limits.size := rfl

theorem total_cons (bucket : Option (Rope α)) (rest : List (Option (Rope α))) :
    total limits (bucket :: rest) =
      total limits rest + gatheredLength limits bucket := by
  cases bucket <;> simp

theorem gatheredLength_prepend?
    (exact : prepend? limits bucket gathered = some combined) :
    gatheredLength limits combined =
      gatheredLength limits bucket + gatheredLength limits gathered := by
  simp [gatheredLength, Buckets.leaves_prepend? exact]

theorem join?_eq (short : left.length limits.size + right.length limits.size ≤
      limits.maxLength) (shallow : max left.depth right.depth < limits.maxDepth)
    : join? limits left right = some (.node left right) :=
  if_pos ⟨short, shallow⟩

variable {plan unreachable}

variable {tree : Rope α}

theorem Stored.index_lt (stored : plan.Stored unreachable index tree)
    (short : tree.length limits.size ≤ limits.maxLength)
    (within : index ≤ plan.following.length) :
    index < plan.following.length := by
  rcases Nat.lt_or_ge index plan.following.length with smaller | larger
  · exact smaller
  · have last : index = plan.following.length := by omega
    have long := stored.long
    have beyond := plan.beyond
    rw [← last] at beyond
    omega

theorem Stored.join (front : plan.Stored unreachable index bucket)
    (back : plan.Stored unreachable index tree) :
    plan.Stored unreachable (index + 1) (.node bucket tree) where
  heighted := ⟨front.heighted, back.heighted⟩
  depth := by
    have := front.depth
    have := back.depth
    simp only [depth_node]
    omega
  long := by
    have := front.long
    have := back.long
    have := plan.doubling index
    simp only [length_node]
    omega
  paid := by
    have carried := RopeCosts.bucket_succ_le_carried plan.capacity unreachable
      index (max bucket.depth tree.depth)
    have frontLong := front.long
    have frontPaid := front.paid
    have backLong := back.long
    have backPaid := back.paid
    simp only [length_node, depth_node]
    refine carried.trans ?_
    rcases Nat.le_total bucket.depth tree.depth with deeper | deeper
    · rw [Nat.max_eq_right deeper]
      omega
    · rw [Nat.max_eq_left deeper]
      omega

theorem Gathered.attach (front : plan.Gathered unreachable index gathered)
    (long : plan.capacity index ≤ limits.size value) :
    plan.Stored unreachable index (.node gathered (.leaf value)) where
  heighted := ⟨front.heighted, trivial⟩
  depth := by
    have := front.depth
    simp only [depth_node, depth_leaf]
    omega
  long := by
    simp only [length_node, length_leaf]
    omega
  paid := by
    have placed := RopeCosts.bucket_succ_le_placed plan.capacity unreachable
      index gathered.depth
    have paid := front.paid
    simp only [depth_node, depth_leaf, length_node, length_leaf, Nat.max_zero]
    omega

theorem Stored.leaf (long : plan.capacity index ≤ limits.size value) :
    plan.Stored unreachable index (.leaf value) where
  heighted := trivial
  depth := Nat.zero_le _
  long := by simpa using long
  paid := by
    rw [depth_leaf, RopeCosts.bucket_zero]
    simpa using long

theorem Stored.gather (stored : plan.Stored unreachable index tree) :
    plan.Gathered unreachable (index + 1) tree where
  heighted := stored.heighted
  depth := by
    have := stored.depth
    omega
  present := by
    have := RopeCosts.gathered_succ_le_bucket plan.capacity unreachable index 0
    rw [RopeCosts.bucket_zero] at this
    exact this.trans stored.long
  paid := (RopeCosts.gathered_succ_le_bucket plan.capacity unreachable index
    tree.depth).trans stored.paid

theorem Gathered.skip (gathered : plan.Gathered unreachable index tree) :
    plan.Gathered unreachable (index + 1) tree where
  heighted := gathered.heighted
  depth := by
    have := gathered.depth
    omega
  present := (RopeCosts.gathered_succ_le_gathered plan.capacity unreachable
    index 0).trans gathered.present
  paid := (RopeCosts.gathered_succ_le_gathered plan.capacity unreachable index
    tree.depth).trans gathered.paid

theorem Stored.prepend (front : plan.Stored unreachable index bucket)
    (back : plan.Gathered unreachable index gathered) :
    plan.Gathered unreachable (index + 1) (.node bucket gathered) where
  heighted := ⟨front.heighted, back.heighted⟩
  depth := by
    have := front.depth
    have := back.depth
    simp only [depth_node]
    omega
  present := by
    have := front.gather.present
    simp only [length_node]
    omega
  paid := by
    have frontLong := front.long
    have frontPaid := front.paid
    have backPresent := back.present
    have backPaid := back.paid
    simp only [length_node, depth_node]
    rcases Nat.le_total bucket.depth gathered.depth with deeper | deeper
    · rw [Nat.max_eq_right deeper]
      have := RopeCosts.gathered_succ_le_deep_gathered plan.capacity
        unreachable index gathered.depth
      omega
    · rw [Nat.max_eq_left deeper]
      have := RopeCosts.gathered_succ_le_deep_bucket plan.capacity
        unreachable index bucket.depth
      omega

theorem prepend?_gathered (within : index ≤ plan.following.length)
    (front : ∀ tree ∈ bucket, plan.Stored unreachable index tree)
    (back : ∀ tree ∈ gathered, plan.Gathered unreachable index tree)
    (short : gatheredLength limits bucket + gatheredLength limits gathered ≤
      limits.maxLength) :
    ∃ result, prepend? limits bucket gathered = some result ∧
      ∀ tree ∈ result, plan.Gathered unreachable (index + 1) tree := by
  cases bucket with
  | none => exact ⟨gathered, rfl, fun tree member => (back tree member).skip⟩
  | some bucket =>
    have stored := front bucket rfl
    cases gathered with
    | none =>
      refine ⟨some bucket, rfl, ?_⟩
      rintro tree ⟨⟩
      exact stored.gather
    | some gathered =>
      have rest := back gathered rfl
      have shallow : max bucket.depth gathered.depth < limits.maxDepth := by
        have := stored.depth
        have := rest.depth
        have := plan.shallow
        omega
      refine ⟨some (.node bucket gathered), ?_, ?_⟩
      · simp [prepend?, join?_eq short shallow]
      · rintro tree ⟨⟩
        exact stored.prepend rest

variable {buckets : List (Option (Rope α))}

theorem carry?_holds (within : index ≤ plan.following.length)
    (count : index + buckets.length = plan.following.length + 1)
    (holds : plan.Holds unreachable index buckets)
    (stored : plan.Stored unreachable index tree)
    (short : total limits buckets + tree.length limits.size ≤ limits.maxLength) :
    ∃ result, carry? limits tree buckets = some result ∧
      plan.Holds unreachable index result := by
  induction buckets generalizing index tree with
  | nil =>
    simp only [length_nil] at count
    omega
  | cons bucket rest ih =>
    cases bucket with
    | none =>
      refine ⟨some tree :: rest, rfl, ?_, holds.2⟩
      rintro _ ⟨⟩
      exact stored
    | some bucket =>
      have front := holds.1 bucket rfl
      rw [total_some] at short
      have smaller := stored.index_lt (by omega) within
      have shallow : max bucket.depth tree.depth < limits.maxDepth := by
        have := front.depth
        have := stored.depth
        have := plan.shallow
        omega
      have joined : join? limits bucket tree =
          some (.node bucket tree) := join?_eq (by omega) shallow
      obtain ⟨result, hcarry, hholds⟩ :=
        ih smaller (by simp only [length_cons] at count; omega)
          holds.2 (front.join stored) (by rw [length_node]; omega)
      refine ⟨none :: result, ?_, ?_, hholds⟩
      · simp [carry?, joined, hcarry]
      · rintro _ ⟨⟩

theorem insert?_holds (value : α) (gathered : Option (Rope α))
    (within : index ≤ plan.following.length)
    (count : index + buckets.length = plan.following.length + 1)
    (bounded : bounds = plan.following.drop index)
    (holds : plan.Holds unreachable index buckets)
    (collected : ∀ tree ∈ gathered, plan.Gathered unreachable index tree)
    (long : plan.capacity index ≤ limits.size value)
    (short : total limits buckets + gatheredLength limits gathered +
      limits.size value ≤ limits.maxLength) :
    ∃ result, insert? limits (limits.size value) (.leaf value) bounds
        buckets gathered = some result ∧
      plan.Holds unreachable index result := by
  induction buckets generalizing index bounds gathered with
  | nil =>
    simp only [length_nil] at count
    omega
  | cons bucket rest ih =>
    have standing : plan.Stored unreachable index (.leaf value) :=
      Stored.leaf long
    have room : index < plan.following.length :=
      standing.index_lt (by rw [length_leaf]; omega) within
    obtain ⟨bound, hbound⟩ : ∃ bound, plan.following[index]? = some bound :=
      ⟨_, getElem?_eq_getElem room⟩
    have hcapacity : bound = plan.capacity (index + 1) := by
      rw [plan.exact index bound hbound, Nat.add_comm]
    have hdrop : bounds = bound :: plan.following.drop (index + 1) := by
      rw [bounded, drop_eq_getElem_cons room]
      rw [getElem?_eq_getElem room] at hbound
      cases hbound
      rfl
    rw [hdrop]
    simp only [insert?]
    split
    · rename_i reaches
      rw [total_cons] at short
      obtain ⟨combined, hprepend, hcombined⟩ :=
        prepend?_gathered within holds.1 collected (by omega)
      have kept := gatheredLength_prepend? hprepend
      obtain ⟨result, hinsert, hholds⟩ :=
        ih combined room (by simp only [length_cons] at count; omega)
          rfl holds.2 hcombined (hcapacity ▸ reaches) (by omega)
      refine ⟨none :: result, ?_, ?_, hholds⟩
      · simp [hprepend, hinsert]
      · rintro _ ⟨⟩
    · -- The leaf belongs to this bucket: place it behind what was gathered.
      cases gathered with
      | none =>
        exact carry?_holds within count holds standing
          (by rw [length_leaf]; simpa using short)
      | some gathered =>
        have front := collected gathered rfl
        rw [gatheredLength_some] at short
        have shallow : max gathered.depth (leaf value).depth <
            limits.maxDepth := by
          have := front.depth
          have := plan.shallow
          rw [depth_leaf]
          omega
        have joined : join? limits gathered (.leaf value) =
            some (.node gathered (.leaf value)) :=
          join?_eq (by rw [length_leaf]; omega) shallow
        obtain ⟨result, hcarry, hrest⟩ := carry?_holds within count holds
          (front.attach long)
          (by rw [length_node, length_leaf]; omega)
        exact ⟨result, by simp [attach?, joined, hcarry], hrest⟩

theorem insertAll?_holds (values : List α)
    (count : buckets.length = plan.following.length + 1)
    (holds : plan.Holds unreachable 0 buckets)
    (short : total limits buckets + (values.map limits.size).sum ≤
      limits.maxLength) :
    ∃ result, insertAll? limits plan.following values buckets =
        some result ∧ result.length = buckets.length ∧
      plan.Holds unreachable 0 result := by
  induction values generalizing buckets with
  | nil => exact ⟨buckets, rfl, rfl, holds⟩
  | cons value values ih =>
    simp only [map_cons, sum_cons] at short
    simp only [insertAll?]
    split
    · exact ih count holds (by omega)
    · rename_i nonempty
      obtain ⟨inserted, hinsert, hholds⟩ :=
        insert?_holds value none (Nat.zero_le _) (by omega)
          drop_zero.symm holds (by rintro _ ⟨⟩)
          (by rw [plan.first]; omega) (by rw [gatheredLength_none]; omega)
      obtain ⟨hleaves, hlength⟩ := Buckets.insert?_keeps hinsert
      have kept : total limits inserted =
          total limits buckets + limits.size value := by
        simp [total, hleaves]
      obtain ⟨result, hall, hresult, hfinal⟩ :=
        ih (by omega) hholds (by omega)
      exact ⟨result, by simp [hinsert, hall], by omega, hfinal⟩

theorem merge?_gathered (merged : Option (Rope α))
    (count : index + buckets.length = plan.following.length + 1)
    (holds : plan.Holds unreachable index buckets)
    (collected : ∀ tree ∈ merged, plan.Gathered unreachable index tree)
    (short : total limits buckets + gatheredLength limits merged ≤
      limits.maxLength) :
    ∃ result, merge? limits buckets merged = some result ∧ ∀ tree ∈ result,
        plan.Gathered unreachable (plan.following.length + 1) tree := by
  induction buckets generalizing index merged with
  | nil =>
    refine ⟨merged, rfl, ?_⟩
    simpa [← count] using collected
  | cons _ _ ih =>
    simp only [length_cons] at count
    rw [total_cons] at short
    obtain ⟨combined, hprepend, hcombined⟩ :=
      prepend?_gathered (by omega) holds.1 collected (by omega)
    have kept := gatheredLength_prepend? hprepend
    obtain ⟨result, hmerge, hresult⟩ :=
      ih combined (by omega) holds.2 hcombined (by omega)
    exact ⟨result, by simp [merge?, hprepend, hmerge], hresult⟩

theorem holds_replicate_none (index count : Nat) :
    plan.Holds unreachable index (replicate count none) := by
  induction count generalizing index with
  | zero => trivial
  | succ _ ih => exact ⟨by rintro _ ⟨⟩, ih (index + 1)⟩

/-- Rebalancing leaves of bounded total length succeeds, and its result is as
long as its depth costs. -/
theorem rebalance?_paid (plan : BucketPlan limits) (unreachable : Nat)
    (short : (values.map limits.size).sum ≤ limits.maxLength) :
    ∃ result, Rope.rebalance? limits plan.following values = some result ∧
      ∀ tree ∈ result, tree.WellHeighted ∧
        tree.depth ≤ 2 * (plan.following.length + 1) ∧
        (RopeCosts.forBucket plan.capacity unreachable
            (plan.following.length + 1)).gathered tree.depth ≤
          (values.map limits.size).sum := by
  have start : plan.Holds unreachable 0
      (replicate (plan.following.length + 1) none) :=
    holds_replicate_none 0 _
  have empty : total limits (replicate (plan.following.length + 1)
      (none : Option (Rope α))) = 0 := by
    simp [total]
  obtain ⟨buckets, hinsert, hlength, hholds⟩ :=
    insertAll?_holds values (by simp) start (by omega)
  have kept : total limits buckets ≤ (values.map limits.size).sum := by
    have hleaves := Buckets.leaves_insertAll? hinsert
    rw [Buckets.leaves_replicate_none, nil_append] at hleaves
    rw [total, hleaves]
    exact Sublist.sum_le_sum (filter_sublist.map _) (by simp)
  obtain ⟨result, hmerge, hresult⟩ :=
    merge?_gathered none (by simp [hlength]) hholds (by rintro _ ⟨⟩)
      (by rw [gatheredLength_none]; omega)
  refine ⟨result, by simp [Rope.rebalance?, hinsert, hmerge], ?_⟩
  intro tree member
  have gathered := hresult tree member
  refine ⟨gathered.heighted, gathered.depth,
    gathered.paid.trans (le_trans ?_ kept)⟩
  have hleaves := Buckets.leaves_merge? hmerge
  cases member
  simp only [Buckets.gatheredLeaves_some, Buckets.gatheredLeaves_none,
    append_nil] at hleaves
  simp [Rope.length, total, hleaves]

end BucketPlan

end QuickJsOxide.Library
