import QuickJsOxide.Library.Rope

namespace QuickJsOxide.Library

open Option

/-! Rebalancing a rope through buckets of increasing capacity. Bucket `i` holds
at most one tree; inserting a leaf first gathers every smaller bucket in front
of it and then carries the result upward until it meets an empty bucket. -/

/-- How trees are combined: a length for every value, the longest rope that
may be built and the greatest height of a rope that may be extended. -/
structure RopeLimits (α : Type u) where
  size : α → Nat
  maxLength : Nat
  maxDepth : Nat

namespace Rope

variable (limits : RopeLimits α)

def join? (left right : Rope α) : Option (Rope α) :=
  if left.length limits.size + right.length limits.size ≤ limits.maxLength ∧
      max left.depth right.depth < limits.maxDepth then
    some (.node left right)
  else
    none

def prepend? : Option (Rope α) → Option (Rope α) → Option (Option (Rope α))
  | none, gathered => some gathered
  | some bucket, none => some (some bucket)
  | some bucket, some gathered => (join? limits bucket gathered).map some

def attach? : Option (Rope α) → Rope α → Option (Rope α)
  | none, tree => some tree
  | some gathered, tree => join? limits gathered tree

def carry? : Rope α → List (Option (Rope α)) → Option (List (Option (Rope α)))
  | _, [] => none
  | tree, none :: rest => some (some tree :: rest)
  | tree, some bucket :: rest => do
    let joined ← join? limits bucket tree
    let carried ← carry? joined rest
    return none :: carried

/-- Insert a leaf tree of length `size`. `bounds` lists the capacities of the
buckets after the first one of the second list. -/
def insert? (size : Nat) (tree : Rope α) :
    List Nat → List (Option (Rope α)) → Option (Rope α) →
      Option (List (Option (Rope α)))
  | bound :: bounds, bucket :: rest, gathered =>
    if bound ≤ size then do
      let gathered ← prepend? limits bucket gathered
      let inserted ← insert? size tree bounds rest gathered
      return none :: inserted
    else do
      let tree ← attach? limits gathered tree
      carry? limits tree (bucket :: rest)
  | _, _, _ => none

def insertAll? (bounds : List Nat) :
    List α → List (Option (Rope α)) → Option (List (Option (Rope α)))
  | [], buckets => some buckets
  | value :: values, buckets =>
    if limits.size value = 0 then
      insertAll? bounds values buckets
    else do
      let buckets ←
        insert? limits (limits.size value) (.leaf value) bounds buckets none
      insertAll? bounds values buckets

def merge? : List (Option (Rope α)) → Option (Rope α) →
    Option (Option (Rope α))
  | [], merged => some merged
  | bucket :: rest, merged => do
    let merged ← prepend? limits bucket merged
    merge? rest merged

/-- Rebalance a sequence of leaves; `none` inside the result stands for the
empty rope. -/
def rebalance? (bounds : List Nat) (values : List α) :
    Option (Option (Rope α)) := do
  let buckets ← insertAll? limits bounds values
    (List.replicate (bounds.length + 1) none)
  merge? limits buckets none

variable {limits}

theorem join?_eq_some (exact : join? limits left right = some joined) :
    joined = .node left right ∧
      left.length limits.size + right.length limits.size ≤ limits.maxLength ∧
      max left.depth right.depth < limits.maxDepth := by
  unfold join? at exact
  split at exact
  · rename_i fits
    cases exact
    exact ⟨rfl, fits.1, fits.2⟩
  · cases exact

end Rope

/-! Leaves are kept: reading the buckets from the largest to the smallest gives
the leaves inserted so far. -/

namespace Buckets

def leaves : List (Option (Rope α)) → List α
  | [] => []
  | bucket :: rest => leaves rest ++ (bucket.map Rope.leaves).getD []

@[simp] theorem leaves_nil : leaves ([] : List (Option (Rope α))) = [] := rfl

@[simp] theorem leaves_none (rest : List (Option (Rope α))) :
    leaves (none :: rest) = leaves rest := by
  simp [leaves]

@[simp] theorem leaves_some (bucket : Rope α) (rest : List (Option (Rope α))) :
    leaves (some bucket :: rest) = leaves rest ++ bucket.leaves := by
  simp [leaves]

@[simp] theorem leaves_replicate_none (count : Nat) :
    leaves (List.replicate count (none : Option (Rope α))) = [] := by
  induction count with
  | zero => rfl
  | succ _ ih => rw [List.replicate_succ, leaves_none, ih]

def gatheredLeaves (gathered : Option (Rope α)) : List α :=
  (gathered.map Rope.leaves).getD []

@[simp] theorem gatheredLeaves_none :
    gatheredLeaves (none : Option (Rope α)) = [] := rfl

@[simp] theorem gatheredLeaves_some (tree : Rope α) :
    gatheredLeaves (some tree) = tree.leaves := rfl

theorem leaves_prepend?
    (exact : Rope.prepend? limits bucket gathered = some result) :
    gatheredLeaves result = gatheredLeaves bucket ++ gatheredLeaves gathered := by
  cases bucket with
  | none =>
    cases exact
    rfl
  | some =>
    cases gathered with
    | none =>
      cases exact
      simp
    | some =>
      obtain ⟨_, hjoin, rfl⟩ := map_eq_some_iff.mp exact
      obtain ⟨rfl, -⟩ := Rope.join?_eq_some hjoin
      rfl

theorem leaves_attach? (exact : Rope.attach? limits gathered tree = some result)
    : result.leaves = gatheredLeaves gathered ++ tree.leaves := by
  cases gathered with
  | none =>
    cases exact
    rfl
  | some =>
    obtain ⟨rfl, -⟩ := Rope.join?_eq_some exact
    rfl

theorem carry?_keeps (exact : Rope.carry? limits tree buckets = some result) :
    leaves result = leaves buckets ++ tree.leaves ∧
      result.length = buckets.length := by
  induction buckets generalizing tree result with
  | nil => cases exact
  | cons bucket _ ih =>
    cases bucket with
    | none =>
      cases exact
      simp
    | some =>
      simp only [Rope.carry?, bind_eq_bind, bind_eq_some_iff,
        pure_def, some.injEq] at exact
      obtain ⟨_, hjoin, carried, hcarry, rfl⟩ := exact
      obtain ⟨rfl, -⟩ := Rope.join?_eq_some hjoin
      simp [ih hcarry]

theorem insert?_keeps
    (exact : Rope.insert? limits size tree bounds buckets gathered =
      some result) : leaves result =
      leaves buckets ++ gatheredLeaves gathered ++ tree.leaves ∧
        result.length = buckets.length := by
  induction buckets generalizing bounds gathered result with
  | nil => cases bounds <;> cases exact
  | cons _ _ ih =>
    cases bounds with
    | nil => cases exact
    | cons =>
      simp only [Rope.insert?] at exact
      split at exact
      · simp only [bind_eq_bind, bind_eq_some_iff,
          pure_def, some.injEq] at exact
        obtain ⟨_, hprepend, inserted, hinsert, rfl⟩ := exact
        obtain ⟨kept, length⟩ := ih hinsert
        rw [leaves_none, kept, leaves_prepend? hprepend, leaves]
        simp [gatheredLeaves, length]
      · simp only [bind_eq_bind, bind_eq_some_iff] at exact
        obtain ⟨_, hattach, hcarry⟩ := exact
        obtain ⟨kept, length⟩ := carry?_keeps hcarry
        rw [kept, leaves_attach? hattach]
        simp [length]

theorem leaves_insertAll?
    (exact : Rope.insertAll? limits bounds values buckets = some result) :
    leaves result =
      leaves buckets ++ values.filter (fun value => limits.size value ≠ 0) := by
  induction values generalizing buckets with
  | nil =>
    cases exact
    simp
  | cons value values ih =>
    simp only [Rope.insertAll?] at exact
    split at exact
    · rename_i empty
      rw [ih exact]
      simp [empty]
    · rename_i nonempty
      simp only [bind_eq_bind, bind_eq_some_iff] at exact
      obtain ⟨_, hinsert, hrest⟩ := exact
      rw [ih hrest, (insert?_keeps hinsert).1]
      simp [nonempty]

theorem leaves_merge?
    (exact : Rope.merge? limits buckets merged = some result) :
    gatheredLeaves result = leaves buckets ++ gatheredLeaves merged := by
  induction buckets generalizing merged with
  | nil =>
    cases exact
    simp
  | cons _ _ ih =>
    simp only [Rope.merge?, bind_eq_bind, bind_eq_some_iff]
      at exact
    obtain ⟨_, hprepend, hmerge⟩ := exact
    rw [ih hmerge, leaves_prepend? hprepend, leaves]
    simp [gatheredLeaves]

theorem leaves_rebalance?
    (exact : Rope.rebalance? limits bounds values = some result) :
    gatheredLeaves result =
      values.filter (fun value => limits.size value ≠ 0) := by
  simp only [Rope.rebalance?, bind_eq_bind, bind_eq_some_iff]
    at exact
  obtain ⟨_, hinsert, hmerge⟩ := exact
  rw [leaves_merge? hmerge, leaves_insertAll? hinsert]
  simp

end Buckets

/-! Relabelling the leaves: rebalancing looks at lengths only. -/

/-- Limits for values whose lengths are those of their labels. -/
def RopeLimits.pull (limits : RopeLimits β) (f : α → β) : RopeLimits α where
  size := limits.size ∘ f
  maxLength := limits.maxLength
  maxDepth := limits.maxDepth

namespace Rope

variable (limits : RopeLimits β) (f : α → β)

theorem join?_map (left right : Rope α) :
    join? limits (left.map f) (right.map f) =
      (join? (limits.pull f) left right).map (map f) := by
  simp only [join?, length_map, depth_map]
  rw [apply_ite (Option.map (map f))]
  rfl

theorem prepend?_map (bucket gathered : Option (Rope α)) :
    prepend? limits (bucket.map (map f)) (gathered.map (map f)) =
      (prepend? (limits.pull f) bucket gathered).map
        (Option.map (map f)) := by
  cases bucket with
  | none => rfl
  | some =>
    cases gathered with
    | none => rfl
    | some =>
      simp only [map_some, prepend?, join?_map, map_map]
      rfl

theorem attach?_map (gathered : Option (Rope α)) (tree : Rope α) :
    attach? limits (gathered.map (map f)) (tree.map f) =
      (attach? (limits.pull f) gathered tree).map (map f) := by
  cases gathered with
  | none => rfl
  | some gathered => exact join?_map limits f gathered tree

theorem carry?_map (tree : Rope α) (buckets : List (Option (Rope α))) :
    carry? limits (tree.map f) (buckets.map (Option.map (map f))) =
      (carry? (limits.pull f) tree buckets).map
        (List.map (Option.map (map f))) := by
  induction buckets generalizing tree with
  | nil => rfl
  | cons bucket rest ih =>
    cases bucket with
    | none => rfl
    | some bucket =>
      simp only [List.map_cons, map_some, carry?, join?_map]
      cases join? (limits.pull f) bucket tree with
      | none => rfl
      | some joined =>
        simp only [map_some, bind_eq_bind, bind_some, ih]
        cases carry? (limits.pull f) joined rest <;> rfl

theorem insert?_map (size : Nat) (tree : Rope α) (bounds : List Nat)
    (buckets : List (Option (Rope α))) (gathered : Option (Rope α)) :
    insert? limits size (tree.map f) bounds
        (buckets.map (Option.map (map f))) (gathered.map (map f)) =
      (insert? (limits.pull f) size tree bounds buckets gathered).map
        (List.map (Option.map (map f))) := by
  induction buckets generalizing bounds gathered with
  | nil => cases bounds <;> rfl
  | cons bucket rest ih =>
    cases bounds with
    | nil => rfl
    | cons _ bounds =>
      simp only [List.map_cons, insert?]
      split
      · rw [prepend?_map]
        cases prepend? (limits.pull f) bucket gathered with
        | none => rfl
        | some combined =>
          simp only [map_some, bind_eq_bind, bind_some, ih]
          cases insert? (limits.pull f) size tree bounds rest combined <;>
            rfl
      · rw [attach?_map]
        cases attach? (limits.pull f) gathered tree with
        | none => rfl
        | some attached => exact carry?_map limits f attached (bucket :: rest)

theorem insertAll?_map (bounds : List Nat) (values : List α)
    (buckets : List (Option (Rope α))) : insertAll? limits bounds (values.map f)
        (buckets.map (Option.map (map f))) =
      (insertAll? (limits.pull f) bounds values buckets).map
        (List.map (Option.map (map f))) := by
  induction values generalizing buckets with
  | nil => rfl
  | cons value _ ih =>
    simp only [List.map_cons, insertAll?]
    change (if limits.size (f value) = 0 then _ else _) =
      Option.map _ (if limits.size (f value) = 0 then _ else _)
    split
    · exact ih buckets
    · have inserted := insert?_map limits f (limits.size (f value))
        (.leaf value) bounds buckets none
      rw [map_leaf, map_none] at inserted
      rw [inserted]
      change _ = Option.map _ (Option.bind (insert? (limits.pull f)
        (limits.size (f value)) (.leaf value) bounds buckets none) _)
      cases insert? (limits.pull f) (limits.size (f value)) (.leaf value)
          bounds buckets none with
      | none => rfl
      | some result => exact ih result

theorem merge?_map (buckets : List (Option (Rope α)))
    (merged : Option (Rope α)) :
    merge? limits (buckets.map (Option.map (map f)))
        (merged.map (map f)) = (merge? (limits.pull f) buckets merged).map
        (Option.map (map f)) := by
  induction buckets generalizing merged with
  | nil => rfl
  | cons bucket _ ih =>
    simp only [List.map_cons, merge?, prepend?_map]
    cases prepend? (limits.pull f) bucket merged with
    | none => rfl
    | some combined => exact ih combined

theorem rebalance?_map (bounds : List Nat) (values : List α) :
    rebalance? limits bounds (values.map f) =
      (rebalance? (limits.pull f) bounds values).map
        (Option.map (map f)) := by
  have filled := insertAll?_map limits f bounds values
    (List.replicate (bounds.length + 1) none)
  rw [List.map_replicate, map_none] at filled
  simp only [rebalance?, filled]
  cases insertAll? (limits.pull f) bounds values
      (List.replicate (bounds.length + 1) none) with
  | none => rfl
  | some buckets => exact merge?_map limits f buckets none

end Rope

end QuickJsOxide.Library
