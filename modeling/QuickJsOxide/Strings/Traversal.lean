import QuickJsOxide.Strings.Refinement

namespace QuickJsOxide.Strings

open Library StringTree List Forest

/-! Reading a string: the bounded traversals yield the text of the tree, and
only a rope that is too deep makes them panic. -/

namespace Store

def contentWithin (store : Store) : Nat → JsString → List UInt16
  | 0, _ => []
  | levels + 1, string =>
    match store.data string with
    | .latin1 units => units.map UInt8.toUInt16
    | .utf16 units => units
    | .rope rope =>
      match rope.state with
      | .tree left right =>
        contentWithin store levels left ++
          contentWithin store levels right
      | .linearized flat => contentWithin store levels flat

def content (store : Store) (string : JsString) : List UInt16 :=
  store.contentWithin (store.depth string + 1) string

end Store

variable {store : Store}

variable {tree : StringTree}

section

variable (denotes : Denotes store string tree)

include denotes

section

variable (heighted : tree.WellHeighted)

include heighted

theorem Denotes.contentWithin (enough : tree.depth < levels) :
    store.contentWithin levels string = tree.content := by
  induction denotes generalizing levels with
  | @flat _ flat _ data =>
    obtain ⟨levels, rfl⟩ := Nat.exists_eq_add_of_lt enough
    cases flat <;> simp [Store.contentWithin, data, Flat.data, Flat.units]
  | tree _ data _ _ ihLeft ihRight =>
    rw [Rope.depth_node] at enough
    obtain ⟨levels, rfl⟩ := Nat.exists_eq_add_of_lt enough
    simp only [Store.contentWithin, data, ropeRepr]
    rw [ihLeft heighted.1 (by omega), ihRight heighted.2 (by omega),
      content_node]
  | @linearized _ height _ _ _ data _ ih =>
    rw [Rope.depth_collapsed] at enough
    have positive : 1 ≤ height := heighted
    obtain ⟨_, rfl⟩ := Nat.exists_eq_add_of_lt enough
    simp only [Store.contentWithin, data, ropeRepr]
    rw [ih trivial (by rw [Rope.depth_leaf]; omega),
      content_collapsed, content_leaf]

theorem Denotes.content : store.content string = tree.content :=
  denotes.contentWithin heighted (by rw [denotes.depth]; omega)

theorem Denotes.codeUnitAtWithin (enough : tree.depth < levels) :
    store.codeUnitAtWithin levels string index = .ok tree.content[index]? := by
  induction denotes generalizing levels index with
  | @flat string flat valid data =>
    have denotes : Denotes store string (.leaf flat) := .flat valid data
    obtain ⟨levels, rfl⟩ := Nat.exists_eq_add_of_lt enough
    simp only [Store.codeUnitAtWithin]
    rw [denotes.len, len_eq_content_length]
    split
    · rename_i outside
      rw [getElem?_eq_none outside]
    · cases flat <;> simp [data, Flat.data, Flat.units]
  | @tree string leftTree rightTree left right valid data hleft hright ihLeft
      ihRight =>
      have denotes := Denotes.tree valid data hleft hright
      rw [Rope.depth_node] at enough
      obtain ⟨levels, rfl⟩ := Nat.exists_eq_add_of_lt enough
      simp only [Store.codeUnitAtWithin, data, ropeRepr]
      rw [denotes.len, len_eq_content_length, hleft.len, len_eq_content_length]
      split
      · rename_i outside
        rw [getElem?_eq_none outside]
      · split
        · rename_i before
          rw [ihLeft heighted.1 (by omega), content_node,
            getElem?_append_left before]
        · rename_i behind
          rw [ihRight heighted.2 (by omega), content_node,
            getElem?_append_right (by omega)]
  | @linearized string height flat target valid data htarget ih =>
    have denotes := Denotes.linearized valid data htarget
    rw [Rope.depth_collapsed] at enough
    have positive : 1 ≤ height := heighted
    obtain ⟨levels, rfl⟩ := Nat.exists_eq_add_of_lt enough
    simp only [Store.codeUnitAtWithin, data, ropeRepr]
    rw [denotes.len, len_eq_content_length]
    split
    · rename_i outside
      rw [getElem?_eq_none outside]
    · rw [ih trivial (by rw [Rope.depth_leaf]; omega),
        content_collapsed, content_leaf]

theorem Denotes.codeUnitAt (index : Nat) :
    store.codeUnitAt string index = .ok tree.content[index]? :=
  denotes.codeUnitAtWithin heighted (by rw [denotes.depth]; omega)

end

end

/-- A computation that reads. It returns a value with `result`, or it panics
with the given message, and the latter only where `safe` fails. -/
def Reads (outcome : Except Fault α) (safe : Prop) (message : String)
    (result : α → Prop) : Prop :=
  (∃ value, outcome = .ok value ∧ result value) ∨
  (¬ safe ∧ outcome = .error (.panic message))

def iteratorOverflow : String :=
  "String rope exceeded its bounded iterator depth"

def leafTraversalOverflow : String :=
  "String rope exceeded its bounded flat-leaf traversal depth"

theorem Reads.bind {next : α → Except Fault β}
    (start : Reads outcome safe message middle)
    (continuation : ∀ value, middle value →
      Reads (next value) safe message result) :
    Reads (outcome >>= next) safe message result := by
  rcases start with ⟨value, rfl, hmiddle⟩ | ⟨excuse, rfl⟩
  · exact continuation value hmiddle
  · exact .inr ⟨excuse, rfl⟩

theorem Reads.total (reads : Reads outcome safe message result) (holds : safe) :
    ∃ value, outcome = .ok value ∧ result value := by
  rcases reads with success | ⟨excuse, -⟩
  · exact success
  · exact (excuse holds).elim

theorem Reads.weaken
    (reads : Reads outcome safe message result) (implies : weaker → safe)
    (consequence : ∀ value, result value → other value) :
    Reads outcome weaker message other := by
  rcases reads with ⟨value, houtcome, hresult⟩ | ⟨excuse, failed⟩
  · exact .inl ⟨value, houtcome, consequence value hresult⟩
  · exact .inr ⟨fun holds => excuse (implies holds), failed⟩

variable {trees : List StringTree} {stack : List JsString}

theorem visitFlatLeaves_reads (enough : work trees < steps)
    (hstack : DenotesStack store stack trees) :
    Reads (store.visitFlatLeaves steps stack) (Fits ropeMaxDepth trees)
      leafTraversalOverflow fun visited => DenotesStack store visited
        ((leaves trees).map Rope.leaf) := by
  induction steps generalizing stack trees with
  | zero => omega
  | succ steps ih =>
    cases hstack with
    | nil => exact .inl ⟨[], rfl, .nil⟩
    | @cons node top stack rest hnode hrest =>
      have hcount := hrest.length_eq
      rw [work_cons] at enough
      cases hnode with
      | @flat _ flat valid data =>
        simp only [Rope.work] at enough
        have visit : Reads (do
            let visited ← store.visitFlatLeaves steps stack
            return node :: visited)
            (Fits ropeMaxDepth (.leaf flat :: rest))
            leafTraversalOverflow fun visited =>
              DenotesStack store visited
                ((leaves (.leaf flat :: rest)).map Rope.leaf) := by
          refine .bind ((ih (by omega) hrest).weaken
            (fun fits => fits.rest) fun _ h => h) ?_
          intro visited hvisited
          exact .inl ⟨_, rfl, .cons (.flat valid data) hvisited⟩
        simp only [Store.visitFlatLeaves, data]
        cases flat <;> exact visit
      | @tree _ leftTree rightTree left right valid data hleft hright =>
        simp only [Store.visitFlatLeaves, data, ropeRepr]
        split
        · refine (ih ?_ (.cons hleft (.cons hright hrest))).weaken
            (fun fits => fits.expand.2) fun visited h => ?_
          · simp only [work_cons, Rope.work] at enough ⊢
            omega
          · simpa using h
        · rename_i full
          refine .inr ⟨fun fits => full ?_, rfl⟩
          have := fits.expand.1
          simp only [traversalCapacity, ropeMaxDepth] at this ⊢
          omega
      | @linearized _ height flat target valid data htarget =>
        simp only [Store.visitFlatLeaves, data, ropeRepr]
        split
        · refine (ih ?_ (.cons htarget hrest)).weaken
            (fun fits => fits.settle.2) fun visited h => ?_
          · simp only [work_cons, Rope.work] at enough ⊢
            omega
          · simpa using h
        · rename_i full
          refine .inr ⟨fun fits => full ?_, rfl⟩
          have := fits.settle.1
          simp only [traversalCapacity, ropeMaxDepth] at this ⊢
          omega

theorem work_lt_traversalSteps (heighted : tree.WellHeighted)
    (shallow : tree.depth ≤ 254) : work [tree] + 1 < traversalSteps := by
  have hpow : 2 ^ (tree.depth + 1) ≤ 2 ^ 255 :=
    Nat.pow_le_pow_right (by decide) (by omega)
  have hwork := tree.work_lt_two_pow heighted
  have doubled : traversalSteps = 2 * 2 ^ 255 := by
    rw [traversalSteps]
    decide
  rw [work_cons, work_nil]
  omega

theorem Denotes.forEachFlatLeaf (denotes : Denotes store string tree)
    (heighted : tree.WellHeighted) (shallow : tree.depth ≤ 254) :
    Reads (store.forEachFlatLeaf string) (tree.depth ≤ ropeMaxDepth)
      leafTraversalOverflow fun visited => DenotesStack store visited
        (tree.leaves.map Rope.leaf) := by
  have enough := work_lt_traversalSteps heighted shallow
  refine (visitFlatLeaves_reads (by omega) (.cons denotes .nil)).weaken
    (fun low => Fits.singleton tree heighted low) fun visited h => ?_
  simpa using h

namespace Utf16Units

inductive Current (store : Store) :
    Option (JsString × Nat) → List UInt16 → Prop where
  | none : Current store none []
  | some (flat : Flat) (handle : JsString) (index : Nat)
      (denotes : Denotes store handle (.leaf flat)) :
      Current store (some (handle, index)) (flat.units.drop index)

structure Pending (store : Store) (iterator : Utf16Units)
    (trees : List StringTree) (units : List UInt16) : Prop where
  stack : DenotesStack store iterator.stack trees
  rest : ∃ cursor, Current store iterator.currentFlat cursor ∧
    units = cursor ++ trees.flatMap content
  remaining : iterator.remaining = units.length

variable {iterator : Utf16Units} {units : List UInt16}

theorem takeUnit_spec (pending : Pending store iterator trees units) :
    (∃ unit rest after, units = unit :: rest ∧
      iterator.takeUnit store = .ok (some unit, after) ∧
      Pending store after trees rest) ∨
    (units = trees.flatMap content ∧
      iterator.takeUnit store = .ok (none, { iterator with currentFlat := none }) ∧
      Pending store { iterator with currentFlat := none } trees units) := by
  obtain ⟨hstack, ⟨cursor, hcursor, hunits⟩, hremaining⟩ := pending
  obtain ⟨stack, current, remaining⟩ := iterator
  cases hcursor with
  | none => exact .inr ⟨hunits, rfl, hstack, ⟨[], .none, hunits⟩, hremaining⟩
  | some flat handle index denotes =>
    have unit : (takeUnit store ⟨stack, some (handle, index), remaining⟩) =
        flat.units[index]?.elim (.ok (none, ⟨stack, none, remaining⟩))
          fun unit => .ok (some unit,
            ⟨stack, some (handle, index + 1), remaining - 1⟩) := by
      simp only [takeUnit, denotes.leaf_data]
      cases flat with
      | latin1 bytes =>
        simp only [Flat.data, Flat.units, List.getElem?_map]
        cases bytes[index]? <;> rfl
      | utf16 wide =>
        simp only [Flat.data, Flat.units]
        cases wide[index]? <;> rfl
    rw [unit]
    cases found : flat.units[index]? with
    | none =>
      have ended : flat.units.drop index = [] :=
        List.drop_eq_nil_of_le (List.getElem?_eq_none_iff.mp found)
      rw [ended, List.nil_append] at hunits
      exact .inr ⟨hunits, rfl, hstack, ⟨[], .none, hunits⟩, hremaining⟩
    | some =>
      obtain ⟨inside, rfl⟩ := List.getElem?_eq_some_iff.mp found
      rw [List.drop_eq_getElem_cons inside, List.cons_append] at hunits
      refine .inl ⟨_, _, _, hunits, rfl, hstack,
        ⟨_, .some flat handle (index + 1) denotes, rfl⟩, ?_⟩
      have := congrArg List.length hunits
      simp only [List.length_cons] at this
      simp only at hremaining ⊢
      omega

theorem push_reads (room : safe → iterator.stack.length < traversalCapacity) :
    Reads (iterator.push string) safe iteratorOverflow fun after =>
      iterator.stack.length < traversalCapacity ∧
        after = { iterator with stack := string :: iterator.stack } := by
  unfold push
  split
  · rename_i fits
    exact .inl ⟨_, rfl, fits, rfl⟩
  · rename_i full
    exact .inr ⟨fun holds => full (room holds), rfl⟩

theorem enter_reads {count : Nat}
    (room : stack.length < traversalCapacity) (hnode : Denotes store node top)
    (hstack : DenotesStack store stack rest)
    (hcount : count = ((top :: rest).flatMap content).length) :
    Reads (enter store node ⟨stack, none, count⟩)
      (Pends ropeMaxDepth (top :: rest)) iteratorOverflow fun after =>
        ∃ trees, Pending store after trees ((top :: rest).flatMap content) ∧
          after.stack.length ≤ traversalCapacity ∧
          work trees < work (top :: rest) ∧ (Pends ropeMaxDepth (top :: rest) ↔
            Pends ropeMaxDepth trees) := by
  have height := hstack.length_eq
  cases hnode with
  | @flat _ flat valid data =>
    have hnode : Denotes store node (.leaf flat) := .flat valid data
    have entered : enter store node ⟨stack, none, count⟩ =
        .ok ⟨stack, some (node, 0), count⟩ := by
      simp only [enter, data]
      cases flat <;> rfl
    refine .inl ⟨_, entered, rest, ⟨hstack, ?_, hcount⟩, room.le, ?_,
      pends_leaf (height ▸ Nat.le_of_lt_succ room)⟩
    · exact ⟨flat.units.drop 0, .some flat node 0 hnode, by simp⟩
    · simp [Rope.work]
  | @tree _ leftTree rightTree left right _ data hleft hright =>
    have entered : enter store node ⟨stack, none, count⟩ =
        (push right ⟨stack, none, count⟩ >>= push left) := by
      simp only [enter, data, ropeRepr]
    rw [entered]
    refine .bind (push_reads fun _ => room) ?_
    rintro _ ⟨-, rfl⟩
    refine (push_reads fun pends => ?_).weaken id ?_
    · have := (pends_node.mp pends).length_le
      simp only [traversalCapacity, ropeMaxDepth, length_cons]
        at this ⊢
      omega
    · rintro _ ⟨fits, rfl⟩
      refine ⟨leftTree :: rightTree :: rest,
        ⟨.cons hleft (.cons hright hstack), ⟨[], .none, by simp⟩, hcount⟩,
        fits, ?_, pends_node⟩
      simp only [work_cons, Rope.work]
      omega
  | @linearized _ _ flat target _ data htarget =>
    have entered : enter store node ⟨stack, none, count⟩ =
        push target ⟨stack, none, count⟩ := by
      simp only [enter, data, ropeRepr]
    rw [entered]
    refine (push_reads fun _ => room).weaken id ?_
    rintro _ ⟨fits, rfl⟩
    refine ⟨.leaf flat :: rest,
      ⟨.cons htarget hstack, ⟨[], .none, by simp⟩, hcount⟩, fits, ?_,
      pends_collapsed⟩
    simp [Rope.work]

theorem next_reads (enough : work trees < steps)
    (room : iterator.stack.length ≤ traversalCapacity)
    (pending : Pending store iterator trees units) :
    Reads (iterator.next store steps) (Pends ropeMaxDepth trees)
      iteratorOverflow fun outcome =>
        (units = [] ∧ outcome.1 = none ∧ Pends ropeMaxDepth trees) ∨
        ∃ unit rest remaining, units = unit :: rest ∧ outcome.1 = some unit ∧
          Pending store outcome.2 remaining rest ∧
          outcome.2.stack.length ≤ traversalCapacity ∧
          work remaining ≤ work trees ∧
          (Pends ropeMaxDepth trees ↔
            Pends ropeMaxDepth remaining) := by
  induction steps generalizing iterator trees with
  | zero => omega
  | succ steps ih =>
    rcases takeUnit_spec pending with
      ⟨unit, rest, after, hunits, htake, hafter⟩ | ⟨hunits, htake, hafter⟩
    · have same : after.stack.length = iterator.stack.length := by
        rw [hafter.stack.length_eq, pending.stack.length_eq]
      refine .inl ⟨(some unit, after), ?_, .inr ⟨unit, rest, trees, hunits,
        rfl, hafter, same.le.trans room, le_rfl, Iff.rfl⟩⟩
      simp [next, htake, Bind.bind, Except.bind, Pure.pure, Except.pure]
    · obtain ⟨hstack, -, hremaining⟩ := hafter
      obtain ⟨stack, current, count⟩ := iterator
      simp only at hstack hremaining htake
      cases hstack with
      | nil =>
        refine .inl ⟨(none, ⟨[], none, count⟩), ?_,
          .inl ⟨hunits, rfl, trivial⟩⟩
        simp [next, htake, pop, Bind.bind, Except.bind, Pure.pure,
          Except.pure]
      | @cons node _ stack _ hnode hrest =>
        have unfolded : next store (steps + 1)
            ⟨node :: stack, current, count⟩ =
            (enter store node ⟨stack, none, count⟩ >>=
              next store steps) := by
          simp [next, htake, pop, Bind.bind, Except.bind]
        rw [unfolded]
        refine .bind (enter_reads room hnode hrest (hunits ▸ hremaining)) ?_
        rintro entered ⟨inner, hinner, roomy, less, pends⟩
        rw [← hunits] at hinner
        refine (ih (by omega) roomy hinner).weaken pends.mp ?_
        rintro outcome (⟨ended, hnone, done⟩ | ⟨unit, tail, final, hyield,
          hunit, hfinal, fits, smaller, keeps⟩)
        · exact .inl ⟨ended, hnone, pends.mpr done⟩
        · exact .inr ⟨unit, tail, final, hyield, hunit, hfinal, fits,
            by omega, pends.trans keeps⟩

theorem skipCurrent_spec (count : Nat)
    (pending : Pending store iterator trees units) :
    ∃ left after skipped, iterator.skipCurrent store count = (left, after) ∧
      count = skipped + left ∧ skipped ≤ units.length ∧
      Pending store after trees (units.drop skipped) ∧
      (left ≠ 0 → after.currentFlat = none) := by
  obtain ⟨hstack, ⟨cursor, hcursor, hunits⟩, hremaining⟩ := pending
  obtain ⟨stack, current, remaining⟩ := iterator
  simp only at hstack hremaining
  cases hcursor with
  | none =>
    exact ⟨count, _, 0, rfl, by omega, by omega,
      ⟨hstack, ⟨[], .none, by simpa using hunits⟩, by simpa using hremaining⟩,
      fun _ => rfl⟩
  | some flat handle index denotes =>
    have length : store.len handle - index =
        (flat.units.drop index).length := by
      rw [denotes.len, len_leaf, Flat.len, length_drop]
    have skippedLe : min count (store.len handle - index) ≤ units.length := by
      rw [hunits, length_append, ← length]
      omega
    have skippedUnits : units.drop (min count (store.len handle - index)) =
        flat.units.drop (index + min count (store.len handle - index)) ++
          trees.flatMap content := by
      rw [hunits, drop_append_of_le_length (by rw [← length]; omega),
        drop_drop]
    simp only [skipCurrent]
    split
    · rename_i all
      refine ⟨0, _, min count (store.len handle - index), rfl, by omega,
        skippedLe, ⟨hstack, ⟨_, .some flat handle _ denotes, skippedUnits⟩,
          ?_⟩, fun absurd => (absurd rfl).elim⟩
      simp [hremaining]
    · rename_i more
      have past : flat.units.drop
          (index + min count (store.len handle - index)) = [] := by
        apply drop_eq_nil_of_le
        rw [denotes.len, len_leaf, Flat.len] at more ⊢
        omega
      rw [past, nil_append] at skippedUnits
      refine ⟨_, _, min count (store.len handle - index), rfl, by omega,
        skippedLe, ⟨hstack, ⟨[], .none, skippedUnits⟩, ?_⟩, fun _ => rfl⟩
      simp [hremaining]

theorem next_head_reads (work : work trees < traversalSteps)
    (room : iterator.stack.length ≤ traversalCapacity)
    (pending : Pending store iterator trees units) :
    Reads (iterator.next store traversalSteps)
      (Pends ropeMaxDepth trees) iteratorOverflow
      fun outcome => outcome.1 = units[0]? := by
  refine (next_reads work room pending).weaken id ?_
  rintro outcome (⟨rfl, hnone, -⟩ | ⟨unit, rest, _, rfl, hunit, -⟩)
  · exact hnone
  · exact hunit

theorem nth_reads {steps count : Nat}
    (work : Forest.work trees < traversalSteps)
    (enough : Forest.work trees < steps)
    (room : iterator.stack.length ≤ traversalCapacity)
    (pending : Pending store iterator trees units) :
    Reads (iterator.nth store steps count) (Pends ropeMaxDepth trees)
      iteratorOverflow fun outcome => outcome.1 = units[count]? := by
  induction steps generalizing iterator trees units count with
  | zero => omega
  | succ steps ih =>
    cases count with
    | zero => exact next_head_reads work room pending
    | succ count =>
      obtain ⟨left, after, skipped, hskip, hcount, -, hafter, hnone⟩ :=
        skipCurrent_spec (count + 1) pending
      have roomy : after.stack.length ≤ traversalCapacity := by
        rwa [hafter.stack.length_eq, ← pending.stack.length_eq]
      have same : units[count + 1]? = (units.drop skipped)[left]? := by
        rw [getElem?_drop, hcount]
      rw [same]
      simp only [nth, hskip]
      cases left with
      | zero => exact next_head_reads work roomy hafter
      | succ left =>
        have ended := hnone (by omega)
        obtain ⟨hstack, ⟨cursor, hcursor, hunits⟩, hremaining⟩ := hafter
        obtain ⟨stack, current, remaining⟩ := after
        simp only at ended hstack hremaining
        subst ended
        cases hcursor
        rw [nil_append] at hunits
        rw [hunits] at hremaining ⊢
        cases hstack with
        | nil => exact .inl ⟨_, rfl, by simp⟩
        | @cons node top stack rest hnode hrest =>
          simp only [pop]
          rw [hnode.len, len_eq_content_length]
          rw [work_cons] at work
          split
          · -- The node is skipped as a whole.
            rename_i whole
            have positive : 0 < top.work := by
              cases top <;> simp [Rope.work]
            rw [work_cons] at enough
            rw [flatMap_cons, length_append] at hremaining
            rw [flatMap_cons, getElem?_append_right whole]
            have below : stack.length ≤ traversalCapacity :=
              Nat.le_of_succ_le roomy
            refine (ih (by omega) (by omega) ?_
              ⟨hrest, ⟨[], .none, rfl⟩,
                by simp only [nil_append]; omega⟩).weaken
              (fun pends => pends.rest) fun _ h => h
            exact below
          · refine .bind (enter_reads roomy hnode hrest hremaining) ?_
            rintro entered ⟨inner, hinner, fits, less, pends⟩
            rw [work_cons] at less
            rw [work_cons] at enough
            exact (ih (by omega) (by omega) fits hinner).weaken
              pends.mp fun _ h => h

theorem collect_reads (work : work trees < traversalSteps)
    (enough : units.length < steps)
    (room : iterator.stack.length ≤ traversalCapacity)
    (pending : Pending store iterator trees units) :
    Reads (iterator.collect store steps) (Pends ropeMaxDepth trees)
      iteratorOverflow fun collected =>
        collected = units ∧ Pends ropeMaxDepth trees := by
  induction steps generalizing iterator trees units with
  | zero => omega
  | succ _ ih =>
    simp only [collect]
    refine .bind (next_reads work room pending) ?_
    rintro ⟨unit, after⟩ (⟨rfl, hunit, done⟩ |
      ⟨value, rest, remaining, rfl, hunit, hafter, fits, smaller, pends⟩)
    · simp only at hunit
      subst hunit
      exact .inl ⟨[], rfl, rfl, done⟩
    · simp only at hunit
      subst hunit
      simp only [length_cons] at enough
      refine .bind ((ih (by omega) (by omega) fits hafter).weaken pends.mp
        fun _ h => h) ?_
      rintro _ ⟨rfl, done⟩
      exact .inl ⟨_, rfl, rfl, pends.mpr done⟩

end Utf16Units

section

variable (denotes : Denotes store string tree)

include denotes

theorem Denotes.pending :
    ∃ iterator, Utf16Units.new store string = .ok iterator ∧
      iterator.stack.length ≤ traversalCapacity ∧
      Utf16Units.Pending store iterator [tree] tree.content :=
  ⟨⟨[string], none, store.len string⟩, rfl, Nat.succ_le_succ (Nat.zero_le 60),
    .cons denotes .nil, ⟨[], .none, by simp⟩,
    by rw [denotes.len, len_eq_content_length]⟩

theorem Denotes.nthUnit (heighted : tree.WellHeighted)
    (shallow : tree.depth ≤ 254) (index : Nat) :
    Reads (do
      let iterator ← Utf16Units.new store string
      iterator.nth store traversalSteps index)
      (tree.leftTurns ≤ ropeMaxDepth)
      iteratorOverflow fun outcome => outcome.1 = tree.content[index]? := by
  have work := work_lt_traversalSteps heighted shallow
  obtain ⟨_, started, room, pending⟩ := denotes.pending
  rw [started]
  exact (Utf16Units.nth_reads (by omega) (by omega) room pending).weaken
    pends_singleton.mpr fun _ h => h

section

variable (heighted : tree.WellHeighted) (short : tree.len ≤ maxLen)
  (shallow : tree.depth ≤ 254)

include heighted short shallow

/-- Collecting the iterator gives the text of the tree, exactly if no path to a
leaf turns left more often than the stack allows. -/
theorem Denotes.collectUnits :
    Reads (do
      let iterator ← Utf16Units.new store string
      iterator.collect store traversalSteps) (tree.leftTurns ≤ ropeMaxDepth)
      iteratorOverflow fun units =>
        units = tree.content ∧ tree.leftTurns ≤ ropeMaxDepth := by
  obtain ⟨_, started, room, pending⟩ := denotes.pending
  have work := work_lt_traversalSteps heighted shallow
  have length : tree.content.length < traversalSteps := by
    rw [← len_eq_content_length]
    exact lt_of_le_of_lt short (by decide)
  rw [started]
  refine (Utf16Units.collect_reads (by omega) length room pending).weaken
    pends_singleton.mpr ?_
  rintro units ⟨hunits, pends⟩
  exact ⟨hunits, pends_singleton.mp pends⟩

theorem Denotes.utf16Units :
    Reads (store.utf16Units string) (tree.leftTurns ≤ ropeMaxDepth)
      iteratorOverflow fun units =>
        units = tree.content ∧ tree.leftTurns ≤ ropeMaxDepth := by
  have collected := denotes.collectUnits heighted short shallow
  cases denotes with
  | @flat _ flat _ data =>
    refine .inl ⟨_, ?_, rfl, Nat.zero_le _⟩
    cases flat <;> simp [Store.utf16Units, data, Flat.data, Flat.units]
  | tree _ data | linearized _ data =>
    simpa only [Store.utf16Units, data] using collected

end

end

end QuickJsOxide.Strings
