import Mathlib.Data.List.Induction
import Mathlib.Data.List.TakeWhile
import QuickJsOxide.Unicode.Normalize

namespace QuickJsOxide.Unicode

open List

variable {combiningClass : Nat → Nat}

/-- Sorting by class that keeps the order within each class. -/
structure StablySorts (combiningClass : Nat → Nat) (run output : List Nat) :
    Prop where
  perm : output.Perm run
  sorted : output.Pairwise fun left right =>
    combiningClass left ≤ combiningClass right
  stable : ∀ class_, output.filter (combiningClass · = class_) =
    run.filter (combiningClass · = class_)

structure OrdersCanonically (combiningClass : Nat → Nat)
    (input output : List Nat) : Prop where
  perm : output.Perm input
  starters : ∀ (index codePoint : Nat), combiningClass codePoint = 0 →
    (output[index]? = some codePoint ↔ input[index]? = some codePoint)
  runs : ∀ before run after, input = before ++ run ++ after →
    (∀ codePoint ∈ run, combiningClass codePoint ≠ 0) →
    (∀ codePoint ∈ before.getLast?, combiningClass codePoint = 0) →
    (∀ codePoint ∈ after.head?, combiningClass codePoint = 0) →
    StablySorts combiningClass run
      ((output.drop before.length).take run.length)

/-! A run as the loops sort it: every code point is inserted from behind, in
front of those of a larger class. -/

variable (combiningClass) in
def insertLast (sorted : List Nat) (codePoint : Nat) : List Nat :=
  (sorted.reverse.orderedInsert (combiningClass · ≥ combiningClass ·)
    codePoint).reverse

variable (combiningClass) in
def sortRun (run : List Nat) : List Nat :=
  run.foldl (insertLast combiningClass) []

theorem sortRun_eq_insertionSort (run : List Nat) :
    sortRun combiningClass run = (run.reverse.insertionSort
      (combiningClass · ≥ combiningClass ·)).reverse := by
  induction run using reverseRecOn with
  | nil => rfl
  | append_singleton _ _ ih =>
    rw [sortRun, foldl_concat, ← sortRun, ih, insertLast]
    simp

instance classTrans : IsTrans Nat (combiningClass · ≥ combiningClass ·) :=
  ⟨fun _ _ _ first second => second.trans first⟩

instance classTotal : Std.Total (combiningClass · ≥ combiningClass ·) :=
  ⟨fun _ _ => Nat.le_total _ _⟩

variable (combiningClass) in
theorem stablySorts_sortRun (run : List Nat) :
    StablySorts combiningClass run (sortRun combiningClass run) := by
  rw [sortRun_eq_insertionSort]
  have perm := perm_insertionSort (combiningClass · ≥ combiningClass ·)
    run.reverse
  refine ⟨(reverse_perm _).trans (perm.trans (reverse_perm _)),
    pairwise_reverse.mpr (pairwise_insertionSort _ _), ?_⟩
  -- one class is a sorted sublist, and sorting keeps such sublists
  intro class_
  have sublist : (run.reverse.filter (combiningClass · = class_)).Sublist
      (run.reverse.insertionSort (combiningClass · ≥ combiningClass ·)) := by
    apply sublist_insertionSort _ filter_sublist
    refine pairwise_of_forall_mem_list fun left hleft right hright => ?_
    simp only [mem_filter, decide_eq_true_eq] at hleft hright
    omega
  have same := (sublist.filter (combiningClass · = class_)).eq_of_length (by
    rw [filter_filter]
    simpa using (perm.filter (combiningClass · = class_)).length_eq.symm)
  rw [filter_reverse, ← same, filter_filter, filter_reverse, reverse_reverse]
  simp

theorem sortRun_of_sorted (sorted : run.Pairwise fun left right =>
      combiningClass left ≤ combiningClass right) :
    sortRun combiningClass run = run := by
  rw [sortRun_eq_insertionSort,
    (pairwise_reverse.mpr sorted).insertionSort_eq, reverse_reverse]

/-- The hole at `insertion` holds any value until the code point lands there. -/
theorem shiftLarger_set (before sorted : List Nat) (codePoint : Nat) :
    ∀ (hole : Nat) (after : List Nat),
      let (shifted, insertion) := shiftLarger combiningClass before.length
        (combiningClass codePoint) (before.length + sorted.length)
        (before ++ sorted ++ hole :: after)
      shifted.set insertion codePoint =
        before ++ insertLast combiningClass sorted codePoint ++ after := by
  induction sorted using reverseRecOn with
  | nil =>
    intro hole after
    cases before <;> simp [shiftLarger, insertLast]
  | append_singleton sorted last ih =>
    intro hole after
    have read : (before ++ (sorted ++ [last]) ++ hole :: after).getD
        (before.length + sorted.length) 0 = last := by
      simp [getD_eq_getElem?_getD]
    rw [length_append, length_singleton, ← Nat.add_assoc, shiftLarger, read]
    by_cases larger : combiningClass codePoint < combiningClass last
    · have moved : (before ++ (sorted ++ [last]) ++ hole :: after).set
          (before.length + sorted.length + 1) last =
          before ++ sorted ++ last :: (last :: after) := by
        simp [Nat.add_assoc]
      rw [if_pos ⟨by omega, larger⟩, moved]
      simpa [insertLast, Nat.not_le.mpr larger] using ih last (last :: after)
    · rw [if_neg fun both => larger both.2]
      simp [insertLast, Nat.not_lt.mp larger, Nat.add_assoc]

variable (combiningClass) in
theorem insertCodePoint_eq (before sorted after : List Nat) (codePoint : Nat) :
    insertCodePoint combiningClass before.length (before.length + sorted.length)
        (before ++ sorted ++ codePoint :: after) =
      before ++ insertLast combiningClass sorted codePoint ++ after := by
  have read : (before ++ sorted ++ codePoint :: after).getD
      (before.length + sorted.length) 0 = codePoint := by
    simp [getD_eq_getElem?_getD]
  rw [insertCodePoint, read]
  exact shiftLarger_set before sorted codePoint codePoint after

variable (combiningClass) in
theorem orderRun_eq (before after : List Nat)
    (starter : ∀ codePoint ∈ after.head?, combiningClass codePoint = 0)
    (run : List Nat) (marks : ∀ codePoint ∈ run, combiningClass codePoint ≠ 0) :
    ∀ done : List Nat, orderRun combiningClass before.length
        (run.length + after.length) (before.length + done.length)
        (before ++ sortRun combiningClass done ++ (run ++ after)) =
      (before ++ sortRun combiningClass (done ++ run) ++ after,
        before.length + (done ++ run).length) := by
  induction run with
  | nil =>
    intro done
    cases after with
    | nil => simp [orderRun]
    | cons codePoint =>
      have length := (stablySorts_sortRun combiningClass
        done).perm.length_eq
      have isStarter := starter codePoint rfl
      simp [orderRun, getD_eq_getElem?_getD, ← length, isStarter]
  | cons codePoint run ih =>
    intro done
    have sorts := stablySorts_sortRun combiningClass done
    have inserted := insertCodePoint_eq combiningClass before
      (sortRun combiningClass done) (run ++ after) codePoint
    rw [sorts.perm.length_eq] at inserted
    have read : (before ++ sortRun combiningClass done ++
        (codePoint :: run ++ after)).getD (before.length + done.length) 0 =
        codePoint := by
      simp [getD_eq_getElem?_getD, ← sorts.perm.length_eq]
    have isMark := marks codePoint mem_cons_self
    have later := ih (fun other member =>
      marks other (mem_cons_of_mem _ member)) (done ++ [codePoint])
    rw [length_cons, Nat.add_right_comm, orderRun, read, if_pos isMark,
      cons_append, inserted]
    simpa [sortRun, Nat.add_assoc] using later

variable (combiningClass) in
theorem head?_dropWhile_marks (rest : List Nat) :
    ∀ codePoint ∈ (rest.dropWhile (combiningClass · ≠ 0)).head?,
      combiningClass codePoint = 0 := by
  intro codePoint member
  have stops := head?_dropWhile_not (combiningClass · ≠ 0) rest
  rw [Option.mem_def.mp member] at stops
  simpa using stops

theorem marks_of_run {rest : List Nat} (isMark : combiningClass codePoint ≠ 0) :
    ∀ other ∈ codePoint :: rest.takeWhile (combiningClass · ≠ 0),
      combiningClass other ≠ 0 := by
  intro other member
  rcases mem_cons.mp member with rfl | inside
  · exact isMark
  · simpa using mem_takeWhile_imp inside

variable (combiningClass) in
def orderText (input : List Nat) : List Nat :=
  match input with
  | [] => []
  | codePoint :: rest =>
    if combiningClass codePoint = 0 then
      codePoint :: orderText rest
    else
      sortRun combiningClass
          (codePoint :: rest.takeWhile (combiningClass · ≠ 0)) ++
        orderText (rest.dropWhile (combiningClass · ≠ 0))
termination_by input.length
decreasing_by
  · simp
  · exact Nat.lt_succ_of_le (dropWhile_sublist _).length_le

variable (combiningClass) in
theorem orderRuns_eq (steps : Nat) :
    ∀ done rest : List Nat, rest.length ≤ steps →
      orderRuns combiningClass steps done.length (done ++ rest) =
        done ++ orderText combiningClass rest := by
  induction steps with
  | zero =>
    intro done rest short
    obtain rfl := length_eq_zero_iff.mp (Nat.le_zero.mp short)
    simp [orderRuns, orderText]
  | succ steps ih =>
    intro done rest short
    cases rest with
    | nil => simp [orderRuns, orderText]
    | cons codePoint rest =>
      have inside : done.length < (done ++ codePoint :: rest).length := by
        simp
      have read : (done ++ codePoint :: rest).getD done.length 0 =
          codePoint := by
        simp [getD_eq_getElem?_getD]
      rw [orderRuns, if_pos inside, read, orderText]
      split
      · have later := ih (done ++ [codePoint]) rest
          (Nat.le_of_succ_le_succ short)
        simpa using later
      · rename_i isMark
        have split := takeWhile_append_dropWhile
          (p := fun other => decide (combiningClass other ≠ 0)) (l := rest)
        generalize hmarks : rest.takeWhile _ = marks at split ⊢
        generalize hafter : rest.dropWhile _ = after at split ⊢
        subst split
        have run := orderRun_eq combiningClass done after
          (hafter ▸ head?_dropWhile_marks combiningClass _) marks
          (fun other member => marks_of_run isMark other
            (mem_cons_of_mem _ (hmarks ▸ member))) [codePoint]
        have ready : orderRun combiningClass done.length
            ((done ++ codePoint :: (marks ++ after)).length -
              (done.length + 1)) (done.length + 1)
            (done ++ codePoint :: (marks ++ after)) =
            (done ++ sortRun combiningClass (codePoint :: marks) ++ after,
              done.length + (codePoint :: marks).length) := by
          have length : (done ++ codePoint :: (marks ++ after)).length -
              (done.length + 1) = marks.length + after.length := by
            simp
            omega
          rw [length]
          simpa [sortRun, insertLast] using run
        have later := ih
          (done ++ sortRun combiningClass (codePoint :: marks)) after ?_
        · have sorts := stablySorts_sortRun combiningClass
            (codePoint :: marks)
          rw [length_append, sorts.perm.length_eq] at later
          simp only [ready]
          simpa using later
        · simp at short
          omega

theorem canonicalOrder_eq (input : List Nat) :
    canonicalOrder combiningClass input = orderText combiningClass input :=
  orderRuns_eq combiningClass input.length [] input le_rfl

theorem orderText_run (marks : ∀ codePoint ∈ run, combiningClass codePoint ≠ 0)
    : orderText combiningClass run = sortRun combiningClass run := by
  cases run with
  | nil => rw [orderText]; rfl
  | cons codePoint rest =>
    have all : ∀ other ∈ rest, decide (combiningClass other ≠ 0) = true :=
      fun other member => decide_eq_true
        (marks other (mem_cons_of_mem _ member))
    rw [orderText, if_neg (marks codePoint mem_cons_self),
      takeWhile_eq_self_iff.mpr all,
      dropWhile_eq_nil_iff.mpr all, orderText, append_nil]

theorem orderText_append_starter (isStarter : combiningClass starter = 0)
    (before after : List Nat) :
    orderText combiningClass (before ++ starter :: after) =
      orderText combiningClass before ++
        starter :: orderText combiningClass after := by
  fun_induction orderText combiningClass before with
  | case1 => simp [orderText, isStarter]
  | case2 _ _ first ih =>
    rw [cons_append, orderText, if_pos first, ih, cons_append]
  | case3 _ rest isMark ih =>
    have takes : (rest ++ starter :: after).takeWhile
        (combiningClass · ≠ 0) = rest.takeWhile (combiningClass · ≠ 0) := by
      clear ih
      induction rest <;> simp_all [takeWhile_cons]
    have drops : (rest ++ starter :: after).dropWhile
        (combiningClass · ≠ 0) =
        rest.dropWhile (combiningClass · ≠ 0) ++ starter :: after := by
      rw [dropWhile_append]
      split <;> simp_all
    rw [cons_append, orderText, if_neg isMark, takes, drops, ih, append_assoc]

variable (combiningClass) in
theorem perm_orderText (input : List Nat) :
    (orderText combiningClass input).Perm input := by
  fun_induction orderText combiningClass input with
  | case1 => rfl
  | case2 codePoint _ _ ih => exact ih.cons codePoint
  | case3 codePoint rest _ ih =>
    have joined := (stablySorts_sortRun combiningClass
      (codePoint :: rest.takeWhile (combiningClass · ≠ 0))).perm.append ih
    rwa [cons_append, takeWhile_append_dropWhile] at joined

variable (combiningClass) in
theorem map_isStarter_orderText (input : List Nat) :
    (orderText combiningClass input).map (combiningClass · == 0) =
      input.map (combiningClass · == 0) := by
  fun_induction orderText combiningClass input with
  | case1 => rfl
  | case2 _ _ _ ih => rw [map_cons, map_cons, ih]
  | case3 codePoint rest isMark ih =>
    have sorts := stablySorts_sortRun combiningClass
      (codePoint :: rest.takeWhile (combiningClass · ≠ 0))
    have noStarter : ∀ run : List Nat,
        (∀ other ∈ run, combiningClass other ≠ 0) →
        run.map (combiningClass · == 0) =
          replicate run.length false := by
      intro run marks
      refine eq_replicate_iff.mpr ⟨length_map _, ?_⟩
      simpa using marks
    rw [map_append, ih, noStarter _ fun other member =>
        marks_of_run isMark other (sorts.perm.mem_iff.mp member),
      sorts.perm.length_eq, ← noStarter _ (marks_of_run isMark),
      ← map_append, cons_append, takeWhile_append_dropWhile]

theorem orderText_orderText (input : List Nat) :
    orderText combiningClass (orderText combiningClass input) =
      orderText combiningClass input := by
  fun_induction orderText combiningClass input with
  | case1 => rw [orderText]
  | case2 _ _ first ih => rw [orderText, if_pos first, ih]
  | case3 codePoint rest isMark ih =>
    have sorts := stablySorts_sortRun combiningClass
      (codePoint :: rest.takeWhile (combiningClass · ≠ 0))
    have again : orderText combiningClass (sortRun combiningClass
        (codePoint :: rest.takeWhile (combiningClass · ≠ 0))) =
        sortRun combiningClass
          (codePoint :: rest.takeWhile (combiningClass · ≠ 0)) := by
      rw [orderText_run fun other member =>
        marks_of_run isMark other (sorts.perm.mem_iff.mp member)]
      exact sortRun_of_sorted sorts.sorted
    have starter := head?_dropWhile_marks combiningClass rest
    generalize rest.dropWhile (combiningClass · ≠ 0) = after at ih starter ⊢
    cases after with
    | nil => rw [orderText, append_nil, again]
    | cons first =>
      have isStarter := starter first rfl
      rw [orderText, if_pos isStarter, orderText, if_pos isStarter] at ih
      rw [orderText, if_pos isStarter, orderText_append_starter isStarter,
        again, tail_eq_of_cons_eq ih]

theorem orderText_at_starter {index codePoint : Nat}
    (isStarter : combiningClass codePoint = 0)
    (found : input[index]? = some codePoint) :
    (orderText combiningClass input)[index]? = some codePoint := by
  obtain ⟨below, here⟩ := List.getElem?_eq_some_iff.mp found
  have split : input = input.take index ++ codePoint ::
      input.drop (index + 1) := by simp [← here]
  have length : (orderText combiningClass (input.take index)).length =
      index := by
    rw [(perm_orderText combiningClass _).length_eq, List.length_take,
      Nat.min_eq_left below.le]
  rw [split, orderText_append_starter isStarter,
    List.getElem?_append_right (by omega), length]
  simp

theorem orderText_run_between {before run after : List Nat}
    (marks : ∀ codePoint ∈ run, combiningClass codePoint ≠ 0)
    (first : ∀ codePoint ∈ before.getLast?, combiningClass codePoint = 0)
    (last : ∀ codePoint ∈ after.head?, combiningClass codePoint = 0) :
    orderText combiningClass (before ++ run ++ after) =
      orderText combiningClass before ++ sortRun combiningClass run ++
        orderText combiningClass after := by
  have upTo : orderText combiningClass (before ++ run) =
      orderText combiningClass before ++ sortRun combiningClass run := by
    cases before using reverseRecOn with
    | nil => simp [orderText_run marks, orderText]
    | append_singleton _ starter =>
      have isStarter := first starter (by simp)
      rw [append_assoc, singleton_append,
        orderText_append_starter isStarter, orderText_run marks,
        orderText_append_starter isStarter, orderText]
      simp
  cases after with
  | nil => simp [upTo, orderText]
  | cons starter =>
    have isStarter := last starter rfl
    rw [orderText_append_starter isStarter, upTo, orderText, if_pos isStarter]

/-- Canonical ordering sorts every maximal run of marks stably, leaves the
starters in place and has nothing left to do when it is repeated. -/
theorem canonicalOrder_ordersCanonically (combiningClass : Nat → Nat)
    (input : List Nat) : OrdersCanonically combiningClass input
        (canonicalOrder combiningClass input) ∧
      canonicalOrder combiningClass (canonicalOrder combiningClass input) =
        canonicalOrder combiningClass input := by
  simp only [canonicalOrder_eq, orderText_orderText, and_true]
  refine ⟨perm_orderText combiningClass input, ?_, ?_⟩
  · intro index codePoint isStarter
    refine ⟨fun found => ?_, orderText_at_starter isStarter⟩
    have pattern := congrArg (·[index]?)
      (map_isStarter_orderText combiningClass input)
    simp only [getElem?_map, found, Option.map_some] at pattern
    obtain ⟨_, same, otherStarter⟩ := Option.map_eq_some_iff.mp pattern.symm
    have kept := orderText_at_starter
      (by simpa [isStarter] using otherStarter) same
    rw [same, ← kept, found]
  · intro before run after split marks first last
    have sorts := stablySorts_sortRun combiningClass run
    rw [split, orderText_run_between marks first last, append_assoc,
      ← (perm_orderText combiningClass before).length_eq,
      drop_left, ← sorts.perm.length_eq, take_left]
    exact sorts

/-- Two neighbouring marks of different classes change places. -/
inductive Reorders (combiningClass : Nat → Nat) : List Nat → List Nat → Prop
  | swap (before after : List Nat) (hfirst : combiningClass first ≠ 0)
      (hsecond : combiningClass second ≠ 0)
      (different : combiningClass first ≠ combiningClass second) :
      Reorders combiningClass (before ++ first :: second :: after)
        (before ++ second :: first :: after)

theorem insertLast_comm (sorted : List Nat)
    (different : combiningClass first ≠ combiningClass second) :
    insertLast combiningClass (insertLast combiningClass sorted first) second =
      insertLast combiningClass (insertLast combiningClass sorted second)
        first := by
  simp only [insertLast, reverse_reverse]
  congr 1
  induction sorted.reverse with
  | nil | cons => grind

theorem orderText_append (marks : ∀ codePoint ∈ run, combiningClass codePoint ≠ 0)
    (rest : List Nat) : orderText combiningClass (run ++ rest) =
      sortRun combiningClass (run ++ rest.takeWhile (combiningClass · ≠ 0)) ++
        orderText combiningClass (rest.dropWhile (combiningClass · ≠ 0)) := by
  have all : ∀ codePoint ∈ run ++ rest.takeWhile (combiningClass · ≠ 0),
      combiningClass codePoint ≠ 0 := by
    intro codePoint member
    rcases mem_append.mp member with inside | inside
    · exact marks codePoint inside
    · simpa using mem_takeWhile_imp inside
  have between := @orderText_run_between _ [] _ _ all (by simp)
    (head?_dropWhile_marks combiningClass rest)
  simpa [orderText] using between

theorem Reorders.orderText_eq (reorders : Reorders combiningClass one other) :
    orderText combiningClass one = orderText combiningClass other := by
  obtain @⟨first, second, before, after, hfirst, hsecond, different⟩ := reorders
  -- the marks in front belong to the run that is sorted
  suffices swap : ∀ run : List Nat,
      (∀ codePoint ∈ run, combiningClass codePoint ≠ 0) →
      orderText combiningClass (run ++ (before ++ first :: second :: after)) =
        orderText combiningClass (run ++ (before ++ second :: first :: after)) by
    simpa using swap []
  induction before with
  | nil =>
    intro run marks
    rw [orderText_append marks, orderText_append marks]
    simp [hfirst, hsecond, sortRun, insertLast_comm _ different]
  | cons codePoint before ih =>
    intro run marks
    by_cases isStarter : combiningClass codePoint = 0
    · simpa [orderText_append_starter isStarter] using ih []
    · have later := ih (run ++ [codePoint])
        (by simpa [or_imp, forall_and] using ⟨marks, isStarter⟩)
      simpa using later

/-- Canonically equivalent orders of the same text have one canonical order. -/
theorem canonicalOrder_eq_of_reorders
    (equivalent : Relation.EqvGen (Reorders combiningClass) one other) :
    canonicalOrder combiningClass one = canonicalOrder combiningClass other := by
  rw [canonicalOrder_eq, canonicalOrder_eq]
  induction equivalent with
  | rel _ _ reorders => exact reorders.orderText_eq
  | refl => rfl
  | symm _ _ _ ih => exact ih.symm
  | trans _ _ _ _ _ first second => exact first.trans second

theorem canonicalOrder_two_marks :
    canonicalOrder (· % 10) [20, 1, 2, 3] = canonicalOrder (· % 10) [20, 2, 1, 3] :=
  canonicalOrder_eq_of_reorders (.rel _ _ (.swap [20] [3] (by decide)
    (by decide) (by decide)))

end QuickJsOxide.Unicode
