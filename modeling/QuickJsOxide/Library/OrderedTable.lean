import Mathlib.Data.List.Sort

namespace QuickJsOxide.Library

open List

/-! Association lists in the order of insertion. Every insertion gets a new
number, larger than all the numbers before it. -/

structure OrderedTable (α : Type u) where
  entries : List (Nat × α)
  nextId : Nat
  ordered : (entries.map Prod.fst).Pairwise (· < ·)
  issued : ∀ entry ∈ entries, entry.1 < nextId

namespace OrderedTable

variable {α : Type u}

def empty : OrderedTable α := ⟨[], 0, .nil, nofun⟩

def lookup (table : OrderedTable α) (id : Nat) : Option α :=
  (table.entries.find? fun entry => entry.1 == id).map Prod.snd

def insert (table : OrderedTable α) (value : α) : OrderedTable α where
  entries := table.entries ++ [(table.nextId, value)]
  nextId := table.nextId + 1
  ordered := by
    rw [map_append, pairwise_append]
    refine ⟨table.ordered, pairwise_singleton _ _, ?_⟩
    intro earlier member later last
    obtain ⟨entry, inside, rfl⟩ := mem_map.mp member
    rw [mem_singleton.mp last]
    exact table.issued entry inside
  issued := by
    intro entry member
    rcases mem_append.mp member with old | new
    · exact Nat.lt_succ_of_lt (table.issued entry old)
    · rw [mem_singleton.mp new]
      exact Nat.lt_succ_self _

def replace (table : OrderedTable α) (id : Nat) (value : α) :
    OrderedTable α where
  entries := table.entries.map fun entry =>
    if entry.1 = id then (id, value) else entry
  nextId := table.nextId
  ordered := by
    have same : (Prod.fst ∘ fun entry : Nat × α =>
        if entry.1 = id then (id, value) else entry) = Prod.fst := by
      funext entry
      rw [Function.comp_apply]
      split
      · rename_i equal
        exact equal.symm
      · rfl
    rw [map_map, same]
    exact table.ordered
  issued := by
    intro entry member
    obtain ⟨before, inside, rfl⟩ := mem_map.mp member
    have bound := table.issued before inside
    split
    · rename_i equal
      rw [← equal]
      exact bound
    · exact bound

def remove (table : OrderedTable α) (id : Nat) : OrderedTable α where
  entries := table.entries.filter fun entry => entry.1 ≠ id
  nextId := table.nextId
  ordered := table.ordered.sublist (filter_sublist.map _)
  issued := fun entry member =>
    table.issued entry (mem_filter.mp member).1

def clear (table : OrderedTable α) : OrderedTable α :=
  ⟨[], table.nextId, .nil, nofun⟩

def firstFrom (table : OrderedTable α) (cursor : Nat) : Option (Nat × α) :=
  table.entries.find? fun entry => cursor ≤ entry.1

section

variable (table : OrderedTable α)

include table

theorem ordered_entries :
    table.entries.Pairwise fun first second => first.1 < second.1 :=
  pairwise_map.mp table.ordered

variable {id : Nat}

theorem lookup_eq_some_iff :
    table.lookup id = some value ↔ (id, value) ∈ table.entries := by
  have distinct : (table.entries.map Prod.fst).Nodup :=
    table.ordered.imp fun smaller => Nat.ne_of_lt smaller
  unfold lookup
  constructor
  · intro found
    obtain ⟨entry, here, rfl⟩ := Option.map_eq_some_iff.mp found
    have same := find?_some here
    rw [beq_iff_eq] at same
    rw [← same]
    exact mem_of_find?_eq_some here
  · intro member
    have present : (table.entries.find? fun entry => entry.1 == id).isSome :=
      find?_isSome.mpr ⟨_, member, beq_self_eq_true id⟩
    obtain ⟨_, here⟩ := Option.isSome_iff_exists.mp present
    have same := find?_some here
    rw [beq_iff_eq] at same
    have equal := inj_on_of_nodup_map distinct
      (mem_of_find?_eq_some here) member same
    rw [here, equal]
    rfl

theorem mem_insert (value : α) (entry : Nat × α) :
    entry ∈ (table.insert value).entries ↔
      entry ∈ table.entries ∨ entry = (table.nextId, value) := by
  rw [insert, mem_append, mem_singleton]

omit table in
theorem ne_of_split
    (ordered : ((front ++ (id, value) :: back).map Prod.fst).Pairwise (· < ·)) :
    ∀ entry ∈ front ++ back, entry.1 ≠ id := by
  intro entry member same
  have distinct : ((front ++ (id, value) :: back).map Prod.fst).Nodup :=
    ordered.imp fun smaller => Nat.ne_of_lt smaller
  rw [(perm_middle.map Prod.fst).nodup_iff, map_cons, nodup_cons] at distinct
  exact distinct.1 (mem_map.mpr ⟨entry, member, same⟩)

theorem entries_replace (split : table.entries = front ++ (id, old) :: back)
    (value : α) :
    (table.replace id value).entries = front ++ (id, value) :: back := by
  have others := ne_of_split (split ▸ table.ordered)
  have replaced : (table.replace id value).entries = table.entries.map
      fun entry => if entry.1 = id then (id, value) else entry := rfl
  rw [replaced, split, map_append, map_cons, if_pos rfl]
  congr 1
  · apply (map_congr_left _).trans (map_id _)
    intro entry member
    exact if_neg (others entry (mem_append_left _ member))
  · congr 1
    apply (map_congr_left _).trans (map_id _)
    intro entry member
    exact if_neg (others entry (mem_append_right _ member))

theorem entries_remove (split : table.entries = front ++ (id, old) :: back) :
    (table.remove id).entries = front ++ back := by
  have removed : (table.remove id).entries =
      table.entries.filter fun entry => entry.1 ≠ id := rfl
  rw [removed, split, filter_append, filter_cons_of_neg (by simp),
    ← filter_append]
  apply filter_eq_self.mpr
  intro entry member
  exact decide_eq_true (ne_of_split (split ▸ table.ordered) entry member)

theorem firstFrom_least (found : table.firstFrom cursor = some entry) :
    entry ∈ table.entries ∧ cursor ≤ entry.1 ∧
      ∀ other ∈ table.entries, cursor ≤ other.1 → entry.1 ≤ other.1 := by
  obtain ⟨reached, before, after, split, missed⟩ :=
    find?_eq_some_iff_append.mp found
  have ordered := table.ordered_entries
  rw [split] at ordered ⊢
  refine ⟨by simp, of_decide_eq_true reached, ?_⟩
  intro other member later
  rcases mem_append.mp member with early | member
  · exact absurd later (by simpa using missed other early)
  · rcases mem_cons.mp member with rfl | behind
    · exact Nat.le_refl _
    · exact Nat.le_of_lt
        (rel_of_pairwise_cons (pairwise_append.mp ordered).2.1 behind)

theorem firstFrom_eq_none_iff : table.firstFrom cursor = none ↔
      ∀ entry ∈ table.entries, entry.1 < cursor := by
  unfold firstFrom
  rw [find?_eq_none]
  simp only [decide_eq_true_iff, Nat.not_le]

omit table in
/-- The later table has entries of the earlier one, with old or new values,
and new entries. -/
structure Follows (before after : OrderedTable α) : Prop where
  clock : before.nextId ≤ after.nextId
  old : ∀ entry ∈ after.entries, entry.1 < before.nextId →
    ∃ value, (entry.1, value) ∈ before.entries

theorem Follows.refl : table.Follows table :=
  ⟨Nat.le_refl _, fun entry member _ => ⟨entry.2, member⟩⟩

theorem follows_insert (value : α) : table.Follows (table.insert value) := by
  refine ⟨Nat.le_succ _, ?_⟩
  intro entry member early
  rcases (table.mem_insert value entry).mp member with old | rfl
  · exact ⟨entry.2, old⟩
  · exact absurd early (Nat.lt_irrefl _)

theorem follows_replace (id : Nat) (value : α) :
    table.Follows (table.replace id value) := by
  refine ⟨Nat.le_refl _, ?_⟩
  intro entry member _
  obtain ⟨before, inside, rfl⟩ := mem_map.mp member
  refine ⟨before.2, ?_⟩
  split
  · rename_i same
    rw [← same]
    exact inside
  · exact inside

theorem follows_remove (id : Nat) : table.Follows (table.remove id) :=
  ⟨Nat.le_refl _, fun entry member _ =>
    ⟨entry.2, (mem_filter.mp member).1⟩⟩

theorem follows_clear : table.Follows table.clear :=
  ⟨Nat.le_refl _, nofun⟩

end

/-- An iteration: where it began, where it goes on and what it has shown. -/
structure Iteration where
  start : Nat
  cursor : Nat
  visited : List Nat
deriving Repr

def Iteration.begin (start : Nat) : Iteration := ⟨start, start, []⟩

def Iteration.advance (iteration : Iteration) :
    Option (Nat × α) → Iteration
  | none => iteration
  | some (id, _) =>
    { iteration with
      cursor := id + 1
      visited := iteration.visited ++ [id] }

/-- Nothing is shown twice, and what is present and behind the cursor has been
shown. -/
structure Iteration.Faithful (iteration : Iteration)
    (table : OrderedTable α) : Prop where
  bounded : iteration.cursor ≤ table.nextId
  increasing : iteration.visited.Pairwise (· < ·)
  passed : ∀ id ∈ iteration.visited,
    iteration.start ≤ id ∧ id < iteration.cursor
  forward : iteration.start ≤ iteration.cursor
  complete : ∀ entry ∈ table.entries, iteration.start ≤ entry.1 →
    entry.1 < iteration.cursor → entry.1 ∈ iteration.visited

namespace Iteration.Faithful

variable {iteration : Iteration} {table after : OrderedTable α}

theorem begin (start : Nat) (bounded : start ≤ table.nextId) :
    (begin start).Faithful table :=
  ⟨bounded, .nil, nofun, Nat.le_refl _, fun _ _ reached early =>
    absurd (Nat.lt_of_le_of_lt reached early) (Nat.lt_irrefl _)⟩

section

variable (faithful : iteration.Faithful table)

include faithful

theorem follow (follows : table.Follows after) : iteration.Faithful after := by
  refine ⟨faithful.bounded.trans follows.clock, faithful.increasing,
    faithful.passed, faithful.forward, ?_⟩
  intro entry member reached early
  obtain ⟨value, old⟩ :=
    follows.old entry member (Nat.lt_of_lt_of_le early faithful.bounded)
  exact faithful.complete (entry.1, value) old reached early

theorem advance :
    (iteration.advance (table.firstFrom iteration.cursor)).Faithful table := by
  cases found : table.firstFrom iteration.cursor with
  | none => exact faithful
  | some entry =>
    obtain ⟨id, value⟩ := entry
    obtain ⟨member, reached, least⟩ := table.firstFrom_least found
    refine ⟨table.issued _ member, ?_, ?_, ?_, ?_⟩
    · apply pairwise_append.mpr
      refine ⟨faithful.increasing, pairwise_singleton _ _, ?_⟩
      intro earlier inside later last
      rw [mem_singleton.mp last]
      exact Nat.lt_of_lt_of_le (faithful.passed earlier inside).2 reached
    · intro shown inside
      rcases mem_append.mp inside with old | new
      · obtain ⟨since, early⟩ := faithful.passed shown old
        exact ⟨since, Nat.lt_succ_of_lt (Nat.lt_of_lt_of_le early reached)⟩
      · rw [mem_singleton.mp new]
        exact ⟨faithful.forward.trans reached, Nat.lt_succ_self _⟩
    · exact (faithful.forward.trans reached).trans (Nat.le_succ _)
    · intro other inside since early
      by_cases behind : other.1 < iteration.cursor
      · exact mem_append_left _
          (faithful.complete other inside since behind)
      · have bound := least other inside (Nat.le_of_not_lt behind)
        have same : other.1 = id :=
          Nat.le_antisymm (Nat.le_of_lt_succ early) bound
        rw [same]
        exact mem_append_right _ (mem_singleton_self _)

theorem finished (ended : table.firstFrom iteration.cursor = none) :
    ∀ entry ∈ table.entries, iteration.start ≤ entry.1 →
      entry.1 ∈ iteration.visited := by
  intro entry member reached
  exact faithful.complete entry member reached
    (table.firstFrom_eq_none_iff.mp ended entry member)

end

end Iteration.Faithful

end OrderedTable

end QuickJsOxide.Library
