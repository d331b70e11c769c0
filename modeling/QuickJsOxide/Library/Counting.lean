import Mathlib.Algebra.Group.Nat.Defs
import QuickJsOxide.Library.Arena

namespace QuickJsOxide.Library

open List

/-! Arenas whose values are kept alive by counted references. A reference that
was taken has been counted unless the count is saturated. -/

structure Counted (α : Type u) where
  strong : Nat
  value : α
deriving Repr

/-- Slots are numbered and their generations counted in 32 bits. -/
def slotLimit : Nat := 2 ^ 32

/-- A saturated count is never given up again. -/
def immortalCount : Nat := 2 ^ 32 - 1

namespace Arena

variable {α : Type u}

def Cover (arena : Arena (Counted α)) (owners : List Handle) : Prop :=
  ∀ id ∈ owners, ∃ node, arena.get? id = some node ∧
    (node.strong = immortalCount ∨ owners.count id ≤ node.strong)

variable {arena : Arena (Counted α)}

theorem Cover.mono (cover : arena.Cover owners) (fits : fewer.Subperm owners) :
    arena.Cover fewer := by
  intro id member
  obtain ⟨node, live, counted⟩ := cover id (fits.subset member)
  exact ⟨node, live, counted.imp_right (Nat.le_trans (fits.count_le id))⟩

theorem Cover.perm (cover : arena.Cover owners) (same : others.Perm owners) :
    arena.Cover others :=
  cover.mono same.subperm

/-- What allocation and reference counting may do to the arena: the value
under a handle is never another one. -/
abbrev Evolves (before after : Arena (Counted α)) : Prop :=
  before.Follows (fun _ old new => old.value = new.value) after

theorem Evolves.refl (arena : Arena (Counted α)) : arena.Evolves arena := by
  apply Follows.refl
  intro _ _
  rfl

theorem Evolves.trans {first second third : Arena (Counted α)}
    (early : first.Evolves second) (late : second.Evolves third) :
    first.Evolves third := by
  apply Follows.trans _ early late
  intro _ _ _ _
  exact Eq.trans

variable {node : Counted α} {id : Handle}

theorem Cover.isSome (cover : arena.Cover owners) (member : id ∈ owners) :
    (arena.get? id).isSome := by
  obtain ⟨_, live, _⟩ := cover id member
  rw [live]
  rfl

theorem Cover.counts (cover : arena.Cover owners) (member : id ∈ owners)
    (live : arena.get? id = some node) :
    node.strong = immortalCount ∨ owners.count id ≤ node.strong := by
  obtain ⟨_, there, counted⟩ := cover id member
  rw [live] at there
  cases there
  exact counted

theorem evolves_allocate {arena after : Arena (Counted α)}
    (taken : arena.allocate slotLimit node = some (id, after)) :
    arena.Evolves after := by
  apply follows_allocate _ taken
  intro _ _
  rfl

theorem evolves_replace (live : arena.get? id = some node) (strong : Nat) :
    arena.Evolves (arena.replace id ⟨strong, node.value⟩) := by
  apply follows_replace _ live rfl
  intro _ _
  rfl

theorem evolves_reclaim (live : arena.get? id = some node) :
    arena.Evolves (arena.reclaim slotLimit id) := by
  apply follows_reclaim _ live
  intro _ _
  rfl

theorem cover_allocate {arena after : Arena (Counted α)}
    (cover : arena.Cover owners)
    (taken : arena.allocate slotLimit ⟨1, value⟩ = some (id, after)) :
    after.Cover (id :: owners) := by
  have unowned : id ∉ owners := by
    intro member
    obtain ⟨_, live, _⟩ := cover id member
    exact not_issued_of_allocate taken (issued_of_get? live)
  intro other member
  rw [get?_allocate taken]
  by_cases same : other = id
  · subst same
    refine ⟨_, if_pos rfl, .inr (Nat.le_of_eq ?_)⟩
    rw [count_cons_self, count_eq_zero_of_not_mem unowned]
  · rw [if_neg same, count_cons_of_ne (Ne.symm same)]
    exact cover other ((mem_cons.mp member).resolve_left same)

theorem cover_retain (cover : arena.Cover owners)
    (live : arena.get? id = some node)
    (raised : strong = immortalCount ∨ strong = node.strong + 1)
    (saturates : node.strong = immortalCount → strong = immortalCount) :
    Cover (arena.replace id ⟨strong, node.value⟩) (id :: owners) := by
  intro other member
  rw [get?_replace live]
  by_cases same : other = id
  · subst same
    refine ⟨_, if_pos rfl, ?_⟩
    rcases raised with immortal | raised
    · exact .inl immortal
    · by_cases owned : other ∈ owners
      · rw [count_cons_self]
        rcases cover.counts owned live with immortal | counted
        · exact .inl (saturates immortal)
        · exact .inr (raised ▸ Nat.succ_le_succ counted)
      · right
        rw [count_cons_self, count_eq_zero_of_not_mem owned, raised]
        exact Nat.succ_le_succ (Nat.zero_le _)
  · rw [if_neg same, count_cons_of_ne (Ne.symm same)]
    exact cover other ((mem_cons.mp member).resolve_left same)

theorem cover_lower (cover : arena.Cover (id :: owners))
    (live : arena.get? id = some node) (mortal : node.strong ≠ immortalCount) :
    Cover (arena.replace id ⟨node.strong - 1, node.value⟩) owners := by
  intro other member
  rw [get?_replace live]
  by_cases same : other = id
  · subst same
    have enough := (cover.counts mem_cons_self live).resolve_left mortal
    rw [count_cons_self] at enough
    exact ⟨_, if_pos rfl, .inr (Nat.le_sub_one_of_lt enough)⟩
  · obtain ⟨found, there, counted⟩ := cover other (mem_cons_of_mem _ member)
    rw [count_cons_of_ne (Ne.symm same)] at counted
    exact ⟨found, (if_neg same).trans there, counted⟩

theorem Cover.withValue (cover : arena.Cover owners)
    (live : arena.get? id = some node) (value : α) :
    Cover (arena.replace id ⟨node.strong, value⟩) owners := by
  intro other member
  rw [get?_replace live]
  by_cases same : other = id
  · subst same
    have counted := cover.counts member live
    exact ⟨_, if_pos rfl, counted⟩
  · rw [if_neg same]
    exact cover other member

section

variable (cover : arena.Cover (id :: owners)) (live : arena.get? id = some node)
  (single : node.strong = 1)

include cover live single

theorem Cover.sole : id ∉ owners := by
  intro member
  have twice : 2 ≤ (id :: owners).count id := by
    rw [count_cons_self]
    exact Nat.succ_le_succ (count_pos_iff.mpr member)
  rcases cover.counts mem_cons_self live with immortal | counted
  · rw [single] at immortal
    cases immortal
  · omega

theorem cover_reclaim : Cover (arena.reclaim slotLimit id) owners := by
  have last := cover.sole live single
  intro other member
  have different : other ≠ id := by
    intro same
    exact last (same ▸ member)
  obtain ⟨found, there, counted⟩ := cover other (mem_cons_of_mem _ member)
  rw [count_cons_of_ne (Ne.symm different)] at counted
  rw [get?_reclaim live, if_neg different]
  exact ⟨found, there, counted⟩

end

end Arena

end QuickJsOxide.Library
