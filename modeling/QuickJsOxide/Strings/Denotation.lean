import QuickJsOxide.Strings.Trees

namespace QuickJsOxide.Strings

open Library

/-! The tree behind a handle. Sharing in the store disappears in the tree, and
the cached length, width and depth of every rope are those of its tree. -/

def ropeRepr (tree : StringTree) (state : RopeState) : RopeRepr where
  len := tree.len
  isWide := tree.isWide
  depth := tree.depth
  state := state

inductive Denotes (store : Store) : JsString → StringTree → Prop where
  | flat (valid : string < store.reprs.length)
      (data : store.data string = flat.data) :
      Denotes store string (.leaf flat)
  | tree (valid : string < store.reprs.length)
      (data : store.data string =
        .rope (ropeRepr (.node leftTree rightTree) (.tree left right)))
      (left : Denotes store left leftTree)
      (right : Denotes store right rightTree) :
      Denotes store string (.node leftTree rightTree)
  | linearized (valid : string < store.reprs.length)
      (data : store.data string =
        .rope (ropeRepr (.collapsed height flat) (.linearized target)))
      (target : Denotes store target (.leaf flat)) :
      Denotes store string (.collapsed height flat)

def Store.Extends (before after : Store) : Prop :=
  ∃ allocated, after.reprs = before.reprs ++ allocated

namespace Store.Extends

theorem refl (store : Store) : store.Extends store :=
  ⟨[], (List.append_nil _).symm⟩

theorem trans {first second third : Store}
    (left : first.Extends second) (right : second.Extends third) :
    first.Extends third := by
  obtain ⟨allocated, hleft⟩ := left
  obtain ⟨more, hright⟩ := right
  exact ⟨allocated ++ more, by rw [hright, hleft, List.append_assoc]⟩

variable {before after : Store}

theorem length_le (grown : before.Extends after) :
    before.reprs.length ≤ after.reprs.length := by
  obtain ⟨_, hreprs⟩ := grown
  simp [hreprs]

theorem data_eq (grown : before.Extends after)
    (valid : string < before.reprs.length) :
    after.data string = before.data string := by
  obtain ⟨_, hreprs⟩ := grown
  simp [data, hreprs, List.getElem?_append_left valid]

end Store.Extends

theorem allocate_spec (data : StringData) (store : Store) :
    ∃ after, allocate data store = .ok store.reprs.length after ∧
      store.Extends after ∧ store.reprs.length < after.reprs.length ∧
      after.data store.reprs.length = data := by
  refine ⟨_, rfl, ⟨_, rfl⟩, ?_, ?_⟩
  · simp
  · simp [Store.data]

namespace Denotes

variable {store : Store} {tree : StringTree}

section

variable (denotes : Denotes store string tree)

include denotes

theorem valid : string < store.reprs.length := by
  cases denotes <;> assumption

theorem len : store.len string = tree.len := by
  cases denotes with
  | @flat _ flat _ data =>
    cases flat <;> simp [Store.len, data, Flat.data, Flat.len, Flat.units]
  | tree _ data | linearized _ data => simp only [Store.len, data, ropeRepr]

theorem isWide : store.isWide string = tree.isWide := by
  cases denotes with
  | @flat _ flat _ data =>
    cases flat <;> simp [Store.isWide, data, Flat.data, Flat.isWide]
  | tree _ data | linearized _ data => simp only [Store.isWide, data, ropeRepr]

theorem depth : store.depth string = tree.depth := by
  cases denotes with
  | @flat _ flat _ data => cases flat <;> simp [Store.depth, data, Flat.data]
  | tree _ data | linearized _ data => simp only [Store.depth, data, ropeRepr]

theorem isFlat : store.isFlat string = tree.isLeaf := by
  cases denotes with
  | @flat _ flat _ data =>
    cases flat <;> simp [Store.isFlat, data, Flat.data, Rope.isLeaf]
  | tree _ data | linearized _ data => simp [Store.isFlat, data, Rope.isLeaf]

theorem isEmpty : store.isEmpty string = (tree.len == 0) := by
  rw [Store.isEmpty, denotes.len]

omit denotes in
theorem leaf_data {flat : Flat} (denotes : Denotes store string (.leaf flat)) :
    store.data string = flat.data := by
  cases denotes
  assumption

theorem unique (again : Denotes store string other) : tree = other := by
  induction denotes generalizing other with
  | @flat _ flat _ data =>
    cases again with
    | flat _ data' => rw [Flat.data_eq_data.mp (data.symm.trans data')]
    | tree _ data' | linearized _ data' =>
      rw [data] at data'
      cases flat <;> cases data'
  | tree _ data _ _ ihLeft ihRight =>
    cases again with
    | @flat _ flat _ data' =>
      rw [data] at data'
      cases flat <;> cases data'
    | tree _ data' hleft hright =>
      rw [data] at data'
      simp only [ropeRepr, StringData.rope.injEq, RopeRepr.mk.injEq,
        RopeState.tree.injEq] at data'
      obtain ⟨-, -, -, rfl, rfl⟩ := data'
      rw [ihLeft hleft, ihRight hright]
    | linearized _ data' =>
      rw [data] at data'
      simp [ropeRepr] at data'
  | linearized _ data _ ih =>
    cases again with
    | @flat _ flat _ data' =>
      rw [data] at data'
      cases flat <;> cases data'
    | tree _ data' =>
      rw [data] at data'
      simp [ropeRepr] at data'
    | linearized _ data' htarget =>
      rw [data] at data'
      simp only [ropeRepr, StringData.rope.injEq, RopeRepr.mk.injEq,
        RopeState.linearized.injEq, Rope.depth_collapsed] at data'
      obtain ⟨-, -, rfl, rfl⟩ := data'
      cases ih htarget
      rfl

end

end Denotes

def Store.children (store : Store) (string : JsString) : List JsString :=
  match store.data string with
  | .latin1 _ | .utf16 _ => []
  | .rope rope =>
    match rope.state with
    | .tree left right => [left, right]
    | .linearized flat => [flat]

def Store.Reaches (store : Store) : JsString → JsString → Prop :=
  Relation.ReflTransGen fun parent child => child ∈ store.children parent

variable {tree : StringTree}

theorem Denotes.transport (denotes : Denotes before string tree)
    (longer : before.reprs.length ≤ after.reprs.length)
    (same : ∀ node, before.Reaches string node →
      after.data node = before.data node) : Denotes after string tree := by
  induction denotes with
  | flat _ data =>
    exact .flat (by omega) ((same _ .refl).trans data)
  | @tree string _ _ left right _ data _ _ ihLeft ihRight =>
    have hchildren : before.children string = [left, right] := by
      simp [Store.children, data, ropeRepr]
    refine .tree (by omega) ((same _ .refl).trans data)
      (ihLeft fun node reached => same node ?_)
      (ihRight fun node reached => same node ?_)
    all_goals exact .head (by simp [hchildren]) reached
  | @linearized string _ _ target _ data _ ih =>
    have hchildren : before.children string = [target] := by
      simp [Store.children, data, ropeRepr]
    refine .linearized (by omega) ((same _ .refl).trans data)
      (ih fun node reached => same node ?_)
    exact .head (by simp [hchildren]) reached

theorem Denotes.reaches_valid (denotes : Denotes store string tree)
    (reached : store.Reaches string node) : node < store.reprs.length := by
  induction denotes with
  | @flat _ flat valid data =>
    rcases Relation.ReflTransGen.cases_head reached with rfl | ⟨child, inside, -⟩
    · exact valid
    · cases flat <;> simp [Store.children, data, Flat.data] at inside
  | tree valid data _ _ ihLeft ihRight =>
    rcases Relation.ReflTransGen.cases_head reached with
      rfl | ⟨child, inside, rest⟩
    · exact valid
    · simp only [Store.children, data, ropeRepr, List.mem_cons,
        List.not_mem_nil, or_false] at inside
      rcases inside with rfl | rfl
      · exact ihLeft rest
      · exact ihRight rest
  | linearized valid data _ ih =>
    rcases Relation.ReflTransGen.cases_head reached with
      rfl | ⟨child, inside, rest⟩
    · exact valid
    · simp only [Store.children, data, ropeRepr, List.mem_cons,
        List.not_mem_nil, or_false] at inside
      subst inside
      exact ih rest

theorem Denotes.extend (denotes : Denotes before string tree)
    (grown : before.Extends after) : Denotes after string tree :=
  denotes.transport grown.length_le fun _ reached =>
    grown.data_eq (denotes.reaches_valid reached)

end QuickJsOxide.Strings
