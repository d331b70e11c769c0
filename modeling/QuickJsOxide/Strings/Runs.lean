import QuickJsOxide.Library.TransitionSystem
import QuickJsOxide.Strings.Mutation

namespace QuickJsOxide.Strings

open Library

/-! Programs that work with strings: a store together with the handles the
program holds. -/

structure World where
  store : Store
  live : List JsString
deriving Repr, DecidableEq

inductive Command where
  | flat (flat : Flat)
  | clone (string : JsString)
  | drop (string : JsString)
  | tryConcat (self other : JsString)
  | concatOwned (answers : AppendAnswers) (self other : JsString)
  | tryConcatInPlace (answers : AppendAnswers) (self other : JsString)
  | subString (string : JsString) (start stop : Nat)
  | linearize (string : JsString)

namespace Command

def run : Command → Operation (List JsString)
  | .flat data => do
    let string ← allocate data.data
    return [string]
  | clone string => return [string]
  | drop _ => return []
  | tryConcat self other => do
    let string ← Strings.tryConcat self other
    return [string]
  | concatOwned answers self other => do
    let string ← Strings.concatOwned answers self other
    return [string]
  | tryConcatInPlace answers self other => do
    let _ ← Strings.tryConcatInPlace answers self other
    return []
  | subString string start stop => do
    let string ← Strings.subString string start stop
    return [string]
  | linearize string => do
    let string ← Strings.linearize string
    return [string]

def operands : Command → List JsString
  | flat _ => []
  | clone string | drop string | subString string _ _ | linearize string =>
    [string]
  | tryConcat self other | concatOwned _ self other |
      tryConcatInPlace _ self other => [self, other]

def consumed : Command → Option JsString
  | drop string | concatOwned _ string _ => some string
  | _ => none

end Command

namespace World

def remaining (world : World) (command : Command) : List JsString :=
  match command.consumed with
  | some string => world.live.erase string
  | none => world.live

/-- How a program goes on after a call. An error of the source is reported to
it; a panic ends it. -/
def settle (world : World) (command : Command) :
    EStateM.Result Fault Store (List JsString) → Except Fault World
  | .ok handles store => .ok ⟨store, handles ++ world.remaining command⟩
  | .error (.error _) store => .ok ⟨store, world.remaining command⟩
  | .error fault _ => .error fault

def step (world : World) (command : Command) : Except Fault World :=
  world.settle command (command.run world.store)

/-- The program holds exactly one handle to a representation and no other
representation in use refers to it: what `Rc::get_mut` checks. -/
structure Sole (world : World) (string : JsString) : Prop where
  once : world.live.count string = 1
  unreferenced : ∀ root ∈ world.live, ∀ parent,
    world.store.Reaches root parent → string ∉ world.store.children parent

end World

/-- Calls the language and the callers permit: operands are handles of the
program, an exclusive reference is the only one, flat strings are within the
length limit and ranges are validated. -/
structure Command.Allowed (command : Command) (world : World) : Prop where
  operands : ∀ string ∈ command.operands, string ∈ world.live
  exclusive : ∀ answers self other,
    command = .concatOwned answers self other ∨
      command = .tryConcatInPlace answers self other →
    answers.exclusive = true → world.Sole self
  flat : ∀ flat, command = .flat flat → flat.len ≤ maxLen
  range : ∀ string start stop, command = .subString string start stop →
    start ≤ stop ∧ stop ≤ world.store.len string

def programs : TransitionSystem World Command where
  initial world := world = ⟨⟨[]⟩, []⟩
  step before command after :=
    command.Allowed before ∧ before.step command = .ok after

def World.Sound (world : World) : Prop :=
  ∀ string ∈ world.live, ∃ tree, Denotes world.store string tree ∧
    Strings.Sound tree

def World.Shallow (world : World) : Prop :=
  ∀ string ∈ world.live, world.store.depth string ≤ ropeMaxDepth

/-- A concatenation that has to rebalance a long rope: one operand has already
reached the depth limit and the text is at least `rebalanceLimit` units long. -/
def World.Crowded (world : World) (command : Command) : Prop :=
  ∃ self other, (command = .tryConcat self other ∨
      ∃ answers, command = .concatOwned answers self other) ∧
    max (world.store.depth self) (world.store.depth other) = ropeMaxDepth ∧
    LeafOps.rebalanceLimit ≤ world.store.len self + world.store.len other

def World.Effect (world : World) (command : Command)
    (outcome : Except Fault World) : Prop :=
  (∃ after, outcome = .ok after ∧ after.Sound ∧
    (world.Shallow → ¬ world.Crowded command → after.Shallow)) ∨
  (¬ world.Shallow ∧ ∃ message, outcome = .error (.panic message))

namespace World

variable {world : World} {command : Command}

theorem mem_of_mem_remaining (member : string ∈ world.remaining command) :
    string ∈ world.live := by
  unfold remaining at member
  split at member
  · exact List.mem_of_mem_erase member
  · exact member

theorem Sound.pair (sound : world.Sound) (allowed : command.Allowed world)
    (operands : command.operands = [self, other]) :
    (self ∈ world.live ∧ other ∈ world.live) ∧ ∃ selfTree otherTree,
      Denotes world.store self selfTree ∧ Denotes world.store other otherTree ∧
      Strings.Sound selfTree ∧ Strings.Sound otherTree := by
  have live : self ∈ world.live ∧ other ∈ world.live := by
    simpa [operands] using allowed.operands
  obtain ⟨selfTree, hself, selfSound⟩ := sound self live.1
  obtain ⟨otherTree, hother, otherSound⟩ := sound other live.2
  exact ⟨live, selfTree, otherTree, hself, hother, selfSound, otherSound⟩

theorem effect_of_keeps (sound : world.Sound) (handles : List JsString)
    (keeps : world.store.Keeps after)
    (fresh : ∀ string ∈ handles, ∃ tree, Denotes after string tree ∧
      Strings.Sound tree ∧ (world.Shallow → ¬ world.Crowded command →
        tree.depth ≤ ropeMaxDepth)) : world.Effect command
      (.ok ⟨after, handles ++ world.remaining command⟩) := by
  refine .inl ⟨_, rfl, ?_, ?_⟩
  · intro string member
    rcases List.mem_append.mp member with new | old
    · obtain ⟨tree, denotes, hsound, -⟩ := fresh string new
      exact ⟨tree, denotes, hsound⟩
    · obtain ⟨tree, denotes, hsound⟩ := sound string (mem_of_mem_remaining old)
      obtain ⟨same, hsame, equivalent⟩ := keeps string tree denotes
        hsound.heighted
      exact ⟨same, hsame, equivalent.sound hsound⟩
  · intro shallow uncrowded string member
    rcases List.mem_append.mp member with new | old
    · obtain ⟨tree, denotes, -, bounded⟩ := fresh string new
      rw [denotes.depth]
      exact bounded shallow uncrowded
    · have inside := mem_of_mem_remaining old
      obtain ⟨tree, denotes, hsound⟩ := sound string inside
      obtain ⟨_, hsame, equivalent⟩ := keeps string tree denotes
        hsound.heighted
      rw [hsame.depth, equivalent.depth, ← denotes.depth]
      exact shallow string inside

theorem Sole.apart (sole : world.Sole self) (member : other ∈ world.live)
    (different : other ≠ self) : ¬ world.store.Reaches other self := by
  intro reached
  rcases Relation.ReflTransGen.cases_tail reached with
    rfl | ⟨parent, above, child⟩
  · exact different rfl
  · exact sole.unreferenced other member parent above child

theorem effect_of_grown (sound : world.Sound) (handles : List JsString)
    (sole : world.Sole self) (short : flat.len ≤ maxLen)
    (grown : world.store.Grown after self flat)
    (fresh : ∀ string ∈ handles, string = self) (inside : self ∈ world.live) :
    world.Effect command (.ok ⟨after, handles ++ world.remaining command⟩) := by
  have leaf : Strings.Sound (.leaf flat) :=
    ⟨trivial, by simpa using short, Nat.zero_le _⟩
  obtain ⟨_, hself, -⟩ := sound self inside
  have denotes : ∀ string ∈ handles ++ world.remaining command,
      ∃ tree, Denotes after string tree ∧ Strings.Sound tree ∧
        (world.Shallow → tree.depth ≤ ropeMaxDepth) := by
    intro string member
    by_cases here : string = self
    · subst here
      exact ⟨_, grown.denotes_self hself.valid, leaf, fun _ => Nat.zero_le _⟩
    · rcases List.mem_append.mp member with new | old
      · exact (here (fresh string new)).elim
      · have known := mem_of_mem_remaining old
        obtain ⟨tree, hstring, hsound⟩ := sound string known
        exact ⟨tree, grown.denotes_other (sole.apart known here) hstring,
          hsound, fun shallow => hstring.depth ▸ shallow string known⟩
  refine .inl ⟨_, rfl, fun string member => ?_, fun shallow _ string member => ?_⟩
  · obtain ⟨tree, hstring, hsound, -⟩ := denotes string member
    exact ⟨tree, hstring, hsound⟩
  · obtain ⟨_, hstring, -, bounded⟩ := denotes string member
    rw [hstring.depth]
    exact bounded shallow

def yields : EStateM.Result Fault Store JsString →
    EStateM.Result Fault Store (List JsString)
  | .ok string store => .ok [string] store
  | .error fault store => .error fault store

theorem step_eq_of_run (operation : Operation JsString)
    (run : command.run = do let string ← operation return [string]) :
    world.step command =
      world.settle command (yields (operation world.store)) := by
  unfold step
  rw [run]
  simp only [Bind.bind, EStateM.bind]
  cases operation world.store <;> rfl

variable (sound : world.Sound)

include sound

theorem effect_of_concat (same : world.store.SameData middle)
    (hself : Denotes world.store self selfTree)
    (hother : Denotes world.store other otherTree)
    (selfLive : self ∈ world.live) (otherLive : other ∈ world.live)
    (called : command = .tryConcat self other ∨
      ∃ answers, command = .concatOwned answers self other)
    (outcome : ConcatOutcome middle selfTree otherTree result) :
    world.Effect command (world.settle command (yields result)) := by
  cases outcome with
  | tooLong => exact effect_of_keeps sound [] same.keeps (by simp)
  | concatenated string _ tree _ grown denotes concatenates =>
    refine effect_of_keeps sound [string] (same.keeps.trans grown.keeps) ?_
    intro fresh member
    obtain rfl := List.mem_singleton.mp member
    refine ⟨tree, denotes, concatenates.sound, fun shallow uncrowded => ?_⟩
    refine concatenates.bounded (hself.depth ▸ shallow self selfLive)
      (hother.depth ▸ shallow other otherLive) fun crowded => uncrowded ?_
    refine ⟨self, other, called, ?_, ?_⟩
    · rw [hself.depth, hother.depth]
      exact crowded.1
    · rw [hself.len, hother.len]
      exact crowded.2
  | panicked message _ _ deep =>
    refine .inr ⟨fun shallow => deep ⟨?_, ?_⟩, message, rfl⟩
    · exact hself.depth ▸ shallow self selfLive
    · exact hother.depth ▸ shallow other otherLive

theorem effect_of_known (member : string ∈ world.live) : world.Effect command
      (.ok ⟨world.store, [string] ++ world.remaining command⟩) := by
  obtain ⟨tree, denotes, hsound⟩ := sound string member
  refine effect_of_keeps sound [string] (Store.Extends.refl world.store).keeps
    fun fresh inside => ?_
  obtain rfl := List.mem_singleton.mp inside
  exact ⟨tree, denotes, hsound, fun shallow _ =>
    denotes.depth ▸ shallow _ member⟩

theorem effect_of_flat (keeps : world.store.Keeps after)
    (denotes : Denotes after string (.leaf flat)) (short : flat.len ≤ maxLen) :
    world.Effect command (.ok ⟨after, [string] ++ world.remaining command⟩) := by
  refine effect_of_keeps sound [string] keeps fun fresh member => ?_
  obtain rfl := List.mem_singleton.mp member
  exact ⟨_, denotes, ⟨trivial, by simpa using short, Nat.zero_le _⟩,
    fun _ _ => Nat.zero_le _⟩

/-- Every permitted call in a sound world leaves a sound world, unless a string
that is too deep made it panic. -/
theorem step_effect (allowed : command.Allowed world) :
    world.Effect command (world.step command) := by
  cases command with
  | flat data =>
    obtain ⟨string, after, hrun, grown, denotes⟩ :=
      (allocate_runs data world.store).total trivial
    rw [step_eq_of_run (allocate data.data) rfl, hrun]
    exact effect_of_flat sound grown.keeps denotes (allowed.flat data rfl)
  | clone string =>
    exact effect_of_known sound
      (allowed.operands string (by simp [Command.operands]))
  | drop =>
    exact effect_of_keeps sound [] (Store.Extends.refl world.store).keeps
      (by simp)
  | tryConcat self other =>
    obtain ⟨⟨selfLive, otherLive⟩, selfTree, otherTree, hself, hother, selfSound,
      otherSound⟩ := sound.pair allowed rfl
    rw [step_eq_of_run (Strings.tryConcat self other) rfl]
    exact effect_of_concat sound ⟨rfl, fun _ => rfl⟩ hself hother selfLive
      otherLive (.inl rfl)
      (tryConcat_outcome hself hother selfSound otherSound)
  | concatOwned answers self other =>
    obtain ⟨⟨selfLive, otherLive⟩, selfTree, otherTree, hself, hother, selfSound,
      otherSound⟩ := sound.pair allowed rfl
    rw [step_eq_of_run (Strings.concatOwned answers self other) rfl]
    have outcome := concatOwned_outcome answers hself hother
    generalize Strings.concatOwned answers self other world.store = result
      at outcome ⊢
    cases outcome with
    | tooLong =>
      exact effect_of_keeps sound [] (Store.Extends.refl world.store).keeps
        (by simp)
    | unreserved _ same =>
      exact effect_of_keeps sound [] same.keeps (by simp)
    | left => exact effect_of_known sound selfLive
    | right => exact effect_of_known sound otherLive
    | appended _ _ _ exclusive selfFlat otherFlat short grown =>
      subst selfFlat otherFlat
      exact effect_of_grown sound [self]
        (allowed.exclusive answers self other (.inl rfl) exclusive)
        (by simpa using short) grown (by simp) selfLive
    | concatenated _ same =>
      exact effect_of_concat sound same hself hother selfLive otherLive
        (.inr ⟨answers, rfl⟩) (tryConcat_outcome (same.denotes hself)
          (same.denotes hother) selfSound otherSound)
  | tryConcatInPlace answers self other =>
    obtain ⟨⟨selfLive, -⟩, selfTree, otherTree, hself, hother, -⟩ :=
      sound.pair allowed rfl
    have outcome := tryConcatInPlace_outcome answers hself hother
    unfold step Command.run
    simp only [Bind.bind, EStateM.bind]
    generalize Strings.tryConcatInPlace answers self other world.store =
      result at outcome ⊢
    cases outcome with
    | tooLong =>
      exact effect_of_keeps sound [] (Store.Extends.refl world.store).keeps
        (by simp)
    | declined _ same | unreserved _ same =>
      exact effect_of_keeps sound [] same.keeps (by simp)
    | appended _ _ _ exclusive selfFlat otherFlat short grown =>
      subst selfFlat otherFlat
      exact effect_of_grown sound []
        (allowed.exclusive answers self other (.inr rfl) exclusive)
        (by simpa using short) grown (by simp) selfLive
  | subString string start stop =>
    have member := allowed.operands string (by simp [Command.operands])
    obtain ⟨tree, denotes, hsound⟩ := sound string member
    obtain ⟨ordered, inside⟩ := allowed.range string start stop rfl
    rw [denotes.len] at inside
    rw [step_eq_of_run (Strings.subString string start stop) rfl]
    rcases subString_spec denotes hsound ordered inside with
      ⟨result, flat, after, hrun, keeps, hresult, hunits⟩ | ⟨deep, failed⟩
    · rw [hrun]
      refine effect_of_flat sound keeps hresult ?_
      have := hsound.short
      rw [StringTree.len_eq_content_length] at this
      rw [Flat.len, hunits, List.length_take, List.length_drop]
      omega
    · rw [failed]
      exact .inr ⟨fun shallow => by
        have := shallow string member
        rw [denotes.depth] at this
        omega, _, rfl⟩
  | linearize string =>
    have member := allowed.operands string (by simp [Command.operands])
    obtain ⟨tree, denotes, hsound⟩ := sound string member
    rw [step_eq_of_run (Strings.linearize string) rfl]
    rcases linearize_spec denotes hsound with
      ⟨result, flat, after, hrun, keeps, hresult, hunits, -⟩ |
      ⟨deep, failed⟩
    · rw [hrun]
      refine effect_of_flat sound keeps hresult ?_
      rw [Flat.len, hunits, ← StringTree.len_eq_content_length]
      exact hsound.short
    · rw [failed]
      exact .inr ⟨fun shallow => by
        have turns := tree.leftTurns_le_depth
        have := shallow string member
        rw [denotes.depth] at this
        omega, _, rfl⟩

end World

end QuickJsOxide.Strings
