import QuickJsOxide.Strings.DepthSafety

namespace QuickJsOxide.Strings

open Library

/-! What a program can observe of a string is its sequence of UTF-16 units. -/

theorem Store.Keeps.content (keeps : before.Keeps after)
    (denotes : Denotes before string tree) (heighted : tree.WellHeighted) :
    after.content string = before.content string := by
  obtain ⟨_, hsame, equivalent⟩ := keeps string tree denotes heighted
  rw [hsame.content equivalent.heighted, equivalent.content,
    denotes.content heighted]

def World.KeepsContent (world : World) (after : Store) : Prop :=
  ∀ string ∈ world.live, after.content string = world.store.content string

def World.KeepsOthers (world : World) (self : JsString) (after : Store) : Prop :=
  ∀ string ∈ world.live, string ≠ self →
    after.content string = world.store.content string

def World.joined (world : World) (self other : JsString) : List UInt16 :=
  world.store.content self ++ world.store.content other

theorem World.Sound.keepsContent {world : World} (sound : world.Sound)
    (keeps : world.store.Keeps after) : world.KeepsContent after := by
  intro string member
  obtain ⟨_, denotes, hsound⟩ := sound string member
  exact keeps.content denotes hsound.heighted

/-- The call returns as stated, unless it has one of the named excuses. -/
def World.Yields (world : World) (operation : Operation α)
    (returns : α → Store → Prop) (excuse : Fault → Prop) : Prop :=
  match operation world.store with
  | .ok value after => returns value after
  | .error fault _ => excuse fault

theorem World.Yields.returned (ran : operation world.store = .ok value after)
    (holds : returns value after) :
    Yields world operation returns excuse := by
  rw [Yields, ran]
  exact holds

theorem World.Yields.failed (ran : operation world.store = .error fault after)
    (holds : excuse fault) : Yields world operation returns excuse := by
  rw [Yields, ran]
  exact holds

def World.Gives (world : World) (text : List UInt16) (result : JsString)
    (after : Store) : Prop :=
  after.content result = text ∧ world.KeepsContent after

/-- A rope above the depth limit overflows a traversal stack. -/
def World.Overflows (world : World) (limit : Nat) (strings : List JsString)
    (fault : Fault) : Prop :=
  (∃ message, fault = .panic message) ∧
    ∃ string ∈ strings, limit < world.store.depth string

def AppendAnswers.Starves (answers : AppendAnswers) (fault : Fault) : Prop :=
  answers.reserved = false ∧ fault = .error .outOfMemory

/-- The representation of every string refines its text: each operation
returns what its name says of the texts, and one that fails changes no text.
Only a rope above the depth limit, a result above the length limit, a range
outside the text and a refused reservation keep an operation from returning. -/
structure World.RefinesContent (world : World) : Prop where
  len : ∀ string ∈ world.live,
    world.store.len string = (world.store.content string).length
  codeUnitAt : ∀ string ∈ world.live, ∀ index,
    world.store.codeUnitAt string index =
      .ok (world.store.content string)[index]?
  narrow : ∀ string ∈ world.live, world.store.isWide string = false →
    ∀ unit ∈ world.store.content string, unit ≤ 0xff
  tryConcat : ∀ self ∈ world.live, ∀ other ∈ world.live,
    (world.joined self other).length ≤ maxLen →
    world.Yields (Strings.tryConcat self other)
      (world.Gives (world.joined self other))
      (world.Overflows ropeMaxDepth [self, other])
  concatOwned : ∀ answers self other,
    (Command.concatOwned answers self other).Allowed world →
    (world.joined self other).length ≤ maxLen →
    world.Yields (Strings.concatOwned answers self other)
      (fun result after => after.content result = world.joined self other ∧
        world.KeepsOthers self after)
      (fun fault => answers.Starves fault ∨
        world.Overflows ropeMaxDepth [self, other] fault)
  tryConcatInPlace : ∀ answers self other,
    (Command.tryConcatInPlace answers self other).Allowed world →
    (world.joined self other).length ≤ maxLen →
    world.Yields (Strings.tryConcatInPlace answers self other)
      (fun appended after => after.content self = (if appended then
          world.joined self other else world.store.content self) ∧
        world.KeepsOthers self after)
      answers.Starves
  rebalance : ∀ string ∈ world.live, world.Yields (Strings.rebalance string)
    (world.Gives (world.store.content string))
    (world.Overflows (ropeMaxDepth + 1) [string])
  linearize : ∀ string ∈ world.live, world.Yields (Strings.linearize string)
    (world.Gives (world.store.content string))
    (world.Overflows ropeMaxDepth [string])
  linearize_narrow : ∀ string ∈ world.live, ∀ after,
    Strings.linearize string world.store ≠
      .error (.panic "a narrow String rope contained a wide code unit") after
  subString : ∀ string ∈ world.live, ∀ start stop,
    start ≤ stop → stop ≤ world.store.len string →
    world.Yields (Strings.subString string start stop)
      (world.Gives
        (((world.store.content string).drop start).take (stop - start)))
      (world.Overflows ropeMaxDepth [string])
  subString_range : ∀ string ∈ world.live, ∀ start stop result after,
    Strings.subString string start stop world.store = .ok result after →
    start ≤ stop ∧ stop ≤ world.store.len string
  failure : ∀ self ∈ world.live, ∀ other ∈ world.live, ∀ error after,
    (Strings.tryConcat self other world.store = .error (.error error) after ∨
      ∃ answers, Strings.concatOwned answers self other world.store =
          .error (.error error) after ∨
        Strings.tryConcatInPlace answers self other world.store =
          .error (.error error) after) →
    world.KeepsContent after
  tooLong : ∀ self ∈ world.live, ∀ other ∈ world.live,
    maxLen < (world.joined self other).length →
    Strings.tryConcat self other world.store =
      .error (.error .tooLong) world.store ∧
    ∀ answers,
      Strings.concatOwned answers self other world.store =
        .error (.error .tooLong) world.store ∧
      Strings.tryConcatInPlace answers self other world.store =
        .error (.error .tooLong) world.store

namespace World.Sound

variable {world : World} (sound : world.Sound)
include sound

section

variable (member : string ∈ world.live)
include member

theorem len_content :
    world.store.len string = (world.store.content string).length := by
  obtain ⟨_, denotes, hsound⟩ := sound string member
  rw [denotes.len, denotes.content hsound.heighted,
    StringTree.len_eq_content_length]

theorem rebalance_yields : world.Yields (rebalance string)
    (world.Gives (world.store.content string))
    (world.Overflows (ropeMaxDepth + 1) [string]) := by
  obtain ⟨tree, denotes, hsound⟩ := sound string member
  obtain ⟨_, hbalance, content, heighted⟩ :=
    rebalance?_content hsound.short
  have shallow : tree.depth ≤ 255 := hsound.shallow.trans (by decide)
  rcases rebalance_runs denotes hsound.heighted shallow hbalance with
    ⟨_, _, ran, grown, hvalue⟩ | ⟨deep, message, _, ran, -⟩
  · refine .returned ran ⟨?_, ?_⟩
    · rw [hvalue.content heighted, denotes.content hsound.heighted]
      exact content
    · exact sound.keepsContent grown.keeps
  · exact .failed ran ⟨⟨message, rfl⟩, string, List.mem_singleton_self _,
      denotes.depth ▸ Nat.lt_of_not_le deep⟩

theorem linearize_yields : world.Yields (linearize string)
    (world.Gives (world.store.content string))
    (world.Overflows ropeMaxDepth [string]) := by
  obtain ⟨tree, denotes, hsound⟩ := sound string member
  rcases linearize_spec denotes hsound with
    ⟨_, flat, _, ran, keeps, hvalue, hunits, -⟩ | ⟨deep, ran⟩
  · refine .returned ran ⟨?_, ?_⟩
    · rw [hvalue.content trivial, denotes.content hsound.heighted]
      exact (StringTree.content_leaf flat).trans hunits
    · exact sound.keepsContent keeps
  · exact .failed ran ⟨⟨_, rfl⟩, string, List.mem_singleton_self _,
      denotes.depth ▸ deep.trans_le tree.leftTurns_le_depth⟩

theorem linearize_narrow :
    linearize string world.store ≠
      .error (.panic "a narrow String rope contained a wide code unit")
        after := by
  intro failed
  obtain ⟨_, denotes, hsound⟩ := sound string member
  have spec := linearize_spec denotes hsound
  rw [failed] at spec
  simp [iteratorOverflow] at spec

theorem range_subString
    (ran : subString string start stop world.store = .ok result after) :
    start ≤ stop ∧ stop ≤ world.store.len string := by
  unfold subString at ran
  simp only [Bind.bind, EStateM.bind] at ran
  cases hlinear : linearize string world.store with
  | error =>
    rw [hlinear] at ran
    cases ran
  | ok source middle =>
    obtain ⟨_, denotes, hsound⟩ := sound string member
    have len : middle.len source = world.store.len string := by
      have spec := linearize_spec denotes hsound
      rw [hlinear] at spec
      obtain ⟨_, flat, _, ⟨⟩, -, hvalue, hunits, -⟩ | ⟨-, ⟨⟩⟩ := spec
      rw [hvalue.len, denotes.len, StringTree.len_leaf, Flat.len, hunits,
        StringTree.len_eq_content_length]
    rw [hlinear] at ran
    simp only [show (get : Operation Store) middle = .ok middle middle
      from rfl] at ran
    rw [← len]
    split at ran
    · cases ran
    · split at ran
      · cases ran
      · omega

theorem subString_yields (ordered : start ≤ stop)
    (inside : stop ≤ world.store.len string) :
    world.Yields (subString string start stop)
      (world.Gives
        (((world.store.content string).drop start).take (stop - start)))
      (world.Overflows ropeMaxDepth [string]) := by
  obtain ⟨_, denotes, hsound⟩ := sound string member
  rw [denotes.len] at inside
  rcases subString_spec denotes hsound ordered inside with
    ⟨_, flat, _, ran, keeps, hvalue, hunits⟩ | ⟨deep, ran⟩
  · refine .returned ran ⟨?_, ?_⟩
    · rw [hvalue.content trivial, denotes.content hsound.heighted]
      exact (StringTree.content_leaf flat).trans hunits
    · exact sound.keepsContent keeps
  · exact .failed ran ⟨⟨_, rfl⟩, string, List.mem_singleton_self _,
      denotes.depth ▸ deep⟩

end

section

variable (selfLive : self ∈ world.live) (otherLive : other ∈ world.live)
include selfLive otherLive

theorem length_joined : (world.joined self other).length =
      world.store.len self + world.store.len other := by
  rw [joined, List.length_append, sound.len_content selfLive,
    sound.len_content otherLive]

/-- `try_concat`, also after `concat_owned` has cleared a cached hash. -/
theorem tryConcat_cases (same : world.store.SameData middle)
    (short : (world.joined self other).length ≤ maxLen) :
    (∃ result after, tryConcat self other middle = .ok result after ∧
      world.Gives (world.joined self other) result after) ∨
    ∃ fault after, tryConcat self other middle = .error fault after ∧
      world.Overflows ropeMaxDepth [self, other] fault := by
  rw [sound.length_joined selfLive otherLive] at short
  obtain ⟨_, hself, selfSound⟩ := sound self selfLive
  obtain ⟨_, hother, otherSound⟩ := sound other otherLive
  have outcome := tryConcat_outcome (same.denotes hself) (same.denotes hother)
    selfSound otherSound
  generalize tryConcat self other middle = ended at outcome
  cases outcome with
  | tooLong long =>
    rw [hself.len, hother.len] at short
    omega
  | concatenated result after _ _ grown denotes concatenates =>
    refine .inl ⟨result, after, rfl, ?_, sound.keepsContent
      (same.keeps.trans grown.keeps)⟩
    rw [joined, hself.content selfSound.heighted,
      hother.content otherSound.heighted,
      denotes.content concatenates.sound.heighted]
    exact concatenates.content
  | panicked message after _ deep =>
    refine .inr ⟨_, after, rfl, ⟨message, rfl⟩, ?_⟩
    rw [← hself.depth, ← hother.depth] at deep
    simp only [List.mem_cons, List.not_mem_nil, or_false, exists_eq_or_imp,
      exists_eq_left]
    omega

theorem tryConcat_failed (same : world.store.SameData middle)
    (failed : tryConcat self other middle = .error (.error error) after) :
    world.KeepsContent after := by
  obtain ⟨_, hself, selfSound⟩ := sound self selfLive
  obtain ⟨_, hother, otherSound⟩ := sound other otherLive
  have outcome := tryConcat_outcome (same.denotes hself) (same.denotes hother)
    selfSound otherSound
  rw [failed] at outcome
  cases outcome with
  | tooLong => exact sound.keepsContent same.keeps

theorem keepsContent_of_failure
    (failed : tryConcat self other world.store =
        .error (.error error) after ∨
      ∃ answers, concatOwned answers self other world.store =
          .error (.error error) after ∨
        tryConcatInPlace answers self other world.store =
          .error (.error error) after) : world.KeepsContent after := by
  obtain ⟨_, hself, -⟩ := sound self selfLive
  obtain ⟨_, hother, -⟩ := sound other otherLive
  rcases failed with failed | ⟨answers, failed | failed⟩
  · exact sound.tryConcat_failed selfLive otherLive ⟨rfl, fun _ => rfl⟩ failed
  · have outcome := concatOwned_outcome answers hself hother
    generalize concatOwned answers self other world.store = ended
      at outcome failed
    cases outcome with
    | tooLong =>
      cases failed
      exact fun _ _ => rfl
    | unreserved _ same =>
      cases failed
      exact sound.keepsContent same.keeps
    | left | right | appended => cases failed
    | concatenated _ same =>
      exact sound.tryConcat_failed selfLive otherLive same failed
  · have outcome := tryConcatInPlace_outcome answers hself hother
    rw [failed] at outcome
    cases outcome with
    | tooLong => exact fun _ _ => rfl
    | unreserved _ same => exact sound.keepsContent same.keeps

theorem tooLong_of_length
    (long : maxLen < (world.joined self other).length) :
    tryConcat self other world.store =
      .error (.error .tooLong) world.store ∧ ∀ answers,
      concatOwned answers self other world.store =
        .error (.error .tooLong) world.store ∧
      tryConcatInPlace answers self other world.store =
        .error (.error .tooLong) world.store := by
  rw [sound.length_joined selfLive otherLive] at long
  have lengths := checkedLength_eq_error long
  unfold tryConcat concatOwned tryConcatInPlace
  refine ⟨?_, fun answers => ⟨?_, ?_⟩⟩
  all_goals
    rw [get_bind]
    simp only [Bind.bind, EStateM.bind, liftRead, lengths]

end

theorem content_grown (sole : world.Sole self)
    (hself : Denotes world.store self (.leaf first))
    (hother : Denotes world.store other (.leaf second))
    (grown : world.store.Grown after self (first.append second)) :
    after.content self = world.joined self other ∧
      world.KeepsOthers self after := by
  refine ⟨?_, fun string member different => ?_⟩
  · rw [(grown.denotes_self hself.valid).content trivial, joined,
      hself.content trivial, hother.content trivial]
    simp
  · obtain ⟨_, denotes, hsound⟩ := sound string member
    rw [(grown.denotes_other (sole.apart member different) denotes).content
      hsound.heighted, denotes.content hsound.heighted]

theorem concatOwned_yields
    (allowed : (Command.concatOwned answers self other).Allowed world)
    (short : (world.joined self other).length ≤ maxLen) :
    world.Yields (concatOwned answers self other)
      (fun result after => after.content result = world.joined self other ∧
        world.KeepsOthers self after)
      (fun fault => answers.Starves fault ∨
        world.Overflows ropeMaxDepth [self, other] fault) := by
  obtain ⟨⟨selfLive, otherLive⟩, selfTree, otherTree, hself, hother, -⟩ :=
    sound.pair allowed rfl
  have length := sound.length_joined selfLive otherLive
  have selfLength := sound.len_content selfLive
  have otherLength := sound.len_content otherLive
  rw [hself.len, hother.len] at length
  rw [hself.len] at selfLength
  rw [hother.len] at otherLength
  have outcome := concatOwned_outcome answers hself hother
  generalize ran : concatOwned answers self other world.store = ended
    at outcome
  cases outcome with
  | tooLong => omega
  | unreserved _ _ failed => exact .failed ran (.inl ⟨failed, rfl⟩)
  | left empty =>
    rw [empty] at otherLength
    rw [joined, List.eq_nil_of_length_eq_zero otherLength.symm]
    exact .returned ran ⟨(List.append_nil _).symm, fun _ _ _ => rfl⟩
  | right empty =>
    rw [empty] at selfLength
    rw [joined, List.eq_nil_of_length_eq_zero selfLength.symm]
    exact .returned ran ⟨rfl, fun _ _ _ => rfl⟩
  | appended _ _ _ exclusive selfFlat otherFlat _ grown =>
    subst selfFlat otherFlat
    exact .returned ran (sound.content_grown
      (allowed.exclusive answers self other (.inl rfl) exclusive)
      hself hother grown)
  | concatenated _ same =>
    rcases sound.tryConcat_cases selfLive otherLive same short with
      ⟨_, _, ended, content, keeps⟩ | ⟨_, _, ended, deep⟩
    · exact .returned (ran.trans ended)
        ⟨content, fun string member _ => keeps string member⟩
    · exact .failed (ran.trans ended) (.inr deep)

theorem tryConcatInPlace_yields
    (allowed : (Command.tryConcatInPlace answers self other).Allowed world)
    (short : (world.joined self other).length ≤ maxLen) :
    world.Yields (tryConcatInPlace answers self other)
      (fun appended after => after.content self = (if appended then
          world.joined self other else world.store.content self) ∧
        world.KeepsOthers self after)
      answers.Starves := by
  obtain ⟨⟨selfLive, otherLive⟩, selfTree, otherTree, hself, hother, -⟩ :=
    sound.pair allowed rfl
  rw [sound.length_joined selfLive otherLive, hself.len, hother.len] at short
  have outcome := tryConcatInPlace_outcome answers hself hother
  generalize ran : tryConcatInPlace answers self other world.store =
    ended at outcome
  cases outcome with
  | tooLong => omega
  | unreserved _ _ failed => exact .failed ran ⟨failed, rfl⟩
  | declined _ same =>
    have keeps := sound.keepsContent same.keeps
    exact .returned ran ⟨by simpa using keeps self selfLive,
      fun string member _ => keeps string member⟩
  | appended _ _ _ exclusive selfFlat otherFlat _ grown =>
    subst selfFlat otherFlat
    refine .returned ran ?_
    simpa using sound.content_grown
      (allowed.exclusive answers self other (.inr rfl) exclusive)
      hself hother grown

end World.Sound

/-- In every world a program can reach, however deep its ropes are, the
representation refines the sequence of units. -/
theorem content_refined {world : World}
    (reached : programs.Reachable (fun _ _ => True) world) :
    world.RefinesContent := by
  have sound := reachable_sound reached
  exact {
    len := fun _ => sound.len_content
    codeUnitAt := fun string member index => by
      obtain ⟨tree, denotes, hsound⟩ := sound string member
      rw [denotes.content hsound.heighted]
      exact denotes.codeUnitAt hsound.heighted index
    narrow := fun string member wide unit inside => by
      obtain ⟨_, denotes, hsound⟩ := sound string member
      rw [denotes.content hsound.heighted] at inside
      exact StringTree.narrow (denotes.isWide ▸ wide) inside
    tryConcat := fun self selfLive other otherLive short => by
      rcases sound.tryConcat_cases selfLive otherLive ⟨rfl, fun _ => rfl⟩
        short with ⟨_, _, ran, holds⟩ | ⟨_, _, ran, deep⟩
      · exact .returned ran holds
      · exact .failed ran deep
    concatOwned := fun _ _ _ => sound.concatOwned_yields
    tryConcatInPlace := fun _ _ _ => sound.tryConcatInPlace_yields
    rebalance := fun _ => sound.rebalance_yields
    linearize := fun _ => sound.linearize_yields
    linearize_narrow := fun _ member _ => sound.linearize_narrow member
    subString := fun _ member _ _ => sound.subString_yields member
    subString_range := fun _ member _ _ _ _ => sound.range_subString member
    failure := fun _ selfLive _ otherLive _ _ =>
      sound.keepsContent_of_failure selfLive otherLive
    tooLong := fun _ selfLive _ otherLive =>
      sound.tooLong_of_length selfLive otherLive }

theorem content_refined_splitPair : splitPair.RefinesContent ∧
      splitPair.store.content 2 =
        [0x4e2d, 0xd83d] ++ 0xde00 :: List.replicate 512 98 :=
  ⟨content_refined (splitPair_reachable.weaken fun _ _ _ => trivial),
    by decide +kernel⟩

end QuickJsOxide.Strings
