import QuickJsOxide.Collections.Validation
import QuickJsOxide.Library.TransitionSystem

namespace QuickJsOxide.Collections

open Library List CollectionRecords

/-! Collections as tables in the order of insertion. -/

inductive RecordCommand where
  | insert (record : MapRecord)
  | replaceValue (id : Nat) (value : RawValue)
  | remove (id : Nat)
  | takeAll

inductive Answer where
  | inserted (id : Nat)
  | rejected
  | replaced (previous : Option RawValue)
  | removed (record : Option MapRecord)
  | taken (records : List MapRecord)
deriving Repr

/-- A command with the hash its key has, as the heap runs it. -/
def CollectionRecords.execute (seed : UInt64) (leaves : Leaves)
    (records : CollectionRecords) :
    RecordCommand → Except Failure (Answer × CollectionRecords)
  | .insert record =>
    match records.preflightInsert with
    | .error _ => .ok (.rejected, records)
    | .ok _ => do
      let (id, after) ← records.insertHashed record
        (records.keyIndex.hashUncached seed leaves record.key)
      return (.inserted id, after)
  | .replaceValue id value => do
    let (previous, after) ← records.replaceValue id value
    return (.replaced previous, after)
  | .remove id => do
    let (record, after) ← records.remove id
    return (.removed record, after)
  | .takeAll => do
    let (taken, after) ← records.takeAll
    return (.taken taken, after)

def specify (table : OrderedTable MapRecord) :
    RecordCommand → Answer × OrderedTable MapRecord
  | .insert record =>
    if table.nextId < maxIdentity then
      (.inserted table.nextId, table.insert record)
    else (.rejected, table)
  | .replaceValue id value =>
    match table.lookup id with
    | none => (.replaced none, table)
    | some record =>
      (.replaced (some record.value), table.replace id ⟨record.key, value⟩)
  | .remove id =>
    match table.lookup id with
    | none => (.removed none, table)
    | some record => (.removed (some record), table.remove id)
  | .takeAll => (.taken (table.entries.map Prod.snd), table.clear)

section

variable {records after : CollectionRecords} {record : MapRecord} {id : Nat}

theorem execute_insert (clock : records.nextId < maxIdentity)
    (inserted : records.insertHashed record
      (records.keyIndex.hashUncached seed leaves record.key) =
        .ok (id, after)) : records.execute seed leaves (.insert record) =
      .ok (.inserted id, after) := by
  unfold execute preflightInsert
  dsimp only
  rw [ensure, if_pos clock]
  dsimp only
  rw [inserted]
  rfl

theorem specify_insert (clock : table.nextId < maxIdentity) :
    specify table (.insert record) =
      (.inserted table.nextId, table.insert record) :=
  if_pos clock

end

theorem follows_specify (table : OrderedTable MapRecord) (command : RecordCommand) :
    table.Follows (specify table command).2 := by
  cases command with
  | insert record =>
    unfold specify
    dsimp only
    split
    · exact table.follows_insert record
    · exact .refl table
  | replaceValue =>
    unfold specify
    dsimp only
    split
    · exact .refl table
    · exact table.follows_replace _ _
  | remove id =>
    unfold specify
    dsimp only
    split
    · exact .refl table
    · exact table.follows_remove id
  | takeAll => exact table.follows_clear

structure Represents (seed : UInt64) (leaves : Leaves)
    (records : CollectionRecords) (table : OrderedTable MapRecord) :
    Prop where
  wellFormed : records.WellFormed
  hashed : records.Hashed seed leaves
  entries : listed records.live records.slots = table.entries
  clock : records.nextId = table.nextId

namespace Represents

variable {records after : CollectionRecords}
  {table later : OrderedTable MapRecord}

theorem new (keyHasher : KeyHasher) :
    Represents seed leaves (.new keyHasher) .empty :=
  ⟨wellFormed_new keyHasher, by rintro _ _ ⟨⟩, rfl, rfl⟩

section

variable (represents : Represents seed leaves records table)

include represents

variable {id : Nat} {record : MapRecord} {slot : Slot}

theorem lookup (member : (id, slot) ∈ records.entries) :
    table.lookup id = some slot.record := by
  rw [table.lookup_eq_some_iff, ← represents.entries]
  exact mem_map_of_mem (f := recorded) member

theorem lookup_eq_some_iff : table.lookup id = some record ↔
      ∃ slot, (id, slot) ∈ records.entries ∧ slot.record = record := by
  constructor
  · intro found
    rw [table.lookup_eq_some_iff, ← represents.entries] at found
    obtain ⟨⟨_, slot⟩, member, same⟩ := mem_map.mp found
    cases same
    exact ⟨slot, member, rfl⟩
  · rintro ⟨slot, member, rfl⟩
    exact represents.lookup member

theorem lookup_of_missing (absent : ∀ slot, (id, slot) ∉ records.entries) :
    table.lookup id = none := by
  apply Option.eq_none_iff_forall_ne_some.mpr
  intro record found
  obtain ⟨slot, member, _⟩ := represents.lookup_eq_some_iff.mp found
  exact absent slot member

theorem get (id : Nat) : records.get id = .ok (table.lookup id) := by
  rcases represents.wellFormed.get id with
    ⟨absent, missing⟩ | ⟨slot, member, found⟩
  · rw [missing, represents.lookup_of_missing absent]
  · rw [found, represents.lookup member]

omit represents in
theorem of_becomes {entries : List (Nat × Slot)} {issued : Nat}
    (becomes : records.Becomes entries issued after)
    (hashed : ∀ id slot, (id, slot) ∈ entries →
      slot.hash = records.keyIndex.hashUncached seed leaves slot.record.key)
    (same : entries.map recorded = later.entries)
    (clock : issued = later.nextId) : Represents seed leaves after later := by
  refine ⟨becomes.wellFormed, ?_, ?_, becomes.clock.trans clock⟩
  · intro id slot member
    rw [hashUncached_of_keyHasher becomes.keyHasher]
    exact hashed id slot (becomes.entries ▸ member)
  · rw [listed, show entriesIn _ _ = entries from becomes.entries, same]

theorem insert (room : records.slots.length < dead.toNat)
    (clock : table.nextId < maxIdentity) (record : MapRecord) :
    ∃ after, records.insertHashed record
        (records.keyIndex.hashUncached seed leaves record.key) =
          .ok (table.nextId, after) ∧
      after.slots.length = records.slots.length + 1 ∧
      Represents seed leaves after (table.insert record) := by
  rw [← represents.clock] at clock
  obtain ⟨after, inserted, grown, becomes⟩ :=
    represents.wellFormed.insertHashed room clock record
      (records.keyIndex.hashUncached seed leaves record.key)
  refine ⟨after, represents.clock ▸ inserted, grown, ?_⟩
  apply of_becomes becomes
  · intro id slot member
    rw [mem_append, mem_singleton, Prod.mk.injEq] at member
    rcases member with old | ⟨_, rfl⟩
    · exact represents.hashed id slot old
    · rfl
  · rw [map_append, represents.clock]
    exact congrArg (· ++ _) represents.entries
  · exact congrArg (· + 1) represents.clock

variable {before rest : List (Nat × Slot)}
  (split : records.entries = before ++ (id, slot) :: rest)

include split

theorem entries_split : table.entries =
      before.map recorded ++ (id, slot.record) :: rest.map recorded := by
  rw [← represents.entries, listed, show entriesIn _ _ = _ from split,
    map_append, map_cons]
  rfl

theorem replaceValue (becomes : records.Becomes
      (before ++ (id, ⟨⟨slot.record.key, value⟩, slot.hash⟩) :: rest)
      records.nextId after) : Represents seed leaves after
      (table.replace id ⟨slot.record.key, value⟩) := by
  apply of_becomes becomes
  · intro other read member
    have hashed := represents.hashed
    rw [Hashed, split] at hashed
    simp only [mem_append, mem_cons, Prod.mk.injEq] at member hashed
    rcases member with early | ⟨rfl, rfl⟩ | late
    · exact hashed other read (.inl early)
    · exact hashed other slot (.inr (.inl ⟨rfl, rfl⟩))
    · exact hashed other read (.inr (.inr late))
  · rw [table.entries_replace (represents.entries_split split), map_append,
      map_cons]
    rfl
  · exact represents.clock

theorem remove (becomes : records.Becomes (before ++ rest) records.nextId
      after) : Represents seed leaves after (table.remove id) := by
  apply of_becomes becomes
  · intro other read member
    apply represents.hashed other read
    rw [split, perm_middle.mem_iff]
    exact mem_cons_of_mem _ member
  · rw [table.entries_remove (represents.entries_split split), map_append]
  · exact represents.clock

end

end Represents

/-- An insertion finds a slot number that is not the mark of a deleted
record. -/
def Roomy (records : CollectionRecords) : RecordCommand → Prop
  | .insert _ => records.slots.length < dead.toNat
  | _ => True

namespace Represents

variable {records : CollectionRecords} {table : OrderedTable MapRecord}

theorem execute (represents : Represents seed leaves records table)
    (command : RecordCommand) (roomy : Roomy records command) :
    ∃ after, records.execute seed leaves command =
        .ok ((specify table command).1, after) ∧
      Represents seed leaves after (specify table command).2 := by
  have wellFormed := represents.wellFormed
  cases command with
  | insert record =>
    by_cases clock : table.nextId < maxIdentity
    · obtain ⟨after, inserted, _, later⟩ :=
        represents.insert roomy clock record
      rw [specify_insert clock]
      rw [← represents.clock] at clock
      exact ⟨after, execute_insert clock inserted, later⟩
    · refine ⟨records, ?_, ?_⟩
      · unfold CollectionRecords.execute specify CollectionRecords.preflightInsert
        dsimp only
        rw [represents.clock, ensure, if_neg clock, if_neg clock]
      · unfold specify
        dsimp only
        rw [if_neg clock]
        exact represents
  | replaceValue id value =>
    unfold CollectionRecords.execute specify
    dsimp only
    rcases wellFormed.replaceValue id value with ⟨missing, replaced⟩ |
      ⟨_, slot, _, after, split, replaced, becomes⟩
    · rw [replaced, represents.lookup_of_missing missing]
      exact ⟨records, rfl, represents⟩
    · rw [replaced, represents.lookup (mem_of_split split)]
      exact ⟨after, rfl, represents.replaceValue split becomes⟩
  | remove id =>
    unfold CollectionRecords.execute specify
    dsimp only
    rcases wellFormed.remove id with ⟨missing, removed⟩ |
      ⟨_, slot, _, after, split, removed, becomes⟩
    · rw [removed, represents.lookup_of_missing missing]
      exact ⟨records, rfl, represents⟩
    · rw [removed, represents.lookup (mem_of_split split)]
      exact ⟨after, rfl, represents.remove split becomes⟩
  | takeAll =>
    obtain ⟨after, taken, becomes⟩ := wellFormed.takeAll
    refine ⟨after, ?_, of_becomes becomes (by rintro _ _ ⟨⟩) rfl
      represents.clock⟩
    unfold CollectionRecords.execute specify
    dsimp only
    rw [taken, ← represents.entries, listed, map_map]
    rfl

theorem find (represents : Represents seed leaves records table)
    (key : RawValue) :
    ∃ found, records.findInBucket leaves key (records.keyIndex.buckets
        (records.keyIndex.hashUncached seed leaves key)) = .ok found ∧
      (∀ id record, found = some (id, record) → table.lookup id = some record ∧
          sameValueZero leaves record.key key) ∧
      (found = none → ∀ id record, table.lookup id = some record →
        ¬ sameValueZero leaves record.key key) := by
  obtain ⟨found, searched, right, missing⟩ :=
    represents.wellFormed.find represents.hashed key
  refine ⟨found, searched, ?_, ?_⟩
  · intro id record same
    obtain ⟨slot, member, rfl, equal⟩ := right id record same
    exact ⟨represents.lookup member, equal⟩
  · intro none id record known
    obtain ⟨slot, member, rfl⟩ := represents.lookup_eq_some_iff.mp known
    exact missing none id slot member

end Represents

/-- A heap, one collection of it, the table the collection stands for and one
of its iterators. -/
structure CollectionWorld where
  leaves : Leaves
  records : CollectionRecords
  table : OrderedTable MapRecord
  iteration : OrderedTable.Iteration

inductive CollectionEvent where
  | command (command : RecordCommand)
  | heap (leaves : Leaves)
  | iterate (start : Nat)
  | advance

variable (seed : UInt64)

def collectionRuns (keyHasher : KeyHasher) :
    TransitionSystem CollectionWorld CollectionEvent where
  initial world := world.records = .new keyHasher ∧ world.table = .empty ∧
    world.iteration = .begin 0
  step world event after :=
    match event with
    | .command command => ∃ answer records,
        world.records.execute seed world.leaves command =
          .ok (answer, records) ∧
        after = { world with
          records, table := (specify world.table command).2 }
    | .heap leaves => after = { world with leaves }
    | .iterate start => after = { world with iteration := .begin start }
    | .advance => ∃ next,
        world.records.nextAtOrAfter world.iteration.cursor = .ok next ∧
        after = { world with iteration := world.iteration.advance next }

/-- Hashes stay right while the heap changes, and an iteration does not begin
behind the records that will come. -/
def Proper (world : CollectionWorld) : CollectionEvent → Prop
  | .heap leaves => world.records.Hashed seed leaves
  | .iterate start => start ≤ world.records.nextId
  | _ => True

def AdmitsRoomy (world : CollectionWorld) (event : CollectionEvent) : Prop :=
  Proper seed world event ∧
    ∀ command, event = .command command → Roomy world.records command

structure Refines (world : CollectionWorld) : Prop where
  entries : listed world.records.live world.records.slots =
    world.table.entries
  clock : world.records.nextId = world.table.nextId
  size : world.records.liveLen = world.table.entries.length
  answers : ∀ command, Roomy world.records command →
    ∃ after, world.records.execute seed world.leaves command =
      .ok ((specify world.table command).1, after)
  get : ∀ id, world.records.get id = .ok (world.table.lookup id)
  find : ∀ key, ∃ found, world.records.findInBucket world.leaves key
      (world.records.keyIndex.buckets
        (world.records.keyIndex.hashUncached seed world.leaves key)) =
        .ok found ∧
    (∀ id record, found = some (id, record) →
      world.table.lookup id = some record ∧
        sameValueZero world.leaves record.key key) ∧
    (found = none → ∀ id record, world.table.lookup id = some record →
      ¬ sameValueZero world.leaves record.key key)
  valid : ∀ hashes,
    Enumerates hashes world.records.keyIndex.buckets →
      world.records.validate seed world.leaves hashes = .ok ()
  next : ∀ cursor, world.records.nextAtOrAfter cursor =
    .ok (world.table.firstFrom cursor)
  /-- Nothing is shown twice. -/
  once : world.iteration.visited.Pairwise (· < ·)
  /-- Nothing that is present is skipped. -/
  passed : ∀ entry ∈ world.table.entries,
    world.iteration.start ≤ entry.1 → entry.1 < world.iteration.cursor →
      entry.1 ∈ world.iteration.visited
  /-- At the end everything present has been shown. -/
  finished : world.table.firstFrom world.iteration.cursor = none →
    ∀ entry ∈ world.table.entries, world.iteration.start ≤ entry.1 →
      entry.1 ∈ world.iteration.visited

variable {seed}

theorem represents_of_reachable
    (reached : (collectionRuns seed keyHasher).Reachable (AdmitsRoomy seed)
      world) : Represents seed world.leaves world.records world.table ∧
      world.iteration.Faithful world.table := by
  apply reached.invariant fun world =>
    Represents seed world.leaves world.records world.table ∧
      world.iteration.Faithful world.table
  · intro state start
    obtain ⟨records, table, iteration⟩ := start
    rw [records, table, iteration]
    exact ⟨.new keyHasher, .begin 0 (Nat.le_refl 0)⟩
  · intro before event after known admitted taken
    obtain ⟨represents, faithful⟩ := known
    obtain ⟨proper, roomy⟩ := admitted
    cases event with
    | command command =>
      obtain ⟨answer, records, executed, rfl⟩ := taken
      obtain ⟨_, right, later⟩ :=
        represents.execute command (roomy command rfl)
      rw [executed] at right
      cases right
      exact ⟨later, faithful.follow (follows_specify _ command)⟩
    | heap =>
      obtain rfl := taken
      exact ⟨⟨represents.wellFormed, proper, represents.entries,
        represents.clock⟩, faithful⟩
    | iterate start =>
      obtain rfl := taken
      exact ⟨represents, .begin start (represents.clock ▸ proper)⟩
    | advance =>
      obtain ⟨_, answer, rfl⟩ := taken
      rw [represents.wellFormed.nextAtOrAfter, represents.entries] at answer
      cases answer
      exact ⟨represents, faithful.advance⟩

/-- Every run in which insertions find room refines a run of the table. -/
theorem refines_of_reachable {keyHasher : KeyHasher} {world : CollectionWorld}
    (reached : (collectionRuns seed keyHasher).Reachable (AdmitsRoomy seed)
      world) : Refines seed world := by
  obtain ⟨represents, faithful⟩ := represents_of_reachable reached
  have wellFormed := represents.wellFormed
  refine
    { entries := represents.entries, clock := represents.clock
      size := ?size, answers := ?answers, get := represents.get
      find := represents.find, valid := ?valid, next := ?next
      once := faithful.increasing, passed := faithful.complete
      finished := faithful.finished }
  case size =>
    rw [← wellFormed.length_entries, ← represents.entries, listed, length_map]
    rfl
  case answers =>
    intro command roomy
    obtain ⟨after, executed, _⟩ := represents.execute command roomy
    exact ⟨after, executed⟩
  case valid =>
    intro hashes enumerates
    exact wellFormed.validate represents.hashed enumerates
  case next =>
    intro cursor
    rw [wellFormed.nextAtOrAfter, represents.entries]
    rfl

theorem refines_two_insertions :
    ∃ world, (collectionRuns 0 fun _ => 0).Reachable (AdmitsRoomy 0) world ∧
      world.table.entries = [(1, ⟨.int 2, .null⟩)] ∧
      world.iteration.visited = [0] ∧ Refines 0 world := by
  have r0 : (collectionRuns 0 fun _ => 0).Reachable (AdmitsRoomy 0)
      ⟨.empty, .new fun _ => 0, .empty, .begin 0⟩ :=
    .initial _ ⟨rfl, rfl, rfl⟩
  have roomy : ∀ {records : CollectionRecords}, records.slots.length < 9 →
      ∀ command, Roomy records command := by
    intro records few command
    cases command with
    | insert => exact Nat.lt_trans few (by decide)
    | _ => trivial
  have r1 := r0.step _ _ (CollectionEvent.command (.insert ⟨.int 1, .null⟩))
    ⟨trivial, fun _ _ => roomy (by decide) _⟩ ⟨_, _, rfl, rfl⟩
  have r2 := r1.step _ _ (CollectionEvent.command (.insert ⟨.int 2, .null⟩))
    ⟨trivial, fun _ _ => roomy (by decide) _⟩ ⟨_, _, rfl, rfl⟩
  have r3 := r2.step _ _ CollectionEvent.advance ⟨trivial, nofun⟩
    ⟨_, rfl, rfl⟩
  have r4 := r3.step _ _ (CollectionEvent.command (.remove 0))
    ⟨trivial, fun _ _ => roomy (by decide) _⟩ ⟨_, _, rfl, rfl⟩
  exact ⟨_, r4, rfl, rfl, refines_of_reachable r4⟩

namespace CollectionRecords

variable {records after : CollectionRecords}

/-- Deleted records keep a bounded share of the slots. -/
def Compact (records : CollectionRecords) : Prop :=
  records.slots.length ≤ records.liveLen * 4 + 64

theorem compact_of_removeEntry (wellFormed : after.WellFormed)
    (removed : records.removeEntry position entry = .ok (record, after)) :
    after.Compact := by
  simp only [removeEntry, bind_eq_ok] at removed
  obtain ⟨_, _, _, _, removed⟩ := removed
  split at removed
  · obtain ⟨_, compacted, rest⟩ := bind_eq_ok.mp removed
    cases rest
    obtain ⟨_, _, rest⟩ := bind_eq_ok.mp compacted
    cases rest
    have aligned := wellFormed.aligned
    have counted := wellFormed.counted
    simp [Compact, countP_eq_length_filter] at *
    omega
  · cases removed
    exact Nat.le_of_not_lt ‹_›

theorem Compact.execute (compact : records.Compact)
    (wellFormed : after.WellFormed)
    (executed : records.execute seed leaves command = .ok (answer, after)) :
    after.Compact := by
  cases command with
  | insert =>
    unfold CollectionRecords.execute at executed
    dsimp only at executed
    split at executed
    · cases executed
      exact compact
    · simp only [insertHashed, bind_eq_ok, pure_eq_ok] at executed
      obtain ⟨_, ⟨_, _, _, _, rfl⟩, _, rfl⟩ := executed
      simp [Compact] at *
      omega
  | replaceValue =>
    obtain ⟨_, replaced, rest⟩ := bind_eq_ok.mp executed
    cases rest
    unfold replaceValue at replaced
    split at replaced
    · cases replaced
      exact compact
    · obtain ⟨_, _, rest⟩ := bind_eq_ok.mp replaced
      cases rest
      simpa [Compact] using compact
  | remove =>
    obtain ⟨_, removed, rest⟩ := bind_eq_ok.mp executed
    cases rest
    unfold remove at removed
    split at removed
    · cases removed
      exact compact
    · split at removed
      · cases removed
      · split at removed
        · cases removed
          exact compact
        · exact compact_of_removeEntry wellFormed removed
  | takeAll =>
    obtain ⟨_, taken, rest⟩ := bind_eq_ok.mp executed
    cases rest
    obtain ⟨_, _, rest⟩ := bind_eq_ok.mp taken
    cases rest
    exact Nat.zero_le _

end CollectionRecords

theorem compact_of_reachable
    (reached : (collectionRuns seed keyHasher).Reachable (AdmitsRoomy seed)
      world) : world.records.Compact := by
  induction reached with
  | initial _ start =>
    rw [start.1]
    exact Nat.zero_le _
  | step _ _ event reached admitted taken ih =>
    have later := (represents_of_reachable
      (reached.step _ _ event admitted taken)).1.wellFormed
    cases event with
    | command =>
      obtain ⟨_, _, executed, rfl⟩ := taken
      exact ih.execute later executed
    | heap | iterate =>
      obtain rfl := taken
      exact ih
    | advance =>
      obtain ⟨_, _, rfl⟩ := taken
      exact ih

def CollectionWorld.perform (world : CollectionWorld) (command : RecordCommand) :
    Option CollectionWorld :=
  match world.records.execute 0 world.leaves command with
  | .ok (_, records) =>
    if world.records.slots.length < dead.toNat then
      some { world with records, table := (specify world.table command).2 }
    else none
  | .error _ => none

theorem reachable_perform {world after : CollectionWorld}
    (reached : (collectionRuns 0 keyHasher).Reachable (AdmitsRoomy 0) world)
    (performed : world.perform command = some after) :
    (collectionRuns 0 keyHasher).Reachable (AdmitsRoomy 0) after := by
  unfold CollectionWorld.perform at performed
  split at performed
  next answer records executed =>
    split at performed
    next room =>
      cases performed
      refine reached.step _ _ (CollectionEvent.command command)
        ⟨trivial, ?_⟩ ⟨answer, records, executed, rfl⟩
      rintro _ ⟨⟩
      cases command with
      | insert => exact room
      | replaceValue | remove | takeAll => trivial
    next => cases performed
  next => cases performed

theorem reachable_foldlM (commands : List RecordCommand)
    {world after : CollectionWorld}
    (reached : (collectionRuns 0 keyHasher).Reachable (AdmitsRoomy 0) world)
    (performed : commands.foldlM CollectionWorld.perform world = some after) :
    (collectionRuns 0 keyHasher).Reachable (AdmitsRoomy 0) after := by
  induction commands generalizing world with
  | nil =>
    cases performed
    exact reached
  | cons command rest ih =>
    obtain ⟨_, first, later⟩ := Option.bind_eq_some_iff.mp performed
    exact ih (reachable_perform reached first) later

/-- Seventy insertions, and the removal of all records but the last. -/
def thinning : List RecordCommand :=
  (range 70).map (fun key => .insert ⟨.int (.ofNat key), .null⟩) ++
    (range 69).map .remove

theorem compact_thinning : ∃ world, (collectionRuns 0 fun _ => 0).Reachable
      (AdmitsRoomy 0) world ∧
    world.records.slots.length = 1 ∧ world.records.Compact := by
  have length : (thinning.foldlM CollectionWorld.perform
      ⟨.empty, .new fun _ => 0, .empty, .begin 0⟩).map
        (·.records.slots.length) = some 1 := by decide +kernel
  obtain ⟨world, performed, compacted⟩ := Option.map_eq_some_iff.mp length
  have reached := reachable_foldlM thinning (.initial _ ⟨rfl, rfl, rfl⟩)
    performed
  exact ⟨world, reached, compacted, compact_of_reachable reached⟩

/-! The slot whose number is the mark of a deleted record. -/

theorem exists_reachable_slots (count : Nat) : count ≤ dead.toNat →
      ∃ world, (collectionRuns seed keyHasher).Reachable (AdmitsRoomy seed)
          world ∧ world.records.slots.length = count ∧
        world.table.nextId = count := by
  induction count with
  | zero =>
    intro _
    exact ⟨⟨.empty, .new keyHasher, .empty, .begin 0⟩,
      .initial _ ⟨rfl, rfl, rfl⟩, rfl, rfl⟩
  | succ count ih =>
    intro fits
    obtain ⟨world, reached, filled, clock⟩ := ih (Nat.le_of_succ_le fits)
    obtain ⟨represents, _⟩ := represents_of_reachable reached
    have room : world.records.slots.length < dead.toNat := by
      rw [filled]
      exact fits
    have early : world.table.nextId < maxIdentity := by
      rw [clock]
      exact Nat.lt_of_lt_of_le fits (by decide)
    let record : MapRecord := ⟨.float (UInt64.ofNat count), .undefined⟩
    obtain ⟨after, inserted, grown, later⟩ :=
      represents.insert room early record
    have executed := execute_insert (represents.clock ▸ early) inserted
    refine ⟨_, reached.step _ _ (CollectionEvent.command (.insert record))
      ⟨trivial, ?_⟩ ⟨_, after, executed, rfl⟩, ?_, ?_⟩
    · intro command same
      cases same
      exact room
    · rw [grown, filled]
    · dsimp only
      rw [specify_insert early, ← clock]
      rfl

def CollectionRecords.overfilled (records : CollectionRecords) (record : MapRecord)
    (hash : UInt64) : CollectionRecords where
  slots := records.slots ++ [⟨record, hash⟩]
  live := records.live ++ [⟨records.nextId, dead⟩]
  liveLen := records.liveLen + 1
  keyIndex := records.keyIndex.insertHashed hash records.nextId
  nextId := records.nextId + 1

namespace CollectionRecords

variable {records : CollectionRecords} {hash : UInt64}

theorem insertHashed_of_full (full : records.slots.length = dead.toNat)
    (clock : records.nextId < maxIdentity) : records.insertHashed record hash =
      .ok (records.nextId, records.overfilled record hash) := by
  have number : slotNumber records.slots.length = .ok dead := by
    rw [full]
    decide
  unfold insertHashed
  rw [number, ensure, if_pos clock]
  rfl

section

variable (wellFormed : records.WellFormed)

include wellFormed

theorem ordered_overfilled :
    ((records.overfilled record hash).live.map LiveEntry.id).Pairwise
      (· < ·) := by
  unfold overfilled
  rw [map_append, pairwise_append]
  refine ⟨wellFormed.ordered, pairwise_singleton _ _, ?_⟩
  intro earlier member later last
  obtain ⟨_, inside, rfl⟩ := mem_map.mp member
  rw [map_singleton] at last
  rw [mem_singleton.mp last]
  exact wellFormed.issued _ inside

theorem get_overfilled :
    (records.overfilled record hash).get records.nextId = .ok none := by
  have missing : (records.overfilled record hash).liveEntry
      records.nextId = none := by
    apply Option.eq_none_iff_forall_ne_some.mpr
    intro entry found
    simp only [liveEntry, bind_eq_some] at found
    obtain ⟨position, searched, other, here, answer⟩ := found
    obtain ⟨again, there, same⟩ := (binarySearchByKey_eq_some_iff
      (ordered_overfilled wellFormed)).mp searched
    rw [here] at there
    cases there
    split at answer
    · rename_i live
      cases answer
      rcases mem_append.mp (mem_of_getElem? here) with old | new
      · exact absurd same (Nat.ne_of_lt (wellFormed.issued _ old))
      · rw [mem_singleton.mp new] at live
        exact live rfl
    · cases answer
  unfold get
  rw [missing]

theorem nextAtOrAfter_overfilled :
    (records.overfilled record hash).nextAtOrAfter records.nextId =
      .ok none := by
  have nothing : ((records.overfilled record hash).live.find? fun entry =>
      !decide (entry.id < records.nextId) &&
        decide (entry.slot ≠ dead)) = none := by
    apply find?_eq_none.mpr
    intro entry member
    rcases mem_append.mp member with old | new
    · simp [wellFormed.issued _ old]
    · rw [mem_singleton.mp new]
      simp
  unfold nextAtOrAfter
  dsimp only
  rw [find?_drop_partitionPoint
    (partitioned_lt (ordered_overfilled wellFormed) _), nothing]

theorem validate_overfilled (hashes : List UInt64) :
    (records.overfilled record hash).validate seed leaves hashes =
      .error (.error
        (.invariant "collection record IDs do not match live storage")) := by
  have live : ∀ entry ∈ (records.overfilled record hash).live,
      entry.slot ≠ dead → entry ∈ records.live := by
    intro entry member live
    rcases mem_append.mp member with old | new
    · exact old
    · rw [mem_singleton.mp new] at live
      exact absurd rfl live
  have laid : Laid (records.overfilled record hash).live
      (records.overfilled record hash).slots := by
    refine ⟨?_, ?_⟩
    · intro entry member used
      have bound := wellFormed.laid.placed entry (live entry member used) used
      unfold overfilled
      rw [length_append]
      exact Nat.lt_add_right _ bound
    · unfold overfilled
      rw [pairwise_append]
      refine ⟨wellFormed.laid.apart, pairwise_singleton _ _, ?_⟩
      intro earlier _ later last same
      rw [same, mem_singleton.mp last]
  obtain ⟨occupied, checked, counted⟩ := validateLive_eq
    (records.overfilled record hash).slots.length (records.nextId + 1)
    (records.overfilled record hash).live none
    (replicate (records.overfilled record hash).slots.length false)
    (ordered_overfilled wellFormed)
    (by
      intro entry member
      rcases mem_append.mp member with old | new
      · exact Nat.lt_succ_of_lt (wellFormed.issued _ old)
      · rw [mem_singleton.mp new]
        exact Nat.lt_succ_self _)
    (by
      intro _ _ last none
      cases none)
    laid
    (by
      intro entry member used
      have wider := laid.placed entry member used
      refine ⟨wider, ?_⟩
      rw [getElem?_replicate, if_pos wider])
  have fewer : occupied.countP id ≠
      (records.overfilled record hash).liveLen := by
    have before := wellFormed.counted
    rw [counted, countP_replicate]
    unfold overfilled
    dsimp only
    rw [countP_append, ← before]
    simp
  unfold validate
  rw [show (records.overfilled record hash).nextId = records.nextId + 1
    from rfl, checked]
  dsimp only [bind, Except.bind]
  rw [ensure, if_neg fun both => fewer both.1]

end

end CollectionRecords

/-- After the insertion that fills the last slot number the record is there
and is not found, and the validation fails. -/
theorem last_slot_lost :
    ∃ world, (collectionRuns 0 fun _ => 0).Reachable (Proper 0) world ∧
      world.table.nextId = 2 ^ 32 ∧
      (∃ record, (2 ^ 32 - 1, record) ∈ world.table.entries) ∧
      world.records.get (2 ^ 32 - 1) = .ok none ∧
      world.records.nextAtOrAfter (2 ^ 32 - 1) = .ok none ∧
      ∀ hashes, world.records.validate 0 world.leaves hashes =
        .error (.error
          (.invariant "collection record IDs do not match live storage")) := by
  have full : ∃ world,
      (collectionRuns 0 fun _ => 0).Reachable (AdmitsRoomy 0) world ∧
      world.records.slots.length = dead.toNat ∧
      world.table.nextId = dead.toNat :=
    exists_reachable_slots _ (Nat.le_refl _)
  obtain ⟨world, reached, filled, clock⟩ := full
  obtain ⟨represents, _⟩ := represents_of_reachable reached
  have proper := reached.weaken fun _ _ admitted => admitted.1
  have wellFormed := represents.wellFormed
  have issued : world.records.nextId = 2 ^ 32 - 1 :=
    represents.clock.trans clock
  have early : world.records.nextId < maxIdentity := by
    rw [issued]
    decide
  let record : MapRecord := ⟨.float 0xffffffff, .undefined⟩
  have executed : world.records.execute 0 world.leaves (.insert record) = _ :=
    execute_insert early (insertHashed_of_full filled early)
  have specified : specify world.table (.insert record) = _ :=
    specify_insert (represents.clock ▸ early)
  refine ⟨_, proper.step _ _ (CollectionEvent.command (.insert record)) trivial
    ⟨_, _, executed, rfl⟩, ?_, ⟨record, ?_⟩, ?_, ?_, ?_⟩
  · dsimp only
    rw [specified]
    exact congrArg (· + 1) clock
  · dsimp only
    rw [specified, world.table.mem_insert, clock]
    exact .inr rfl
  · rw [← issued]
    exact get_overfilled wellFormed
  · rw [← issued]
    exact nextAtOrAfter_overfilled wellFormed
  · exact validate_overfilled wellFormed

end QuickJsOxide.Collections
