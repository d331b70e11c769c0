import QuickJsOxide.References.Heap

namespace QuickJsOxide.References

open Library List

/-! Retaining a list of edges either counts every edge or leaves the heap as it
was, whichever way the edges are counted. -/

variable {Data : Type}

section

variable {Slot : Type} {slots : List Slot} {generation : Slot → UInt32}
  {kind : Slot → Option HeapNodeKind} {id other : RawId} {slot : Slot}

theorem validateIdentity_eq_ok :
    validateIdentity slots generation kind id = .ok slot ↔
      slots[id.index]? = some slot ∧ generation slot = id.generation ∧
        kind slot = some id.kind := by
  unfold validateIdentity
  cases slots[id.index]? with
  | none => simp
  | some found =>
    simp only [bind_eq_ok, ensure_eq_ok]
    cases kinds : kind found with
    | none => grind
    | some =>
      simp only [bind_eq_ok, ensure_eq_ok, pure_eq_ok]
      grind

variable (found : validateIdentity slots generation kind id = .ok slot)

include found

theorem validateIdentity_modify
    (generations : generation (change slot) = generation slot)
    (kinds : kind (change slot) = kind slot) :
    validateIdentity (slots.modify id.index change) generation kind id =
      .ok (change slot) := by
  rw [validateIdentity_eq_ok] at found ⊢
  rw [generations, kinds]
  exact ⟨by simp [found.1], found.2⟩

theorem validateIdentity_modify_of_ne (apart : other ≠ id)
    (there : validateIdentity slots generation kind other = .ok away) :
    validateIdentity (slots.modify id.index change) generation kind other =
      .ok away := by
  rw [validateIdentity_eq_ok] at found there ⊢
  obtain ⟨place, current, named⟩ := found
  have elsewhere : id.index ≠ other.index := by
    intro same
    rw [← same, place] at there
    obtain ⟨⟨⟩, current', named'⟩ := there
    apply apart
    cases id
    cases other
    simp_all
  simpa [getElem?_modify, elsewhere] using there

end

section

variable {heap : Heap Data} {id : RawId} {strong additional : UInt32}

theorem Heap.liveLeafSlot_eq_ok : heap.liveLeafSlot id = .ok slot ↔
      heap.validateLeafIdentity id = .ok slot ∧ slot.strong ≠ 0 := by
  simp only [liveLeafSlot, bind_eq_ok, ensure_eq_ok, pure_eq_ok]
  grind [LeafSlot.isLive, validateLeafIdentity, validateIdentity_eq_ok]

theorem Heap.liveNode_eq_ok : heap.liveNode id = .ok node ↔
      ∃ slot, heap.validateSlotIdentity id = .ok slot ∧
        slot.state = .live node := by
  simp only [liveNode, bind_eq_ok]
  grind

theorem Heap.liveStrong_eq_ok : heap.liveStrong id = .ok strong ↔
      (id.isLeaf ∧ ∃ slot, heap.validateLeafIdentity id = .ok slot ∧
        slot.strong ≠ 0 ∧ slot.strong = strong) ∨
      (¬id.isLeaf ∧ ∃ slot node, heap.validateSlotIdentity id = .ok slot ∧
        slot.state = .live node ∧ node.strong = strong) := by
  unfold liveStrong
  split
  next leaf =>
    simp only [leaf, bind_eq_ok, pure_eq_ok, liveLeafSlot_eq_ok]
    simp [and_assoc]
  next shared =>
    simp only [shared, bind_eq_ok, pure_eq_ok, liveNode_eq_ok]
    simp
    grind

theorem toNat_add (fits : strong.toNat + additional.toNat < 2 ^ 32) :
    (strong + additional).toNat = strong.toNat + additional.toNat := by
  rw [UInt32.toNat_add, Nat.mod_eq_of_lt fits]

end

def Heap.Recounts (heap after : Heap Data) (growth : RawId → Nat) : Prop :=
  ∀ id strong, heap.liveStrong id = .ok strong →
    ∃ count, after.liveStrong id = .ok count ∧
      count.toNat = strong.toNat + growth id

section

variable {heap middle after : Heap Data} {id : RawId}
  {strong additional : UInt32}

theorem Heap.Recounts.refl (heap : Heap Data) : heap.Recounts heap fun _ => 0 :=
  fun _ strong live => ⟨strong, live, rfl⟩

theorem Heap.Recounts.trans (first : heap.Recounts middle growth)
    (second : middle.Recounts after later) :
    heap.Recounts after (growth + later) := by
  intro id strong live
  obtain ⟨between, live, grows⟩ := first id strong live
  obtain ⟨count, live, grown⟩ := second id between live
  exact ⟨count, live, by rw [grown, grows, Pi.add_apply, Nat.add_assoc]⟩

theorem recounts_of_frame (live : heap.liveStrong id = .ok strong)
    (here : after.liveStrong id = .ok raised)
    (sum : raised.toNat = strong.toNat + additional.toNat)
    (frame : ∀ other count, other ≠ id → heap.liveStrong other = .ok count →
      after.liveStrong other = .ok count) :
    heap.Recounts after (Pi.single id additional.toNat) := by
  intro other count there
  by_cases same : other = id
  · subst same
    obtain rfl := Except.ok.inj (live.symm.trans there)
    exact ⟨raised, here, by rw [sum, Pi.single_eq_same]⟩
  · exact ⟨count, frame other count same there,
      by rw [Pi.single_eq_of_ne same, Nat.add_zero]⟩

theorem retainRaw_recounts (live : heap.liveStrong id = .ok strong)
    (fits : strong.toNat + additional.toNat < 2 ^ 32) :
    ∃ after, Succeeds (retainRaw id additional) heap () after ∧
      heap.Recounts after (Pi.single id additional.toNat) := by
  have sum : (strong + additional).toNat =
      strong.toNat + additional.toNat := toNat_add fits
  unfold retainRaw
  obtain ⟨leaf, slot, found, counted, rfl⟩ |
    ⟨shared, slot, node, found, alive, rfl⟩ := Heap.liveStrong_eq_ok.mp live
  · have retained := Heap.liveLeafSlot_eq_ok.mpr ⟨found, counted⟩
    rw [if_pos leaf]
    refine ⟨_, .bind (succeeds_attempt retained) (.bind
      (succeeds_attempt (if_pos fits)) (succeeds_modify _)),
      recounts_of_frame live ?_ sum fun other count apart there => ?_⟩
    · refine Heap.liveStrong_eq_ok.mpr (.inl ⟨leaf, _,
        validateIdentity_modify found rfl rfl, ?_, rfl⟩)
      intro none
      have none := congrArg UInt32.toNat none
      rw [sum] at none
      exact counted (UInt32.toNat_inj.mp (Nat.eq_zero_of_add_eq_zero_right none))
    · rw [Heap.liveStrong_eq_ok] at there ⊢
      refine there.imp_left fun ⟨kind, away, found', counts⟩ => ?_
      exact ⟨kind, away, validateIdentity_modify_of_ne found apart found',
        counts⟩
  · have retained := Heap.liveNode_eq_ok.mpr ⟨slot, found, alive⟩
    rw [if_neg shared]
    refine ⟨_, .bind (succeeds_attempt retained) (.bind
      (succeeds_attempt (if_pos fits)) (succeeds_modify _)),
      recounts_of_frame live ?_ sum fun other count apart there => ?_⟩
    · refine Heap.liveStrong_eq_ok.mpr (.inr ⟨shared, _, _,
        validateIdentity_modify found rfl ?_, rfl, rfl⟩)
      rw [alive]
      rfl
    · rw [Heap.liveStrong_eq_ok] at there ⊢
      refine there.imp_right fun ⟨kind, away, node, found', counts⟩ => ?_
      exact ⟨kind, away, node, validateIdentity_modify_of_ne found apart found',
        counts⟩

def HeapError.IsRefusal : HeapError → Prop
  | .stale .. | .wrongKind .. | .overflow _ => True
  | _ => False

def Heap.HasRoom (heap : Heap Data) (id : RawId) (count : Nat) : Prop :=
  ∃ strong, heap.liveStrong id = .ok strong ∧ strong.toNat + count < 2 ^ 32

theorem preflightEdgeRetain_of_room (room : heap.HasRoom id additional.toNat) :
    Succeeds (preflightEdgeRetain id additional) heap () heap := by
  obtain ⟨strong, live, fits⟩ := room
  refine succeeds_attempt (bind_eq_ok.mpr ⟨strong, live, ?_⟩)
  exact bind_eq_ok.mpr ⟨_, if_pos fits, rfl⟩

theorem preflightEdgeRetain_refused (full : ¬heap.HasRoom id additional.toNat) :
    ∃ error, error.IsRefusal ∧
      Fails (preflightEdgeRetain id additional) heap error heap := by
  cases refused : (do
      let _ ← checkedAdd (← heap.liveStrong id) additional
        "retaining outgoing heap edges" : Except HeapError Unit) with
  | ok =>
    obtain ⟨strong, live, raised⟩ := bind_eq_ok.mp refused
    obtain ⟨_, raised, -⟩ := bind_eq_ok.mp raised
    have fits : strong.toNat + additional.toNat < 2 ^ 32 := by
      grind [checkedAdd]
    exact absurd ⟨strong, live, fits⟩ full
  | error error =>
    refine ⟨error, ?_, fails_attempt refused⟩
    simp only [Heap.liveStrong, Heap.liveLeafSlot, Heap.liveNode,
      Heap.validateLeafIdentity, Heap.validateSlotIdentity,
      validateIdentity, ensure, checkedAdd, Bind.bind, Except.bind,
      Pure.pure, Except.pure] at refused
    grind [HeapError.IsRefusal, RawId.stale]

theorem succeeds_preflightEdges
    (room : ∀ entry ∈ entries, heap.HasRoom entry.1 entry.2.toNat) :
    Succeeds (preflightEdges entries) heap () heap := by
  induction entries with
  | nil => exact succeeds_pure
  | cons _ _ induction =>
    obtain ⟨fits, later⟩ := forall_mem_cons.mp room
    exact .bind (preflightEdgeRetain_of_room fits) (induction later)

theorem preflightEdges_refused
    (full : ¬∀ entry ∈ entries, heap.HasRoom entry.1 entry.2.toNat) :
    ∃ error, error.IsRefusal ∧
      Fails (preflightEdges entries) heap error heap := by
  induction entries with
  | nil => simp at full
  | cons entry rest induction =>
    by_cases fits : heap.HasRoom entry.1 entry.2.toNat
    · have later : ¬∀ entry ∈ rest, heap.HasRoom entry.1 entry.2.toNat := by
        intro all
        exact full (forall_mem_cons.mpr ⟨fits, all⟩)
      obtain ⟨error, refusal, fails⟩ := induction later
      exact ⟨error, refusal, (preflightEdgeRetain_of_room fits).fails fails⟩
    · obtain ⟨error, refusal, fails⟩ := preflightEdgeRetain_refused fits
      exact ⟨error, refusal, fails.bind⟩

theorem Heap.Recounts.hasRoom {count : Nat} (grows : heap.Recounts after growth)
    (room : heap.HasRoom id (growth id + count)) : after.HasRoom id count := by
  obtain ⟨strong, live, fits⟩ := room
  obtain ⟨raised, live, grown⟩ := grows id strong live
  exact ⟨raised, live, by omega⟩

end

def multiplicity (entries : List EdgeCount) (id : RawId) : Nat :=
  (entries.map fun entry => if entry.1 = id then entry.2.toNat else 0).sum

theorem multiplicity_cons (entry : EdgeCount) (rest : List EdgeCount) :
    multiplicity (entry :: rest) =
      Pi.single entry.1 entry.2.toNat + multiplicity rest := by
  funext id
  simp [multiplicity, Pi.single_apply, eq_comm]

theorem multiplicity_ones (edges : List RawId) (id : RawId) :
    multiplicity (edges.map (⟨·, 1⟩)) id = edges.count id := by
  induction edges with
  | nil => rfl
  | cons _ _ induction =>
    rw [map_cons, multiplicity_cons, Pi.add_apply, induction,
      count_cons, Nat.add_comm, Pi.single_apply]
    simp only [beq_iff_eq, eq_comm (a := id)]
    rfl

theorem succeeds_expecting {heap after}
    (runs : Succeeds operation heap () after) :
    Succeeds (expecting message operation) heap () after := by
  unfold Succeeds expecting at *
  rw [runs]

theorem succeeds_commitEdges {heap : Heap Data} (message : String)
    (room : ∀ entry ∈ entries,
      heap.HasRoom entry.1 (multiplicity entries entry.1)) :
    ∃ after, Succeeds (commitEdges message entries) heap () after ∧
      heap.Recounts after (multiplicity entries) := by
  induction entries generalizing heap with
  | nil => exact ⟨heap, succeeds_pure, .refl heap⟩
  | cons entry _ induction =>
    rw [multiplicity_cons] at room ⊢
    obtain ⟨⟨strong, live, fits⟩, later⟩ := forall_mem_cons.mp room
    rw [Pi.add_apply, Pi.single_eq_same] at fits
    obtain ⟨_, retained, grows⟩ := retainRaw_recounts live
      (by omega : strong.toNat + entry.2.toNat < 2 ^ 32)
    obtain ⟨after, runs, grown⟩ := induction fun other member =>
      grows.hasRoom (later other member)
    exact ⟨after, .bind (succeeds_expecting retained) runs, grows.trans grown⟩

def Heap.Retainable (heap : Heap Data) (edges : List RawId) : Prop :=
  ∀ edge ∈ edges, heap.HasRoom edge (edges.count edge)

def Settles (heap : Heap Data) (edges : List RawId)
    (run : Operation Data Unit) : Prop :=
  (heap.Retainable edges ∧ ∃ after, Succeeds run heap () after ∧
      heap.Recounts after edges.count) ∨
    (¬heap.Retainable edges ∧
      ∃ error, error.IsRefusal ∧ Fails run heap error heap)

structure Tallies (entries : List EdgeCount) (edges : List RawId) :
    Prop where
  counted : ∀ entry ∈ entries,
    entry.1 ∈ edges ∧ entry.2.toNat = edges.count entry.1
  present : ∀ edge ∈ edges, ∃ count, ⟨edge, count⟩ ∈ entries

theorem Tallies.settles {edges : List RawId} (tallies : Tallies entries edges)
    (message : String) (among : ∀ entry ∈ commits, entry.1 ∈ edges)
    (total : multiplicity commits = edges.count) (heap : Heap Data) :
    Settles heap edges (do
      preflightEdges entries
      commitEdges message commits) := by
  have checks : (∀ entry ∈ entries, heap.HasRoom entry.1 entry.2.toNat) ↔
      heap.Retainable edges := by
    constructor
    · intro room edge member
      obtain ⟨count, listed⟩ := tallies.present edge member
      rw [← (tallies.counted _ listed).2]
      exact room _ listed
    · intro room entry listed
      obtain ⟨member, count⟩ := tallies.counted entry listed
      rw [count]
      exact room _ member
  by_cases room : heap.Retainable edges
  · have enough : ∀ entry ∈ commits,
        heap.HasRoom entry.1 (multiplicity commits entry.1) := by
      rw [total]
      exact fun entry member => room _ (among entry member)
    obtain ⟨after, runs, grows⟩ := succeeds_commitEdges message enough
    rw [total] at grows
    exact .inl ⟨room, after,
      .bind (succeeds_preflightEdges (checks.mpr room)) runs, grows⟩
  · obtain ⟨error, refusal, fails⟩ :=
      preflightEdges_refused (mt checks.mp room)
    exact .inr ⟨room, error, refusal, fails.bind⟩

theorem retainFewEdges_settles (few : edges.length ≤ 2) (heap : Heap Data) :
    Settles heap edges (retainFewEdges edges) := by
  have tallies : Tallies (fewPreflights edges) edges := by
    match edges with
    | [] | [_] => constructor <;> simp [fewPreflights]
    | [first, second] =>
      unfold fewPreflights
      by_cases same : second = first
      · constructor <;> simp [same]
      · constructor <;> simp [same, Ne.symm same]
  refine tallies.settles _ (by simp) ?_ heap
  funext id
  exact multiplicity_ones edges id

structure Counted (counts : EdgeCounts) (edges : List RawId) : Prop where
  keys : ∀ id, id ∈ counts ↔ id ∈ edges
  total : ∀ id, ((counts.lookup id).getD 0).toNat = edges.count id

theorem countEdge_counted (counted : Counted counts seen) (edge : RawId) :
    (∃ after, countEdge counts edge = .ok after ∧
      Counted after (edge :: seen)) ∨
    ((∃ operation, countEdge counts edge = .error (.overflow operation)) ∧
      2 ^ 32 ≤ (edge :: seen).count edge) := by
  have total := counted.total edge
  unfold countEdge checkedAdd
  split
  next fits =>
    refine .inl ⟨_, rfl, ?_, ?_⟩
    · intro id
      rw [AList.mem_insert, counted.keys, mem_cons]
    · intro id
      by_cases same : id = edge
      · subst same
        rw [AList.lookup_insert, count_cons_self, ← total]
        exact toNat_add fits
      · rw [AList.lookup_insert_ne same, count_cons_of_ne (Ne.symm same)]
        exact counted.total id
  next full =>
    refine .inr ⟨⟨_, rfl⟩, ?_⟩
    rw [count_cons_self, ← total]
    exact Nat.le_of_not_lt full

theorem countEdges_counted (counted : Counted counts seen) (edges : List RawId)
    : (∃ after, edges.foldlM countEdge counts = .ok after ∧
      Counted after (edges.reverse ++ seen)) ∨ ((∃ operation,
        edges.foldlM countEdge counts = .error (.overflow operation)) ∧
      ∃ edge ∈ edges, 2 ^ 32 ≤ (edges.reverse ++ seen).count edge) := by
  induction edges generalizing counts seen with
  | nil => exact .inl ⟨counts, rfl, counted⟩
  | cons edge _ induction =>
    rw [foldlM_cons]
    obtain ⟨_, counts, grown⟩ | ⟨⟨operation, refused⟩, full⟩ :=
      countEdge_counted counted edge
    · rw [counts, reverse_cons, append_assoc]
      obtain done | ⟨refused, other, member, full⟩ := induction grown
      · exact .inl done
      · exact .inr ⟨refused, other, mem_cons_of_mem _ member, full⟩
    · refine .inr ⟨⟨operation, ?_⟩, edge, mem_cons_self, ?_⟩
      · rw [refused]
        rfl
      · grind

theorem multiplicity_entries (nodup : entries.NodupKeys) (id : RawId) :
    multiplicity entries id = ((entries.dlookup id).getD 0).toNat := by
  induction entries with
  | nil => rfl
  | cons entry _ induction =>
    obtain ⟨fresh, nodup⟩ := nodupKeys_cons.mp nodup
    rw [multiplicity_cons, Pi.add_apply, induction nodup]
    by_cases same : id = entry.1
    · subst same
      rw [Pi.single_eq_same, dlookup_eq_none.mpr fresh, dlookup_cons_eq]
      rfl
    · rw [Pi.single_eq_of_ne same, dlookup_cons_ne _ _ same, zero_add]

theorem Counted.tallies (counted : Counted counts edges) :
    Tallies counts.entries edges where
  counted := by
    rintro ⟨edge, count⟩ listed
    have found := AList.mem_lookup_iff.mpr listed
    refine ⟨(counted.keys edge).mp (AList.lookup_isSome.mp ?_), ?_⟩
    · rw [found]; rfl
    · rw [← counted.total, found]; rfl
  present := by
    intro edge member
    obtain ⟨count, found⟩ := Option.isSome_iff_exists.mp
      (AList.lookup_isSome.mpr ((counted.keys edge).mpr member))
    exact ⟨count, AList.mem_lookup_iff.mp found⟩

theorem Tallies.perm (tallies : Tallies entries edges)
    (same : others.Perm entries) : Tallies others edges where
  counted entry listed := tallies.counted entry (same.subset listed)
  present edge member :=
    (tallies.present edge member).imp fun _ listed => same.symm.subset listed

theorem retainCountedEdges_settles (preflighted committed : EntryOrder)
    (edges : List RawId) (heap : Heap Data) :
    Settles heap edges (retainCountedEdges preflighted committed edges) := by
  have empty : Counted ∅ [] := ⟨by simp, by simp⟩
  have counting := countEdges_counted empty edges
  simp only [append_nil, count_reverse] at counting
  obtain ⟨counts, counting, counted⟩ |
    ⟨⟨operation, refused⟩, edge, member, full⟩ := counting
  · have counted : Counted counts edges :=
      ⟨by simpa using counted.keys, by simpa using counted.total⟩
    have counting : Succeeds (attempt fun _ => edges.foldlM countEdge ∅) heap
        counts heap := succeeds_attempt counting
    have tallies := counted.tallies.perm (preflighted.perm _)
    have committing := counted.tallies.perm (committed.perm _)
    have settles := tallies.settles
      "preflighted heap edge retain failed before publication"
      (fun entry listed => (committing.counted entry listed).1) ?_ heap
    · obtain ⟨room, after, runs, grows⟩ | ⟨full, error, refusal, fails⟩ :=
        settles
      · exact .inl ⟨room, after, counting.bind runs, grows⟩
      · exact .inr ⟨full, error, refusal, counting.fails fails⟩
    · funext id
      have total := multiplicity_entries counts.nodupKeys id
      rw [← counted.total, AList.lookup, ← total]
      exact ((committed.perm _).map _).sum_nat
  · refine .inr ⟨?_, .overflow operation, trivial, ?_⟩
    · intro room
      obtain ⟨_, -, fits⟩ := room edge member
      omega
    · have refused : Fails (attempt fun _ => edges.foldlM countEdge ∅) heap
          (.overflow operation) heap := fails_attempt refused
      exact refused.bind

/-- Edges are retained as a whole: the count of each target grows by its
multiplicity, or the heap keeps all its counts because a target is not live or
has no room for as many references. A list of at most two edges is treated as
the map of multiplicities would treat it. -/
theorem retainEdgesTransactionally_settles
    (preflighted committed : EntryOrder) (edges : List RawId)
    (heap : Heap Data) : Settles heap edges
        (retainEdgesTransactionally preflighted committed edges) ∧
      Settles heap edges (retainCountedEdges preflighted committed edges) := by
  have counted := retainCountedEdges_settles preflighted committed edges heap
  refine ⟨?_, counted⟩
  unfold retainEdgesTransactionally
  split
  next few => exact retainFewEdges_settles few heap
  next => exact counted

end QuickJsOxide.References
