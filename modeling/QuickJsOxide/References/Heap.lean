import Mathlib.Data.List.AList
import Mathlib.Data.UInt
import QuickJsOxide.Library.Checks
import QuickJsOxide.Library.Stateful

namespace QuickJsOxide.References

open Library

/-! The counted references of the heap: the identity checks on a handle, the
retains and releases of one reference, and the queue of the nodes whose count
has reached zero. -/

inductive HeapNodeKind where
  | object
  | shape
  | varRef
  | context
  | functionBytecode
  | string
  | bigInt
deriving Repr, DecidableEq

structure RawId where
  kind : HeapNodeKind
  index : Nat
  generation : UInt32
deriving Repr, DecidableEq

def RawId.isLeaf (id : RawId) : Bool := id.kind = .string ∨ id.kind = .bigInt

inductive HeapError where
  | stale (index : Nat) (generation : UInt32)
  | wrongKind (expected actual : HeapNodeKind)
  | overflow (operation : String)
  | underflow (id : RawId)
  | invariant (message : String)
  /-- An `expect` that does not hold. -/
  | aborted (message : String)
deriving Repr, DecidableEq

structure Node (Data : Type) where
  strong : UInt32
  kind : HeapNodeKind
  data : Data
deriving Repr

inductive SlotState (Data : Type) where
  | initializing (kind : HeapNodeKind) (strong : UInt32)
  | live (node : Node Data)
  | zeroQueued (node : Node Data)
  | zombie (kind : HeapNodeKind) (strong : UInt32)
  | vacant
  | retired
deriving Repr

structure ArenaSlot (Data : Type) where
  generation : UInt32
  state : SlotState Data
  weakPrev : Option RawId
  weakNext : Option RawId
deriving Repr

inductive LeafValue (Data : Type) where
  | vacant
  | retired
  | string (value : Data)
  | bigInt (value : Data)
deriving Repr, DecidableEq

structure LeafSlot (Data : Type) where
  generation : UInt32
  strong : UInt32
  value : LeafValue Data
deriving Repr

structure Heap (Data : Type) where
  slots : List (ArenaSlot Data)
  free : List Nat
  leafSlots : List (LeafSlot Data)
  leafFree : List Nat
  zeroQueue : List RawId
  weakHead : Option RawId
  weakTail : Option RawId
deriving Repr

structure HeapCleanup where
  finalizedObjects : Nat := 0
  finalizedShapes : Nat := 0
  finalizedVarRefs : Nat := 0
  finalizedContexts : Nat := 0
  finalizedFunctionBytecodes : Nat := 0
  finalizedStrings : Nat := 0
  finalizedBigints : Nat := 0
  finalizedShapeIds : List RawId := []
  atoms : List Nat := []
deriving Repr

variable {Data : Type}

abbrev Operation (Data : Type) := EStateM HeapError (Heap Data)

def immortalStrong : UInt32 := 0xffffffff

def SlotState.kind : SlotState Data → Option HeapNodeKind
  | .initializing kind _ | .zombie kind _ => some kind
  | .live node | .zeroQueued node => some node.kind
  | .vacant | .retired => none

def LeafValue.kind : LeafValue Data → Option HeapNodeKind
  | .vacant | .retired => none
  | .string _ => some .string
  | .bigInt _ => some .bigInt

def LeafSlot.isLive (slot : LeafSlot Data) : Bool :=
  slot.value.kind.isSome ∧ slot.strong ≠ 0

def LeafSlot.isZeroQueued (slot : LeafSlot Data) : Bool :=
  slot.value.kind.isSome ∧ slot.strong = 0

def RawId.stale (id : RawId) : HeapError := .stale id.index id.generation

def checkedAdd (count additional : UInt32) (operation : String) :
    Except HeapError UInt32 :=
  if count.toNat + additional.toNat < 2 ^ 32 then .ok (count + additional)
  else .error (.overflow operation)

def validateIdentity {Slot : Type} (slots : List Slot)
    (generation : Slot → UInt32) (kind : Slot → Option HeapNodeKind)
    (id : RawId) : Except HeapError Slot := do
  let some slot := slots[id.index]? | .error id.stale
  ensure (generation slot = id.generation) id.stale
  let some actual := kind slot | .error id.stale
  ensure (actual = id.kind) (.wrongKind id.kind actual)
  return slot

namespace Heap

variable (heap : Heap Data) (id : RawId)

def validateSlotIdentity : Except HeapError (ArenaSlot Data) :=
  validateIdentity heap.slots (·.generation) (·.state.kind) id

def validateLeafIdentity : Except HeapError (LeafSlot Data) :=
  validateIdentity heap.leafSlots (·.generation) (·.value.kind) id

def liveNode : Except HeapError (Node Data) := do
  match (← heap.validateSlotIdentity id).state with
  | .live node => .ok node
  | _ => .error id.stale

def liveLeafSlot : Except HeapError (LeafSlot Data) := do
  let slot ← heap.validateLeafIdentity id
  ensure slot.isLive id.stale
  return slot

def liveStrong : Except HeapError UInt32 := do
  if id.isLeaf then return (← heap.liveLeafSlot id).strong
  else return (← heap.liveNode id).strong

def setState (heap : Heap Data) (index : Nat) (state : SlotState Data) :
    Heap Data :=
  { heap with slots := heap.slots.modify index ({ · with state }) }

def setLeafStrong (heap : Heap Data) (index : Nat) (strong : UInt32) :
    Heap Data :=
  { heap with leafSlots := heap.leafSlots.modify index ({ · with strong }) }

def setLeafValue (heap : Heap Data) (index : Nat) (value : LeafValue Data) :
    Heap Data :=
  { heap with leafSlots := heap.leafSlots.modify index ({ · with value }) }

def queue : Heap Data :=
  { heap with zeroQueue := heap.zeroQueue ++ [id] }

end Heap

def preflightEdgeRetain (edge : RawId) (additional : UInt32) :
    Operation Data Unit :=
  attempt fun heap => do
    let _ ← checkedAdd (← heap.liveStrong edge) additional
      "retaining outgoing heap edges"

def retainRaw (id : RawId) (additional : UInt32) : Operation Data Unit := do
  if id.isLeaf then
    let slot ← attempt (·.liveLeafSlot id)
    let strong ← attempt fun _ =>
      checkedAdd slot.strong additional "retaining a heap reference"
    modify (·.setLeafStrong id.index strong)
  else
    let node ← attempt (·.liveNode id)
    let strong ← attempt fun _ =>
      checkedAdd node.strong additional "retaining a heap reference"
    modify (·.setState id.index (.live { node with strong }))

def expecting (message : String) (operation : Operation Data Unit) :
    Operation Data Unit := fun heap =>
  match operation heap with
  | .ok _ after => .ok () after
  | .error _ after => .error (.aborted message) after

abbrev EdgeCounts := AList fun _ : RawId => UInt32

abbrev EdgeCount := (_ : RawId) × UInt32

def countEdge (counts : EdgeCounts) (edge : RawId) :
    Except HeapError EdgeCounts := do
  let count ← checkedAdd ((counts.lookup edge).getD 0) 1
    "counting outgoing heap edges"
  return counts.insert edge count

/-- The order in which a hash map hands out its entries. -/
structure EntryOrder where
  arrange : List EdgeCount → List EdgeCount
  perm : ∀ entries, (arrange entries).Perm entries

def preflightEdges (entries : List EdgeCount) : Operation Data Unit :=
  entries.forM fun entry => preflightEdgeRetain entry.1 entry.2

def commitEdges (message : String) (entries : List EdgeCount) :
    Operation Data Unit :=
  entries.forM fun entry => expecting message (retainRaw entry.1 entry.2)

/-- The preflights of at most two edges, which may be one edge twice. -/
def fewPreflights : List RawId → List EdgeCount
  | first :: second :: _ =>
    if second = first then [⟨first, 2⟩] else [⟨first, 1⟩, ⟨second, 1⟩]
  | [only] => [⟨only, 1⟩]
  | [] => []

def retainFewEdges (edges : List RawId) : Operation Data Unit := do
  preflightEdges (fewPreflights edges)
  commitEdges "preflighted small edge retain failed before publication"
    (edges.map (⟨·, 1⟩))

variable (preflighted committed : EntryOrder) (edges : List RawId)

/-- Preflight and commit through a map from each edge to its multiplicity. -/
def retainCountedEdges : Operation Data Unit := do
  let counts ← attempt fun _ => edges.foldlM countEdge ∅
  preflightEdges (preflighted.arrange counts.entries)
  commitEdges "preflighted heap edge retain failed before publication"
    (committed.arrange counts.entries)

def retainEdgesTransactionally : Operation Data Unit :=
  if edges.length ≤ 2 then retainFewEdges edges
  else retainCountedEdges preflighted committed edges

def reclaimVacantSlot (index : Nat) : Operation Data Unit := do
  let heap ← get
  match heap.slots[index]? with
  | none => throw (.invariant "reclaimed slot disappeared")
  | some slot =>
    match slot.state with
    | .vacant =>
      let weakId : Option RawId := some ⟨.object, index, slot.generation⟩
      if slot.weakPrev.isSome ∨ slot.weakNext.isSome ∨
          heap.weakHead = weakId ∨ heap.weakTail = weakId then
        throw (.invariant
          "weak-collection slot was reclaimed while still linked")
      if slot.generation.toNat + 1 < 2 ^ 32 then
        set { heap with
          slots := heap.slots.set index
            { slot with generation := slot.generation + 1 }
          free := index :: heap.free }
      else set (heap.setState index .retired)
    | _ => throw (.invariant
        "generation advanced before node payload was detached")

def reclaimSlot (index : Nat) : Operation Data Unit := do
  match (← get).slots[index]? with
  | none => throw (.invariant "reclaimed slot disappeared")
  | some slot =>
    match slot.state with
    | .zombie _ 0 => modify (·.setState index .vacant)
    | _ => throw (.invariant
        "attempted to reclaim a nonzero or non-zombie slot")
  reclaimVacantSlot index

/-- Give an emptied leaf slot its next generation, or close it for good. -/
def Heap.recycleLeaf (heap : Heap Data) (index : Nat)
    (generation : UInt32) : Heap Data :=
  if generation.toNat + 1 < 2 ^ 32 then
    { heap with
      leafSlots := heap.leafSlots.modify index
        ({ · with generation := generation + 1 })
      leafFree := index :: heap.leafFree }
  else heap.setLeafValue index .retired

def reclaimLeafVacant (index : Nat) : Operation Data Unit := do
  let heap ← get
  match heap.leafSlots[index]? with
  | none => throw (.invariant "reclaimed leaf slot disappeared")
  | some slot =>
    match slot.value with
    | .vacant => set (heap.recycleLeaf index slot.generation)
    | _ => throw (.invariant
        "leaf generation advanced before its payload was detached")

def retireValidatedLeaf (index : Nat) : Operation Data Unit := fun heap =>
  match heap.leafSlots[index]? with
  | none => .error (.invariant "reclaimed leaf slot disappeared") heap
  | some slot =>
    .ok () ((heap.setLeafValue index .vacant).recycleLeaf index
      slot.generation)

def releaseLiveLeaf (id : RawId) (strong : UInt32) : Operation Data Unit := do
  if strong = immortalStrong then return ()
  else if strong = 0 then throw (.underflow id)
  else
    modify (·.setLeafStrong id.index (strong - 1))
    if strong - 1 = 0 then modify (·.queue id)

def releaseLeafRawNoDrain (id : RawId) : Operation Data Unit := do
  let slot ← attempt (·.validateLeafIdentity id)
  if slot.isLive then releaseLiveLeaf id slot.strong
  else if slot.isZeroQueued then throw (.underflow id)
  else throw id.stale

def releaseRawNoDrain (id : RawId) : Operation Data Unit := do
  if id.isLeaf then releaseLeafRawNoDrain id
  else
    match (← attempt (·.validateSlotIdentity id)).state with
    | .live node =>
      if node.strong = immortalStrong then return ()
      else if node.strong = 0 then throw (.underflow id)
      else if node.strong - 1 = 0 then
        modify (·.setState id.index (.zeroQueued { node with strong := 0 }))
        modify (·.queue id)
      else
        modify (·.setState id.index
          (.live { node with strong := node.strong - 1 }))
    | .zombie kind strong =>
      if strong = immortalStrong then return ()
      else if strong = 0 then throw (.underflow id)
      else
        modify (·.setState id.index (.zombie kind (strong - 1)))
        if strong - 1 = 0 then reclaimSlot id.index
    | .initializing .. | .zeroQueued _ => throw (.underflow id)
    | .vacant | .retired => throw id.stale

def saturatingSucc (count : Nat) : Nat := min (count + 1) (2 ^ 64 - 1)

def finishLeaf (id : RawId) (value : LeafValue Data) (cleanup : HeapCleanup) :
    Operation Data HeapCleanup :=
  match id.kind, value with
  | .string, .string _ =>
    return { cleanup with
      finalizedStrings := saturatingSucc cleanup.finalizedStrings }
  | .bigInt, .bigInt _ =>
    return { cleanup with
      finalizedBigints := saturatingSucc cleanup.finalizedBigints }
  | _, _ => throw (.invariant "leaf payload finalized through another handle")

section

-- What finalizing the payload of a dead node does to the heap.
variable (finishNode :
  RawId → Node Data → HeapCleanup → Operation Data HeapCleanup)

def drainOne (id : RawId) (cleanup : HeapCleanup) :
    Operation Data HeapCleanup := do
  if id.isLeaf then
    let slot ← attempt (·.validateLeafIdentity id)
    if slot.strong ≠ 0 then
      throw (.invariant "zero queue contained a nonzero reference count")
    modify (·.setLeafValue id.index .vacant)
    let cleanup ← finishLeaf id slot.value cleanup
    reclaimLeafVacant id.index
    return cleanup
  else
    let slot ← attempt (·.validateSlotIdentity id)
    modify (·.setState id.index .vacant)
    match slot.state with
    | .zeroQueued node =>
      if node.strong ≠ 0 then
        throw (.invariant "zero queue contained a nonzero reference count")
      let cleanup ← finishNode id node cleanup
      reclaimVacantSlot id.index
      return cleanup
    | _ => throw (.invariant
        "zero queue referenced a node not in ZeroQueued state")

/-- The loop of the drain for as many turns; `none` when they are used up. -/
def drainZeroQueueSlow : Nat → HeapCleanup → Heap Data →
    Option (EStateM.Result HeapError (Heap Data) HeapCleanup)
  | 0, _, _ => none
  | turns + 1, cleanup, heap =>
    match heap.zeroQueue with
    | [] => some (.ok cleanup heap)
    | id :: rest =>
      match drainOne finishNode id cleanup
          { heap with zeroQueue := rest } with
      | .ok cleanup after => drainZeroQueueSlow turns cleanup after
      | .error error after => some (.error error after)

def drainZeroQueue (turns : Nat) (heap : Heap Data) :
    Option (EStateM.Result HeapError (Heap Data) HeapCleanup) :=
  if heap.zeroQueue = [] then some (.ok {} heap)
  else drainZeroQueueSlow finishNode turns {} heap

def releaseAndDrain (turns : Nat) (id : RawId) (heap : Heap Data) :
    Option (EStateM.Result HeapError (Heap Data) HeapCleanup) :=
  match releaseRawNoDrain id heap with
  | .ok () after => drainZeroQueue finishNode turns after
  | .error error after => some (.error error after)

end

def tryReleaseLeafNonfinal (id : RawId) (heap : Heap Data) :
    Bool × Heap Data :=
  match heap.validateLeafIdentity id with
  | .error _ => (false, heap)
  | .ok slot =>
    if slot.isLive then
      if slot.strong = immortalStrong then (true, heap)
      else if 1 < slot.strong then
        (true, heap.setLeafStrong id.index (slot.strong - 1))
      else (false, heap)
    else (false, heap)

def tryReleaseNonfinal (id : RawId) (heap : Heap Data) : Bool × Heap Data :=
  if heap.zeroQueue ≠ [] then (false, heap)
  else if id.isLeaf then tryReleaseLeafNonfinal id heap
  else
    match heap.validateSlotIdentity id with
    | .error _ => (false, heap)
    | .ok slot =>
      match slot.state with
      | .live node =>
        if node.strong = immortalStrong then (true, heap)
        else if 1 < node.strong then
          (true, heap.setState id.index
            (.live { node with strong := node.strong - 1 }))
        else (false, heap)
      | _ => (false, heap)

def tryReleaseLeafReference (id : RawId) : Operation Data (Option Bool) :=
  fun heap =>
    if id.isLeaf ∧ heap.zeroQueue = [] then
      match heap.validateLeafIdentity id with
      | .error error => .error error heap
      | .ok slot =>
        if slot.strong = 0 then .ok none heap
        else if slot.strong = immortalStrong then .ok (some false) heap
        else if 1 < slot.strong then
          .ok (some false) (heap.setLeafStrong id.index (slot.strong - 1))
        else (do retireValidatedLeaf id.index; return some true) heap
    else .ok none heap

def leafCleanup (id : RawId) : HeapCleanup :=
  match id.kind with
  | .string => { finalizedStrings := 1 }
  | _ => { finalizedBigints := 1 }

end QuickJsOxide.References
