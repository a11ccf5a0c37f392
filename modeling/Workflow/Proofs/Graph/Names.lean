/-
This file views a graph by names, without places.

A node is seen as its slots on both sides, each under its name with the links it
refers to and its native value, and as the keys of its fields; a link joins two
names. Keys are removed, renamed and added here the way the names tell: a key stands
in one list, and whatever else is named stays what it is.
-/

import Workflow.Proofs.Graph.Port
import Workflow.Proofs.Node.Names

namespace Workflow

/-! ### Views -/

/-- A slot under its name. -/
structure NamedSlot where
  info : SlotInfo
  links : List LinkId
  native : Option NativeValue

/-- A node by the names of its slots. -/
structure NamedNode where
  /-- All that does not belong to its slots. -/
  rest : Node
  slots : Direction → List NamedSlot
  /-- The fields with keys and their keys in order; a placeholder is a key without a name. -/
  keys : Direction → List (String × List (Option String))

/-- A slot of a node by its name. -/
structure NamedEnd where
  node : NodeId
  slot : Option SlotName
  deriving DecidableEq

/-- A link between names. -/
structure NamedLink where
  id : LinkId
  /-- Where the link comes from, on the output side, and where it leads to. -/
  ends : Direction → NamedEnd
  isLoop : Bool
  data : Option Json
  extra : Option Json

/-- Links that differ in nothing but the functions that give their ends are the same if the ends
are. -/
theorem NamedLink.mk_congr {id : LinkId} {one other : Direction → NamedEnd} {isLoop : Bool}
    {data extra : Option Json} (same : ∀ side, one side = other side) :
    NamedLink.mk id one isLoop data extra = NamedLink.mk id other isLoop data extra := by
  have ends : one = other := by
    funext side
    exact same side
  rw [ends]

/-- The nodes and the links of a graph by names. -/
structure Names where
  nodes : List NamedNode
  links : List NamedLink

def InputSlot.named (slot : InputSlot) : NamedSlot := ⟨slot.info, slot.link.toList, slot.native⟩

def OutputSlot.named (slot : OutputSlot) : NamedSlot := ⟨slot.info, slot.links, none⟩

namespace Node

/-- The slots of one side under their names. -/
def namedSlots (node : Node) : Direction → List NamedSlot
  | .input => node.inputs.map InputSlot.named
  | .output => node.outputs.map OutputSlot.named

/-- The keys at the places of each field with keys. -/
def keysByField (node : Node) (direction : Direction) : List (String × List (Option String)) :=
  (node.multiSlots direction).entries.map fun (field, places) =>
    (field, places.map fun place => (node.keyAt? direction place).join)

/-- All of a node that does not belong to its slots. -/
def withoutSlots (node : Node) : Node :=
  { node with
    inputs := []
    outputs := []
    multiInputs := {}
    multiOutputs := {}
    keyedValues := {} }

/-- The node by names. -/
def byNames (node : Node) : NamedNode := ⟨node.withoutSlots, node.namedSlots, node.keysByField⟩

end Node

namespace Graph

/-- The name of the slot at an end of a link. -/
def nameAt? (graph : Graph) (direction : Direction) (spot : NodeId × Nat) : Option SlotName :=
  ((graph.node? spot.1).bind fun node => (node.slots direction)[spot.2]?).map SlotInfo.name

/-- The link by names. -/
def namedLink (graph : Graph) (link : Link) : NamedLink where
  id := link.id
  ends direction := ⟨(link.endAt direction).1, graph.nameAt? direction (link.endAt direction)⟩
  isLoop := link.isLoop
  data := link.data
  extra := link.extra

/-- The graph by names. -/
def byNames (graph : Graph) : Names :=
  ⟨graph.nodes.map Node.byNames, graph.links.map graph.namedLink⟩

end Graph

/-! ### Edits of names -/

/-- The keys of fields with those of one field changed. -/
def changeKeys (field : String) (change : List (Option String) → List (Option String))
    (fields : List (String × List (Option String))) : List (String × List (Option String)) :=
  fields.map fun (other, keys) => (other, if other = field then change keys else keys)

/-- The slot without its references to links. -/
def NamedSlot.forget (links : List LinkId) (slot : NamedSlot) : NamedSlot :=
  { slot with links := slot.links.filter (· ∉ links) }

/-- The slot under another key. -/
def NamedSlot.withKey (key : String) (slot : NamedSlot) : NamedSlot :=
  { slot with info := slot.info.withKey key }

namespace NamedNode

/-- The node whose slots do not refer to some links. -/
def forget (node : NamedNode) (links : List LinkId) : NamedNode :=
  { node with slots := fun direction => (node.slots direction).map (NamedSlot.forget links) }

/-- The node without a key of a field, and without its slot. -/
def removeKey (node : NamedNode) (field key : String) : NamedNode :=
  { node with
    slots := fun direction =>
      (node.slots direction).filter fun slot => slot.info.name ≠ ⟨field, some key⟩
    keys := fun direction =>
      changeKeys field (List.filter fun other => other ≠ some key) (node.keys direction) }

/-- The node with a key, or the placeholder, of a field replaced in place. -/
def rekey (node : NamedNode) (field : String) (old : Option String) (key : String) : NamedNode :=
  { node with
    slots := fun direction => (node.slots direction).map fun slot =>
      if slot.info.name = ⟨field, old⟩ then slot.withKey key else slot
    keys := fun direction =>
      changeKeys field (List.map fun other => if other = old then some key else other)
        (node.keys direction) }

/-- The node with one more key of a field, whose slot is like the others of the field but for links
and comes last on its side. -/
def appendKey (node : NamedNode) (field key : String) : NamedNode :=
  { node with
    slots := fun direction =>
      let template := (node.slots direction).find? fun slot => slot.info.field = field
      node.slots direction ++
        (template.map fun slot => ⟨slot.info.withKey key, [], none⟩).toList
    keys := fun direction => changeKeys field (· ++ [some key]) (node.keys direction) }

/-- Whether a field shows a placeholder. -/
def ShowsPlaceholder (node : NamedNode) (field : String) : Prop :=
  ∃ direction, (field, [none]) ∈ node.keys direction

end NamedNode

namespace NamedLink

/-- Whether a link has an end at a slot. -/
def Touches (link : NamedLink) (spot : NamedEnd) : Prop :=
  link.ends .output = spot ∨ link.ends .input = spot

instance (link : NamedLink) (spot : NamedEnd) : Decidable (link.Touches spot) :=
  inferInstanceAs (Decidable (_ ∨ _))

/-- The link with ends at a slot following a new name of it. -/
def follow (link : NamedLink) (spot renamed : NamedEnd) : NamedLink :=
  { link with
    ends := fun direction => if link.ends direction = spot then renamed else link.ends direction }

end NamedLink

namespace Names

/-- The names without a key of a field and without the links that end at its slot, which the slots
at their other ends do not refer to any more. -/
def removeKey (names : Names) (id : NodeId) (field key : String) : Names :=
  let spot : NamedEnd := ⟨id, some ⟨field, some key⟩⟩
  let severed := (names.links.filter fun link => link.Touches spot).map NamedLink.id
  { nodes := names.nodes.map fun node =>
      (if node.rest.id = id then node.removeKey field key else node).forget severed
    links := names.links.filter fun link => ¬link.Touches spot }

/-- The names with a key, or the placeholder, of a field replaced; links follow. -/
def rekey (names : Names) (id : NodeId) (field : String) (old : Option String) (key : String) :
    Names where
  nodes := names.nodes.map fun node =>
    if node.rest.id = id then node.rekey field old key else node
  links := names.links.map fun link =>
    link.follow ⟨id, some ⟨field, old⟩⟩ ⟨id, some ⟨field, some key⟩⟩

/-- The names with one more key of a field. -/
def appendKey (names : Names) (id : NodeId) (field key : String) : Names :=
  { names with
    nodes := names.nodes.map fun node =>
      if node.rest.id = id then node.appendKey field key else node }

/-- Whether a field of a node shows a placeholder. -/
def ShowsPlaceholder (names : Names) (id : NodeId) (field : String) : Prop :=
  ∃ node ∈ names.nodes, node.rest.id = id ∧ node.ShowsPlaceholder field

/-- Replacing a key by itself changes nothing. -/
theorem rekey_self (names : Names) (id : NodeId) (field key : String) :
    names.rekey id field (some key) key = names := by
  have keys (fields : List (String × List (Option String))) :
      changeKeys field (List.map fun other => if other = some key then some key else other) fields =
        fields := by
    have same (other : Option String) : (if other = some key then some key else other) = other := by
      split
      · next here => exact here.symm
      · rfl
    simp [changeKeys, same]
  have slots (slot : NamedSlot) :
      (if slot.info.name = ⟨field, some key⟩ then slot.withKey key else slot) = slot := by
    split
    · next here =>
      have isKey : slot.info.key = some key := congrArg SlotName.key here
      rw [NamedSlot.withKey, SlotInfo.withKey, ← isKey]
    · rfl
  have nodes (node : NamedNode) : node.rekey field (some key) key = node := by
    simp only [NamedNode.rekey, keys, slots, List.map_id']
  have links (link : NamedLink) :
      link.follow ⟨id, some ⟨field, some key⟩⟩ ⟨id, some ⟨field, some key⟩⟩ = link := by
    refine NamedLink.mk_congr fun side => ?_
    split
    · next here => exact here.symm
    · rfl
  simp only [Names.rekey, nodes, links, ite_self, List.map_id']

end Names

end Workflow
