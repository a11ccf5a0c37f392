/-
This file reads documents into graphs.

The document replaces what the graph held. Nodes whose type is unknown are skipped,
and so are edges with an end that cannot be found or that cannot be linked; the
report tells which and why. A slot is found by its internal name, by the name shown
for it, as a key of a field with keys (which is added if need be), by its place, or
as the only slot of its side.
-/

import Workflow.Document.Basic
import Workflow.Graph.MultiSlot
import Workflow.Registry

namespace Workflow

open Number Text

/-- How documents are read into graphs. -/
structure ImportOptions where
  /-- Places and sizes are taken from the document. -/
  layout : Bool := true
  /-- The distances of the grid on which nodes are placed otherwise. -/
  spacing : Point := ⟨.ofNat 240, .ofNat 160⟩
  /-- The columns of the grid; without them it is about as wide as it is high. -/
  columns : Option Nat := none

/-- Why an edge was skipped. -/
inductive EdgeProblem where
  | unknownSource (index : Nat)
  | unknownTarget (index : Nat)
  | unknownOutput (name : String)
  | unknownInput (name : String)
  | refused (error : ConnectError)

def EdgeProblem.message : EdgeProblem → String
  | unknownSource index => "unknown source node " ++ toString index
  | unknownTarget index => "unknown target node " ++ toString index
  | unknownOutput name => "unknown output slot " ++ quoted name
  | unknownInput name => "unknown input slot " ++ quoted name
  | refused error => error.message

/-- What became of a document. -/
structure ImportReport where
  nodes : Nat := 0
  links : Nat := 0
  /-- Places and types of the nodes that were skipped. -/
  skippedNodes : List (Nat × String) := []
  /-- Places of the edges that were skipped, with the reasons. -/
  skippedEdges : List (Nat × EdgeProblem) := []

/-- Whether everything was read. -/
def ImportReport.isClean (report : ImportReport) : Bool :=
  report.skippedNodes.isEmpty && report.skippedEdges.isEmpty

/-- The least number whose square is at least the given one. -/
def squareSide (n : Nat) : Nat := ((List.range (n + 1)).find? fun side => n ≤ side * side).getD n

/-- The columns of the grid for so many nodes. -/
def ImportOptions.columnsFor (options : ImportOptions) (nodes : Nat) : Nat :=
  max 1 (options.columns.getD (squareSide nodes))

/-- The place of a node on the grid. -/
def ImportOptions.gridPoint (options : ImportOptions) (columns index : Nat) : Point :=
  ⟨(Single.ofNat (index % columns)).mul options.spacing.x,
    (Single.ofNat (index / columns)).mul options.spacing.y⟩

/-! ### Nodes -/

/-- The node with the native value of a field set by a document. -/
def Node.setNative (node : Node) (entry : String × Json) : Node :=
  match node.inputFor? entry.1 with
  | none => node
  | some place =>
    { node with
      inputs := node.inputs.modify place fun slot =>
        { slot with
          native := slot.native.map fun native =>
            { native with value := entry.2, explicit := true } } }

/-- The node with place, drawing and native values of its entry. -/
def Node.applyEntry (node : Node) (options : ImportOptions) (grid : Point) (index : Nat)
    (entry : NodeEntry) : Node :=
  let placed := { node with order := some index, position := grid }
  let drawn :=
    match entry.appearance with
    | none => placed
    | some appearance =>
      { placed with
        position := if options.layout then appearance.position.getD grid else grid
        size := if options.layout then appearance.size.getD placed.size else placed.size
        title := appearance.title
        displayName := appearance.name
        color := appearance.color
        extra := appearance.others }
  entry.fields.foldl Node.setNative drawn

/-- Adds the node of an entry, if its type is known. -/
def Graph.instantiate (graph : Graph) (registry : Registry) (entry : NodeEntry) :
    Option (NodeId × Graph) :=
  match NativeKind.ofPrimitiveTag entry.type with
  | some kind =>
    some (graph.createPrimitive kind ((Object.get? entry.fields primitiveValueField).getD .null))
  | none =>
    match registry.resolve? entry.type with
    | none => none
    | some modelRef =>
      (registry.model? modelRef).map fun model => graph.createNode modelRef model entry.fields

/-- A graph being read, with the node made for each entry so far and the report. -/
structure Importing where
  graph : Graph
  created : List (Option NodeId) := []
  report : ImportReport := {}

/-- Reads one node entry. -/
def Importing.addNode (registry : Registry) (options : ImportOptions) (columns : Nat)
    (importing : Importing) (entry : NodeEntry) : Importing :=
  let index := importing.created.length
  let report := importing.report
  match importing.graph.instantiate registry entry with
  | none =>
    { importing with
      created := importing.created ++ [none]
      report := { report with skippedNodes := report.skippedNodes ++ [(index, entry.type)] } }
  | some (id, graph) =>
    let grid := options.gridPoint columns index
    { graph := graph.modifyNode id fun node => node.applyEntry options grid index entry
      created := importing.created ++ [some id]
      report := { report with nodes := report.nodes + 1 } }

/-! ### Edges -/

/-- The number that digits, after a plus sign or not, stand for if it fits 64 bits. -/
def placeOfDigits (name : List Char) : Option Nat :=
  let digits := if name.head? = some '+' then name.drop 1 else name
  if !digits.isEmpty ∧ digits.all Char.isDigit ∧ digitsValue digits < twoTo 64 then
    some (digitsValue digits)
  else none

/-- Field and key of a name such as `field.key` if the field has keys on this side. -/
def Node.keyedName? (node : Node) (direction : Direction) (name : String) :
    Option (String × String) :=
  match cut '.' name.toList with
  | some (field, key) =>
    if (node.multiSlots direction).contains (String.ofList field) then
      some (String.ofList field, String.ofList key)
    else none
  | none => none

/-- Finds a slot by name; a key that is missing is added to its field. -/
def Graph.resolveSlot (graph : Graph) (id : NodeId) (direction : Direction) (name : String) :
    Option (Nat × Graph) :=
  match graph.node? id with
  | none => none
  | some node =>
    match (node.slotNamed? direction name).or (node.slotShown? direction name) with
    | some place => some (place, graph)
    | none =>
      match node.keyedName? direction name with
      | some (field, key) => (graph.addKey id field key).toOption
      | none =>
        let count := (node.slots direction).length
        match placeOfDigits name.toList with
        | some place => if place < count then some (place, graph) else none
        | none => if count = 1 then some (0, graph) else none

/-- Links the slots of an edge. What finding the slots added to the graph stays even if the edge
cannot be linked. -/
def Graph.linkEdge (graph : Graph) (created : List (Option NodeId)) (edge : EdgeEntry) :
    Graph × Except EdgeProblem LinkId :=
  match (created[edge.source]?).join with
  | none => (graph, .error (.unknownSource edge.source))
  | some source =>
    match (created[edge.target]?).join with
    | none => (graph, .error (.unknownTarget edge.target))
    | some target =>
      match graph.resolveSlot source .output edge.sourceSlot with
      | none => (graph, .error (.unknownOutput edge.sourceSlot))
      | some (originSlot, withOutput) =>
        match withOutput.resolveSlot target .input edge.targetSlot with
        | none => (withOutput, .error (.unknownInput edge.targetSlot))
        | some (targetSlot, withInput) =>
          match withInput.connect source originSlot target targetSlot with
          | .error problem => (withInput, .error (.refused problem))
          | .ok (link, linked) => (linked, .ok link)

/-- Reads one edge. -/
def Importing.addEdge (importing : Importing) (entry : EdgeEntry × Nat) : Importing :=
  let edge := entry.1
  let report := importing.report
  match importing.graph.linkEdge importing.created edge with
  | (graph, .error problem) =>
    { importing with
      graph := graph
      report := { report with skippedEdges := report.skippedEdges ++ [(entry.2, problem)] } }
  | (graph, .ok id) =>
    { importing with
      graph := graph.modifyLink id fun link =>
        { link with isLoop := edge.isLoop, data := edge.data, extra := edge.extra }
      report := { report with links := report.links + 1 } }

/-- Replaces the contents of a graph by a document. -/
def Graph.importDocument (graph : Graph) (registry : Registry) (document : Document)
    (options : ImportOptions) : ImportReport × Graph :=
  let emptied := { graph.clear with kind := some document.kind, metadata := document.metadata }
  let columns := options.columnsFor document.nodes.length
  let withNodes := document.nodes.foldl (Importing.addNode registry options columns)
    { graph := emptied }
  let finished := document.edges.zipIdx.foldl Importing.addEdge withNodes
  (finished.report, finished.graph)

end Workflow
