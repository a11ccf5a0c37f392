/-
This file holds workflow documents and writes them.

A document lists nodes and edges; an edge refers to its nodes by their places in the
document and to slots by name. Members that the format does not know are kept: on
the document as metadata, on a node as values of fields, and on its appearance as
they are.
-/

import Workflow.Graph.Node
import Workflow.Json.Tree

namespace Workflow

open Number

/-- How a node of a document is drawn. -/
structure Appearance where
  position : Option Point := none
  size : Option Point := none
  title : Option String := none
  name : Option String := none
  color : Option String := none
  others : Object := []

/-- A node of a document. -/
structure NodeEntry where
  type : String
  appearance : Option Appearance := none
  /-- Values of fields: annotations, constants, keys and edited inputs. -/
  fields : Object := []

/-- The type of edges that do not name theirs. -/
def defaultEdgeType : String := "edge"

/-- An edge of a document. -/
structure EdgeEntry where
  type : String := defaultEdgeType
  source : Nat
  target : Nat
  sourceSlot : String
  targetSlot : String
  isLoop : Bool := false
  data : Option Json := none
  extra : Option Json := none

/-- The type of documents that do not name theirs. -/
def defaultDocumentType : String := "workflow"

/-- A document. -/
structure Document where
  kind : String := defaultDocumentType
  nodes : List NodeEntry := []
  edges : List EdgeEntry := []
  metadata : Object := []

/-- A member that is written only if there is a value. -/
def optionalMember {Value : Type} (key : String) (write : Value → Tree) :
    Option Value → List (String × Tree)
  | some value => [(key, write value)]
  | none => []

/-- A coordinate as written; one that is not finite is null. -/
def coordinateTree (coordinate : Single) : Tree := coordinate.numeral?.elim .null .number

def Point.tree (point : Point) : Tree := .array [coordinateTree point.x, coordinateTree point.y]

/-- The members of an object as written. -/
def Object.memberTrees (members : Object) : List (String × Tree) := Json.memberTreesOf members

def Appearance.tree (appearance : Appearance) : Tree :=
  .object (
    optionalMember "pos" Point.tree appearance.position ++
    optionalMember "size" Point.tree appearance.size ++
    optionalMember "title" Tree.string appearance.title ++
    optionalMember "name" Tree.string appearance.name ++
    optionalMember "color" Tree.string appearance.color ++
    appearance.others.memberTrees)

def NodeEntry.tree (node : NodeEntry) : Tree :=
  .object (
    ("type", .string node.type) ::
    optionalMember "extra" Appearance.tree node.appearance ++
    node.fields.memberTrees)

/-- The numeral of a natural number as written. -/
def natTree (n : Nat) : Tree := .number (.ofInt n)

def EdgeEntry.tree (edge : EdgeEntry) : Tree :=
  .object (
    [("type", .string edge.type), ("source", natTree edge.source), ("target", natTree edge.target),
      ("source_slot", .string edge.sourceSlot), ("target_slot", .string edge.targetSlot)] ++
    (if edge.isLoop then [("loop", .bool true)] else []) ++
    optionalMember "data" Json.tree edge.data ++
    optionalMember "extra" Json.tree edge.extra)

def Document.tree (document : Document) : Tree :=
  .object (
    [("type", .string document.kind), ("nodes", .array (document.nodes.map NodeEntry.tree)),
      ("edges", .array (document.edges.map EdgeEntry.tree))] ++
    document.metadata.memberTrees)

/-- The text of a document. -/
def Document.text (document : Document) : String := document.tree.pretty

end Workflow
