/-
This file reads documents from text.

Members are read in the order of the text, and the first problem met decides. A
member of the format that comes twice, is missing or has a value of the wrong kind
is a problem of shape; of other members the last counts. An edge may also be
written as an array of its members in the order in which they are documented, and
members of an edge that the format does not know are skimmed over.
-/

import Workflow.Document.Basic
import Workflow.Json.Source

namespace Workflow

open Number

namespace Source

/-- Reads a string. -/
def readText : Source → Except Problem String
  | string pieces => textOf pieces
  | other => .error other.mismatch

/-- Reads a boolean. -/
def readBool : Source → Except Problem Bool
  | bool value => .ok value
  | other => .error other.mismatch

/-- Reads a number. -/
def readNumber : Source → Except Problem Number
  | number numeral =>
    match numeral.value? with
    | some value => .ok value
    | none => .error .malformed
  | other => .error other.mismatch

/-- Reads a place in a list. -/
def readPlace (source : Source) : Except Problem Nat :=
  match source.readNumber with
  | .error problem => .error problem
  | .ok (.int value) => if 0 ≤ value then .ok value.toNat else .error .misshapen
  | .ok (.real _) => .error .misshapen

/-- Reads a coordinate. -/
def readCoordinate (source : Source) : Except Problem Single :=
  source.readNumber.map Single.ofNumber

/-- The problem of an array that ends before everything was read from it. -/
def tooShort : Option Flaw → Problem
  | none => .misshapen
  | some flaw => flaw.strict

/-- Reads a pair of coordinates. -/
def readPoint : Source → Except Problem Point
  | array [] ending => .error (tooShort ending)
  | array [x] ending => do
    let _ ← x.readCoordinate
    .error (tooShort ending)
  | array (x :: y :: rest) ending => do
    let x ← x.readCoordinate
    let y ← y.readCoordinate
    if rest.isEmpty then
      finish ending
      .ok ⟨x, y⟩
    else .error .malformed
  | other => .error other.mismatch

/-- Reads a value that may be null. -/
def readOptional {Value : Type} (read : Source → Except Problem Value) (source : Source) :
    Except Problem (Option Value) :=
  match source with
  | null => .ok none
  | other => (read other).map some

/-- Reads the members of an object one after the other. -/
def readMembers {Draft : Type} (read : Draft → String → Source → Except Problem Draft)
    (draft : Draft) : List (List Piece × Source) → Except Problem Draft
  | [] => .ok draft
  | (pieces, source) :: rest => do
    let key ← textOf pieces
    let next ← read draft key source
    readMembers read next rest

/-- Reads an object, member by member. -/
def readObject {Draft : Type} (read : Draft → String → Source → Except Problem Draft)
    (draft : Draft) : Source → Except Problem Draft
  | object members ending => do
    let result ← readMembers read draft members
    finish ending
    .ok result
  | other => .error other.mismatch

/-- Reads items one after the other. -/
def readItems {Value : Type} (read : Source → Except Problem Value) :
    List Source → Except Problem (List Value)
  | [] => .ok []
  | item :: rest => do
    let first ← read item
    let others ← readItems read rest
    .ok (first :: others)

/-- Reads an array of values. -/
def readArray {Value : Type} (read : Source → Except Problem Value) :
    Source → Except Problem (List Value)
  | array items ending => do
    let values ← readItems read items
    finish ending
    .ok values
  | other => .error other.mismatch

end Source

/-- A value for a member of the format, which must not have one yet. -/
def readOnce {Value : Type} (before : Option Value) (read : Source → Except Problem Value)
    (source : Source) : Except Problem (Option Value) :=
  if before.isSome then .error .misshapen else (read source).map some

/-- The value of a member that must be there. -/
def required {Value : Type} : Option Value → Except Problem Value
  | some value => .ok value
  | none => .error .misshapen

/-! ### Nodes -/

/-- The members of an appearance read so far; a member that was null counts as read. -/
structure AppearanceDraft where
  position : Option (Option Point) := none
  size : Option (Option Point) := none
  title : Option (Option String) := none
  name : Option (Option String) := none
  color : Option (Option String) := none
  others : List (String × Json) := []

/-- How many containers stand around the values of an appearance: document, nodes, node, and
itself. -/
def appearanceDepth : Nat := 4

/-- The draft with one member of an appearance read. -/
def AppearanceDraft.read (draft : AppearanceDraft) (key : String) (source : Source) :
    Except Problem AppearanceDraft :=
  match key with
  | "pos" =>
    (readOnce draft.position (Source.readOptional Source.readPoint) source).map
      fun value => { draft with position := value }
  | "size" =>
    (readOnce draft.size (Source.readOptional Source.readPoint) source).map
      fun value => { draft with size := value }
  | "title" =>
    (readOnce draft.title (Source.readOptional Source.readText) source).map
      fun value => { draft with title := value }
  | "name" =>
    (readOnce draft.name (Source.readOptional Source.readText) source).map
      fun value => { draft with name := value }
  | "color" =>
    (readOnce draft.color (Source.readOptional Source.readText) source).map
      fun value => { draft with color := value }
  | key =>
    (source.value (Source.depthLimit - appearanceDepth)).map
      fun value => { draft with others := draft.others ++ [(key, value)] }

/-- Reads an appearance. -/
def Appearance.read (source : Source) : Except Problem Appearance := do
  let draft ← source.readObject AppearanceDraft.read {}
  .ok
    { position := draft.position.join
      size := draft.size.join
      title := draft.title.join
      name := draft.name.join
      color := draft.color.join
      others := Object.ofList draft.others }

/-- The members of a node read so far. -/
structure NodeDraft where
  type : Option String := none
  appearance : Option (Option Appearance) := none
  fields : List (String × Json) := []

/-- How many containers stand around the values of a node: document, nodes and itself. -/
def nodeDepth : Nat := 3

/-- The draft with one member of a node read. -/
def NodeDraft.read (draft : NodeDraft) (key : String) (source : Source) :
    Except Problem NodeDraft :=
  match key with
  | "type" =>
    (readOnce draft.type Source.readText source).map fun value => { draft with type := value }
  | "extra" =>
    (readOnce draft.appearance (Source.readOptional Appearance.read) source).map
      fun value => { draft with appearance := value }
  | key =>
    (source.value (Source.depthLimit - nodeDepth)).map
      fun value => { draft with fields := draft.fields ++ [(key, value)] }

/-- Reads a node. -/
def NodeEntry.read (source : Source) : Except Problem NodeEntry := do
  let draft ← source.readObject NodeDraft.read {}
  let type ← required draft.type
  .ok { type := type, appearance := draft.appearance.join, fields := Object.ofList draft.fields }

/-! ### Edges -/

/-- The members of an edge read so far. -/
structure EdgeDraft where
  type : Option String := none
  source : Option Nat := none
  target : Option Nat := none
  sourceSlot : Option String := none
  targetSlot : Option String := none
  isLoop : Option Bool := none
  data : Option (Option Json) := none
  extra : Option (Option Json) := none

/-- How many containers stand around the values of an edge: document, edges and itself. -/
def edgeDepth : Nat := 3

/-- Reads a value that an edge carries along. -/
def readCarried : Source → Except Problem (Option Json) :=
  Source.readOptional (Source.value (Source.depthLimit - edgeDepth))

/-- The members of an edge in the order in which an array gives them. -/
def edgeMembers : List String :=
  ["type", "source", "target", "source_slot", "target_slot", "loop", "data", "extra"]

/-- The draft with one member of an edge read. -/
def EdgeDraft.read (draft : EdgeDraft) (key : String) (source : Source) :
    Except Problem EdgeDraft :=
  match key with
  | "type" =>
    (readOnce draft.type Source.readText source).map fun value => { draft with type := value }
  | "source" =>
    (readOnce draft.source Source.readPlace source).map fun value => { draft with source := value }
  | "target" =>
    (readOnce draft.target Source.readPlace source).map fun value => { draft with target := value }
  | "source_slot" =>
    (readOnce draft.sourceSlot Source.readText source).map
      fun value => { draft with sourceSlot := value }
  | "target_slot" =>
    (readOnce draft.targetSlot Source.readText source).map
      fun value => { draft with targetSlot := value }
  | "loop" =>
    (readOnce draft.isLoop Source.readBool source).map fun value => { draft with isLoop := value }
  | "data" => (readOnce draft.data readCarried source).map fun value => { draft with data := value }
  | "extra" =>
    (readOnce draft.extra readCarried source).map fun value => { draft with extra := value }
  | _ => source.skim.map fun _ => draft

/-- The edge of a draft, if all members are there that every edge has. -/
def EdgeDraft.edge (draft : EdgeDraft) : Except Problem EdgeEntry := do
  let source ← required draft.source
  let target ← required draft.target
  let sourceSlot ← required draft.sourceSlot
  let targetSlot ← required draft.targetSlot
  .ok
    { type := draft.type.getD defaultEdgeType
      source := source
      target := target
      sourceSlot := sourceSlot
      targetSlot := targetSlot
      isLoop := draft.isLoop.getD false
      data := draft.data.join
      extra := draft.extra.join }

/-- Reads the members of an edge from the items of an array. An array may leave out members at its
end that not every edge has. -/
def EdgeDraft.readItems (draft : EdgeDraft) (ending : Option Flaw) :
    List String → List Source → Except Problem EdgeDraft
  | [], [] => (Source.finish ending).map fun _ => draft
  | [], _ :: _ => .error .malformed
  | _ :: _, [] =>
    match ending with
    | none => .ok draft
    | some flaw => .error flaw.strict
  | key :: keys, item :: items => do
    let next ← draft.read key item
    next.readItems ending keys items

/-- Reads an edge. -/
def EdgeEntry.read : Source → Except Problem EdgeEntry
  | .array items ending => do
    let draft ← EdgeDraft.readItems {} ending edgeMembers items
    draft.edge
  | source => do
    let draft ← source.readObject EdgeDraft.read {}
    draft.edge

/-! ### Documents -/

/-- The members of a document read so far. -/
structure DocumentDraft where
  kind : Option String := none
  nodes : Option (List NodeEntry) := none
  edges : Option (List EdgeEntry) := none
  metadata : List (String × Json) := []

/-- The draft with one member of a document read. -/
def DocumentDraft.read (draft : DocumentDraft) (key : String) (source : Source) :
    Except Problem DocumentDraft :=
  match key with
  | "type" =>
    (readOnce draft.kind Source.readText source).map fun value => { draft with kind := value }
  | "nodes" =>
    (readOnce draft.nodes (Source.readArray NodeEntry.read) source).map
      fun value => { draft with nodes := value }
  | "edges" =>
    (readOnce draft.edges (Source.readArray EdgeEntry.read) source).map
      fun value => { draft with edges := value }
  | key =>
    (source.value (Source.depthLimit - 1)).map
      fun value => { draft with metadata := draft.metadata ++ [(key, value)] }

/-- Reads a document from the tree of a text. -/
def Document.ofSource (source : Source) : Except Problem Document := do
  let draft ← source.readObject DocumentDraft.read {}
  .ok
    { kind := draft.kind.getD defaultDocumentType
      nodes := draft.nodes.getD []
      edges := draft.edges.getD []
      metadata := Object.ofList draft.metadata }

/-- Reads a document. -/
def Document.parse (text : String) : Except Problem Document := do
  let (source, trailing) := Source.read text.toList
  let document ← Document.ofSource source
  if trailing then .error .malformed else .ok document

end Workflow
