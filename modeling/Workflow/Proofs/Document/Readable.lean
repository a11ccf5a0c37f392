/-
This file says what a document must be like to be read again: which coordinates and
numbers it holds, and how deep its values nest.

If all of these are read as they were written, the document is read as it was written.
-/

import Workflow.Proofs.Document.Reread

namespace Workflow

open Number Source

/-! ### Coordinates and numbers -/

def Appearance.numbers (appearance : Appearance) : List Number :=
  Json.memberNumbers appearance.others

namespace NodeEntry

def coordinates (node : NodeEntry) : List Single :=
  node.appearance.toList.flatMap Appearance.coordinates

def numbers (node : NodeEntry) : List Number :=
  node.appearance.toList.flatMap Appearance.numbers ++ Json.memberNumbers node.fields

end NodeEntry

def EdgeEntry.numbers (edge : EdgeEntry) : List Number :=
  (edge.data.toList ++ edge.extra.toList).flatMap Json.numbers

namespace Document

/-- The coordinates of all positions and sizes. -/
def coordinates (document : Document) : List Single := document.nodes.flatMap NodeEntry.coordinates

/-- The numbers in all values. -/
def numbers (document : Document) : List Number :=
  document.nodes.flatMap NodeEntry.numbers ++ document.edges.flatMap EdgeEntry.numbers ++
    Json.memberNumbers document.metadata

end Document

/-! ### Depth -/

/-- The values of a node nest no deeper than the format allows. -/
structure NodeEntry.Shallow (node : NodeEntry) : Prop where
  appearance : ∀ appearance ∈ node.appearance,
    Json.memberLevels appearance.others ≤ depthLimit - appearanceDepth
  fields : Json.memberLevels node.fields ≤ depthLimit - nodeDepth

instance (node : NodeEntry) : Decidable node.Shallow :=
  decidable_of_iff ((∀ appearance ∈ node.appearance,
      Json.memberLevels appearance.others ≤ depthLimit - appearanceDepth) ∧
      Json.memberLevels node.fields ≤ depthLimit - nodeDepth)
    ⟨fun ⟨appearance, fields⟩ => ⟨appearance, fields⟩,
      fun shallow => ⟨shallow.appearance, shallow.fields⟩⟩

/-- The values of an edge nest no deeper than the format allows. -/
structure EdgeEntry.Shallow (edge : EdgeEntry) : Prop where
  data : ∀ value ∈ edge.data, value.levels ≤ depthLimit - edgeDepth
  extra : ∀ value ∈ edge.extra, value.levels ≤ depthLimit - edgeDepth

/-- The values of a document nest no deeper than the format allows. -/
structure Document.Shallow (document : Document) : Prop where
  nodes : ∀ node ∈ document.nodes, node.Shallow
  edges : ∀ edge ∈ document.edges, edge.Shallow
  metadata : Json.memberLevels document.metadata ≤ depthLimit - 1

/-- The places of an edge are numbers of 64 bits. -/
structure EdgeEntry.Placed (edge : EdgeEntry) : Prop where
  source : edge.source < twoTo 64
  target : edge.target < twoTo 64

/-! ### Reading again -/

theorem NodeEntry.readable_iff_parts {node : NodeEntry} :
    node.Readable ↔ node.Shallow ∧ (∀ coordinate ∈ node.coordinates, coordinate.reread?.isSome) ∧
      ∀ number ∈ node.numbers, number.reread?.isSome := by
  rw [coordinates, numbers, List.forall_mem_append, List.forall_mem_flatMap,
    List.forall_mem_flatMap]
  simp only [Option.mem_toList]
  refine ⟨fun readable => ⟨⟨?_, readable.shallow⟩, ?_, ?_, readable.numbers⟩, ?_⟩
  · exact fun appearance isDrawn => (readable.appearance appearance isDrawn).shallow
  · exact fun appearance isDrawn => (readable.appearance appearance isDrawn).coordinates
  · exact fun appearance isDrawn => (readable.appearance appearance isDrawn).numbers
  · rintro ⟨shallow, coordinates, drawnNumbers, numbers⟩
    exact ⟨fun appearance isDrawn => ⟨coordinates appearance isDrawn,
      shallow.appearance appearance isDrawn, drawnNumbers appearance isDrawn⟩, shallow.fields,
      numbers⟩

theorem EdgeEntry.readable_iff_parts {edge : EdgeEntry} :
    edge.Readable ↔
      edge.Placed ∧ edge.Shallow ∧ ∀ number ∈ edge.numbers, number.reread?.isSome := by
  rw [numbers, List.flatMap_append, List.forall_mem_append, List.forall_mem_flatMap,
    List.forall_mem_flatMap]
  simp only [Option.mem_toList]
  refine ⟨fun readable => ⟨⟨readable.source, readable.target⟩, ⟨?_, ?_⟩, ?_, ?_⟩, ?_⟩
  · exact fun value isValue => (readable.data value isValue).1
  · exact fun value isValue => (readable.extra value isValue).1
  · exact fun value isValue => (readable.data value isValue).2
  · exact fun value isValue => (readable.extra value isValue).2
  · rintro ⟨placed, shallow, data, extra⟩
    exact ⟨placed.source, placed.target,
      fun value isValue => ⟨shallow.data value isValue, data value isValue⟩,
      fun value isValue => ⟨shallow.extra value isValue, extra value isValue⟩⟩

/-- A document is read again if its values are shallow enough, the places of its edges fit 64 bits,
and all its coordinates and numbers are read. -/
theorem Document.readable_iff_parts {document : Document} :
    document.Readable ↔
      document.Shallow ∧ (∀ edge ∈ document.edges, edge.Placed) ∧
      (∀ coordinate ∈ document.coordinates, coordinate.reread?.isSome) ∧
      ∀ number ∈ document.numbers, number.reread?.isSome := by
  rw [coordinates, numbers, List.forall_mem_append, List.forall_mem_append,
    List.forall_mem_flatMap, List.forall_mem_flatMap, List.forall_mem_flatMap]
  refine ⟨fun readable => ?_, ?_⟩
  · have nodes (node : NodeEntry) (member : node ∈ document.nodes) :=
      NodeEntry.readable_iff_parts.1 (readable.nodes node member)
    have edges (edge : EdgeEntry) (member : edge ∈ document.edges) :=
      EdgeEntry.readable_iff_parts.1 (readable.edges edge member)
    exact ⟨⟨fun node member => (nodes node member).1, fun edge member => (edges edge member).2.1,
      readable.shallow⟩, fun edge member => (edges edge member).1,
      fun node member => (nodes node member).2.1, ⟨fun node member => (nodes node member).2.2,
      fun edge member => (edges edge member).2.2⟩, readable.numbers⟩
  · rintro ⟨shallow, placed, coordinates, ⟨nodeNumbers, edgeNumbers⟩, numbers⟩
    refine ⟨fun node member => ?_, fun edge member => ?_, shallow.metadata, numbers⟩
    · exact NodeEntry.readable_iff_parts.2
        ⟨shallow.nodes node member, coordinates node member, nodeNumbers node member⟩
    · exact EdgeEntry.readable_iff_parts.2
        ⟨placed edge member, shallow.edges edge member, edgeNumbers edge member⟩

/-! ### Reading the same again -/

theorem map_eq_self {Value : Type} {change : Value → Value} {value? : Option Value}
    (same : ∀ value ∈ value?, change value = value) : value?.map change = value? := by
  cases value? with
  | none => rfl
  | some value => exact congrArg some (same value rfl)

theorem Point.reread_eq_self {point : Point}
    (same : ∀ coordinate ∈ point.coordinates, coordinate.reread? = some coordinate) :
    point.reread = point := by
  rw [reread, same point.x (by simp [coordinates]), same point.y (by simp [coordinates])]
  rfl

theorem Appearance.reread_eq_self {appearance : Appearance}
    (coordinates : ∀ coordinate ∈ appearance.coordinates, coordinate.reread? = some coordinate)
    (numbers : ∀ number ∈ appearance.numbers, number.reread? = some number) :
    appearance.reread = appearance := by
  rw [Appearance.coordinates, List.forall_mem_flatMap, List.forall_mem_append] at coordinates
  simp only [Option.mem_toList] at coordinates
  rw [reread, map_eq_self fun point isPoint => Point.reread_eq_self (coordinates.1 point isPoint),
    map_eq_self fun point isPoint => Point.reread_eq_self (coordinates.2 point isPoint),
    Json.rereadMembers_eq_self appearance.others numbers]

theorem NodeEntry.reread_eq_self {node : NodeEntry}
    (coordinates : ∀ coordinate ∈ node.coordinates, coordinate.reread? = some coordinate)
    (numbers : ∀ number ∈ node.numbers, number.reread? = some number) : node.reread = node := by
  rw [NodeEntry.coordinates, List.forall_mem_flatMap] at coordinates
  rw [NodeEntry.numbers, List.forall_mem_append, List.forall_mem_flatMap] at numbers
  simp only [Option.mem_toList] at coordinates numbers
  rw [reread, Json.rereadMembers_eq_self node.fields numbers.2,
    map_eq_self fun appearance isDrawn =>
      Appearance.reread_eq_self (coordinates appearance isDrawn) (numbers.1 appearance isDrawn)]

theorem EdgeEntry.reread_eq_self {edge : EdgeEntry}
    (numbers : ∀ number ∈ edge.numbers, number.reread? = some number) : edge.reread = edge := by
  rw [EdgeEntry.numbers, List.flatMap_append, List.forall_mem_append, List.forall_mem_flatMap,
    List.forall_mem_flatMap] at numbers
  simp only [Option.mem_toList] at numbers
  rw [reread, map_eq_self fun value isValue => Json.reread_eq_self value (numbers.1 value isValue),
    map_eq_self fun value isValue => Json.reread_eq_self value (numbers.2 value isValue)]

theorem map_items_eq_self {Value : Type} {change : Value → Value} {values : List Value}
    (same : ∀ value ∈ values, change value = value) : values.map change = values := by
  rw [List.map_congr_left same, List.map_id']

/-- A document is the same if every coordinate and every number is read as it was written. -/
theorem Document.reread_eq_self {document : Document}
    (coordinates : ∀ coordinate ∈ document.coordinates, coordinate.reread? = some coordinate)
    (numbers : ∀ number ∈ document.numbers, number.reread? = some number) :
    document.reread = document := by
  rw [Document.coordinates, List.forall_mem_flatMap] at coordinates
  rw [Document.numbers, List.forall_mem_append, List.forall_mem_append, List.forall_mem_flatMap,
    List.forall_mem_flatMap] at numbers
  have nodes : document.nodes.map NodeEntry.reread = document.nodes :=
    map_items_eq_self fun node member =>
      NodeEntry.reread_eq_self (coordinates node member) (numbers.1.1 node member)
  have edges : document.edges.map EdgeEntry.reread = document.edges :=
    map_items_eq_self fun edge member => EdgeEntry.reread_eq_self (numbers.1.2 edge member)
  rw [reread, nodes, edges, Json.rereadMembers_eq_self document.metadata numbers.2]

end Workflow
