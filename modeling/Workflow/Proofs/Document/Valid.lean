/-
This file says which documents there can be: what stands beside the members of the
format has other keys, its values can be, coordinates fit their format, and a value
that an edge carries along is not null.

Such a document is read again from its text unless a coordinate is not finite, a value
nests too deep or the place of an edge does not fit 64 bits.
-/

import Workflow.Proofs.Document.Readable
import Workflow.Proofs.Json.Valid

namespace Workflow

open Number

/-! ### Members beside those of the format -/

/-- Members that stand beside those that the format knows, with values there can be. -/
structure Object.Beside (known : List String) (members : Object) : Prop where
  valid : (Json.object members).Valid
  unknown : ∀ entry ∈ members, entry.1 ∉ known

namespace Object

variable {known : List String} {members : Object}

theorem beside_empty : Beside known [] := ⟨valid_empty, List.forall_mem_nil _⟩

theorem Beside.insert (beside : members.Beside known) {key : String} (unknown : key ∉ known)
    {value : Json} (valid : value.Valid) : (members.insert key value).Beside known where
  valid := valid_insert beside.valid key valid
  unknown entry member := by
    rcases eq_or_mem_of_mem_insert member with rfl | old
    · exact unknown
    · exact beside.unknown entry old

theorem Beside.isOpen (beside : members.Beside known) : members.Open known where
  ascending := (Json.valid_object_iff.1 beside.valid).1
  ordered := beside.valid.ordered.2
  unknown := beside.unknown

theorem Beside.inRange (beside : members.Beside known) :
    ∀ number ∈ Json.memberNumbers members, number.InRange := beside.valid.inRange

end Object

/-! ### Nodes -/

/-- A point both of whose coordinates fit their format. -/
def Point.InFormat (point : Point) : Prop := ∀ coordinate ∈ point.coordinates, coordinate.InFormat

/-- An appearance whose coordinates fit their format. -/
structure Appearance.Valid (appearance : Appearance) : Prop where
  position : ∀ point ∈ appearance.position, point.InFormat
  size : ∀ point ∈ appearance.size, point.InFormat
  others : appearance.others.Beside appearanceMembers

theorem Appearance.Valid.inFormat {appearance : Appearance} (valid : appearance.Valid) :
    ∀ coordinate ∈ appearance.coordinates, coordinate.InFormat := by
  rw [coordinates, List.forall_mem_flatMap, List.forall_mem_append]
  simp only [Option.mem_toList]
  exact ⟨valid.position, valid.size⟩

namespace NodeEntry

/-- A node with values there can be. -/
structure Valid (node : NodeEntry) : Prop where
  appearance : ∀ appearance ∈ node.appearance, appearance.Valid
  fields : node.fields.Beside reservedFields

variable {node : NodeEntry}

theorem Valid.regular (valid : node.Valid) : node.Regular where
  fields := valid.fields.isOpen
  appearance appearance isDrawn := (valid.appearance appearance isDrawn).others.isOpen

theorem Valid.inRange (valid : node.Valid) : ∀ number ∈ node.numbers, number.InRange := by
  rw [numbers, List.forall_mem_append, List.forall_mem_flatMap]
  simp only [Option.mem_toList]
  exact ⟨fun appearance isDrawn => (valid.appearance appearance isDrawn).others.inRange,
    valid.fields.inRange⟩

theorem Valid.inFormat (valid : node.Valid) :
    ∀ coordinate ∈ node.coordinates, coordinate.InFormat := by
  rw [coordinates, List.forall_mem_flatMap]
  simp only [Option.mem_toList]
  exact fun appearance isDrawn => (valid.appearance appearance isDrawn).inFormat

end NodeEntry

/-! ### Edges -/

/-- A value that may be carried along: there can be such a value, and it is not null. -/
structure Json.Portable (value : Json) : Prop where
  given : value ≠ .null
  valid : value.Valid

namespace EdgeEntry

/-- An edge that carries nothing or values that may be carried along. -/
structure Valid (edge : EdgeEntry) : Prop where
  data : ∀ value ∈ edge.data, value.Portable
  extra : ∀ value ∈ edge.extra, value.Portable

variable {edge : EdgeEntry}

theorem Valid.regular (valid : edge.Valid) : edge.Regular where
  data value isData := ⟨(valid.data value isData).given, (valid.data value isData).valid.ordered⟩
  extra value isExtra :=
    ⟨(valid.extra value isExtra).given, (valid.extra value isExtra).valid.ordered⟩

theorem Valid.inRange (valid : edge.Valid) : ∀ number ∈ edge.numbers, number.InRange := by
  rw [numbers, List.flatMap_append, List.forall_mem_append, List.forall_mem_flatMap,
    List.forall_mem_flatMap]
  simp only [Option.mem_toList]
  exact ⟨fun value isData => (valid.data value isData).valid.inRange,
    fun value isExtra => (valid.extra value isExtra).valid.inRange⟩

end EdgeEntry

/-! ### Documents -/

namespace Document

/-- A document with values there can be. -/
structure Valid (document : Document) : Prop where
  nodes : ∀ node ∈ document.nodes, node.Valid
  edges : ∀ edge ∈ document.edges, edge.Valid
  metadata : document.metadata.Beside documentMembers

variable {document : Document}

theorem Valid.regular (valid : document.Valid) : document.Regular where
  nodes node member := (valid.nodes node member).regular
  edges edge member := (valid.edges edge member).regular
  metadata := valid.metadata.isOpen

theorem Valid.inRange (valid : document.Valid) : ∀ number ∈ document.numbers, number.InRange := by
  rw [numbers, List.forall_mem_append, List.forall_mem_append, List.forall_mem_flatMap,
    List.forall_mem_flatMap]
  exact ⟨⟨fun node member => (valid.nodes node member).inRange,
    fun edge member => (valid.edges edge member).inRange⟩, valid.metadata.inRange⟩

theorem Valid.inFormat (valid : document.Valid) :
    ∀ coordinate ∈ document.coordinates, coordinate.InFormat := by
  rw [coordinates, List.forall_mem_flatMap]
  exact fun node member => (valid.nodes node member).inFormat

/-- What may keep a document that there can be from being read again. -/
theorem Valid.readable_iff (valid : document.Valid) :
    document.Readable ↔
      document.Shallow ∧ (∀ edge ∈ document.edges, edge.Placed) ∧
      ∀ coordinate ∈ document.coordinates, ∃ value, coordinate = .finite value := by
  have coordinates : (∀ coordinate ∈ document.coordinates, coordinate.reread?.isSome) ↔
      ∀ coordinate ∈ document.coordinates, ∃ value, coordinate = .finite value :=
    forall₂_congr fun coordinate member => (valid.inFormat coordinate member).reread?_isSome_iff
  have numbers : ∀ number ∈ document.numbers, number.reread?.isSome :=
    fun number member => (valid.inRange number member).reread?_isSome
  rw [readable_iff_parts, coordinates, and_iff_left numbers]

end Document

end Workflow
