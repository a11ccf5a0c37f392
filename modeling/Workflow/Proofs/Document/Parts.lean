/-
This file says where the values come from that a document lists for a node.

They come from the notes, the constants, the fields with keys on either side and the
inputs. The parts have no names in common, so the value of a name is that of the one
part the name belongs to, in whatever order the parts are written.
-/

import Workflow.Document.Export
import Workflow.Proofs.Json.Object
import Workflow.Proofs.Node.Names

namespace Workflow

/-- The parts of a node that a document lists values of. -/
inductive Part where
  | notes
  | constants
  | keys (direction : Direction)
  | inputs

/-- The role of the fields whose values are in a part. -/
def Part.role : Part → Role
  | notes => .note
  | constants => .constant
  | keys direction => direction.keyedRole
  | inputs => .input

theorem Part.eq_of_role {one other : Part} (same : one.role = other.role) : one = other := by
  cases one with
  | keys first =>
    cases other with
    | keys second => cases first <;> cases second <;> simp_all [role, Direction.keyedRole]
    | _ => cases first <;> simp_all [role, Direction.keyedRole]
  | _ =>
    cases other with
    | keys second => cases second <;> simp_all [role, Direction.keyedRole]
    | _ => simp_all [role]

/-- The parts in the order in which they are written. -/
def Part.all : List Part := [.notes, .constants, .keys .input, .keys .output, .inputs]

/-- The values of a part. -/
def Node.part (node : Node) : Part → Object
  | .notes => node.annotations.entries
  | .constants => node.constants.entries
  | .keys direction => node.keyFields direction
  | .inputs => node.inputs.filterMap nativeField

theorem Node.documentFields_eq (node : Node) :
    node.documentFields = Part.all.flatMap node.part := by
  simp [documentFields, Part.all, part]

namespace Blueprint

/-- The names that may have values in a part. -/
def names (blueprint : Blueprint) : Part → List String
  | .notes => (fieldsOf .note blueprint.fields).map fun entry => entry.1.name
  | .constants => blueprint.constants
  | .keys direction => (fieldsOf direction.keyedRole blueprint.fields).map fun entry => entry.1.name
  | .inputs => (fieldsOf .input blueprint.fields).map fun entry => entry.1.name

/-- The parts have different names, and the type tag of a document is a field. -/
structure Parted (blueprint : Blueprint) : Prop where
  nodup : ∀ part, (blueprint.names part).Nodup
  apart : ∀ one other name, name ∈ blueprint.names one → name ∈ blueprint.names other → one = other
  tag : typeTagField ∈ blueprint.constants →
    ∃ entry ∈ fieldsOf .constant blueprint.fields, entry.1.name = typeTagField

theorem parted_ofModel {modelRef : String} {model : Model}
    (sound : (ofModel modelRef model).Sound) : (ofModel modelRef model).Parted := by
  have names (part : Part) : (ofModel modelRef model).names part =
      (fieldsOf part.role (ofModel modelRef model).fields).map fun entry => entry.1.name := by
    cases part <;> rfl
  refine ⟨fun part => ?_, fun one other name isOne isOther => ?_, fun isTag => ?_⟩
  · rw [names]
    exact sound.distinct.sublist (List.filter_sublist.map _)
  · rw [names] at isOne isOther
    obtain ⟨first, isFirst, rfl⟩ := List.mem_map.1 isOne
    obtain ⟨second, isSecond, same⟩ := List.mem_map.1 isOther
    obtain ⟨inFirst, roleFirst⟩ := mem_fieldsOf.1 isFirst
    obtain ⟨inSecond, roleSecond⟩ := mem_fieldsOf.1 isSecond
    rw [sound.eq_of_name inSecond inFirst same] at roleSecond
    exact Part.eq_of_role (roleFirst.symm.trans roleSecond)
  · obtain ⟨entry, isEntry, same⟩ := List.mem_map.1 isTag
    exact ⟨entry, isEntry, same⟩

theorem parted_ofKind (kind : NativeKind) : (ofKind kind).Parted := by
  have empty (part : Part) (apart : part ≠ .constants) : (ofKind kind).names part = [] := by
    cases part with
    | constants => exact absurd rfl apart
    | keys direction => cases direction <;> rfl
    | _ => rfl
  refine ⟨fun part => ?_, fun one other name isOne isOther => ?_, fun isTag => ?_⟩
  · cases part with
    | constants => exact List.nodup_singleton primitiveValueField
    | _ =>
      rw [empty _ (by simp)]
      exact List.nodup_nil
  · have only (part : Part) (member : name ∈ (ofKind kind).names part) : part = .constants := by
      by_contra apart
      rw [empty part apart] at member
      cases member
    rw [only one isOne, only other isOther]
  · have absent : typeTagField ∉ [primitiveValueField] := by decide
    exact absurd isTag absent

end Blueprint

/-! ### Values of nodes -/

theorem map_fst_filterMap_sublist {Item : Type} {items : List Item}
    {value : Item → Option (String × Json)} {name : Item → String}
    (named : ∀ item ∈ items, ∀ entry, value item = some entry → entry.1 = name item) :
    ((items.filterMap value).map Prod.fst).Sublist (items.map name) := by
  induction items with
  | nil => exact List.Sublist.slnil
  | cons item rest inductionHypothesis =>
    have later := inductionHypothesis fun other member =>
      named other (List.mem_cons_of_mem item member)
    cases found : value item with
    | none =>
      rw [List.filterMap_cons_none found]
      exact later.cons _
    | some entry =>
      rw [List.filterMap_cons_some found, List.map_cons, List.map_cons,
        named item List.mem_cons_self entry found]
      exact later.cons_cons _

namespace Node

variable {blueprint : Blueprint} {node : Node}

/-- The fields with keys of a node are those of its blueprint. -/
theorem Fits.keys_multiSlots (fits : node.Fits blueprint)
    (direction : Direction) :
    (node.multiSlots direction).keys = blueprint.names (.keys direction) := by
  rw [OrderedMap.keys, (fits.sides direction).places, List.map_map]
  rfl

/-- The inputs without keys, in order, are those of the fields. -/
theorem Fits.map_field_inputs (fits : node.Fits blueprint) :
    ((node.inputs.filter fun slot => !slot.info.isMulti).map fun slot => slot.info.field) =
      blueprint.names .inputs := by
  have plain := (fits.sides .input).plain
  rw [show node.slots .input = node.inputs.map InputSlot.info from rfl, List.filter_map] at plain
  have fields := congrArg (List.map SlotInfo.field) plain
  rw [List.map_map, List.map_map] at fields
  exact fields

/-- The names with values in a part are among those of the part, in their order. -/
theorem Fits.part_sublist (fits : node.Fits blueprint) (part : Part) :
    ((node.part part).map Prod.fst).Sublist (blueprint.names part) := by
  cases part with
  | notes =>
    have named : ∀ name ∈ blueprint.names .notes, ∀ entry,
        (node.annotations.get? name).map (fun value => (name, value)) = some entry →
          entry.1 = name := by
      intro name _ entry found
      obtain ⟨value, -, rfl⟩ := Option.map_eq_some_iff.1 found
      rfl
    have listed := map_fst_filterMap_sublist named
    rw [List.map_id'] at listed
    rw [Node.part, fits.notes]
    exact listed
  | constants =>
    rw [Blueprint.names, ← fits.constants]
    exact List.Sublist.refl _
  | keys direction =>
    rw [Node.part, keyFields, (fits.sides direction).places, List.filterMap_map]
    refine map_fst_filterMap_sublist fun field _ entry found => ?_
    simp only [Function.comp_apply] at found
    split at found
    · cases found
    · cases found
      rfl
  | inputs =>
    have plain : node.inputs.filterMap nativeField =
        (node.inputs.filter fun slot => !slot.info.isMulti).filterMap nativeField := by
      rw [List.filterMap_filter]
      refine List.filterMap_congr fun slot member => ?_
      cases isMulti : slot.info.isMulti with
      | false => rfl
      | true =>
        rw [nativeField, (fits.natives slot member).keyed isMulti]
        rfl
    rw [Node.part, plain, ← fits.map_field_inputs]
    refine map_fst_filterMap_sublist fun slot _ entry found => ?_
    rw [nativeField] at found
    split at found
    · split at found
      · cases found
        rfl
      · cases found
    · cases found

/-- The values that a document lists have different names. -/
theorem Fits.nodup_documentFields (fits : node.Fits blueprint) (parted : blueprint.Parted) :
    (Object.keys node.documentFields).Nodup := by
  rw [Object.keys, documentFields_eq, List.map_flatMap]
  refine List.nodup_flatMap.2
    ⟨fun part _ => (parted.nodup part).sublist (fits.part_sublist part), ?_⟩
  have different : Part.all.Pairwise fun one other => one ≠ other := by
    simp [Part.all]
  refine different.imp fun {one other} apart name isOne isOther => apart ?_
  exact parted.apart one other name ((fits.part_sublist one).subset isOne)
    ((fits.part_sublist other).subset isOther)

theorem fields_entry (node : Node) (withLayout : Bool) : (node.entry withLayout).fields =
    Object.ofList (node.documentFields.filter fun entry => !reservedFields.contains entry.1) := by
  rw [Object.ofList, List.foldl_filter]
  refine List.foldl_ext _ _ _ fun fields entry _ => ?_
  rw [putField]
  cases reservedFields.contains entry.1 <;> rfl

theorem ascending_fields (node : Node) (withLayout : Bool) :
    Object.Ascending (node.entry withLayout).fields := by
  rw [fields_entry]
  exact Object.ascending_ofList _

/-- What a document lists for a name. -/
theorem Fits.get?_fields (fits : node.Fits blueprint) (parted : blueprint.Parted)
    (withLayout : Bool) (name : String) :
    Object.get? (node.entry withLayout).fields name =
      if name ∈ reservedFields then none else Object.get? node.documentFields name := by
  have distinct := fits.nodup_documentFields parted
  have kept : (node.documentFields.filter fun entry => !reservedFields.contains entry.1).Sublist
      node.documentFields := List.filter_sublist
  have distinctKept := distinct.sublist (kept.map Prod.fst)
  rw [fields_entry, Object.get?_ofList distinctKept]
  refine Option.ext fun value => ?_
  rw [Object.get?_eq_some_iff distinctKept, List.mem_filter]
  split
  · next reserved => simp [reserved]
  · next free =>
    rw [Object.get?_eq_some_iff distinct, and_iff_left]
    simpa using free

/-- The value of a name is that of the part the name belongs to. -/
theorem Fits.get?_of_names (fits : node.Fits blueprint) (parted : blueprint.Parted)
    (withLayout : Bool) {part : Part} {name : String} (isName : name ∈ blueprint.names part)
    (free : name ∉ reservedFields) :
    Object.get? (node.entry withLayout).fields name = Object.get? (node.part part) name := by
  have distinct := fits.nodup_documentFields parted
  have distinctPart := (parted.nodup part).sublist (fits.part_sublist part)
  rw [fits.get?_fields parted, if_neg free]
  refine Option.ext fun value => ?_
  rw [Object.get?_eq_some_iff distinct, Object.get?_eq_some_iff distinctPart, documentFields_eq,
    List.mem_flatMap]
  constructor
  · rintro ⟨other, -, member⟩
    have listed := (fits.part_sublist other).subset (List.mem_map_of_mem member)
    rw [parted.apart part other name isName listed]
    exact member
  · refine fun member => ⟨part, ?_, member⟩
    cases part with
    | keys direction => cases direction <;> simp [Part.all]
    | _ => simp [Part.all]

theorem Fits.get?_of_notMem_names (fits : node.Fits blueprint) (parted : blueprint.Parted)
    (withLayout : Bool) {name : String} (absent : ∀ part, name ∉ blueprint.names part) :
    Object.get? (node.entry withLayout).fields name = none := by
  rw [fits.get?_fields parted]
  split
  · rfl
  · rw [Object.get?_eq_none_iff, Object.keys, documentFields_eq, List.map_flatMap]
    intro listed
    obtain ⟨part, -, member⟩ := List.mem_flatMap.1 listed
    exact absent part ((fits.part_sublist part).subset member)

/-- Two nodes list the same values if their parts have the same ones. -/
theorem Fits.fields_eq {other : Node} (fits : node.Fits blueprint)
    (fitsOther : other.Fits blueprint) (parted : blueprint.Parted) (withLayout : Bool)
    (same : ∀ part, ∀ name ∈ blueprint.names part, name ∉ reservedFields →
      Object.get? (other.part part) name = Object.get? (node.part part) name) :
    (other.entry withLayout).fields = (node.entry withLayout).fields := by
  refine (ascending_fields other withLayout).ext (ascending_fields node withLayout) fun name => ?_
  by_cases reserved : name ∈ reservedFields
  · rw [fits.get?_fields parted, fitsOther.get?_fields parted, if_pos reserved, if_pos reserved]
  · by_cases listed : ∃ part, name ∈ blueprint.names part
    · obtain ⟨part, isName⟩ := listed
      rw [fits.get?_of_names parted withLayout isName reserved,
        fitsOther.get?_of_names parted withLayout isName reserved]
      exact same part name isName reserved
    · have absent : ∀ part, name ∉ blueprint.names part := fun part isName => listed ⟨part, isName⟩
      rw [fits.get?_of_notMem_names parted withLayout absent,
        fitsOther.get?_of_notMem_names parted withLayout absent]

end Node

end Workflow
