/-
This file proves that the models of a written source are its classes with the fields
that they inherit.

A base comes before the classes that derive from it, so the lineage of a class is that
of its base and then the class itself. Merging the members along it overlays the fields
of the base with those of the class: a default goes with the field that it was written
for, and with it alone.
-/

import Mathlib.Data.List.Induction
import Workflow.Proofs.Schema.Gathered
import Workflow.Proofs.Schema.Merging

namespace Workflow

open Text Declaration

/-! ### Merging -/

/-- Fields by their names. -/
def fieldTable (fields : List WrittenField) : OrderedMap String WrittenField :=
  ⟨fields.map fun field => (field.name, field)⟩

theorem keys_fieldTable (fields : List WrittenField) :
    (fieldTable fields).keys = fields.map WrittenField.name := by
  rw [OrderedMap.keys, fieldTable, List.map_map]
  rfl

theorem get?_fieldTable (fields : List WrittenField) (name : String) :
    (fieldTable fields).get? name = fieldNamed? fields name := by
  rw [OrderedMap.get?, fieldTable, List.find?_map, Option.map_map]
  exact Option.map_id_apply

theorem WrittenClass.values_members (declared : WrittenClass) :
    declared.block.members.values = declared.fields.map WrittenField.member := by
  rw [OrderedMap.values, block, memberEntries, List.map_map]
  rfl

/-! ### Overlaying -/

theorem name_of_fieldNamed? {fields : List WrittenField} {name : String} {field : WrittenField}
    (found : fieldNamed? fields name = some field) : field.name = name := by
  simpa using List.find?_some found

theorem fieldNamed?_cons (field : WrittenField) (rest : List WrittenField) (name : String) :
    fieldNamed? (field :: rest) name =
      if field.name = name then some field else fieldNamed? rest name := by
  rw [fieldNamed?, List.find?_cons]
  by_cases same : field.name = name <;> simp [same, fieldNamed?]

theorem fieldNamed?_eq_none {fields : List WrittenField} {name : String}
    (absent : name ∉ fields.map WrittenField.name) : fieldNamed? fields name = none :=
  List.find?_eq_none.2 fun field member same =>
    absent (List.mem_map.2 ⟨field, member, of_decide_eq_true same⟩)

/-- Overriding a field keeps its name. -/
theorem name_override (own : List WrittenField) (field : WrittenField) :
    (override own field).name = field.name := by
  rw [override]
  cases found : fieldNamed? own field.name with
  | none => rfl
  | some other => exact name_of_fieldNamed? found

theorem names_map_override (own fields : List WrittenField) :
    (fields.map (override own)).map WrittenField.name = fields.map WrittenField.name := by
  rw [List.map_map]
  exact List.map_congr_left fun field _ => name_override own field

theorem override_cons (first : WrittenField) (own : List WrittenField) (field : WrittenField) :
    override (first :: own) field =
      if first.name = field.name then first else override own field := by
  rw [override, fieldNamed?_cons]
  split <;> rfl

theorem override_of_notMem {own : List WrittenField} {field : WrittenField}
    (absent : field.name ∉ own.map WrittenField.name) : override own field = field := by
  rw [override, fieldNamed?_eq_none absent, Option.getD_none]

theorem nodup_overlay {fields own : List WrittenField}
    (distinct : (fields.map WrittenField.name).Nodup)
    (ownDistinct : (own.map WrittenField.name).Nodup) :
    ((overlay fields own).map WrittenField.name).Nodup := by
  rw [overlay, List.map_append, names_map_override]
  refine List.nodup_append'.2 ⟨distinct, ?_, fun name isFirst isOther => ?_⟩
  · exact ownDistinct.sublist (List.filter_sublist.map WrittenField.name)
  · obtain ⟨field, isNew, rfl⟩ := List.mem_map.1 isOther
    exact of_decide_eq_true (List.mem_filter.1 isNew).2 isFirst

section OneField

variable {fields : List WrittenField} {field : WrittenField}

theorem overlay_of_mem (present : field.name ∈ fields.map WrittenField.name)
    (rest : List WrittenField) :
    overlay fields (field :: rest) = fields.map (override (field :: rest)) ++
      rest.filter fun field => field.name ∉ fields.map WrittenField.name := by
  rw [overlay, List.filter_cons_of_neg]
  simp [present]

theorem overlay_of_notMem (absent : field.name ∉ fields.map WrittenField.name)
    (rest : List WrittenField) :
    overlay fields (field :: rest) = fields.map (override rest) ++ field ::
      rest.filter fun field => field.name ∉ fields.map WrittenField.name := by
  have untouched : fields.map (override (field :: rest)) = fields.map (override rest) := by
    refine List.map_congr_left fun other member => ?_
    rw [override_cons, if_neg]
    intro same
    exact absent (List.mem_map.2 ⟨other, member, same.symm⟩)
  rw [overlay, untouched, List.filter_cons_of_pos]
  exact decide_eq_true absent

/-- Writing one field into a table overlays the fields with it. -/
theorem insert_fieldTable (distinct : (fields.map WrittenField.name).Nodup)
    (field : WrittenField) :
    (fieldTable fields).insert field.name field = fieldTable (overlay fields [field]) := by
  refine congrArg OrderedMap.mk ?_
  show ((fieldTable fields).insert field.name field).entries = _
  by_cases present : field.name ∈ fields.map WrittenField.name
  · rw [OrderedMap.entries_insert_of_mem (keys_fieldTable fields ▸ distinct)
      (keys_fieldTable fields ▸ present), overlay_of_mem present, List.filter_nil,
      List.append_nil, fieldTable, List.map_map, List.map_map]
    refine List.map_congr_left fun other member => ?_
    rw [Function.comp_apply, Function.comp_apply, override_cons]
    by_cases same : field.name = other.name
    · rw [if_pos same.symm, if_pos same]
    · rw [if_neg (Ne.symm same), if_neg same]
      rfl
  · have kept : fields.map (override []) = fields := List.map_id' fields
    rw [OrderedMap.entries_insert_of_notMem (keys_fieldTable fields ▸ present),
      overlay_of_notMem present, fieldTable, kept, List.map_append]
    rfl

/-- Fields may be overlaid one after the other. -/
theorem overlay_overlay {rest : List WrittenField}
    (absent : field.name ∉ rest.map WrittenField.name) :
    overlay (overlay fields [field]) rest = overlay fields (field :: rest) := by
  by_cases present : field.name ∈ fields.map WrittenField.name
  · rw [overlay_of_mem present, overlay_of_mem present, List.filter_nil, List.append_nil, overlay,
      names_map_override, List.map_map]
    congr 1
    refine List.map_congr_left fun other member => ?_
    rw [Function.comp_apply, override_cons, override_cons]
    split
    · exact override_of_notMem absent
    · rfl
  · have kept : fields.map (override []) = fields := List.map_id' fields
    have fresh : rest.filter (fun other =>
        other.name ∉ (fields ++ [field]).map WrittenField.name) =
        rest.filter fun other => other.name ∉ fields.map WrittenField.name := by
      refine List.filter_congr fun other member => ?_
      have apart : other.name ≠ field.name := fun same =>
        absent (List.mem_map.2 ⟨other, member, same⟩)
      simp [apart]
    rw [overlay_of_notMem present, overlay_of_notMem present, List.filter_nil, kept, overlay, fresh,
      List.map_append, List.append_assoc, List.map_singleton, override_of_notMem absent]
    rfl

end OneField

/-- Writing fields one after the other overlays those that were there. -/
theorem foldl_insert_fieldTable {fields own : List WrittenField}
    (distinct : (fields.map WrittenField.name).Nodup)
    (ownDistinct : (own.map WrittenField.name).Nodup) :
    own.foldl (fun table field => table.insert field.name field) (fieldTable fields) =
      fieldTable (overlay fields own) := by
  induction own generalizing fields with
  | nil =>
    have kept : overlay fields [] = fields :=
      (List.append_nil _).trans (List.map_id' fields)
    rw [kept, List.foldl_nil]
  | cons field rest inductionHypothesis =>
    obtain ⟨absent, restDistinct⟩ := List.nodup_cons.1 ownDistinct
    have single : ([field].map WrittenField.name).Nodup := List.nodup_singleton field.name
    rw [List.foldl_cons, insert_fieldTable distinct,
      inductionHypothesis (nodup_overlay distinct single) restDistinct, overlay_overlay absent]

/-! ### Flattened classes -/

theorem flatten_concat (before : List WrittenClass) (declared : WrittenClass) :
    flatten (before ++ [declared]) = flatten before ++
      [(declared, overlay (inherited (flatten before) declared.base) declared.fields)] :=
  List.foldl_append

theorem classes_flatten (classes : List WrittenClass) :
    (flatten classes).map Prod.fst = classes := by
  induction classes using List.reverseRecOn with
  | nil => rfl
  | append_singleton before declared inductionHypothesis =>
    rw [flatten_concat, List.map_append, inductionHypothesis]
    rfl

namespace WrittenSource

variable (source : WrittenSource)

/-- The blocks of a source, by name. -/
def blocks : OrderedMap String Block := ⟨blockEntries source.classes⟩

theorem keys_blocks : source.blocks.keys = source.classes.map WrittenClass.name := by
  rw [OrderedMap.keys, blocks, blockEntries, List.map_map]
  rfl

theorem get?_blocks {declared : WrittenClass} (member : declared ∈ source.classes) :
    source.blocks.get? declared.name = some declared.block := by
  have distinct : source.blocks.keys.Nodup := source.keys_blocks ▸ source.distinct
  have isEntry : (declared.name, declared.block) ∈ source.blocks.entries :=
    List.mem_map_of_mem member
  exact OrderedMap.get?_of_mem distinct isEntry

variable {source} {before after : List WrittenClass} {declared : WrittenClass}
  (parts : source.classes = before ++ declared :: after)
include parts

/-- The names of the first classes of a source are closed under parents. -/
theorem lineage_subset {name : String} (member : name ∈ before.map WrittenClass.name) :
    lineage source.blocks name ⊆ before.map WrittenClass.name := by
  intro ancestor isAncestor
  refine ancestry_subset ?_ member (List.mem_reverse.1 isAncestor)
  rintro _ isEntry listed parent isParent
  obtain ⟨other, isClass, rfl⟩ := List.mem_map.1 isEntry
  obtain ⟨twin, isBefore, same⟩ := List.mem_map.1 listed
  have twinClass : twin ∈ source.classes := by
    rw [parts]
    exact List.mem_append_left _ isBefore
  obtain rfl : twin = other := List.inj_on_of_nodup_map source.distinct twinClass isClass same
  obtain ⟨first, second, rfl⟩ := List.append_of_mem isBefore
  have earlier := source.based first twin (second ++ declared :: after)
    (by rw [parts, List.append_assoc]; rfl) parent isParent
  rw [List.map_append]
  exact List.mem_append_left _ earlier

/-- The lineage of a class is that of its base and then the class. -/
theorem lineage_eq :
    lineage source.blocks declared.name =
      declared.base.elim [] (lineage source.blocks) ++ [declared.name] := by
  have isClass : declared ∈ source.classes := by
    rw [parts]
    exact List.mem_append_right _ List.mem_cons_self
  refine lineage_of_get? (source.get?_blocks isClass) fun parent isParent member => ?_
  have isBefore := lineage_subset parts (source.based before declared after parts parent isParent)
    member
  have distinct := source.distinct
  rw [parts, List.map_append, List.map_cons] at distinct
  exact List.disjoint_of_nodup_append distinct isBefore List.mem_cons_self

theorem lineageBlocks_eq :
    lineageBlocks source.blocks declared.name =
      declared.base.elim [] (lineageBlocks source.blocks) ++ [declared.block] := by
  have isClass : declared ∈ source.classes := by
    rw [parts]
    exact List.mem_append_right _ List.mem_cons_self
  rw [lineageBlocks, lineage_eq parts, List.filterMap_append, List.filterMap_cons,
    source.get?_blocks isClass]
  cases declared.base with
  | none => rfl
  | some base => rfl

omit parts in
/-- The members along the lineage of a class are those of all its fields. -/
theorem holds_mergeMembers (source : WrittenSource) {before after : List WrittenClass}
    (parts : source.classes = before ++ after) :
    ∀ entry ∈ flatten before, (entry.2.map WrittenField.name).Nodup ∧
      (mergeMembers (lineageBlocks source.blocks entry.1.name)).Holds WrittenField.member
        (fieldTable entry.2) := by
  induction before using List.reverseRecOn generalizing after with
  | nil => exact List.forall_mem_nil _
  | append_singleton before declared inductionHypothesis =>
    rw [List.append_assoc] at parts
    have earlier := inductionHypothesis parts
    rw [flatten_concat, List.forall_mem_append, List.forall_mem_singleton]
    refine ⟨earlier, ?_⟩
    have base : ((inherited (flatten before) declared.base).map WrittenField.name).Nodup ∧
        (mergeMembers (declared.base.elim [] (lineageBlocks source.blocks))).Holds
          WrittenField.member (fieldTable (inherited (flatten before) declared.base)) := by
      cases isBase : declared.base with
      | none => exact ⟨List.nodup_nil, Merged.holds_empty⟩
      | some base =>
        obtain ⟨other, isBefore, named⟩ :=
          List.mem_map.1 (source.based before declared after parts base isBase)
        rw [← classes_flatten before] at isBefore
        obtain ⟨entry, isEntry, rfl⟩ := List.mem_map.1 isBefore
        cases found : (flatten before).find? fun entry => entry.1.name = base with
        | none => exact absurd (decide_eq_true named) (List.find?_eq_none.1 found entry isEntry)
        | some known =>
          have isBase : known.1.name = base := by simpa using List.find?_some found
          have holds := earlier known (List.mem_of_find?_eq_some found)
          rw [isBase] at holds
          rw [inherited, Option.bind_some, found]
          exact holds
    obtain ⟨distinct, holds⟩ := base
    refine ⟨nodup_overlay distinct declared.distinct, ?_⟩
    rw [← foldl_insert_fieldTable distinct declared.distinct, lineageBlocks_eq parts,
      mergeMembers_concat, declared.values_members]
    exact holds.foldl declared.fields

omit parts in
/-- Every block in a lineage is one of a model. -/
theorem derivesModel_of_mem {name : String} {block : Block}
    (member : block ∈ lineageBlocks source.blocks name) : block.derivesModel = true := by
  obtain ⟨ancestor, -, found⟩ := List.mem_filterMap.1 member
  obtain ⟨declared, -, same⟩ := List.mem_map.1 (OrderedMap.mem_entries_of_get? found)
  cases same
  rfl

omit parts in
/-- Every class becomes the model that it declares. -/
theorem modelOf?_block {entry : WrittenClass × List WrittenField}
    (member : entry ∈ flatten source.classes) :
    ∃ model, modelOf? source.blocks entry.1.name entry.1.block = some model ∧
      model.Declares entry.1 entry.2 := by
  have isClass : entry.1 ∈ source.classes := by
    rw [← classes_flatten source.classes]
    exact List.mem_map_of_mem member
  obtain ⟨before, after, parts⟩ := List.append_of_mem isClass
  have derives : (lineageBlocks source.blocks entry.1.name).head?.any Block.derivesModel =
      true := by
    cases blocks : lineageBlocks source.blocks entry.1.name with
    | nil =>
      rw [lineageBlocks_eq parts] at blocks
      exact absurd blocks (List.concat_ne_nil _ _)
    | cons block rest => exact derivesModel_of_mem (blocks ▸ List.mem_cons_self)
  obtain ⟨-, holds⟩ := holds_mergeMembers source (List.append_nil _).symm entry member
  rw [modelOf?, if_pos derives]
  refine ⟨_, rfl, rfl, ?_, rfl, ?_, fun name => ?_, fun name => ?_⟩
  · show entry.1.base.filter source.blocks.contains = entry.1.base
    cases isBase : entry.1.base with
    | none => rfl
    | some base =>
      have earlier := source.based before entry.1 after parts base isBase
      have declared : source.blocks.contains base = true := by
        rw [OrderedMap.contains_iff, source.keys_blocks, parts, List.map_append]
        exact List.mem_append_left _ earlier
      rw [Option.filter_some, if_pos declared]
  · show OrderedMap.values _ = _
    rw [OrderedMap.values, holds.fields, fieldTable, List.map_map, List.map_map]
    rfl
  · exact (holds.role? name).trans (congrArg _ (get?_fieldTable entry.2 name))
  · exact (holds.default? name).trans (congrArg (Option.bind · _) (get?_fieldTable entry.2 name))

end WrittenSource

/-- A source of written classes is read as exactly these classes, in their order. -/
theorem WrittenSource.models_parse_text (source : WrittenSource) :
    List.Forall₂ (fun model flat => model.1 = flat.1.name ∧ model.2.Declares flat.1 flat.2)
      (Schema.parse source.text).models.entries (flatten source.classes) := by
  have models : (Schema.parse source.text).models = resolveModels source.blocks := by
    show resolveModels (gatherBlocks (Bindings.ofLines (logicalLines source.text.toList))
      (logicalLines source.text.toList)) = _
    rw [source.logicalLines_text, source.ofLines_lines, source.gatherBlocks_lines]
    rfl
  have listed : source.blocks.entries =
      (flatten source.classes).map fun flat => (flat.1.name, flat.1.block) := by
    show blockEntries source.classes = _
    conv_lhs => rw [← classes_flatten source.classes]
    rw [blockEntries, List.map_map]
    rfl
  have entries : (resolveModels source.blocks).entries =
      (flatten source.classes).filterMap fun flat =>
        (modelOf? source.blocks flat.1.name flat.1.block).map fun model =>
          (flat.1.name, model) := by
    show source.blocks.entries.filterMap _ = _
    rw [listed, List.filterMap_map]
    rfl
  rw [models, entries]
  have each (flats : Flattened) (all : ∀ flat ∈ flats, flat ∈ flatten source.classes) :
      List.Forall₂ (fun model flat => model.1 = flat.1.name ∧ model.2.Declares flat.1 flat.2)
        (flats.filterMap fun flat =>
          (modelOf? source.blocks flat.1.name flat.1.block).map fun model =>
            (flat.1.name, model)) flats := by
    induction flats with
    | nil => exact .nil
    | cons flat rest inductionHypothesis =>
      obtain ⟨first, others⟩ := List.forall_mem_cons.1 all
      obtain ⟨model, found, declares⟩ := modelOf?_block first
      rw [List.filterMap_cons, found]
      exact .cons ⟨rfl, declares⟩ (inductionHypothesis others)
  exact each _ fun flat member => member

/-- A class with a type and a text full of marks. -/
def shape : WrittenClass where
  name := "Shape"
  named := by decide
  native := by decide
  base := none
  indent := [' ']
  indented := by decide
  blank := List.forall_mem_singleton.2 (by decide)
  fields :=
    [{ name := "size"
       named := by decide
       shown := by decide
       type := ⟨"Dict[str, '#,']".toList, by decide, by decide, by decide, by decide, by decide,
         by decide, by decide⟩
       role := .input
       start := some (.text .double "=[#\"") }]
  distinct := by decide

/-- A class that overrides the field of another one, and has one more. -/
def disc : WrittenClass where
  name := "Disc"
  named := by decide
  native := by decide
  base := some "Shape"
  indent := ['\t']
  indented := by decide
  blank := List.forall_mem_singleton.2 (by decide)
  fields :=
    [{ name := "area"
       named := by decide
       shown := by decide
       type := ⟨"float".toList, by decide, by decide, by decide, by decide, by decide, by decide,
         by decide⟩
       role := .output
       start := none },
     { name := "size"
       named := by decide
       shown := by decide
       type := ⟨"int".toList, by decide, by decide, by decide, by decide, by decide, by decide,
         by decide⟩
       role := .constant
       start := some (.int (-7)) }]
  distinct := by decide

/-- The two classes, the base first. -/
def shapes : WrittenSource where
  classes := [shape, disc]
  distinct := by decide
  based := by
    rintro (_ | ⟨_, _ | ⟨_, _ | ⟨_, _⟩⟩⟩) declared after parts base isBase
    · cases parts
      cases isBase
    · cases parts
      cases isBase
      exact List.mem_singleton_self _
    all_goals cases parts

/-- The text of the two classes, and the models that it is read as. -/
theorem models_parse_shapes :
    shapes.text =
      "class Shape(BaseModel):\n" ++
        " size: Annotated[Dict[str, '#,'], FieldRole.INPUT] = \"=[#\\\"\"\n" ++
        "class Disc(Shape):\n" ++
        "\tarea: Annotated[float, FieldRole.OUTPUT]\n" ++
        "\tsize: Annotated[int, FieldRole.CONSTANT] = -7\n" ∧
    ∃ first second,
      (Schema.parse shapes.text).models.entries = [("Shape", first), ("Disc", second)] ∧
      first.parent = none ∧ second.parent = some "Shape" ∧
      first.fields.map (fun field => (field.name, field.rawType)) = [("size", "Dict[str, '#,']")] ∧
      second.fields.map (fun field => (field.name, field.rawType)) =
        [("size", "int"), ("area", "float")] ∧
      first.role? "size" = some .input ∧ second.role? "size" = some .constant ∧
      first.default? "size" = some (.literal (.string "=[#\"")) ∧
      second.default? "size" = some (.literal (.int (-7))) := by
  refine ⟨by decide +kernel, ?_⟩
  have read := shapes.models_parse_text
  have flat : flatten shapes.classes =
      [(shape, shape.fields), (disc, overlay shape.fields disc.fields)] := rfl
  rw [flat] at read
  obtain ⟨⟨name, first⟩, others, ⟨named, isShape⟩, rest, entries⟩ :=
    List.forall₂_cons_right_iff.1 read
  obtain ⟨⟨other, second⟩, none, ⟨renamed, isDisc⟩, ends, rfl⟩ :=
    List.forall₂_cons_right_iff.1 rest
  rw [List.forall₂_nil_right_iff] at ends
  subst ends
  cases named
  cases renamed
  refine ⟨first, second, entries, isShape.parent, isDisc.parent, ?_, ?_, isShape.role? _,
    isDisc.role? _, isShape.default? _, isDisc.default? _⟩
  · rw [isShape.fields]
    rfl
  · rw [isDisc.fields]
    rfl

end Workflow
